import Sdp.Spec.Budget

/-!
# Sponsorship admissions

From `services/sponsorship-budget.service.ts` and `services/jobs/reconcile-sponsorship-budgets.ts`:
any number of requests and settlement jobs over one ledger and one Redis. Each SQL statement, each
Lua script and each snapshot transaction is one step, and a request stands between two of its
steps. The writes of an owner after its provider call come in any order.

The last fields of the state are history: they say what happened and no step reads them.
-/

open Sdp.Lib

namespace Sdp.Budget

inductive FeePaymentErrorCode
  | providerNotAvailable | rateLimited
deriving DecidableEq, Repr

structure FeePaymentError where
  message : String
  code : FeePaymentErrorCode
deriving DecidableEq, Repr

namespace FeePaymentError

def ambiguous : FeePaymentError :=
  ⟨"Previous sponsorship outcome is ambiguous and cannot be retried safely", .providerNotAvailable⟩
def disabled : FeePaymentError := ⟨"Sponsorship is disabled for this scope", .providerNotAvailable⟩
def inProgress : FeePaymentError :=
  ⟨"An identical sponsorship operation is already in progress", .providerNotAvailable⟩
def budgetExceeded : FeePaymentError := ⟨"Sponsorship budget exceeded", .rateLimited⟩
def policyChanged : FeePaymentError := ⟨"Sponsorship policy changed during admission", .providerNotAvailable⟩
def persistenceUnavailable : FeePaymentError :=
  ⟨"Sponsorship reservation persistence is unavailable", .providerNotAvailable⟩
def releaseUnsafe : FeePaymentError :=
  ⟨"Sponsorship release could not be persisted safely", .providerNotAvailable⟩
def releaseUnavailable : FeePaymentError :=
  ⟨"Sponsorship release accounting is unavailable", .providerNotAvailable⟩

end FeePaymentError

inductive AdmissionOperation
  | sign | send
deriving DecidableEq, Repr

def reservationHasResponse (r : ReservationRow) : AdmissionOperation → Bool
  | .sign => r.status ∈ [.signed, .submitted, .committed] && r.signedTransaction.any (· ≠ "")
  | .send => r.status ∈ [.submitted, .committed] && r.signature.any (· ≠ "")

/-- The condition of both replays. -/
def replays (r : ReservationRow) (operation : AdmissionOperation) : Bool :=
  r.status ∈ [.signed, .submitted, .committed] && reservationHasResponse r operation

abbrev Policies := SponsorshipBudgetScopeType → SponsorshipBudgetPolicy

/-- Where an admission stands. From `snapshotting` on, and when `owned`, it owns its attempt. -/
inductive Request
  | idle
  | reading (id : String) (operation : AdmissionOperation)
  | resolving (a : AttemptId) (operation : AdmissionOperation) (round : Nat) (owned : Bool)
  | creating (id : String) (operation : AdmissionOperation) (policies : Policies)
  | rereading (a : AttemptId) (operation : AdmissionOperation) (policies : Policies)
  | reopening (id : String) (operation : AdmissionOperation) (policies : Policies) (existing : ReservationRow)
  | snapshotting (a : AttemptId) (operation : AdmissionOperation) (policies : Policies) (round : Nat)
  | seeding (a : AttemptId) (operation : AdmissionOperation) (policies : Policies) (round : Nat)
      (snapshot : WindowAdmissionSnapshot)
  | reserving (a : AttemptId) (operation : AdmissionOperation) (policies : Policies) (round : Nat)
  /-- `releaseDurable`, before its two statements. -/
  | releasing (a : AttemptId) (error : FeePaymentError)
  | releaseSettling (a : AttemptId) (error : FeePaymentError)
  /-- `admit` returned with no replay. -/
  | granted (a : AttemptId)
  | invoked (a : AttemptId)
  /-- `releaseDeterministic`, after its durable write. -/
  | settlingRelease (a : AttemptId)
  | markingRelease (a : AttemptId)
  | done
  | replayed (row : ReservationRow) (operation : AdmissionOperation)
  | refused (error : FeePaymentError)
  /-- The process or one of its calls failed. `held` is an attempt that it had neither reserved nor released. -/
  | crashed (held : Option AttemptId)

/-- `syncRedisSettlement` of a reconciliation tick. -/
inductive Job
  | idle
  | settling (a : AttemptId) (actual : Nat)
  | marking (a : AttemptId)
deriving DecidableEq

/-- How the Redis reservation of an attempt ended. -/
inductive Closing
  | settled (actual : Nat)
  | cancelled
deriving DecidableEq, Repr

/-- `settle` throws unless the script replied `{1, …}`. -/
def SettleReply.ok : SettleReply → Bool
  | .alreadySettled | .settled _ => true
  | .mismatch | .underflow => false

def SettleReply.tookEffect : SettleReply → Bool
  | .settled _ => true
  | _ => false

def CancelReply.tookEffect : CancelReply → Bool
  | .cancelled _ => true
  | _ => false

structure System where
  ledger : Ledger
  redis : Redis
  requests : Nat → Request
  jobs : Nat → Job
  /-- Requests whose admission returned as owners, newest first. -/
  grants : List (Nat × AttemptId)
  providerCalls : List (Nat × AttemptId)
  /-- RESERVE admitted the attempt. -/
  admitted : AttemptId → Bool
  /-- What closed it since. -/
  closed : AttemptId → Option Closing
  /-- The reservation and the operation that a request is about. -/
  asked : Nat → Option (String × AdmissionOperation)
  /-- The rows that the ledger held in earlier states. -/
  past : ReservationRow → Bool

namespace System

def start : System where
  ledger := Table.empty
  redis := .empty
  requests := fun _ => .idle
  jobs := fun _ => .idle
  grants := []
  providerCalls := []
  admitted := fun _ => false
  closed := fun _ => none
  asked := fun _ => none
  past := fun _ => false

def setRequest (s : System) (p : Nat) (request : Request) : System :=
  { s with requests := Function.update s.requests p request }

def setJob (s : System) (j : Nat) (job : Job) : System :=
  { s with jobs := Function.update s.jobs j job }

/-- The Redis effect of a RESERVE call. -/
def noteReserve (s : System) (a : AttemptId) (result : Redis × ReserveReply) : System :=
  if result.2.outcome = .admitted then
    { s with redis := result.1, admitted := Function.update s.admitted a true
             closed := Function.update s.closed a none }
  else { s with redis := result.1 }

/-- The Redis effect of a SETTLE call. The first settlement or cancellation closes the reservation. -/
def noteSettle (s : System) (a : AttemptId) (actual : Nat) (result : Redis × SettleReply) : System :=
  { s with redis := result.1
           closed := if result.2.tookEffect ∧ s.closed a = none then
               Function.update s.closed a (some (.settled actual)) else s.closed }

def noteCancel (s : System) (a : AttemptId) (result : Redis × CancelReply) : System :=
  { s with redis := result.1
           closed := if result.2.tookEffect ∧ s.closed a = none then
               Function.update s.closed a (some .cancelled) else s.closed }

end System

/-- What an owner records of its provider call. -/
inductive OutcomeWrite
  | signed (signedTransaction signature : String)
  | submitted (signature : String)
  | chargedUnknown
deriving DecidableEq

def OutcomeWrite.call (a : AttemptId) : OutcomeWrite → LedgerCall
  | .signed signedTransaction signature => .markSigned a.reservationId a.attempt signedTransaction signature
  | .submitted signature => .markSubmitted a.reservationId a.attempt signature
  | .chargedUnknown => .markChargedUnknown a.reservationId a.attempt

/-- A call that opens no attempt. -/
def LedgerCall.opens : LedgerCall → Bool
  | .createReservation _ | .reopenReleasedReservation _ _ => true
  | _ => false

inductive AdmissionEvent
  | start (p : Nat) (id : String) (operation : AdmissionOperation)
  | read (p : Nat)
  | resolve (p : Nat) (policies : Policies)
  | create (p : Nat)
  | reread (p : Nat)
  | reopen (p : Nat)
  | snapshot (p : Nat)
  | seed (p : Nat)
  | reserve (p : Nat)
  | release (p : Nat)
  | releaseMark (p : Nat)
  | invoke (p : Nat)
  | outcome (p : Nat) (write : OutcomeWrite)
  | fail (p : Nat) (afterSubmission : Bool)
  | failSettle (p : Nat)
  | failMark (p : Nat)
  | finish (p : Nat)
  | crash (p : Nat)
  | reconcileRead (j : Nat) (id : String)
  | reconcileCommit (j : Nat) (a : AttemptId) (actual : Nat)
  | reconcileCharge (a : AttemptId)
  | reconcileMiss (a : AttemptId) (missCount : Nat)
  | jobSettle (j : Nat)
  | jobMark (j : Nat)
  | syncPolicy (policy : SponsorshipBudgetPolicy)
  /-- Calls of the ledger and the scripts at any time, that no code path above makes. -/
  | strayWrite (call : LedgerCall)
  | straySettle (a : AttemptId) (actual : Nat) (detectMissingReservation : Bool)
  | strayCancel (a : AttemptId)

/-- The attempt that `admit` goes for. -/
def nextAttempt (id : String) (durable : Option ReservationRow) : AttemptId :=
  match durable with
  | none => ⟨id, 1⟩
  | some r => if r.status = .released then ⟨id, r.attempt + 1⟩ else ⟨id, r.attempt⟩

/-- `resolveDurableReplay`, and the attempt to go for when there is no replay. -/
def afterRead (id : String) (operation : AdmissionOperation) (durable : Option ReservationRow) : Request :=
  match durable with
  | none => .resolving (nextAttempt id durable) operation 0 false
  | some r =>
    if replays r operation then .replayed r operation
    else if r.status = .chargedUnknown then .refused .ambiguous
    else .resolving (nextAttempt id durable) operation 0 false

/-- A round of `admitAgainstCurrentPolicy` once its policies are resolved. -/
def afterResolve (reg : Registry) (a : AttemptId) (operation : AdmissionOperation) (round : Nat) (owned : Bool)
    (policies : Policies) : Request :=
  if (reg.fields a).all fun f => (policies f.scopeType).enabled then
    if owned then .snapshotting a operation policies round
    else if a.attempt = 1 then .creating a.reservationId operation policies
    else .rereading a operation policies
  else if owned then .releasing a .disabled
  else .refused .disabled

/-- `persistReservationDurable` after its read. -/
def afterReread (a : AttemptId) (operation : AdmissionOperation) (policies : Policies)
    (existing : Option ReservationRow) : Request :=
  match existing with
  | none => .refused .persistenceUnavailable
  | some r =>
    if r.status = .released ∧ r.attempt + 1 = a.attempt then .reopening a.reservationId operation policies r
    else if replays r operation then .replayed r operation
    else .refused .inProgress

/-- The rest of the round, by the outcome of `reserve`. -/
def afterReserve (a : AttemptId) (operation : AdmissionOperation) (round : Nat) : AdmissionOutcome → Request
  | .admitted => .granted a
  | .duplicate => .releasing a .inProgress
  | .denied => .releasing a .budgetExceeded
  | .stalePolicy => if round = 0 then .resolving a operation 1 true else .releasing a .policyChanged

/-- The attempt that a request owns and has neither reserved nor released. -/
def Request.held : Request → Option AttemptId
  | .resolving a _ _ owned => if owned then some a else none
  | .snapshotting a _ _ _ | .seeding a _ _ _ _ | .reserving a _ _ _ | .releasing a _ => some a
  | .crashed held => held
  | _ => none

/-- `admit` is over for the caller, or the whole call is. -/
def Request.finished : Request → Bool
  | .idle | .done | .replayed _ _ | .refused _ | .crashed none => true
  | _ => false

def advance (reg : Registry) (now : String) (s : System) : AdmissionEvent → Option System
  | .start p id operation =>
    match s.requests p with
    | .idle =>
      some ({ s with asked := Function.update s.asked p (some (id, operation)) }.setRequest p (.reading id operation))
    | _ => none
  | .read p =>
    match s.requests p with
    | .reading id operation => some (s.setRequest p (afterRead id operation (getReservation s.ledger id)))
    | _ => none
  | .resolve p policies =>
    match s.requests p with
    | .resolving a operation round owned =>
      some (s.setRequest p (afterResolve reg a operation round owned policies))
    | _ => none
  | .create p =>
    match s.requests p with
    | .creating id operation policies =>
      let result := createReservation s.ledger (reg.input ⟨id, 1⟩) now
      some ({ s with ledger := result.1 }.setRequest p
        (if result.2 then .snapshotting ⟨id, 1⟩ operation policies 0 else .rereading ⟨id, 1⟩ operation policies))
    | _ => none
  | .reread p =>
    match s.requests p with
    | .rereading a operation policies =>
      some (s.setRequest p (afterReread a operation policies (getReservation s.ledger a.reservationId)))
    | _ => none
  | .reopen p =>
    match s.requests p with
    | .reopening id operation policies existing =>
      let a : AttemptId := ⟨id, existing.attempt + 1⟩
      let result := reopenReleasedReservation s.ledger (reg.input a) existing.attempt now
      some ({ s with ledger := result.1 }.setRequest p
        (if result.2 = some a.attempt then .snapshotting a operation policies 0
         else if replays existing operation then .replayed existing operation
         else .refused .inProgress))
    | _ => none
  | .snapshot p =>
    match s.requests p with
    | .snapshotting a operation policies round =>
      some (s.setRequest p (.seeding a operation policies round
        (loadWindowAdmissionSnapshot s.ledger (reg.windowInput a) (some a.reservationId))))
    | _ => none
  | .seed p =>
    match s.requests p with
    | .seeding a operation policies round snapshot =>
      some ({ s with redis := reg.seed s.redis a snapshot }.setRequest p (.reserving a operation policies round))
    | _ => none
  | .reserve p =>
    match s.requests p with
    | .reserving a operation policies round =>
      let result := reg.reserve s.redis a policies
      let t := (s.noteReserve a result).setRequest p (afterReserve a operation round result.2.outcome)
      some (if result.2.outcome = .admitted then { t with grants := (p, a) :: t.grants } else t)
    | _ => none
  | .release p =>
    match s.requests p with
    | .releasing a error =>
      some ({ s with ledger := (markReleased s.ledger a.reservationId a.attempt now).1 }.setRequest p
        (.releaseSettling a error))
    | _ => none
  | .releaseMark p =>
    match s.requests p with
    | .releaseSettling a error =>
      some ({ s with ledger := (markRedisSettled s.ledger a.reservationId a.attempt now).1 }.setRequest p
        (.refused error))
    | _ => none
  | .invoke p =>
    match s.requests p with
    | .granted a => some ({ s with providerCalls := (p, a) :: s.providerCalls }.setRequest p (.invoked a))
    | _ => none
  | .outcome p write =>
    match s.requests p with
    | .invoked a => some { s with ledger := exec s.ledger now (write.call a) }
    | _ => none
  | .fail p afterSubmission =>
    match s.requests p with
    | .invoked a =>
      let result :=
        if afterSubmission then settleReservation s.ledger a.reservationId a.attempt .released 0 now
        else markReleased s.ledger a.reservationId a.attempt now
      some ({ s with ledger := result.1 }.setRequest p
        (if result.2 then .settlingRelease a else .refused .releaseUnsafe))
    | _ => none
  | .failSettle p =>
    match s.requests p with
    | .settlingRelease a =>
      let result := reg.settle s.redis a 0 true
      some ((s.noteSettle a 0 result).setRequest p
        (if result.2.ok then .markingRelease a else .refused .releaseUnavailable))
    | _ => none
  | .failMark p =>
    match s.requests p with
    | .markingRelease a =>
      let result := markRedisSettled s.ledger a.reservationId a.attempt now
      some ({ s with ledger := result.1 }.setRequest p
        (if result.2 then .done else .refused .releaseUnavailable))
    | _ => none
  | .finish p =>
    match s.requests p with
    | .invoked _ => some (s.setRequest p .done)
    | _ => none
  | .crash p =>
    if (s.requests p).finished then none else some (s.setRequest p (.crashed (s.requests p).held))
  | .reconcileRead j id =>
    match s.jobs j, s.ledger.find? id with
    | .idle, some r =>
      match r.actualLamports with
      | some actual =>
        if r.status ∈ [.committed, .released] ∧ r.redisSettledAt.isNone then
          some (s.setJob j (.settling ⟨id, r.attempt⟩ actual))
        else none
      | none => none
    | _, _ => none
  | .reconcileCommit j a actual =>
    match s.jobs j with
    | .idle =>
      let result := settleReservation s.ledger a.reservationId a.attempt .committed actual now
      some ({ s with ledger := result.1 }.setJob j (if result.2 then .settling a actual else .idle))
    | _ => none
  | .reconcileCharge a =>
    some { s with ledger := (markChargedUnknown s.ledger a.reservationId a.attempt now).1 }
  | .reconcileMiss a missCount =>
    some { s with ledger := (recordReconciliationMiss s.ledger a.reservationId a.attempt missCount now).1 }
  | .jobSettle j =>
    match s.jobs j with
    | .settling a actual =>
      let result := reg.settle s.redis a actual true
      some ((s.noteSettle a actual result).setJob j (if result.2.ok then .marking a else .idle))
    | _ => none
  | .jobMark j =>
    match s.jobs j with
    | .marking a =>
      some ({ s with ledger := (markRedisSettled s.ledger a.reservationId a.attempt now).1 }.setJob j .idle)
    | _ => none
  | .syncPolicy policy =>
    some { s with redis := syncControlScript s.redis (controlField policy) policy.version policy.enabled }
  | .strayWrite call => if call.opens then none else some { s with ledger := exec s.ledger now call }
  | .straySettle a actual detect => some (s.noteSettle a actual (reg.settle s.redis a actual detect))
  | .strayCancel a => some (s.noteCancel a (reg.cancel s.redis a))

/-- A step at a time. -/
def admissionStep (reg : Registry) (s : System) (e : String × AdmissionEvent) : Option System :=
  (advance reg e.1 s e.2).map fun t => { t with past := fun r => s.past r || s.ledger.find? r.id = some r }

end Sdp.Budget
