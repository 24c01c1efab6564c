import Sdp.Code.Admission
import Sdp.BudgetRedis

/-!
# The steps of an admission

`Advance` says once what each event does. All that is proved of a run is read off its cases.
-/

open Sdp.Lib

namespace Sdp.Budget

/-- The system after a statement on the ledger. -/
def System.write (s : System) (now : String) (call : LedgerCall) : System :=
  { s with ledger := exec s.ledger now call }

@[simp] theorem System.ledger_write (s : System) (now : String) (call : LedgerCall) :
    (s.write now call).ledger = exec s.ledger now call := rfl

@[simp] theorem System.ledger_setRequest (s : System) (p : Nat) (request : Request) :
    (s.setRequest p request).ledger = s.ledger := rfl

@[simp] theorem System.ledger_setJob (s : System) (j : Nat) (job : Job) : (s.setJob j job).ledger = s.ledger := rfl

/-- The system after RESERVE admitted an attempt. -/
def System.grant (reg : Registry) (s : System) (p : Nat) (a : AttemptId) : System :=
  { s with
    redis := reg.admitted s.redis a
    admitted := Function.update s.admitted a true
    closed := Function.update s.closed a none
    grants := (p, a) :: s.grants }

/-- The system after SETTLE. -/
def System.settle (reg : Registry) (s : System) (a : AttemptId) (actual : Nat) (detect : Bool) : System :=
  s.noteSettle a actual (reg.settle s.redis a actual detect)

/-- The two statements that release a row whose provider call failed. -/
def FailureCall (a : AttemptId) (call : LedgerCall) : Prop :=
  call = .settleReservation a.reservationId a.attempt .released 0 ∨ call = .markReleased a.reservationId a.attempt

/-- The cases of `advance`. -/
inductive Advance (reg : Registry) (now : String) (s : System) : AdmissionEvent → System → Prop
  | start {p id op} (h : s.requests p = .idle) :
      Advance reg now s (.start p id op)
        (System.setRequest { s with asked := Function.update s.asked p (some (id, op)) } p (.reading id op))
  | read {p id op} (h : s.requests p = .reading id op) :
      Advance reg now s (.read p) (s.setRequest p (afterRead id op (s.ledger.find? id)))
  | resolve {p a op round owned policies} (h : s.requests p = .resolving a op round owned) :
      Advance reg now s (.resolve p policies) (s.setRequest p (afterResolve reg a op round owned policies))
  | created {p id op policies} (h : s.requests p = .creating id op policies) (hnew : s.ledger.find? id = none) :
      Advance reg now s (.create p) ((s.write now (.createReservation (reg.input ⟨id, 1⟩))).setRequest p
        (.snapshotting ⟨id, 1⟩ op policies 0))
  | notCreated {p id op policies} (h : s.requests p = .creating id op policies) (hold : s.ledger.find? id ≠ none) :
      Advance reg now s (.create p) ((s.write now (.createReservation (reg.input ⟨id, 1⟩))).setRequest p
        (.rereading ⟨id, 1⟩ op policies))
  | reread {p a op policies} (h : s.requests p = .rereading a op policies) :
      Advance reg now s (.reread p) (s.setRequest p (afterReread a op policies (s.ledger.find? a.reservationId)))
  | reopened {p id op policies existing r} (h : s.requests p = .reopening id op policies existing)
      (hr : s.ledger.find? id = some r) (hattempt : r.attempt = existing.attempt) (hreleased : r.status = .released)
      (hset : r.redisSettledAt.isSome) :
      Advance reg now s (.reopen p)
        ((s.write now (.reopenReleasedReservation (reg.input ⟨id, existing.attempt + 1⟩) existing.attempt)).setRequest p
          (.snapshotting ⟨id, existing.attempt + 1⟩ op policies 0))
  | notReopened {p id op policies existing next} (h : s.requests p = .reopening id op policies existing)
      (hno : ∀ r, s.ledger.find? id = some r →
        ¬ (r.status = .released ∧ r.attempt = existing.attempt ∧ r.redisSettledAt.isSome))
      (hnext : next = .refused .inProgress ∨ next = .replayed existing op ∧ replays existing op) :
      Advance reg now s (.reopen p)
        ((s.write now (.reopenReleasedReservation (reg.input ⟨id, existing.attempt + 1⟩) existing.attempt)).setRequest p
          next)
  | snapshot {p a op policies round} (h : s.requests p = .snapshotting a op policies round) :
      Advance reg now s (.snapshot p) (s.setRequest p (.seeding a op policies round
        (loadWindowAdmissionSnapshot s.ledger (reg.windowInput a) (some a.reservationId))))
  | seed {p a op policies round snapshot} (h : s.requests p = .seeding a op policies round snapshot) :
      Advance reg now s (.seed p)
        (System.setRequest { s with redis := reg.seed s.redis a snapshot } p (.reserving a op policies round))
  | admitted {p a op policies round} (h : s.requests p = .reserving a op policies round)
      (hres : s.redis.reservation a = none) (hset : s.redis.settlement a = none)
      (hinit : ∀ f ∈ reg.fields a, ∀ w, (s.redis.bucket (reg.buckets a) w).initialized f) :
      Advance reg now s (.reserve p) ((s.grant reg p a).setRequest p (.granted a))
  | notAdmitted {p a op policies round outcome} (h : s.requests p = .reserving a op policies round)
      (houtcome : outcome ≠ .admitted) :
      Advance reg now s (.reserve p) (s.setRequest p (afterReserve a op round outcome))
  | release {p a error} (h : s.requests p = .releasing a error) :
      Advance reg now s (.release p)
        ((s.write now (.markReleased a.reservationId a.attempt)).setRequest p (.releaseSettling a error))
  | releaseMark {p a error} (h : s.requests p = .releaseSettling a error) :
      Advance reg now s (.releaseMark p)
        ((s.write now (.markRedisSettled a.reservationId a.attempt)).setRequest p (.refused error))
  | invoke {p a} (h : s.requests p = .granted a) :
      Advance reg now s (.invoke p)
        (System.setRequest { s with providerCalls := (p, a) :: s.providerCalls } p (.invoked a))
  | outcome {p a write} (h : s.requests p = .invoked a) :
      Advance reg now s (.outcome p write) (s.write now (write.call a))
  | failed {p a afterSubmission call} (h : s.requests p = .invoked a) (hcall : FailureCall a call)
      (hrow : ∃ r, (exec s.ledger now call).find? a.reservationId = some r ∧ r.attempt = a.attempt ∧
        r.status = .released ∧ r.actualLamports = some 0) :
      Advance reg now s (.fail p afterSubmission) ((s.write now call).setRequest p (.settlingRelease a))
  | notFailed {p a afterSubmission call} (h : s.requests p = .invoked a) (hcall : FailureCall a call) :
      Advance reg now s (.fail p afterSubmission) ((s.write now call).setRequest p (.refused .releaseUnsafe))
  | failSettle {p a} (h : s.requests p = .settlingRelease a) :
      Advance reg now s (.failSettle p) ((s.settle reg a 0 true).setRequest p
        (if (reg.settle s.redis a 0 true).2.ok then .markingRelease a else .refused .releaseUnavailable))
  | failMark {p a next} (h : s.requests p = .markingRelease a)
      (hnext : next = .done ∨ next = .refused .releaseUnavailable) :
      Advance reg now s (.failMark p)
        ((s.write now (.markRedisSettled a.reservationId a.attempt)).setRequest p next)
  | finish {p a} (h : s.requests p = .invoked a) :
      Advance reg now s (.finish p) (s.setRequest p .done)
  | crash {p} (h : (s.requests p).finished = false) :
      Advance reg now s (.crash p) (s.setRequest p (.crashed (s.requests p).held))
  | reconcileRead {j id r actual} (h : s.jobs j = .idle) (hr : s.ledger.find? id = some r)
      (hactual : r.actualLamports = some actual) :
      Advance reg now s (.reconcileRead j id) (s.setJob j (.settling ⟨id, r.attempt⟩ actual))
  | committed {j a actual} (h : s.jobs j = .idle)
      (hrow : ∃ r, (exec s.ledger now (.settleReservation a.reservationId a.attempt .committed actual)).find?
        a.reservationId = some r ∧ r.attempt = a.attempt ∧ r.actualLamports = some actual) :
      Advance reg now s (.reconcileCommit j a actual)
        ((s.write now (.settleReservation a.reservationId a.attempt .committed actual)).setJob j (.settling a actual))
  | notCommitted {j a actual} (h : s.jobs j = .idle) :
      Advance reg now s (.reconcileCommit j a actual)
        ((s.write now (.settleReservation a.reservationId a.attempt .committed actual)).setJob j .idle)
  | reconcileCharge {a} :
      Advance reg now s (.reconcileCharge a) (s.write now (.markChargedUnknown a.reservationId a.attempt))
  | reconcileMiss {a missCount} :
      Advance reg now s (.reconcileMiss a missCount)
        (s.write now (.recordReconciliationMiss a.reservationId a.attempt missCount))
  | jobSettle {j a actual} (h : s.jobs j = .settling a actual) :
      Advance reg now s (.jobSettle j) ((s.settle reg a actual true).setJob j
        (if (reg.settle s.redis a actual true).2.ok then .marking a else .idle))
  | jobMark {j a} (h : s.jobs j = .marking a) :
      Advance reg now s (.jobMark j)
        ((s.write now (.markRedisSettled a.reservationId a.attempt)).setJob j .idle)
  | syncPolicy {policy} :
      Advance reg now s (.syncPolicy policy)
        { s with redis := syncControlScript s.redis (controlField policy) policy.version policy.enabled }
  | strayWrite {call} (h : call.opens = false) :
      Advance reg now s (.strayWrite call) (s.write now call)
  | straySettle {a actual detect} :
      Advance reg now s (.straySettle a actual detect) (s.settle reg a actual detect)
  | strayCancel {a} :
      Advance reg now s (.strayCancel a) (s.noteCancel a (reg.cancel s.redis a))

/-! ## Inversion -/

theorem updateReservation_found {l : Ledger} {id : String} {guard : ReservationRow → Bool}
    {set : ReservationRow → ReservationRow} {hset : ∀ r, (set r).id = r.id}
    (h : (updateReservation l id guard set hset).2 = true) :
    ∃ r, guard r ∧ (updateReservation l id guard set hset).1.find? id = some (set r) := by
  obtain ⟨r, hr, hg⟩ := (Option.any_eq_true ..).mp h
  exact ⟨r, hg, by simp [updateReservation, Table.find?_update, hr, hg]⟩

theorem advance_cases {reg : Registry} {now : String} {s t : System} {event : AdmissionEvent}
    (h : advance reg now s event = some t) : Advance reg now s event t := by
  cases event with
  | start p id op =>
    simp only [advance] at h
    split at h
    · next hp => obtain rfl := Option.some.inj h; exact .start hp
    · cases h
  | read p =>
    simp only [advance] at h
    split at h
    · next hp => obtain rfl := Option.some.inj h; exact .read hp
    · cases h
  | resolve p policies =>
    simp only [advance] at h
    split at h
    · next hp => obtain rfl := Option.some.inj h; exact .resolve hp
    · cases h
  | create p =>
    simp only [advance] at h
    split at h
    · next id op policies hp =>
      obtain rfl := Option.some.inj h
      cases hfind : s.ledger.find? id with
      | none =>
        have hgo : (createReservation s.ledger (reg.input ⟨id, 1⟩) now).2 = true := by
          simp [createReservation, Registry.input, hfind]
        rw [hgo]
        exact .created hp hfind
      | some r =>
        have hgo : (createReservation s.ledger (reg.input ⟨id, 1⟩) now).2 = false := by
          simp [createReservation, Registry.input, hfind]
        rw [hgo]
        exact .notCreated hp (by simp [hfind])
    · cases h
  | reread p =>
    simp only [advance] at h
    split at h
    · next hp => obtain rfl := Option.some.inj h; exact .reread hp
    · cases h
  | reopen p =>
    simp only [advance] at h
    split at h
    · next id op policies existing hp =>
      obtain rfl := Option.some.inj h
      split
      · next hgo =>
        simp only [reopenReleasedReservation, Registry.input, Option.map_eq_some_iff, Option.filter_eq_some_iff,
          decide_eq_true_eq] at hgo
        obtain ⟨r, ⟨hr, hs, ha, hset⟩, -⟩ := hgo
        exact .reopened hp hr ha hs hset
      · next hgo =>
        refine .notReopened hp ?_ ?_
        · rintro r hr ⟨hs, ha, hset⟩
          apply hgo
          simp [reopenReleasedReservation, Registry.input, hr, hs, ha, hset]
        · split
          · next hrep => exact .inr ⟨rfl, hrep⟩
          · exact .inl rfl
    · cases h
  | snapshot p =>
    simp only [advance] at h
    split at h
    · next hp => obtain rfl := Option.some.inj h; exact .snapshot hp
    · cases h
  | seed p =>
    simp only [advance] at h
    split at h
    · next hp => obtain rfl := Option.some.inj h; exact .seed hp
    · cases h
  | reserve p =>
    simp only [advance] at h
    split at h
    · next a op policies round hp =>
      obtain rfl := Option.some.inj h
      rcases reg.reserve_cases s.redis a policies with ⟨hno, hsame⟩ | ⟨hyes, hres, hset, hinit⟩
      · have hnote : s.noteReserve a (reg.reserve s.redis a policies) = s := by
          rw [System.noteReserve, if_neg hno, hsame]
        rw [if_neg hno, hnote]
        exact .notAdmitted hp hno
      · rw [hyes]
        exact .admitted hp hres hset hinit
    · cases h
  | release p =>
    simp only [advance] at h
    split at h
    · next hp => obtain rfl := Option.some.inj h; exact .release hp
    · cases h
  | releaseMark p =>
    simp only [advance] at h
    split at h
    · next hp => obtain rfl := Option.some.inj h; exact .releaseMark hp
    · cases h
  | invoke p =>
    simp only [advance] at h
    split at h
    · next hp => obtain rfl := Option.some.inj h; exact .invoke hp
    · cases h
  | outcome p write =>
    simp only [advance] at h
    split at h
    · next hp => obtain rfl := Option.some.inj h; exact .outcome hp
    · cases h
  | fail p afterSubmission =>
    simp only [advance] at h
    split at h
    · next a hp =>
      obtain rfl := Option.some.inj h
      cases afterSubmission with
      | true =>
        simp only [if_true]
        split
        · next hgo =>
          obtain ⟨r, hg, hfind⟩ := updateReservation_found hgo
          exact .failed hp (.inl rfl) ⟨_, hfind, (of_decide_eq_true hg).1, rfl, rfl⟩
        · exact .notFailed hp (.inl rfl)
      | false =>
        simp only [Bool.false_eq_true, if_false]
        split
        · next hgo =>
          obtain ⟨r, hg, hfind⟩ := updateReservation_found hgo
          exact .failed hp (.inr rfl) ⟨_, hfind, (of_decide_eq_true hg).1, rfl, rfl⟩
        · exact .notFailed hp (.inr rfl)
    · cases h
  | failSettle p =>
    simp only [advance] at h
    split at h
    · next hp => obtain rfl := Option.some.inj h; exact .failSettle hp
    · cases h
  | failMark p =>
    simp only [advance] at h
    split at h
    · next hp =>
      obtain rfl := Option.some.inj h
      refine .failMark hp ?_
      split
      · exact .inl rfl
      · exact .inr rfl
    · cases h
  | finish p =>
    simp only [advance] at h
    split at h
    · next hp => obtain rfl := Option.some.inj h; exact .finish hp
    · cases h
  | crash p =>
    simp only [advance] at h
    split at h
    · cases h
    · next hp => obtain rfl := Option.some.inj h; exact .crash (by simpa using hp)
  | reconcileRead j id =>
    simp only [advance] at h
    split at h
    · next r hj hr =>
      split at h
      · next actual hactual =>
        split at h
        · obtain rfl := Option.some.inj h; exact .reconcileRead hj hr hactual
        · cases h
      · cases h
    · cases h
  | reconcileCommit j a actual =>
    simp only [advance] at h
    split at h
    · next hj =>
      obtain rfl := Option.some.inj h
      split
      · next hgo =>
        obtain ⟨r, hg, hfind⟩ := updateReservation_found hgo
        exact .committed hj ⟨_, hfind, (of_decide_eq_true hg).1, rfl⟩
      · exact .notCommitted hj
    · cases h
  | reconcileCharge a => obtain rfl := Option.some.inj h; exact .reconcileCharge
  | reconcileMiss a missCount => obtain rfl := Option.some.inj h; exact .reconcileMiss
  | jobSettle j =>
    simp only [advance] at h
    split at h
    · next hj => obtain rfl := Option.some.inj h; exact .jobSettle hj
    · cases h
  | jobMark j =>
    simp only [advance] at h
    split at h
    · next hj => obtain rfl := Option.some.inj h; exact .jobMark hj
    · cases h
  | syncPolicy policy => obtain rfl := Option.some.inj h; exact .syncPolicy
  | strayWrite call =>
    simp only [advance] at h
    split at h
    · cases h
    · next hopens => obtain rfl := Option.some.inj h; exact .strayWrite (by simpa using hopens)
  | straySettle a actual detect => obtain rfl := Option.some.inj h; exact .straySettle
  | strayCancel a => obtain rfl := Option.some.inj h; exact .strayCancel

theorem admissionStep_cases {reg : Registry} {s t : System} {e : String × AdmissionEvent}
    (h : admissionStep reg s e = some t) :
    ∃ u, Advance reg e.1 s e.2 u ∧ t = { u with past := fun r => s.past r || s.ledger.find? r.id = some r } := by
  obtain ⟨u, hu, rfl⟩ := Option.map_eq_some_iff.mp h
  exact ⟨u, advance_cases hu, rfl⟩

/-- What any interleaving reaches. -/
abbrev ReachableSystem (reg : Registry) : System → Prop :=
  Reachable (admissionStep reg) (· = System.start) anyStep

/-! ## What SETTLE and CANCEL do to the system -/

/-- The closing of an attempt that nothing closed yet. -/
def System.closeWith (s : System) (a : AttemptId) (closing : Closing) : AttemptId → Option Closing :=
  if s.closed a = none then Function.update s.closed a (some closing) else s.closed

theorem System.settle_cases (reg : Registry) (s : System) (a : AttemptId) (actual : Nat) (detect : Bool) :
    s.settle reg a actual detect = s ∨
      s.redis.settlement a = none ∧ s.settle reg a actual detect =
        { s with redis := reg.settled s.redis a actual, closed := s.closeWith a (.settled actual) } := by
  unfold System.settle System.noteSettle System.closeWith
  rcases reg.settle_cases s.redis a actual detect with ⟨hsame, hno⟩ | ⟨hyes, hnone⟩
  · have heffect : (reg.settle s.redis a actual detect).2.tookEffect = false := by
      cases hreply : (reg.settle s.redis a actual detect).2 with
      | settled delta => exact absurd hreply (hno delta)
      | alreadySettled | mismatch | underflow => rfl
    left
    simp [hsame, heffect]
  · right
    simp [hyes, hnone, SettleReply.tookEffect]

theorem System.cancel_cases {reg : Registry} {s : System} (hr : RedisSound reg s.redis) (a : AttemptId) :
    s.noteCancel a (reg.cancel s.redis a) = s ∨ s.noteCancel a (reg.cancel s.redis a) =
      { s with redis := reg.cancelled s.redis a (reg.amount a), closed := s.closeWith a .cancelled } := by
  unfold System.noteCancel System.closeWith
  rcases reg.cancel_cases s.redis a with ⟨hsame, hno⟩ | ⟨amount, hyes, hheld⟩
  · have heffect : (reg.cancel s.redis a).2.tookEffect = false := by
      cases hreply : (reg.cancel s.redis a).2 with
      | cancelled amount => exact absurd hreply (hno amount)
      | nothing | mismatch | underflow => rfl
    left
    simp [hsame, heffect]
  · right
    simp [hyes, hr.cancelled_amount hheld, CancelReply.tookEffect]

/-! ## The ledger keeps to the registry -/

/-- An attempt opens with its terms in the registry. -/
def LedgerCall.Registered (reg : Registry) : LedgerCall → Prop
  | .createReservation input => ∃ id, input = reg.input ⟨id, 1⟩
  | .reopenReleasedReservation input n => ∃ id, input = reg.input ⟨id, n + 1⟩
  | _ => True

theorem LedgerCall.registered_of_not_opens {call : LedgerCall} (h : call.opens = false) (reg : Registry) :
    call.Registered reg := by
  cases call with
  | createReservation | reopenReleasedReservation => cases h
  | markSigned | markSubmitted | markChargedUnknown | markReleased | recordReconciliationMiss
  | settleReservation | markRedisSettled => trivial

theorem RowStep.input {call : LedgerCall} {r r' : ReservationRow} (h : RowStep call r r') :
    r'.toCreateSponsorshipReservationInput = r.toCreateSponsorshipReservationInput := by
  cases h <;> rfl

theorem RowStep.attemptId {call : LedgerCall} {r r' : ReservationRow} (h : RowStep call r r') : r'.attemptId = r.attemptId := by
  cases h <;> rfl

theorem exec_conforms {reg : Registry} {l : Ledger} (hl : Conforms reg l) (now : String) {call : LedgerCall}
    (hcall : call.Registered reg) : Conforms reg (exec l now call) := by
  have hconsistent := exec_consistent (fun id r hr => (hl id r hr).1) now call
  intro id r' hr'
  refine ⟨hconsistent id r' hr', ?_⟩
  cases hr : l.find? id with
  | none =>
    obtain ⟨input, rfl, rfl⟩ := exec_new l now call hr hr'
    obtain ⟨id', rfl⟩ := hcall
    rfl
  | some r =>
    obtain ⟨r'', hr'', hstep⟩ := exec_row l now call hr
    obtain rfl : r' = r'' := Option.some.inj (hr'.symm.trans hr'')
    have hrow := (hl id r hr).2
    rcases hstep with hstep | ⟨input, rfl, hinput, -, -, rfl⟩
    · rw [hstep.input, hstep.attemptId]
      exact hrow
    · obtain ⟨id', rfl⟩ := hcall
      obtain rfl : id' = r.id := hinput.trans (Table.key_of_find? hr).symm
      simp only [ReservationRow.reopened, hrow]
      rfl

end Sdp.Budget
