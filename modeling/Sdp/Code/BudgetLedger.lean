import Sdp.Lib.Table

/-!
# The durable sponsorship ledger

From `db/repositories/sponsorship-budget.repository.ts` and the table of
`0055_sponsorship_budgets.sql`. Each function is one SQL statement. Lamports are natural numbers:
the table's checks refuse negative ones. The columns that nothing reads (`created_at`,
`submitted_at`, `reconciled_at`, `failure_reason`) are left out, and so are the reasons that are
only written there.
-/

open Sdp.Lib

namespace Sdp.Budget

inductive SponsorshipNetwork
  | devnet | mainnet
deriving DecidableEq, Repr

inductive ProductEnvironment
  | sandbox | production
deriving DecidableEq, Repr

inductive SponsorshipReservationStatus
  | reserved | signed | submitted | committed | released | chargedUnknown
deriving DecidableEq, Repr

structure CreateSponsorshipReservationInput where
  id : String
  network : SponsorshipNetwork
  productEnvironment : ProductEnvironment
  organizationId : String
  projectId : Option String
  actorType : String
  actorId : String
  transactionDigest : String
  feePayer : String
  providerConfigFingerprint : String
  recentBlockhash : String
  reservedLamports : Nat
  hourBucket : String
  dayBucket : String
  policyVersions : List (String × Nat)
deriving DecidableEq

/-- A row of `sponsorship_budget_reservations`. -/
structure ReservationRow extends CreateSponsorshipReservationInput where
  status : SponsorshipReservationStatus
  signature : Option String := none
  signedTransaction : Option String := none
  actualLamports : Option Nat := none
  attempt : Nat := 1
  missCount : Nat := 0
  updatedAt : String
  redisSettledAt : Option String := none
deriving DecidableEq

abbrev Ledger := Table String ReservationRow (·.id)

inductive SignaturePersistResult
  | persisted | stale | duplicateSignature
deriving DecidableEq, Repr

/-! ## Writes -/

/-- Whether a row went in. -/
def createReservation (l : Ledger) (input : CreateSponsorshipReservationInput) (now : String) :
    Ledger × Bool :=
  (l.insertNew { input with status := .reserved, updatedAt := now }, (l.find? input.id).isNone)

def getReservation (l : Ledger) (id : String) : Option ReservationRow := l.find? id

/-- `UPDATE … WHERE id = ? AND guard`, and whether it changed a row. -/
def updateReservation (l : Ledger) (id : String) (guard : ReservationRow → Bool)
    (set : ReservationRow → ReservationRow) (hset : ∀ r, (set r).id = r.id) : Ledger × Bool :=
  (l.update id guard set hset, l.matches? id guard)

/-- The attempt that the reopened row is at. -/
def reopenReleasedReservation (l : Ledger) (input : CreateSponsorshipReservationInput)
    (expectedAttempt : Nat) (now : String) : Ledger × Option Nat :=
  let guard (r : ReservationRow) : Bool :=
    r.status = .released ∧ r.attempt = expectedAttempt ∧ r.redisSettledAt.isSome
  let set (r : ReservationRow) : ReservationRow :=
    { r with
      status := .reserved, reservedLamports := input.reservedLamports, actualLamports := none
      hourBucket := input.hourBucket, dayBucket := input.dayBucket
      policyVersions := input.policyVersions
      providerConfigFingerprint := input.providerConfigFingerprint
      signature := none, signedTransaction := none, attempt := r.attempt + 1, missCount := 0
      redisSettledAt := none, updatedAt := now }
  (l.update input.id guard set fun _ => rfl, ((l.find? input.id).filter guard).map fun r => r.attempt + 1)

/-- The unique index on the signatures that are not null. -/
def signatureTaken (l : Ledger) (id signature : String) : Bool :=
  l.rows.any fun r => r.id ≠ id ∧ r.signature = some signature

/-- An update that writes a signature. The index refuses a signature that another row holds. -/
def persistSignature (l : Ledger) (id signature : String) (guard : ReservationRow → Bool)
    (set : ReservationRow → ReservationRow) (hset : ∀ r, (set r).id = r.id) :
    Ledger × SignaturePersistResult :=
  if !l.matches? id guard then (l, .stale)
  else if signatureTaken l id signature then (l, .duplicateSignature)
  else (l.update id guard set hset, .persisted)

def markSigned (l : Ledger) (id : String) (expectedAttempt : Nat) (signedTransaction signature now : String) :
    Ledger × SignaturePersistResult :=
  persistSignature l id signature
    (fun r => r.attempt = expectedAttempt ∧ r.status = .reserved)
    (fun r => { r with status := .signed, signedTransaction := some signedTransaction
                       signature := some signature, updatedAt := now })
    fun _ => rfl

def markSubmitted (l : Ledger) (id : String) (expectedAttempt : Nat) (signature now : String) :
    Ledger × SignaturePersistResult :=
  persistSignature l id signature
    (fun r => r.attempt = expectedAttempt ∧ r.status ∈ [.reserved, .signed])
    (fun r => { r with status := .submitted, signature := some signature, updatedAt := now })
    fun _ => rfl

def markChargedUnknown (l : Ledger) (id : String) (expectedAttempt : Nat) (now : String) : Ledger × Bool :=
  updateReservation l id
    (fun r => r.attempt = expectedAttempt ∧ r.status ∈ [.reserved, .signed, .submitted])
    (fun r => { r with status := .chargedUnknown, updatedAt := now })
    fun _ => rfl

def markReleased (l : Ledger) (id : String) (expectedAttempt : Nat) (now : String) : Ledger × Bool :=
  updateReservation l id
    (fun r => r.attempt = expectedAttempt ∧ r.status ∈ [.reserved, .signed])
    (fun r => { r with status := .released, actualLamports := some 0, updatedAt := now })
    fun _ => rfl

def recordReconciliationMiss (l : Ledger) (id : String) (expectedAttempt expectedMissCount : Nat)
    (now : String) : Ledger × Bool :=
  updateReservation l id
    (fun r => r.attempt = expectedAttempt ∧ r.missCount = expectedMissCount ∧
      r.status ∈ [.signed, .submitted])
    (fun r => { r with missCount := r.missCount + 1, updatedAt := now })
    fun _ => rfl

/-- `"committed" | "released"` -/
inductive SettledStatus
  | committed | released
deriving DecidableEq, Repr

def SettledStatus.status : SettledStatus → SponsorshipReservationStatus
  | .committed => .committed
  | .released => .released

def settleReservation (l : Ledger) (id : String) (expectedAttempt : Nat) (status : SettledStatus)
    (actualLamports : Nat) (now : String) : Ledger × Bool :=
  updateReservation l id
    (fun r => r.attempt = expectedAttempt ∧ r.status ∈ [.signed, .submitted])
    (fun r => { r with status := status.status, actualLamports := some actualLamports, updatedAt := now })
    fun _ => rfl

def markRedisSettled (l : Ledger) (id : String) (expectedAttempt : Nat) (now : String) : Ledger × Bool :=
  updateReservation l id
    (fun r => r.attempt = expectedAttempt ∧ r.status ∈ [.committed, .released])
    (fun r => { r with redisSettledAt := r.redisSettledAt.or (some now), updatedAt := now })
    fun _ => rfl

/-- A call of one of the repository's writes. -/
inductive LedgerCall
  | createReservation (input : CreateSponsorshipReservationInput)
  | reopenReleasedReservation (input : CreateSponsorshipReservationInput) (expectedAttempt : Nat)
  | markSigned (id : String) (expectedAttempt : Nat) (signedTransaction signature : String)
  | markSubmitted (id : String) (expectedAttempt : Nat) (signature : String)
  | markChargedUnknown (id : String) (expectedAttempt : Nat)
  | markReleased (id : String) (expectedAttempt : Nat)
  | recordReconciliationMiss (id : String) (expectedAttempt expectedMissCount : Nat)
  | settleReservation (id : String) (expectedAttempt : Nat) (status : SettledStatus) (actualLamports : Nat)
  | markRedisSettled (id : String) (expectedAttempt : Nat)
deriving DecidableEq

/-- The ledger after a call at the time `now`. -/
def exec (l : Ledger) (now : String) : LedgerCall → Ledger
  | .createReservation input => (createReservation l input now).1
  | .reopenReleasedReservation input n => (reopenReleasedReservation l input n now).1
  | .markSigned id n signed signature => (markSigned l id n signed signature now).1
  | .markSubmitted id n signature => (markSubmitted l id n signature now).1
  | .markChargedUnknown id n => (markChargedUnknown l id n now).1
  | .markReleased id n => (markReleased l id n now).1
  | .recordReconciliationMiss id n misses => (recordReconciliationMiss l id n misses now).1
  | .settleReservation id n status actual => (settleReservation l id n status actual now).1
  | .markRedisSettled id n => (markRedisSettled l id n now).1

/-! ## Window reads -/

inductive Window
  | hour | day
deriving DecidableEq, Repr

def CreateSponsorshipReservationInput.bucket (r : CreateSponsorshipReservationInput) : Window → String
  | .hour => r.hourBucket
  | .day => r.dayBucket

/-- Usage of the three scopes of an admission, in lamports. -/
structure SponsorshipBudgetUsage where
  global : Nat
  organization : Nat
  project : Nat
deriving DecidableEq, Repr

structure WindowInput where
  network : SponsorshipNetwork
  organizationId : String
  projectId : Option String
  hourBucket : String
  dayBucket : String
deriving DecidableEq

def WindowInput.bucket (input : WindowInput) : Window → String
  | .hour => input.hourBucket
  | .day => input.dayBucket

/-- The `WHERE` of the two window queries, less their status clauses. -/
def inWindows (input : WindowInput) (excludeReservationId : Option String) (r : ReservationRow) : Bool :=
  r.network = input.network ∧ (r.hourBucket = input.hourBucket ∨ r.dayBucket = input.dayBucket) ∧
    excludeReservationId ≠ some r.id

/-- `COALESCE(actual_lamports, reserved_lamports)` -/
def ReservationRow.lamports (r : ReservationRow) : Nat := r.actualLamports.getD r.reservedLamports

def getWindowUsage (l : Ledger) (input : WindowInput) (excludeReservationId : Option String) (w : Window) :
    SponsorshipBudgetUsage :=
  let sum (scope : ReservationRow → Bool) : Nat := l.sum fun r =>
    if inWindows input excludeReservationId r ∧ r.status ≠ .released then
      if r.bucket w = input.bucket w ∧ scope r then r.lamports else 0
    else 0
  { global := sum fun _ => true
    organization := sum fun r => r.organizationId = input.organizationId
    project := sum fun r => r.organizationId = input.organizationId ∧ r.projectId = input.projectId }

structure SponsorshipLiveWindowReservation where
  id : String
  attempt : Nat
  reservedLamports : Nat
  organizationId : String
  projectId : Option String
deriving DecidableEq

def ReservationRow.live (r : ReservationRow) : SponsorshipLiveWindowReservation where
  id := r.id
  attempt := r.attempt
  reservedLamports := r.reservedLamports
  organizationId := r.organizationId
  projectId := r.projectId

def listLiveWindowReservations (l : Ledger) (input : WindowInput) (excludeReservationId : Option String)
    (w : Window) : List SponsorshipLiveWindowReservation :=
  let rows := l.rows.filter fun r =>
    inWindows input excludeReservationId r ∧ r.status ∈ [.reserved, .signed, .submitted]
  (rows.filter fun r => r.bucket w = input.bucket w).map ReservationRow.live

/-- Both reads of one repeatable-read transaction. -/
structure WindowAdmissionSnapshot where
  usage : Window → SponsorshipBudgetUsage
  liveReservations : Window → List SponsorshipLiveWindowReservation

def loadWindowAdmissionSnapshot (l : Ledger) (input : WindowInput) (excludeReservationId : Option String) :
    WindowAdmissionSnapshot where
  usage := getWindowUsage l input excludeReservationId
  liveReservations := listLiveWindowReservations l input excludeReservationId

end Sdp.Budget
