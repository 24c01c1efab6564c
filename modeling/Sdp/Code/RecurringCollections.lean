import Sdp.Code.Transfers

/-!
# Collections of a recurring payment

From `services/payments/recurring-payments/collection.ts`,
`packages/sdp-payments/src/recurring-payment-lifecycle.ts`,
`db/repositories/payment-subscriptions.repository.postgres.ts`,
`db/repositories/payment-recurring-payments.repository.postgres.ts` and the indexes of
`0007_payment_subscriptions.sql` and `0016_payment_subscription_collection_attempt_active_due.sql`:
one recurring payment with its subscription, the collection attempts and their transfers. All rows
are of the payment's project. Times are in milliseconds. Metadata, workflow events and logs are left
out, and so are the columns that only the evidence on the chain is compared with.
-/

open Sdp.Lib

namespace Sdp.Recurring

open Payments

/-! ## Rows -/

inductive RecurringPaymentStatus
  | pendingActivation | activating | active | updating | canceling | resuming | paused | canceled | expired
deriving DecidableEq, Repr

/-- A row of `payment_recurring_payments`, with the check on its period. -/
structure RecurringPaymentRow where
  id : String
  organizationId : String
  projectId : String
  status : RecurringPaymentStatus
  periodHours : Nat
  nextCollectionDueAt : Option Nat
  destinationTokenAccount : Option String
  updatedAt : Nat
  period_hours_positive : 0 < periodHours
deriving DecidableEq

theorem day_positive : 0 < 24 := by decide

inductive SubscriptionStatus
  | pendingAuthorization | active | paused | canceling | canceled | expired
deriving DecidableEq, Repr

structure SubscriptionRow where
  id : String
  status : SubscriptionStatus
  currentPeriodStartAt : Option Nat
  nextCollectionDueAt : Option Nat
  updatedAt : Nat
deriving DecidableEq

inductive AttemptStatus
  | pending | processing | confirmed | failed | skipped
deriving DecidableEq, Repr

/-- A row of `payment_subscription_collection_attempts`. -/
structure CollectionAttemptRow where
  id : String
  subscriptionId : String
  transferId : Option String
  dueAt : Nat
  status : AttemptStatus
  signature : Option String
  error : Option String
  updatedAt : Nat
deriving DecidableEq

abbrev AttemptTable := Table String CollectionAttemptRow (·.id)

structure CollectionDatabase where
  recurringPayment : RecurringPaymentRow
  subscription : SubscriptionRow
  attempts : AttemptTable
  transfers : TransferTable

/-! ## The schedule -/

def nextRecurringPaymentCollectionDueAt (dueAt periodHours : Nat) : Nat := dueAt + periodHours * 60 * 60 * 1000

def hasRecurringPaymentAdvancedPastDueAt (nextDueAt : Option Nat) (dueAt : Nat) : Bool := nextDueAt.any (dueAt < ·)

def isRecurringPaymentCollectionActive (status : RecurringPaymentStatus) : Bool := status = .active

def hasStoppedSubscriptionCollections (row : SubscriptionRow) : Bool := row.status ≠ .active

/-- `RECURRING_PAYMENT_OPERATION_STALE_AFTER_MS` -/
def collectionStaleAfterMs : Nat := 15 * 60 * 1000

def isStaleCollectionAttempt (now : Nat) (row : CollectionAttemptRow) : Bool :=
  row.updatedAt + collectionStaleAfterMs ≤ now

/-! ## Attempts -/

/-- The statuses of the unique index on a subscription's due time. -/
def activeDue (status : AttemptStatus) : Bool := status ∈ [.pending, .processing, .confirmed]

/-- `ON CONFLICT DO NOTHING`, with the index on the due time. The id is a new one. -/
def createCollectionAttempt (t : AttemptTable) (row : CollectionAttemptRow) : AttemptTable :=
  if activeDue row.status && t.rows.any fun r =>
      activeDue r.status ∧ r.subscriptionId = row.subscriptionId ∧ r.dueAt = row.dueAt then t
  else t.insertNew row

/-- A missing field is one that the caller leaves out. -/
structure UpdateCollectionAttemptInput where
  attemptId : String
  transferId : Option String := none
  status : Option AttemptStatus := none
  signature : Option String := none
  error : Option (Option String) := none
  updatedAt : Nat

namespace UpdateCollectionAttemptInput

def guard (input : UpdateCollectionAttemptInput) (r : CollectionAttemptRow) : Bool :=
  input.status.all fun status =>
    status = r.status ∨ (status = .processing ∧ r.status = .pending) ∨
      (status = .confirmed ∧ r.status ∈ [.pending, .processing]) ∨
      (status = .failed ∧ r.status ∈ [.pending, .processing])

def set (input : UpdateCollectionAttemptInput) (r : CollectionAttemptRow) : CollectionAttemptRow :=
  { r with
    transferId := input.transferId.or r.transferId
    status := input.status.getD r.status
    signature := input.signature.or r.signature
    error := input.error.getD r.error
    updatedAt := input.updatedAt }

end UpdateCollectionAttemptInput

/-- The unique index on the signature. -/
def attemptSignatureTaken (t : AttemptTable) (id signature : String) : Bool :=
  t.rows.any fun r => r.id ≠ id ∧ r.signature = some signature

/-- The updated row, when there is one. -/
def updateCollectionAttempt (t : AttemptTable) (input : UpdateCollectionAttemptInput) :
    Except RepositoryError (AttemptTable × Option CollectionAttemptRow) :=
  if t.matches? input.attemptId input.guard && input.signature.any (attemptSignatureTaken t input.attemptId) then
    .error .signatureTaken
  else
    .ok (t.update input.attemptId input.guard input.set fun _ => rfl,
      ((t.find? input.attemptId).filter input.guard).map input.set)

/-- `statuses` as recovery asks for them. -/
def getCollectionAttemptByDue (t : AttemptTable) (subscriptionId : String) (dueAt : Nat) :
    Option CollectionAttemptRow :=
  t.rows.find? fun r =>
    r.subscriptionId = subscriptionId ∧ r.dueAt = dueAt ∧ r.status ∈ [.processing, .confirmed]

/-! ## The due time -/

/-- `updateSubscription` as a finalization calls it. -/
def updateSubscription (row : SubscriptionRow) (dueAt nextDueAt updatedAt : Nat) : Option SubscriptionRow :=
  if row.nextCollectionDueAt = some dueAt ∧ row.status = .active then
    some { row with currentPeriodStartAt := some dueAt, nextCollectionDueAt := some nextDueAt, updatedAt }
  else none

def updateRecurringPaymentCollection (row : RecurringPaymentRow) (currentCollectionDueAt nextCollectionDueAt : Nat)
    (destinationTokenAccount : String) (updatedAt : Nat) : Option RecurringPaymentRow :=
  if row.nextCollectionDueAt = some currentCollectionDueAt ∧ row.status = .active then
    some { row with
      nextCollectionDueAt := some nextCollectionDueAt
      destinationTokenAccount := some destinationTokenAccount
      updatedAt }
  else none

/-! ## Failed collections -/

def failTransferGuard (organizationId projectId : String) (r : PaymentTransferRow) : Bool :=
  r.organizationId = organizationId ∧ r.projectId = some projectId ∧ r.status ∈ [.pending, .processing, .failed]

def failTransferSet (submittedSignature : Option String) (message : String) (failedAt : Nat) (r : PaymentTransferRow) :
    PaymentTransferRow :=
  { r with
    status := .failed
    signature := submittedSignature.or r.signature
    error := some message
    updatedAt := failedAt
    outbox_signature := by
      intro h
      cases submittedSignature with
      | none => exact r.outbox_signature h
      | some _ => rfl }

/-- The transfers, and `confirmedTransferSignature`. -/
def failTransfer (t : TransferTable) (organizationId projectId transferId : String)
    (submittedSignature : Option String) (message : String) (failedAt : Nat) :
    Except RepositoryError (TransferTable × Option String) :=
  if t.matches? transferId (failTransferGuard organizationId projectId) then
    if submittedSignature.any (signatureTaken t transferId) then throw .signatureTaken
    else
      pure (t.update transferId (failTransferGuard organizationId projectId)
        (failTransferSet submittedSignature message failedAt) fun _ => rfl, none)
  else
    match (getTransferById t transferId organizationId (some projectId)).filter (·.status = .confirmed) with
    | none => throw (.internalError "Failed to mark collection transfer failed")
    | some currentTransfer =>
      match currentTransfer.signature.or submittedSignature with
      | none => throw (.internalError "Confirmed collection transfer is missing signature")
      | some signature => pure (t, some signature)

structure SettleAttemptInput where
  attemptId : String
  transferId : Option String
  status : AttemptStatus
  signature : Option String
  error : Option String
  updatedAt : Nat

namespace SettleAttemptInput

def guard (input : SettleAttemptInput) (r : CollectionAttemptRow) : Bool :=
  (input.status = .confirmed ∧ r.status ∈ [.pending, .processing, .confirmed]) ∨
    (input.status = .failed ∧ r.status ∈ [.pending, .processing, .failed])

def set (input : SettleAttemptInput) (r : CollectionAttemptRow) : CollectionAttemptRow :=
  { r with
    transferId := input.transferId.or r.transferId
    status := input.status
    signature := input.signature.or r.signature
    error := input.error
    updatedAt := input.updatedAt }

end SettleAttemptInput

def settleAttempt (t : AttemptTable) (input : SettleAttemptInput) : Except RepositoryError AttemptTable :=
  if t.matches? input.attemptId input.guard then
    if input.signature.any (attemptSignatureTaken t input.attemptId) then throw .signatureTaken
    else pure (t.update input.attemptId input.guard input.set fun _ => rfl)
  else throw (.internalError "Failed to mark collection attempt failed")

/-- The update of the transfer, when there is one. -/
def failLinkedTransfer (db : CollectionDatabase) (transfer : Option PaymentTransferRow)
    (submittedSignature : Option String) (message : String) (failedAt : Nat) :
    Except RepositoryError (TransferTable × Option String) :=
  match transfer with
  | none => .ok (db.transfers, none)
  | some transfer =>
    failTransfer db.transfers db.recurringPayment.organizationId db.recurringPayment.projectId transfer.id
      submittedSignature message failedAt

/-- The update of the attempt. -/
def failedAttempt (attempt : CollectionAttemptRow) (transfer : Option PaymentTransferRow)
    (confirmedTransferSignature submittedSignature : Option String) (message : String) (failedAt : Nat) :
    SettleAttemptInput where
  attemptId := attempt.id
  transferId := transfer.map (·.id)
  status := if confirmedTransferSignature.isSome then .confirmed else .failed
  signature := confirmedTransferSignature.or submittedSignature
  error := if confirmedTransferSignature.isSome then none else some message
  updatedAt := failedAt

/-- One transaction. A transfer that is confirmed already confirms the attempt instead. -/
def markRecurringPaymentCollectionFailedAtomically (db : CollectionDatabase) (attempt : CollectionAttemptRow)
    (transfer : Option PaymentTransferRow) (submittedSignature : Option String) (message : String) (failedAt : Nat) :
    Except RepositoryError CollectionDatabase := do
  let (transfers, confirmedTransferSignature) ← failLinkedTransfer db transfer submittedSignature message failedAt
  let attempts ← settleAttempt db.attempts
    (failedAttempt attempt transfer confirmedTransferSignature submittedSignature message failedAt)
  pure { db with attempts, transfers }

/-! ## Finalization -/

structure VerifiedRecurringPaymentCollection where
  attemptId : String
  dueAt : Nat
  destinationTokenAccount : String
  signature : String
  transferId : String
deriving DecidableEq

/-- The arguments of `finalizeRecurringPaymentCollection`. -/
structure FinalizeInput where
  recurringPayment : RecurringPaymentRow
  attempt : CollectionAttemptRow
  transfer : PaymentTransferRow
  proof : VerifiedRecurringPaymentCollection

/-- The stored rows that recovery and `verifyRecurringPaymentCollection` compare. -/
def verifyStoredRows (db : CollectionDatabase) (attempt : CollectionAttemptRow) (transfer : PaymentTransferRow)
    (destinationTokenAccount : String) : Option FinalizeInput := do
  let signature ← attempt.signature.or transfer.signature
  if attempt.subscriptionId = db.subscription.id ∧ attempt.transferId = some transfer.id ∧
      transfer.signature.all (· = signature) then
    some {
      recurringPayment := db.recurringPayment
      attempt, transfer
      proof := ⟨attempt.id, attempt.dueAt, destinationTokenAccount, signature, transfer.id⟩ }
  else none

/-- What `updated ?? get` came to. Under `READ COMMITTED` an update that missed and the read after it each see what
is committed then. A row that an update did match stays locked, so that update is taken at the commit. -/
inductive Fallback (ρ : Type)
  | unused
  | missed
  | read (row : Option ρ)

structure Fallbacks where
  transfer : Fallback PaymentTransferRow := .unused
  attempt : Fallback CollectionAttemptRow := .unused
  subscription : Fallback SubscriptionRow := .unused
  recurringPayment : Fallback RecurringPaymentRow := .unused

/-- `updated ?? get`, and whether there was an updated row. -/
structure Found (ρ : Type) where
  row : Option ρ
  updated : Bool

/-- The rows after an `UPDATE`, which the commit runs unless it had missed. -/
def Fallback.commit {ρ σ : Type} (fallback : Fallback ρ) (rows : σ)
    (update : Except RepositoryError (σ × Option ρ)) : Option (Except RepositoryError (σ × Found ρ)) :=
  match fallback, update with
  | .unused, .error e => some (.error e)
  | .unused, .ok (rows', some row) => some (.ok (rows', ⟨some row, true⟩))
  | .unused, .ok (_, none) => none
  | .missed, _ => none
  | .read row, _ => some (.ok (rows, ⟨row, false⟩))

namespace FinalizeInput

variable (input : FinalizeInput) (finalizedAt : Nat)

def nextDueAt : Nat :=
  nextRecurringPaymentCollectionDueAt input.proof.dueAt input.recurringPayment.periodHours

def transferUpdate : UpdatePaymentTransferInput where
  transferId := input.transfer.id
  organizationId := some input.recurringPayment.organizationId
  projectId := some (some input.recurringPayment.projectId)
  expectedStatus := some input.transfer.status
  status := some (if input.transfer.status = .finalized then .finalized else .confirmed)
  signature := some input.proof.signature
  error := some none
  updatedAt := finalizedAt

def attemptUpdate : UpdateCollectionAttemptInput where
  attemptId := input.attempt.id
  transferId := some input.transfer.id
  status := some .confirmed
  signature := some input.proof.signature
  error := some none
  updatedAt := finalizedAt

def updatedSubscription (row : SubscriptionRow) : Option SubscriptionRow :=
  updateSubscription row input.proof.dueAt input.nextDueAt finalizedAt

def updatedRecurringPayment (row : RecurringPaymentRow) : Option RecurringPaymentRow :=
  updateRecurringPaymentCollection row input.proof.dueAt input.nextDueAt input.proof.destinationTokenAccount finalizedAt

/-- The condition of the error at the end. -/
def rejects (recurringPayment : Found RecurringPaymentRow) (subscription : Found SubscriptionRow)
    (attempt : Found CollectionAttemptRow) (transfer : Found PaymentTransferRow) : Bool :=
  recurringPayment.row.all (fun row =>
    !recurringPayment.updated && isRecurringPaymentCollectionActive row.status &&
      !hasRecurringPaymentAdvancedPastDueAt row.nextCollectionDueAt input.proof.dueAt) ||
  subscription.row.all (fun row =>
    !subscription.updated && !hasStoppedSubscriptionCollections row &&
      !hasRecurringPaymentAdvancedPastDueAt row.nextCollectionDueAt input.proof.dueAt) ||
  attempt.row.all (fun row =>
    row.status ≠ .confirmed ∨ row.signature ≠ some input.proof.signature ∨ row.id ≠ input.proof.attemptId ∨
      row.transferId ≠ some input.proof.transferId) ||
  transfer.row.all (fun row =>
    (row.status ≠ .confirmed ∧ row.status ≠ .finalized) ∨ row.signature ≠ some input.proof.signature ∨
      row.id ≠ input.proof.transferId)

end FinalizeInput

/-- A row that the `UPDATE` of its only row returns. -/
def onlyRow {ρ : Type} (row : ρ) (updated : Option ρ) : Except RepositoryError (ρ × Option ρ) :=
  .ok (updated.getD row, updated)

/-- The commit of the transaction, or its error. `none` when an update neither matches nor has missed before. -/
def finalizeRecurringPaymentCollection (db : CollectionDatabase) (input : FinalizeInput) (fallbacks : Fallbacks)
    (finalizedAt : Nat) : Option (Except RepositoryError CollectionDatabase) := do
  let transfer ← fallbacks.transfer.commit db.transfers (updateTransfer db.transfers (input.transferUpdate finalizedAt))
  let attempt ← fallbacks.attempt.commit db.attempts
    (updateCollectionAttempt db.attempts (input.attemptUpdate finalizedAt))
  let subscription ← fallbacks.subscription.commit db.subscription
    (onlyRow db.subscription (input.updatedSubscription finalizedAt db.subscription))
  let recurringPayment ← fallbacks.recurringPayment.commit db.recurringPayment
    (onlyRow db.recurringPayment (input.updatedRecurringPayment finalizedAt db.recurringPayment))
  some do
    let (transfers, finalizedTransfer) ← transfer
    let (attempts, finalizedAttempt) ← attempt
    let (subscription, finalizedSubscription) ← subscription
    let (recurringPayment, finalizedRecurringPayment) ← recurringPayment
    if input.rejects finalizedRecurringPayment finalizedSubscription finalizedAttempt finalizedTransfer then
      throw (.internalError "Failed to finalize recurring payment collection")
    pure { recurringPayment, subscription, attempts, transfers }

end Sdp.Recurring
