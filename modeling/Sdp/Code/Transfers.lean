import Sdp.Lib.Table
import Mathlib.Data.List.Sort

/-!
# Payment transfers

From `db/repositories/payments.repository.postgres.ts`,
`db/repositories/payment-transfer-batches.repository.postgres.ts` and the table's checks in
`0066_payment_transfer_submission_outbox.sql`. Each function is one SQL statement, except for
`settleTransferBatch`, which is one transaction. Times are in milliseconds. Only the columns that
submission and reconciliation read or settle are here, and of a batch only the status of its
recipients.
-/

open Sdp.Lib

namespace Sdp.Payments

inductive PaymentTransferStatus
  | pending | processing | confirmed | finalized | failed
  | awaitingPayment | settling | completed | canceled | expired
deriving DecidableEq, Repr

inductive PaymentTransferType
  | transfer | transferConfidential | transferBatch | onramp | offramp
deriving DecidableEq, Repr

def walletTransferTypes : List PaymentTransferType := [.transfer, .transferConfidential, .transferBatch]

/-- A row of `payment_transfers`, with the checks on its outbox columns. -/
structure PaymentTransferRow where
  id : String
  organizationId : String
  projectId : Option String
  type : PaymentTransferType
  status : PaymentTransferStatus
  signature : Option String
  signedTransaction : Option String
  lastValidBlockHeight : Option Nat
  submissionStartedAt : Option Nat
  slot : Option Nat
  error : Option String
  confirmedAt : Option Nat
  updatedAt : Nat
  outbox_pair : signedTransaction.isNone = lastValidBlockHeight.isNone
  outbox_signature : signedTransaction.isSome → signature.isSome
  submission_started : submissionStartedAt.isSome → signedTransaction.isSome
deriving DecidableEq

abbrev TransferTable := Table String PaymentTransferRow (·.id)

inductive RepositoryError
  /-- The `UNIQUE` constraint on `signature`. -/
  | signatureTaken
  | internalError (message : String)
deriving DecidableEq, Repr

theorem outbox_empty : (none : Option String).isNone = (none : Option Nat).isNone := rfl

theorem submission_empty : (none : Option Nat).isSome = true → (none : Option String).isSome = true := nofun

/-! ## Writes -/

structure CreatePaymentTransferInput where
  organizationId : String
  projectId : Option String
  type : PaymentTransferType
deriving DecidableEq

/-- A new row with the status `processing`, which the submitting requests ask for. -/
def createdTransfer (id : String) (input : CreatePaymentTransferInput) (now : Nat) : PaymentTransferRow :=
  { input with
    id, status := .processing, signature := none, signedTransaction := none
    lastValidBlockHeight := none, submissionStartedAt := none, slot := none, error := none
    confirmedAt := none, updatedAt := now
    outbox_pair := rfl, outbox_signature := nofun, submission_started := nofun }

def createTransfer (t : TransferTable) (id : String) (input : CreatePaymentTransferInput) (now : Nat) :
    TransferTable :=
  t.insertNew (createdTransfer id input now)

/-- A missing field is one that the caller leaves out. `error` may be written as null. -/
structure UpdatePaymentTransferInput where
  transferId : String
  organizationId : Option String := none
  projectId : Option (Option String) := none
  expectedStatus : Option PaymentTransferStatus := none
  status : Option PaymentTransferStatus := none
  signature : Option String := none
  slot : Option Nat := none
  error : Option (Option String) := none
  updatedAt : Nat

namespace UpdatePaymentTransferInput

def guard (input : UpdatePaymentTransferInput) (r : PaymentTransferRow) : Bool :=
  input.organizationId.all (r.organizationId = ·) && input.projectId.all (r.projectId = ·) &&
    input.expectedStatus.all (r.status = ·)

def set (input : UpdatePaymentTransferInput) (r : PaymentTransferRow) : PaymentTransferRow :=
  { r with
    status := input.status.getD r.status
    signature := input.signature.or r.signature
    slot := input.slot.or r.slot
    error := input.error.getD r.error
    confirmedAt :=
      if input.status = some .confirmed ∨ input.status = some .finalized then r.confirmedAt.or (some input.updatedAt)
      else r.confirmedAt
    updatedAt := input.updatedAt
    outbox_signature := by
      intro h
      cases input.signature with
      | none => exact r.outbox_signature h
      | some _ => rfl }

end UpdatePaymentTransferInput

def signatureTaken (t : TransferTable) (id signature : String) : Bool :=
  t.rows.any fun r => r.id ≠ id ∧ r.signature = some signature

/-- The updated row, when there is one. -/
def updateTransfer (t : TransferTable) (input : UpdatePaymentTransferInput) :
    Except RepositoryError (TransferTable × Option PaymentTransferRow) :=
  if t.matches? input.transferId input.guard && input.signature.any (signatureTaken t input.transferId) then
    .error .signatureTaken
  else
    .ok (t.update input.transferId input.guard input.set fun _ => rfl,
      ((t.find? input.transferId).filter input.guard).map input.set)

/-- What `signAsFeePayer` returned, as it is stored. -/
structure SignedSubmission where
  signature : String
  signedTransaction : String
  lastValidBlockHeight : Nat
deriving DecidableEq

def persistGuard (organizationId : String) (projectId : Option String) (r : PaymentTransferRow) : Bool :=
  r.organizationId = organizationId ∧ r.projectId = projectId ∧ r.status = .processing ∧
    r.signature = none ∧ r.signedTransaction = none ∧ r.lastValidBlockHeight = none ∧ r.submissionStartedAt = none

def persistSet (submission : SignedSubmission) (updatedAt : Nat) (r : PaymentTransferRow) : PaymentTransferRow :=
  { r with
    signature := some submission.signature
    signedTransaction := some submission.signedTransaction
    lastValidBlockHeight := some submission.lastValidBlockHeight
    updatedAt := updatedAt
    outbox_pair := rfl, outbox_signature := fun _ => rfl, submission_started := fun _ => rfl }

def persistSignedTransfer (t : TransferTable) (transferId organizationId : String) (projectId : Option String)
    (submission : SignedSubmission) (updatedAt : Nat) :
    Except RepositoryError (TransferTable × Option PaymentTransferRow) :=
  let guard := persistGuard organizationId projectId
  if t.matches? transferId guard && signatureTaken t transferId submission.signature then .error .signatureTaken
  else
    .ok (t.update transferId guard (persistSet submission updatedAt) fun _ => rfl,
      ((t.find? transferId).filter guard).map (persistSet submission updatedAt))

def startGuard (organizationId : String) (projectId : Option String) (r : PaymentTransferRow) : Bool :=
  r.organizationId = organizationId ∧ r.projectId = projectId ∧ r.status = .processing ∧
    r.signature.isSome ∧ r.signedTransaction.isSome ∧ r.lastValidBlockHeight.isSome ∧ r.submissionStartedAt = none

/-- Only a row with a signed transaction gets past `startGuard`, so the check on the marker holds. -/
def startSet (startedAt : Nat) (r : PaymentTransferRow) : PaymentTransferRow :=
  if h : r.signedTransaction.isSome then
    { r with submissionStartedAt := some startedAt, updatedAt := startedAt, submission_started := fun _ => h }
  else r

theorem startSet_id (startedAt : Nat) (r : PaymentTransferRow) : (startSet startedAt r).id = r.id := by
  unfold startSet
  split <;> rfl

def markTransferSubmissionStarted (t : TransferTable) (transferId organizationId : String)
    (projectId : Option String) (startedAt : Nat) : TransferTable × Option PaymentTransferRow :=
  let guard := startGuard organizationId projectId
  (t.update transferId guard (startSet startedAt) (startSet_id startedAt),
    ((t.find? transferId).filter guard).map (startSet startedAt))

/-! ## Reads -/

def getTransferById (t : TransferTable) (transferId organizationId : String) (projectId : Option String) :
    Option PaymentTransferRow :=
  (t.find? transferId).filter fun r => r.organizationId = organizationId ∧ r.projectId = projectId

structure ListTransfersByStatusInput where
  statuses : List PaymentTransferStatus
  types : List PaymentTransferType
  hasSignature : Bool
  updatedBefore : Option Nat
  limit : Nat

/-- `ORDER BY updated_at ASC, id ASC` -/
def listedBefore (r r' : PaymentTransferRow) : Prop :=
  r.updatedAt < r'.updatedAt ∨ r.updatedAt = r'.updatedAt ∧ r.id ≤ r'.id

instance : DecidableRel listedBefore := fun r r' =>
  inferInstanceAs (Decidable (r.updatedAt < r'.updatedAt ∨ r.updatedAt = r'.updatedAt ∧ r.id ≤ r'.id))

def listTransfersByStatus (t : TransferTable) (input : ListTransfersByStatusInput) : List PaymentTransferRow :=
  let listed := t.rows.filter fun r =>
    r.status ∈ input.statuses && r.type ∈ input.types && r.signature.isSome == input.hasSignature &&
      input.updatedBefore.all (r.updatedAt < ·)
  (listed.insertionSort listedBefore).take input.limit

/-! ## Batches -/

inductive PaymentTransferBatchRecipientStatus
  | pending | processing | confirmed | failed | archived
deriving DecidableEq, Repr

structure TransferDatabase where
  transfers : TransferTable
  /-- The recipients that a transfer pays. -/
  recipients : String → List PaymentTransferBatchRecipientStatus

/-- `updateTransfer`, without the row that it returns. -/
def TransferDatabase.update (db : TransferDatabase) (input : UpdatePaymentTransferInput) :
    Except RepositoryError TransferDatabase :=
  (updateTransfer db.transfers input).map fun result => { db with transfers := result.1 }

structure SettlePaymentTransferBatchInput where
  transferId : String
  organizationId : String
  projectId : Option String
  transferStatus : PaymentTransferStatus
  error : Option String
  slot : Option Nat
  updatedAt : Nat

namespace SettlePaymentTransferBatchInput

def guard (input : SettlePaymentTransferBatchInput) (r : PaymentTransferRow) : Bool :=
  r.organizationId = input.organizationId ∧ r.projectId = input.projectId ∧ r.status = .processing

def set (input : SettlePaymentTransferBatchInput) (r : PaymentTransferRow) : PaymentTransferRow :=
  { r with
    status := input.transferStatus
    slot := input.slot.or r.slot
    error := input.error
    confirmedAt :=
      if input.transferStatus ≠ .failed then r.confirmedAt.or (some input.updatedAt) else r.confirmedAt
    updatedAt := input.updatedAt }

theorem id_set (input : SettlePaymentTransferBatchInput) (r : PaymentTransferRow) : (input.set r).id = r.id := rfl

end SettlePaymentTransferBatchInput

/-- The status of the parent batch, which this recomputes last, is left out. -/
def settleTransferBatch (db : TransferDatabase) (input : SettlePaymentTransferBatchInput) :
    Except RepositoryError TransferDatabase :=
  if db.transfers.matches? input.transferId input.guard then
    if .processing ∈ db.recipients input.transferId then
      let settled : PaymentTransferBatchRecipientStatus :=
        if input.transferStatus = .failed then .failed else .confirmed
      .ok {
        transfers := db.transfers.update input.transferId input.guard input.set input.id_set
        recipients := Function.update db.recipients input.transferId
          ((db.recipients input.transferId).map fun status => if status = .processing then settled else status) }
    else .error (.internalError "Transfer batch recipients not found for settlement")
  else .ok db

end Sdp.Payments
