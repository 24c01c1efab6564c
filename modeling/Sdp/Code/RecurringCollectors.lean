import Sdp.Code.RecurringFinalizations
import Sdp.Code.TransferTracker

/-!
# Collectors and recoverers

From `services/payments/recurring-payments/collection.ts` and `services/payments/signed-submission.ts`:
any number of calls of `collectRecurringPayment` and `recoverRecurringPaymentCollection` of one
recurring payment, over one database and one chain, with the job that tracks transfers. Each SQL
statement or transaction and each RPC call is one step, and any step may be the last of its caller.
Checks that come before an attempt exists, the policy and the building of the transaction only ever
end a call. `broadcasts` and `interrupted` are for the statements only.
-/

open Sdp.Lib

namespace Sdp.Collectors

open Payments Recurring

/-! ## Callers -/

/-- A collection that is being submitted, with the row of its `TransferSignedSubmissionStore`. -/
structure Submitting where
  attempt : CollectionAttemptRow
  transfer : PaymentTransferRow
  submission : SignedSubmission
  row : PaymentTransferRow

/-- The arguments of `handleRecurringPaymentCollectionError`. -/
structure Failing where
  attempt : CollectionAttemptRow
  transfer : Option PaymentTransferRow
  submissionStore : SubmissionStore
  submittedSignature : Option String
  error : ExecutionError

/-- The transfer and the signature that are journaled instead of a failure. -/
def Failing.journaled (f : Failing) : Option (String × String) :=
  if f.error.definite then none
  else
    (f.submissionStore.submittedRow.bind fun row => row.signature.map fun σ => (row.id, σ)).or
      (f.transfer.bind fun transfer => f.submittedSignature.map fun σ => (transfer.id, σ))

/-- Where a caller stands. -/
inductive Worker
  | idle
  /-- `recoverRecurringPaymentCollection`, with the attempt that it read, and then its transfer. -/
  | recovering (existing : CollectionAttemptRow)
  | recovered (existing : CollectionAttemptRow) (transfer : PaymentTransferRow)
  /-- What was read is stale, and is about to be marked failed as interrupted. -/
  | interrupting (existing : CollectionAttemptRow) (transfer : Option PaymentTransferRow)
      (submittedSignature : Option String) (message : String)
  /-- `collectRecurringPayment`, from the new attempt on. -/
  | claimed (attempt : CollectionAttemptRow)
  | linked (attempt : CollectionAttemptRow) (transfer : PaymentTransferRow)
  | persisted (c : Submitting)
  /-- `submitSignedPaymentTransaction`, from the first send on. -/
  | started (c : Submitting) (sawTransientFailure : Bool)
  /-- The transaction is sent; its signature is then written to the attempt, and then to the transfer. -/
  | sent (c : Submitting)
  | recorded (c : Submitting)
  | submitted (c : Submitting)
  | finalizing (input : FinalizeInput)
  | failing (f : Failing)
  /-- `journalRecurringPaymentCollectionError` with a submitted signature. -/
  | journaling (attempt : CollectionAttemptRow) (transferId signature : String)
  | done

namespace Submitting

def started (c : Submitting) : SubmissionStore := ⟨some c.row, .started⟩

/-- An error after `submittedSignature` is set. -/
def failing (c : Submitting) (error : ExecutionError) : Worker :=
  .failing ⟨c.attempt, some c.transfer, c.started, some c.submission.signature, error⟩

end Submitting

/-- An error before that. -/
def failingUnsent (attempt : CollectionAttemptRow) (transfer : Option PaymentTransferRow) (store : SubmissionStore)
    (error : ExecutionError) : Worker :=
  .failing ⟨attempt, transfer, store, none, error⟩

/-! ## The system -/

/-- How `sendTransaction` ends. -/
inductive SendOutcome
  | accepted
  /-- A transient error; the node may have the transaction. -/
  | transient (reached : Bool)
  /-- A preflight failure. -/
  | rejected (message : String)
  /-- Any other error, or the last of the retries. -/
  | gaveUp (reached : Bool) (message : String)
deriving DecidableEq, Repr

structure System where
  now : Nat
  db : CollectionDatabase
  chain : Chain
  workers : Nat → Worker
  /-- The attempts whose transaction was sent to a node that has it. -/
  broadcasts : List String
  /-- The attempts that recovery marked failed as interrupted. -/
  interrupted : List String

inductive Step
  | elapse (ms blocks : Nat)
  | land (signature : String) (err : Option String)
  | track (transferId : String) (expectedStatus status : PaymentTransferStatus)
  | create (worker : Nat) (attemptId : String) (dueAt : Nat)
  | link (worker : Nat) (transferId : String) (outcome : CallOutcome)
  | persist (worker : Nat) (submission : SignedSubmission) (outcome : CallOutcome)
  | start (worker : Nat) (outcome : CallOutcome)
  | send (worker : Nat) (outcome : SendOutcome)
  | recordAttempt (worker : Nat)
  | recordTransfer (worker : Nat)
  /-- `confirmSubscriptionSignature` and `verifyRecurringPaymentCollection` -/
  | verify (worker : Nat) (destinationTokenAccount : String)
  /-- The transaction is on the chain, with an error. -/
  | failOnChain (worker : Nat)
  | finalize (worker : Nat) (fallbacks : Fallbacks)
  | fail (worker : Nat) (message : String)
  /-- `hasStarted`, which the submission asks after an error of `markStarted`. -/
  | hasStarted (worker : Nat)
  | handle (worker : Nat)
  | journalAttempt (worker : Nat)
  | journalTransfer (worker : Nat)
  | recover (worker : Nat) (dueAt : Nat)
  | readTransfer (worker : Nat)
  /-- `isStaleCollectionAttempt` of an attempt that looks interrupted. -/
  | judge (worker : Nat)
  | interrupt (worker : Nat)
  | crash (worker : Nat)

/-! ## Statements of the collector -/

def newAttempt (db : CollectionDatabase) (id : String) (dueAt now : Nat) : CollectionAttemptRow where
  id := id
  subscriptionId := db.subscription.id
  transferId := none
  dueAt := dueAt
  status := .processing
  signature := none
  error := none
  updatedAt := now

def newTransfer (db : CollectionDatabase) : CreatePaymentTransferInput where
  organizationId := db.recurringPayment.organizationId
  projectId := some db.recurringPayment.projectId
  type := .transfer

def linkUpdate (attempt : CollectionAttemptRow) (transferId : String) (now : Nat) : UpdateCollectionAttemptInput where
  attemptId := attempt.id
  transferId := some transferId
  status := some .processing
  updatedAt := now

/-- The transaction that creates the transfer and links it. -/
def linkTransfer (db : CollectionDatabase) (attempt : CollectionAttemptRow) (transferId : String) (now : Nat) :
    Except RepositoryError (CollectionDatabase × CollectionAttemptRow × PaymentTransferRow) :=
  let transfers := createTransfer db.transfers transferId (newTransfer db) now
  match updateCollectionAttempt db.attempts (linkUpdate attempt transferId now) with
  | .error e => .error e
  | .ok (_, none) => .error (.internalError "Failed to link collection attempt to transfer")
  | .ok (attempts, some linkedAttempt) =>
    .ok ({ db with attempts, transfers }, linkedAttempt, createdTransfer transferId (newTransfer db) now)

/-- The database after a call, and its answer or the error that the caller saw. -/
def answer {α : Type} (outcome : CallOutcome) (db : CollectionDatabase)
    (result : Except RepositoryError (CollectionDatabase × α)) : CollectionDatabase × Except ExecutionError α :=
  match outcome, result with
  | .answered, .ok (db', a) => (db', .ok a)
  | .answered, .error (.internalError message) => (db, .error ⟨message, false⟩)
  | .lost, .ok (db', _) => (db', .error callFailed)
  | _, _ => (db, .error callFailed)

def persistSigned (db : CollectionDatabase) (transfer : PaymentTransferRow) (submission : SignedSubmission) (now : Nat) :
    Except RepositoryError (CollectionDatabase × Option PaymentTransferRow) :=
  (persistSignedTransfer db.transfers transfer.id transfer.organizationId transfer.projectId submission now).map
    fun result => ({ db with transfers := result.1 }, result.2)

def markStarted (db : CollectionDatabase) (transfer : PaymentTransferRow) (now : Nat) :
    Except RepositoryError (CollectionDatabase × Option PaymentTransferRow) :=
  let result := markTransferSubmissionStarted db.transfers transfer.id transfer.organizationId transfer.projectId now
  .ok ({ db with transfers := result.1 }, result.2)

/-- After the transaction is sent. -/
def recordUpdate (c : Submitting) (now : Nat) : UpdateCollectionAttemptInput where
  attemptId := c.attempt.id
  status := some .processing
  signature := some c.submission.signature
  error := some none
  updatedAt := now

def journalUpdate (attempt : CollectionAttemptRow) (transferId signature : String) (now : Nat) :
    UpdateCollectionAttemptInput where
  attemptId := attempt.id
  transferId := some transferId
  signature := some signature
  updatedAt := now

def writeAttemptSignature (db : CollectionDatabase) (input : UpdateCollectionAttemptInput) :
    Except RepositoryError (CollectionDatabase × Option CollectionAttemptRow) :=
  (updateCollectionAttempt db.attempts input).map fun result => ({ db with attempts := result.1 }, result.2)

def signatureUpdate (db : CollectionDatabase) (transferId signature : String) (error : Option (Option String))
    (now : Nat) : UpdatePaymentTransferInput where
  transferId := transferId
  organizationId := some db.recurringPayment.organizationId
  projectId := some (some db.recurringPayment.projectId)
  signature := some signature
  error := error
  updatedAt := now

def writeTransferSignature (db : CollectionDatabase) (input : UpdatePaymentTransferInput) :
    Except RepositoryError (CollectionDatabase × Option PaymentTransferRow) :=
  (updateTransfer db.transfers input).map fun result => ({ db with transfers := result.1 }, result.2)

/-! ## Recovery -/

def interruptedBeforeTransfer : String := "Recurring payment collection was interrupted before transfer creation"
def interruptedBeforeSubmission : String := "Recurring payment collection was interrupted before submission"
def interruptedBeforeBroadcast : String := "Recurring payment collection was interrupted before broadcast"
def failedOnChain : String := "Recurring payment collection failed on-chain"

/-- `storedSignature`, unless the two do not match. -/
def storedSignature (existing : CollectionAttemptRow) (transfer : PaymentTransferRow) : Option String :=
  (existing.signature.or transfer.signature).filter fun σ => transfer.signature.all (· = σ)

/-- Signed and settled as failed before it was started. -/
def failedUnstarted (transfer : PaymentTransferRow) : Bool :=
  transfer.status = .failed && transfer.signedTransaction.isSome && transfer.lastValidBlockHeight.isSome &&
    transfer.submissionStartedAt.isNone

namespace System

def setWorker (s : System) (worker : Nat) (w : Worker) : System :=
  { s with workers := Function.update s.workers worker w }

/-- The commit of a failed collection, after which the caller ends. -/
def markFailed (s : System) (worker : Nat) (attempt : CollectionAttemptRow) (transfer : Option PaymentTransferRow)
    (submittedSignature : Option String) (message : String) : System :=
  match markRecurringPaymentCollectionFailedAtomically s.db attempt transfer submittedSignature message s.now with
  | .ok db => { s with db }.setWorker worker .done
  | .error _ => s.setWorker worker .done

/-- `markFailed` of what recovery takes for interrupted. -/
def markInterrupted (s : System) (worker : Nat) (existing : CollectionAttemptRow) (transfer : Option PaymentTransferRow)
    (submittedSignature : Option String) (message : String) : System :=
  match markRecurringPaymentCollectionFailedAtomically s.db existing transfer submittedSignature message s.now with
  | .ok db =>
    let interrupted :=
      if (db.attempts.find? existing.id).any (·.status = .failed) then existing.id :: s.interrupted else s.interrupted
    { s with db, interrupted }.setWorker worker .done
  | .error _ => s.setWorker worker .done

def broadcast (s : System) (c : Submitting) (reached : Bool) : System :=
  if reached then { s with chain := s.chain.send c.submission, broadcasts := c.attempt.id :: s.broadcasts } else s

def step (s : System) : Step → Option System
  | .elapse ms blocks => some { s with now := s.now + ms, chain := { s.chain with height := s.chain.height + blocks } }
  | .land signature err => (s.chain.land? signature err).map fun chain => { s with chain }
  | .track transferId expectedStatus status =>
    if (expectedStatus, status) ∈ trackedStatuses then
      match updateTransfer s.db.transfers
          { transferId, expectedStatus := some expectedStatus, status := some status, updatedAt := s.now } with
      | .ok (transfers, _) => some { s with db := { s.db with transfers } }
      | .error _ => none
    else none
  | .create worker attemptId dueAt =>
    match s.workers worker, s.db.attempts.find? attemptId with
    | .idle, none =>
      let attempts := createCollectionAttempt s.db.attempts (newAttempt s.db attemptId dueAt s.now)
      let t := { s with db := { s.db with attempts } }
      -- An attempt that is in the way is left to recovery.
      match attempts.find? attemptId with
      | some attempt => some (t.setWorker worker (.claimed attempt))
      | none => some t
    | _, _ => none
  | .link worker transferId outcome =>
    match s.workers worker, s.db.transfers.find? transferId with
    | .claimed attempt, none =>
      match answer outcome s.db (linkTransfer s.db attempt transferId s.now) with
      | (db, .ok (attempt, transfer)) => some ({ s with db }.setWorker worker (.linked attempt transfer))
      | (db, .error error) => some ({ s with db }.setWorker worker (failingUnsent attempt none .fresh error))
    | _, _ => none
  | .persist worker submission outcome =>
    match s.workers worker with
    | .linked attempt transfer =>
      match answer outcome s.db (persistSigned s.db transfer submission s.now) with
      | (db, .ok (some row)) => some ({ s with db }.setWorker worker (.persisted ⟨attempt, transfer, submission, row⟩))
      | (db, .ok none) => some ({ s with db }.setWorker worker (failingUnsent attempt (some transfer) .fresh notPersisted))
      | (db, .error error) => some ({ s with db }.setWorker worker (failingUnsent attempt (some transfer) .fresh error))
    | _ => none
  | .start worker outcome =>
    match s.workers worker with
    | .persisted c =>
      let failing := failingUnsent c.attempt (some c.transfer) ⟨some c.row, .unknown⟩
      match answer outcome s.db (markStarted s.db c.transfer s.now) with
      | (db, .ok (some row)) => some ({ s with db }.setWorker worker (.started { c with row } false))
      | (db, .ok none) => some ({ s with db }.setWorker worker (failing notStarted))
      | (db, .error error) => some ({ s with db }.setWorker worker (failing error))
    | _ => none
  | .send worker outcome =>
    match s.workers worker with
    | .started c sawTransientFailure =>
      let failing := failingUnsent c.attempt (some c.transfer) c.started
      match outcome with
      | .accepted => some ((s.broadcast c true).setWorker worker (.sent c))
      | .transient reached => some ((s.broadcast c reached).setWorker worker (.started c true))
      | .rejected message => some (s.setWorker worker (failing ⟨message, !sawTransientFailure⟩))
      | .gaveUp reached message => some ((s.broadcast c reached).setWorker worker (failing ⟨message, false⟩))
    | _ => none
  | .recordAttempt worker =>
    match s.workers worker with
    | .sent c =>
      match writeAttemptSignature s.db (recordUpdate c s.now) with
      | .ok (db, row) => some ({ s with db }.setWorker worker (.recorded { c with attempt := row.getD c.attempt }))
      | .error _ => some (s.setWorker worker (c.failing callFailed))
    | _ => none
  | .recordTransfer worker =>
    match s.workers worker with
    | .recorded c =>
      match writeTransferSignature s.db (signatureUpdate s.db c.transfer.id c.submission.signature (some none) s.now) with
      | .ok (db, some transfer) => some ({ s with db }.setWorker worker (.submitted { c with transfer }))
      | .ok (_, none) => some (s.setWorker worker (c.failing ⟨"Failed to update collection transfer", false⟩))
      | .error _ => some (s.setWorker worker (c.failing callFailed))
    | _ => none
  | .verify worker destinationTokenAccount =>
    match s.workers worker with
    | .submitted c =>
      (verifyStoredRows s.db c.attempt c.transfer destinationTokenAccount).map fun input =>
        s.setWorker worker (.finalizing input)
    | .recovered existing transfer =>
      if failedUnstarted transfer then none
      else
        (verifyStoredRows s.db existing transfer destinationTokenAccount).map fun input =>
          s.setWorker worker (.finalizing input)
    | _ => none
  | .failOnChain worker =>
    match s.workers worker with
    | .submitted c =>
      if (s.chain.landed c.submission.signature).any (·.isSome) then
        some (s.setWorker worker (c.failing ⟨failedOnChain, true⟩))
      else none
    | .recovered existing transfer =>
      match storedSignature existing transfer with
      | some σ =>
        if !failedUnstarted transfer && (s.chain.landed σ).any (·.isSome) then
          some (s.markFailed worker existing (some transfer) (some σ) failedOnChain)
        else none
      | none => none
    | _ => none
  | .finalize worker fallbacks =>
    match s.workers worker with
    | .finalizing input =>
      (finalizeRecurringPaymentCollection s.db input fallbacks s.now).map fun
        | .ok db => { s with db }.setWorker worker .done
        | .error _ => s.setWorker worker (.journaling input.attempt input.transfer.id input.proof.signature)
    | _ => none
  | .fail worker message =>
    let error : ExecutionError := ⟨message, false⟩
    match s.workers worker with
    | .claimed attempt => some (s.setWorker worker (failingUnsent attempt none .fresh error))
    | .linked attempt transfer => some (s.setWorker worker (failingUnsent attempt (some transfer) .fresh error))
    | .persisted c =>
      some (s.setWorker worker (failingUnsent c.attempt (some c.transfer) ⟨some c.row, .notStarted⟩ error))
    | .sent c | .recorded c | .submitted c => some (s.setWorker worker (c.failing error))
    | .recovered existing transfer =>
      if failedUnstarted transfer then none
      else
        (storedSignature existing transfer).map fun σ =>
          s.setWorker worker (.journaling existing transfer.id σ)
    | _ => none
  | .hasStarted worker =>
    match s.workers worker with
    | .failing f =>
      match f.transfer, f.submissionStore.startState with
      | some transfer, .unknown =>
        let current := getTransferById s.db.transfers transfer.id transfer.organizationId transfer.projectId
        some (s.setWorker worker (.failing { f with submissionStore := f.submissionStore.refresh current }))
      | _, _ => none
    | _ => none
  | .handle worker =>
    match s.workers worker with
    | .failing f =>
      match f.journaled with
      | some (transferId, σ) => some (s.setWorker worker (.journaling f.attempt transferId σ))
      | none => some (s.markFailed worker f.attempt f.transfer f.submittedSignature f.error.message)
    | _ => none
  | .journalAttempt worker =>
    match s.workers worker with
    | .journaling attempt transferId signature =>
      match writeAttemptSignature s.db (journalUpdate attempt transferId signature s.now) with
      | .ok (db, _) => some { s with db }
      | .error _ => some s
    | _ => none
  | .journalTransfer worker =>
    match s.workers worker with
    | .journaling _ transferId signature =>
      match writeTransferSignature s.db (signatureUpdate s.db transferId signature none s.now) with
      | .ok (db, _) => some { s with db }
      | .error _ => some s
    | _ => none
  | .recover worker dueAt =>
    match s.workers worker, getCollectionAttemptByDue s.db.attempts s.db.subscription.id dueAt with
    | .idle, some existing => some (s.setWorker worker (.recovering existing))
    | _, _ => none
  | .readTransfer worker =>
    match s.workers worker with
    | .recovering existing => do
      let transferId ← existing.transferId
      let transfer ← getTransferById s.db.transfers transferId s.db.recurringPayment.organizationId
        (some s.db.recurringPayment.projectId)
      some (s.setWorker worker (.recovered existing transfer))
    | _ => none
  | .judge worker =>
    match s.workers worker with
    | .recovering existing =>
      if existing.transferId = none ∧ isStaleCollectionAttempt s.now existing then
        some (s.setWorker worker (.interrupting existing none none interruptedBeforeTransfer))
      else none
    | .recovered existing transfer =>
      if ¬ isStaleCollectionAttempt s.now existing then none
      else if existing.signature = none ∧ transfer.signature = none then
        some (s.setWorker worker (.interrupting existing (some transfer) none interruptedBeforeSubmission))
      else if failedUnstarted transfer then
        (storedSignature existing transfer).map fun σ =>
          s.setWorker worker (.interrupting existing (some transfer) (some σ) interruptedBeforeBroadcast)
      else none
    | _ => none
  | .interrupt worker =>
    match s.workers worker with
    | .interrupting existing transfer submittedSignature message =>
      some (s.markInterrupted worker existing transfer submittedSignature message)
    | _ => none
  | .crash worker => some (s.setWorker worker .done)

end System

end Sdp.Collectors
