import Sdp.Code.Transfers
import Mathlib.Logic.Function.Basic

/-!
# Submission and reconciliation of transfers

From `services/payments/signed-submission.ts`, `routes/payments/handlers/transfers.ts`,
`routes/payments/handlers/transfer-batches/execute.ts` and
`services/jobs/track-pending-transfers.ts`: the request that submits each transfer and any number of
tracker runs over one database and one chain. Each SQL statement and each RPC call is one step. The
third pass of a tracker run, which only upgrades confirmed transfers, is left out, and so are the
logs.
-/

namespace Sdp.Payments

/-! ## The chain -/

inductive ConfirmationStatus
  | processed | confirmed | finalized
deriving DecidableEq, Repr

/-- `err` is the JSON text of the error. -/
structure SignatureStatusInfo where
  slot : Nat
  err : Option String
  confirmationStatus : Option ConfirmationStatus
deriving DecidableEq

structure Chain where
  /-- The confirmed block height. -/
  height : Nat
  /-- The last valid block height of a broadcast transaction. -/
  sent : String → Option Nat
  /-- The execution error, if any, of a transaction that landed. -/
  landed : String → Option (Option String)

namespace Chain

def send (c : Chain) (submission : SignedSubmission) : Chain :=
  { c with sent := Function.update c.sent submission.signature (some submission.lastValidBlockHeight) }

/-- A transaction cannot land past its last valid block height, nor twice. -/
def land? (c : Chain) (signature : String) (err : Option String) : Option Chain :=
  if (c.sent signature).any (c.height ≤ ·) ∧ c.landed signature = none then
    some { c with landed := Function.update c.landed signature (some err) }
  else none

/-- What an RPC node may answer of a transaction. A cache may answer null of any transaction. -/
def reports (c : Chain) (signature : Option String) : Option SignatureStatusInfo → Bool
  | none => true
  | some info => signature.any fun σ => c.landed σ = some info.err

/-- An archive answers null only of a transaction that did not land. -/
def archives (c : Chain) (signature : Option String) (status : Option SignatureStatusInfo) : Bool :=
  c.reports signature status && (status.isSome || signature.all fun σ => c.landed σ = none)

end Chain

/-- How a call ends for its caller. A `lost` one took effect and the caller saw an error. -/
inductive CallOutcome
  | answered | failed | lost
deriving DecidableEq, Repr

/-- The database after a call, and the answer unless the caller saw an error. -/
def CallOutcome.apply {α : Type} (outcome : CallOutcome) (db : TransferDatabase)
    (result : Except RepositoryError (TransferDatabase × α)) : TransferDatabase × Option α :=
  match outcome, result with
  | .answered, .ok (db', answer) => (db', some answer)
  | .lost, .ok (db', _) => (db', none)
  | _, _ => (db, none)

/-! ## The submitting request -/

inductive StartState
  | notStarted | unknown | started
deriving DecidableEq, Repr

/-- `definite` when the error proves that the transaction cannot land. -/
structure ExecutionError where
  message : String
  definite : Bool
deriving DecidableEq

/-- `createTransferSignedSubmissionStore`: the row that it last read and what it knows of the start marker. -/
structure SubmissionStore where
  row : Option PaymentTransferRow
  startState : StartState

namespace SubmissionStore

def fresh : SubmissionStore := ⟨none, .notStarted⟩

def submittedRow (store : SubmissionStore) : Option PaymentTransferRow :=
  if store.startState = .notStarted then none else store.row

end SubmissionStore

/-- Where the request of a transfer stands. -/
inductive Submission
  | idle
  | created (transfer : PaymentTransferRow)
  | persisted (transfer : PaymentTransferRow) (submission : SignedSubmission) (store : SubmissionStore)
  /-- `submitSignedPaymentTransaction`, from the first send on. -/
  | started (transfer : PaymentTransferRow) (submission : SignedSubmission) (store : SubmissionStore)
  | failing (transfer : PaymentTransferRow) (store : SubmissionStore) (error : ExecutionError)
  | done

def notPersisted : ExecutionError := ⟨"Payment transfer signed submission was not persisted", false⟩
def notStarted : ExecutionError := ⟨"Payment transfer submission was not started", false⟩
/-- An error of the database or of the connection to it. -/
def callFailed : ExecutionError := ⟨"Unknown transfer error", false⟩

/-- The request after `persistSigned`. -/
def afterPersist (transfer : PaymentTransferRow) (submission : SignedSubmission) :
    Option (Option PaymentTransferRow) → Submission
  | some (some row) => .persisted transfer submission ⟨some row, .notStarted⟩
  | some none => .failing transfer ⟨none, .notStarted⟩ notPersisted
  | none => .failing transfer .fresh callFailed

/-- The request after `markStarted`. -/
def afterStart (transfer : PaymentTransferRow) (submission : SignedSubmission) (store : SubmissionStore) :
    Option (Option PaymentTransferRow) → Submission
  | some (some row) => .started transfer submission ⟨some row, .started⟩
  | some none => .failing transfer { store with startState := .unknown } notStarted
  | none => .failing transfer { store with startState := .unknown } callFailed

/-- The store after `hasStarted` read the row. -/
def SubmissionStore.refresh (store : SubmissionStore) (current : Option PaymentTransferRow) : SubmissionStore where
  row := current.or store.row
  startState := if current.any (·.submissionStartedAt.isSome) then .started else .notStarted

/-- Without the row that it returns. -/
def updateTransferRecord (db : TransferDatabase) (transfer : PaymentTransferRow) (status : PaymentTransferStatus)
    (signature : Option String) (slot : Option Nat) (error : Option String) (now : Nat) :
    Except RepositoryError TransferDatabase :=
  db.update
    { transferId := transfer.id, organizationId := some transfer.organizationId, projectId := some transfer.projectId
      expectedStatus := some .processing, status := some status, signature, slot, error := some error
      updatedAt := now }

def failChunk (db : TransferDatabase) (transfer : PaymentTransferRow) (error : String) (now : Nat) :
    Except RepositoryError TransferDatabase :=
  settleTransferBatch db
    { transferId := transfer.id, organizationId := transfer.organizationId, projectId := transfer.projectId
      transferStatus := .failed, error := some error, slot := none, updatedAt := now }

/-- `settleTransferExecutionFailure`, and what a batch chunk does in its place. -/
def settleTransferExecutionFailure (db : TransferDatabase) (transfer : PaymentTransferRow)
    (store : SubmissionStore) (error : ExecutionError) (now : Nat) : Except RepositoryError TransferDatabase :=
  let submitted := store.submittedRow
  if submitted.isSome ∧ ¬ error.definite then .ok db
  else if transfer.type = .transferBatch then failChunk db transfer error.message now
  else updateTransferRecord db transfer .failed (submitted.bind (·.signature)) none (some error.message) now

/-! ## What a tracker run writes -/

def stuckProcessingAfterMs : Nat := 5 * 60 * 1000
def maxSignaturesPerBatch : Nat := 256

def hasSignedSubmission (transfer : PaymentTransferRow) : Bool :=
  transfer.signedTransaction.isSome && transfer.lastValidBlockHeight.isSome

/-- The input of `updateTerminalTransfer`. -/
structure TerminalUpdate where
  status : PaymentTransferStatus
  slot : Option Nat := none
  error : Option String := none
deriving DecidableEq

def updateTerminalTransfer (db : TransferDatabase) (transfer : PaymentTransferRow) (input : TerminalUpdate)
    (updatedAt : Nat) : Except RepositoryError TransferDatabase :=
  if transfer.type = .transferBatch then
    if transfer.projectId = none then .error (.internalError "Transfer batch transfer is missing a project")
    else settleTransferBatch db
      { transferId := transfer.id, organizationId := transfer.organizationId, projectId := transfer.projectId
        transferStatus := input.status
        error := if input.status = .failed then input.error else none
        slot := input.slot, updatedAt }
  else
    db.update
      { transferId := transfer.id, expectedStatus := some .processing, status := some input.status
        slot := input.slot, error := input.error.map some, updatedAt }

/-- What `applyOnChainVerdict` writes, if anything: `processed` is too weak to record. -/
def onChainVerdict : Option SignatureStatusInfo → Option TerminalUpdate
  | none => some { status := .failed, error := some "Transaction not found on chain" }
  | some info =>
    match info.err with
    | some err => some { status := .failed, slot := some info.slot, error := some err }
    | none =>
      match info.confirmationStatus with
      | some .finalized => some { status := .finalized, slot := some info.slot }
      | some .confirmed => some { status := .confirmed, slot := some info.slot }
      | _ => none

/-- `unresolvedReasonForStatus` is `processed_only`. -/
def processedOnly (status : Option SignatureStatusInfo) : Bool :=
  status.any fun info => info.err.isNone && info.confirmationStatus = some .processed

/-- One write of a tracker run, with the row that it read. -/
inductive TrackerWrite
  /-- `recoverStuckProcessingTransfers` -/
  | timeOut (transfer : PaymentTransferRow)
  /-- `applyOnChainVerdict` -/
  | verdict (transfer : PaymentTransferRow) (status : Option SignatureStatusInfo)
  /-- `keepStartedSubmissionForReconciliation`, and the rotation of a row with an invalid signature. -/
  | keep (transfer : PaymentTransferRow)

namespace TrackerWrite

def transfer : TrackerWrite → PaymentTransferRow
  | timeOut transfer | verdict transfer _ | keep transfer => transfer

/-- `none` when there is nothing to write. -/
def exec (db : TransferDatabase) (nowIso : Nat) : TrackerWrite → Option (Except RepositoryError TransferDatabase)
  | timeOut transfer =>
    some (updateTerminalTransfer db transfer
      { status := .failed, error := some "Transfer processing timed out" } nowIso)
  | verdict transfer status =>
    (onChainVerdict status).map fun input => updateTerminalTransfer db transfer input nowIso
  | keep transfer =>
    some (db.update { transferId := transfer.id, expectedStatus := some .processing, updatedAt := nowIso })

/-- What follows a write that did nothing or failed. -/
def unresolved : TrackerWrite → List TrackerWrite
  | verdict transfer status =>
    if processedOnly status && !hasSignedSubmission transfer then [] else [.keep transfer]
  | timeOut _ | keep _ => []

end TrackerWrite

/-! ## A tracker run -/

/-- What a tracker run does once its writes are through. -/
inductive TrackerPhase
  | listSigned
  /-- `getSignatureStatuses` of the signed rows. -/
  | poll (processingWithSig : List PaymentTransferRow)
  /-- The legacy rows among the cache misses. -/
  | sweep (cacheMisses : List PaymentTransferRow)
  /-- `getBlockHeight` -/
  | measure (signedSubmissions : List PaymentTransferRow)
  /-- `getArchivedStatuses` -/
  | archive (archivalCandidates : List PaymentTransferRow)
  | finish

structure TrackerRun where
  nowIso : Nat
  writes : List TrackerWrite
  next : TrackerPhase

/-- The statuses of the rows. A missing one is null. -/
def withStatuses : List PaymentTransferRow → List (Option SignatureStatusInfo) →
    List (PaymentTransferRow × Option SignatureStatusInfo)
  | [], _ => []
  | row :: rows, [] => (row, none) :: withStatuses rows []
  | row :: rows, status :: statuses => (row, status) :: withStatuses rows statuses

namespace TrackerRun

def start (t : TransferTable) (now : Nat) : TrackerRun where
  nowIso := now
  writes := (listTransfersByStatus t
    { statuses := [.processing], types := walletTransferTypes, hasSignature := false
      updatedBefore := some (now - stuckProcessingAfterMs), limit := maxSignaturesPerBatch }).map .timeOut
  next := .listSigned

/-- `partitionByValidStoredSignature`. The rows with an invalid signature only rotate. -/
def afterList (run : TrackerRun) (isSignature : String → Bool) (t : TransferTable) : TrackerRun :=
  let listed := listTransfersByStatus t
    { statuses := [.processing], types := walletTransferTypes, hasSignature := true
      updatedBefore := none, limit := maxSignaturesPerBatch }
  let valid := listed.filter fun row => row.signature.any isSignature
  { run with
    writes := (listed.filter fun row => !row.signature.any isSignature).map .keep
    next := if valid = [] then .finish else .poll valid }

/-- The verdicts of the recent cache. -/
def afterPoll (run : TrackerRun) (rows : List (PaymentTransferRow × Option SignatureStatusInfo)) : TrackerRun :=
  { run with
    writes := (rows.filter (·.2.isSome)).map fun row => .verdict row.1 row.2
    next := .sweep ((rows.filter (·.2.isNone)).map Prod.fst) }

/-- A cache miss is a null verdict of a legacy row, once the row is old. -/
def afterSweep (run : TrackerRun) (cacheMisses : List PaymentTransferRow) (now : Nat) : TrackerRun :=
  let signed := cacheMisses.filter hasSignedSubmission
  { run with
    writes := (cacheMisses.filter fun row =>
      !hasSignedSubmission row && stuckProcessingAfterMs < now - row.updatedAt).map (.verdict · none)
    next := if signed = [] then .finish else .measure signed }

/-- An expired submission that never started is a null verdict. -/
def afterMeasure (run : TrackerRun) (signed : List PaymentTransferRow) : Option Nat → TrackerRun
  | none => { run with writes := signed.map .keep, next := .finish }
  | some currentBlockHeight =>
    let expired := signed.filter fun row => row.lastValidBlockHeight.any (· < currentBlockHeight)
    { run with
      writes := (expired.filter (·.submissionStartedAt.isNone)).map (.verdict · none)
      next := .archive (expired.filter (·.submissionStartedAt.isSome)) }

/-- A row that the archive does not know either is kept. -/
def afterArchive (run : TrackerRun) (candidates : List PaymentTransferRow) :
    Option (List (PaymentTransferRow × Option SignatureStatusInfo)) → TrackerRun
  | none => { run with writes := candidates.map .keep, next := .finish }
  | some rows =>
    { run with
      writes := rows.map fun row => if row.2.isSome then .verdict row.1 row.2 else .keep row.1
      next := .finish }

end TrackerRun

/-! ## All of it -/

structure System where
  db : TransferDatabase
  chain : Chain
  /-- The request that submits each transfer. -/
  requests : String → Submission
  runs : Nat → Option TrackerRun
  /-- The transfers that a tracker run marked failed. No step reads it. -/
  markedFailed : String → Bool

namespace System

def setRequest (s : System) (id : String) (request : Submission) : System :=
  { s with requests := Function.update s.requests id request }

def setRun (s : System) (j : Nat) (run : Option TrackerRun) : System :=
  { s with runs := Function.update s.runs j run }

end System

def isFailed (t : TransferTable) (id : String) : Bool := (t.find? id).any (·.status = .failed)

/-- What the request of a transfer does. -/
inductive RequestEvent
  | create (input : CreatePaymentTransferInput) (recipients now : Nat)
  | persistSigned (submission : SignedSubmission) (now : Nat) (outcome : CallOutcome)
  | markStarted (now : Nat) (outcome : CallOutcome)
  | hasStarted
  | broadcast
  | confirm (slot now : Nat) (outcome : CallOutcome)
  /-- Any other call of the request failed. -/
  | fail (error : ExecutionError)
  | settleFailure (now : Nat) (outcome : CallOutcome)
  /-- The request returned or its process died. -/
  | stop

inductive ChainEvent
  | grow (blocks : Nat)
  | land (signature : String) (err : Option String)

/-- What a tracker run does. -/
inductive TrackerEvent
  | track (now : Nat)
  | write (outcome : CallOutcome)
  | listSigned
  | poll (statuses : Option (List (Option SignatureStatusInfo)))
  | sweep (now : Nat)
  | measure (currentBlockHeight : Option Nat)
  | archive (statuses : Option (List (Option SignatureStatusInfo)))
  /-- The run ended or its process died. -/
  | abort

inductive TransferEvent
  | request (id : String) (e : RequestEvent)
  | chain (e : ChainEvent)
  | run (j : Nat) (e : TrackerEvent)

def requestStep (s : System) (id : String) : RequestEvent → Option System
  | .create input recipients now =>
    match s.requests id, s.db.transfers.find? id with
    | .idle, none =>
      let db : TransferDatabase := {
        transfers := createTransfer s.db.transfers id input now
        recipients := Function.update s.db.recipients id (List.replicate recipients .processing) }
      some ({ s with db }.setRequest id (.created (createdTransfer id input now)))
    | _, _ => none
  | .persistSigned submission now outcome =>
    match s.requests id with
    | .created transfer =>
      let result := outcome.apply s.db
        ((persistSignedTransfer s.db.transfers transfer.id transfer.organizationId transfer.projectId submission
          now).map
          fun result => ({ s.db with transfers := result.1 }, result.2))
      some ({ s with db := result.1 }.setRequest id (afterPersist transfer submission result.2))
    | _ => none
  | .markStarted now outcome =>
    match s.requests id with
    | .persisted transfer submission store =>
      let started :=
        markTransferSubmissionStarted s.db.transfers transfer.id transfer.organizationId transfer.projectId now
      let result := outcome.apply s.db (.ok ({ s.db with transfers := started.1 }, started.2))
      some ({ s with db := result.1 }.setRequest id (afterStart transfer submission store result.2))
    | _ => none
  | .hasStarted =>
    match s.requests id with
    | .failing transfer store error =>
      if store.startState = .unknown then
        some (s.setRequest id (.failing transfer (store.refresh
          (getTransferById s.db.transfers transfer.id transfer.organizationId transfer.projectId)) error))
      else none
    | _ => none
  | .broadcast =>
    match s.requests id with
    | .started _ submission _ => some { s with chain := s.chain.send submission }
    | _ => none
  | .confirm slot now outcome =>
    match s.requests id with
    | .started transfer submission store =>
      if transfer.type ≠ .transferBatch ∧ s.chain.landed submission.signature = some none then
        let result := outcome.apply s.db
          ((updateTransferRecord s.db transfer .confirmed (some submission.signature) (some slot) none now).map
            (·, ()))
        some ({ s with db := result.1 }.setRequest id
          (if result.2.isSome then .done else .failing transfer store callFailed))
      else none
    | _ => none
  | .fail error =>
    match s.requests id with
    | .created transfer => some (s.setRequest id (.failing transfer .fresh error))
    | .persisted transfer _ store => some (s.setRequest id (.failing transfer store error))
    | .started transfer _ store => some (s.setRequest id (.failing transfer store error))
    | _ => none
  | .settleFailure now outcome =>
    match s.requests id with
    | .failing transfer store error =>
      let result := outcome.apply s.db ((settleTransferExecutionFailure s.db transfer store error now).map (·, ()))
      some ({ s with db := result.1 }.setRequest id .done)
    | _ => none
  | .stop =>
    match s.requests id with
    | .idle => none
    | _ => some (s.setRequest id .done)

def chainStep (c : Chain) : ChainEvent → Option Chain
  | .grow blocks => some { c with height := c.height + blocks }
  | .land signature err => c.land? signature err

/-- A run whose writes are through, at its next phase. -/
def phaseStep (isSignature : String → Bool) (s : System) (run : TrackerRun) : TrackerEvent → Option TrackerRun
  | .listSigned =>
    match run.next with
    | .listSigned => some (run.afterList isSignature s.db.transfers)
    | _ => none
  | .poll statuses =>
    match run.next with
    | .poll rows =>
      match statuses with
      | none => some { run with next := .finish }
      | some statuses =>
        if (withStatuses rows statuses).all fun row => s.chain.reports row.1.signature row.2 then
          some (run.afterPoll (withStatuses rows statuses))
        else none
    | _ => none
  | .sweep now =>
    match run.next with
    | .sweep cacheMisses => some (run.afterSweep cacheMisses now)
    | _ => none
  | .measure currentBlockHeight =>
    match run.next with
    | .measure signed =>
      if currentBlockHeight.all (· ≤ s.chain.height) then some (run.afterMeasure signed currentBlockHeight) else none
    | _ => none
  | .archive statuses =>
    match run.next with
    | .archive candidates =>
      match statuses with
      | none => some (run.afterArchive candidates none)
      | some statuses =>
        if statuses.length = candidates.length ∧
            (withStatuses candidates statuses).all fun row => s.chain.archives row.1.signature row.2 then
          some (run.afterArchive candidates (some (withStatuses candidates statuses)))
        else none
    | _ => none
  | .track _ | .write _ | .abort => none

/-- The first write of a run. -/
def writeStep (s : System) (j : Nat) (run : TrackerRun) (w : TrackerWrite) (writes : List TrackerWrite)
    (outcome : CallOutcome) : System :=
  match w.exec s.db run.nowIso with
  | none => s.setRun j (some { run with writes := w.unresolved ++ writes })
  | some written =>
    let result := outcome.apply s.db (written.map (·, ()))
    let markedFailed (id : String) : Bool :=
      s.markedFailed id || isFailed result.1.transfers id && !isFailed s.db.transfers id
    { s with db := result.1, markedFailed }.setRun j
      (some { run with writes := if result.2.isSome then writes else w.unresolved ++ writes })

def trackerStep (isSignature : String → Bool) (s : System) (j : Nat) (e : TrackerEvent) : Option System :=
  match s.runs j, e with
  | none, .track now => some (s.setRun j (some (.start s.db.transfers now)))
  | some _, .abort => some (s.setRun j none)
  | some run, .write outcome =>
    match run.writes with
    | w :: writes => some (writeStep s j run w writes outcome)
    | [] => none
  | some run, e =>
    match run.writes with
    | [] => (phaseStep isSignature s run e).map fun run' => s.setRun j (some run')
    | _ => none
  | _, _ => none

def transferStep (isSignature : String → Bool) (s : System) : TransferEvent → Option System
  | .request id e => requestStep s id e
  | .chain e => (chainStep s.chain e).map fun chain => { s with chain }
  | .run j e => trackerStep isSignature s j e

end Sdp.Payments
