import Sdp.Code.TransferTracker
import Sdp.Lib.Locks

/-!
# Transfer batches

From `routes/payments/handlers/transfer-batches/create.ts`, `execute.ts` and `transaction.ts`,
`db/repositories/payment-transfer-batches.repository.ts` and its Postgres implementation: one batch,
its recipients and the transfers of its chunks, all of one project. Each statement is a step. A
transaction sees the committed rows and its own writes, it locks the rows that it writes until it
ends, and a statement that meets a lock waits. Nothing archives a row.
-/

open Sdp.Lib

namespace Sdp.Batches

open Payments

/-! ## Chunks -/

section Chunks

variable {α : Type}

/-- `flush`: the groups that are pending become a chunk. -/
def flush (fits : List α → Bool) (chunks : List (List α)) (pending : List α) : Option (List (List α)) :=
  if pending = [] then some chunks
  else if fits pending then some (chunks ++ [pending])
  else none

def chunkLoop (fits : List α → Bool) (maxRecipientsPerTransaction : Nat) :
    List α → List (List α) → List α → Option (List (List α))
  | [], chunks, pending => flush fits chunks pending
  | group :: groups, chunks, pending =>
    let full : Bool := maxRecipientsPerTransaction ≤ pending.length
    (bif full then flush fits chunks pending else some chunks).bind fun chunks =>
    let pending := bif full then [] else pending
    if fits (pending ++ [group]) then chunkLoop fits maxRecipientsPerTransaction groups chunks (pending ++ [group])
    else
      (flush fits chunks pending).bind fun chunks =>
        if fits [group] then chunkLoop fits maxRecipientsPerTransaction groups chunks [group] else none

/-- `fits` is `isTransactionWithinSizeLimit` of the transaction that is built from the groups. -/
def chunkInstructionGroups (fits : List α → Bool) (maxRecipientsPerTransaction : Nat) (groups : List α) :
    Option (List (List α)) :=
  chunkLoop fits maxRecipientsPerTransaction groups [] []

end Chunks

/-! ## Rows -/

inductive PaymentTransferBatchStatus
  | pending | processing | confirmed | failed | partiallyFailed | archived
deriving DecidableEq, Repr

abbrev RecipientStatus := PaymentTransferBatchRecipientStatus

structure PaymentTransferRecipientRow where
  id : String
  transferId : Option String
  status : RecipientStatus
  error : Option String
deriving DecidableEq

abbrev RecipientTable := Table String PaymentTransferRecipientRow (·.id)

structure PaymentTransferBatchRow where
  status : PaymentTransferBatchStatus
  error : Option String
deriving DecidableEq

structure Database where
  organizationId : String
  projectId : String
  batch : PaymentTransferBatchRow
  recipients : RecipientTable
  transfers : TransferTable

def deriveTransferBatchStatus (statuses : List RecipientStatus) : PaymentTransferBatchStatus :=
  if statuses.any fun status => status = .pending || status = .processing then .processing
  else
    let settled := (statuses.filter fun status => status = .confirmed).length
    if settled = statuses.length then .confirmed
    else if settled = 0 then .failed
    else .partiallyFailed

/-- The scan of `recomputeBatchStatusInTransaction`. -/
def recipientStatuses (t : RecipientTable) : List RecipientStatus := (t.rows.map (·.status)).filter (· ≠ .archived)

/-- Its write. -/
def recomputed (status : PaymentTransferBatchStatus) : PaymentTransferBatchRow where
  status := status
  error :=
    if status = .failed ∨ status = .partiallyFailed then
      some "One or more transfer batch transactions failed during execution"
    else none

/-- `updateTransferRecipientsStatus` -/
def updateTransferRecipientsStatus (t : RecipientTable) (recipientIds : List String) (transferId : Option String)
    (status : RecipientStatus) (error : Option String) : RecipientTable :=
  t.updateAll (fun r => r.id ∈ recipientIds ∧ r.status ≠ .archived) (fun r => { r with transferId, status, error })
    fun _ => rfl

/-- `updateRecipientRows` misses none of the rows that it asks for. -/
def updatable (t : RecipientTable) (recipientIds : List String) : Bool :=
  recipientIds.all fun id => t.matches? id fun r => r.status ≠ .archived

def chunkTransfer (db : Database) : CreatePaymentTransferInput where
  organizationId := db.organizationId
  projectId := some db.projectId
  type := .transferBatch

/-- The rows of a chunk that is linked to its transfer. -/
def linkChunk (db : Database) (transferId : String) (recipientIds : List String) (now : Nat) : Database :=
  { db with
    transfers := createTransfer db.transfers transferId (chunkTransfer db) now
    recipients := updateTransferRecipientsStatus db.recipients recipientIds (some transferId) .processing none }

/-! ## Settlement -/

/-- The recipients that a settlement updates. -/
def settledRecipients (t : RecipientTable) (transferId : String) : List String :=
  (t.rows.filter fun r => r.transferId = some transferId ∧ r.status = .processing).map (·.id)

def settledStatus (transferStatus : PaymentTransferStatus) : RecipientStatus :=
  if transferStatus = .failed then .failed else .confirmed

/-- The recipients after the update, of which the transaction holds the locks. -/
def settleRecipients (t : RecipientTable) (input : SettlePaymentTransferBatchInput) (recipientIds : List String) :
    RecipientTable :=
  t.updateAll (fun r => r.id ∈ recipientIds)
    (fun r => { r with
      status := settledStatus input.transferStatus
      error := if settledStatus input.transferStatus = .failed then input.error else none })
    fun _ => rfl

/-- The rows that a settlement commits. -/
def settle (db : Database) (input : SettlePaymentTransferBatchInput) (recipientIds : List String)
    (status : PaymentTransferBatchStatus) : Database :=
  { db with
    batch := recomputed status
    recipients := settleRecipients db.recipients input recipientIds
    transfers := db.transfers.update input.transferId input.guard input.set input.id_set }

/-- A `settleTransferBatch` transaction. -/
inductive Settlement
  | idle
  | started (input : SettlePaymentTransferBatchInput)
  | claimed (input : SettlePaymentTransferBatchInput)
  | settled (input : SettlePaymentTransferBatchInput) (recipientIds : List String)
  /-- It has the lock of the batch, and then has scanned the recipients. -/
  | locked (input : SettlePaymentTransferBatchInput) (recipientIds : List String)
  | scanned (input : SettlePaymentTransferBatchInput) (recipientIds : List String) (status : PaymentTransferBatchStatus)
  | done (returned : Bool)

/-- `transferStatus` is one of these. -/
def terminalStatuses : List PaymentTransferStatus := [.confirmed, .finalized, .failed]

/-! ## The request -/

/-- Where `executeChunk` stands. -/
inductive ChunkPhase
  | waiting
  /-- The transaction that creates the transfer and links the recipients. -/
  | linking (transferId : String)
  | linked (transferId : String)
  /-- `failChunk` -/
  | failing (settlement : Nat)
  | fulfilled
  | rejected (reason : String)

def ChunkPhase.ended : ChunkPhase → Bool
  | .fulfilled | .rejected _ => true
  | _ => false

/-- Where `createTransferBatch` stands, once the batch is created. -/
inductive RequestPhase
  | executing
  /-- The outcomes from this position on are still to be looked at. -/
  | cleaning (position : Nat)
  | recomputing
  | scanned (status : PaymentTransferBatchStatus)
  | finished
  | aborted
deriving DecidableEq

inductive Resource
  | transfer (id : String)
  | recipient (id : String)
  | batch
deriving DecidableEq

inductive Owner
  | settlement (n : Nat)
  | chunk (position : Nat)
  | request
deriving DecidableEq

structure System where
  now : Nat
  db : Database
  locks : Locks Resource Owner
  settlements : Nat → Settlement
  /-- The recipients of each chunk. -/
  chunks : List (List String)
  phases : Nat → ChunkPhase
  /-- `transfer_id` in `recipientsByIndex`. -/
  recipientsByIndex : String → Option String
  request : RequestPhase
  /-- Every link that was committed; for the statements only. -/
  links : List (String × String)

inductive Step
  | elapse (ms : Nat)
  | beginLink (position : Nat) (transferId : String)
  | commitLink (position : Nat) (outcome : CallOutcome) (message : String)
  /-- The chunk throws. -/
  | reject (position : Nat) (message : String)
  | fulfill (position : Nat)
  | failChunk (position n : Nat) (error : String)
  | failedChunk (position : Nat) (message : String)
  | startSettlement (n : Nat) (input : SettlePaymentTransferBatchInput)
  | claimTransfer (n : Nat)
  | updateRecipients (n : Nat)
  | lockBatch (n : Nat)
  | scan (n : Nat)
  | commitSettlement (n : Nat) (outcome : CallOutcome)
  | rollBackSettlement (n : Nat)
  /-- The upgrade of a confirmed transfer. -/
  | finalize (transferId : String)
  | beginCleanup
  | cleanUp (outcome : CallOutcome)
  | lockForRecompute
  | scanForRecompute
  | commitRecompute (outcome : CallOutcome)
  | abort

namespace System

def chunk (s : System) (position : Nat) : List String := s.chunks[position]?.getD []

def setPhase (s : System) (position : Nat) (phase : ChunkPhase) : System :=
  { s with phases := Function.update s.phases position phase }

def setSettlement (s : System) (n : Nat) (settlement : Settlement) : System :=
  { s with settlements := Function.update s.settlements n settlement }

/-- The owner takes the locks, when nobody else has one of them. -/
def lock? (s : System) (o : Owner) (rs : List Resource) : Option System :=
  if s.locks.free o rs then some { s with locks := s.locks.acquire o rs } else none

def release (s : System) (o : Owner) : System := { s with locks := s.locks.release o }

def finalizedTransfer (id : String) (now : Nat) : UpdatePaymentTransferInput :=
  { transferId := id, expectedStatus := some .confirmed, status := some .finalized, updatedAt := now }

def stepRequest (s : System) : Step → Option System
  | .beginLink position transferId =>
    match s.request, s.phases position, s.chunks[position]? with
    | .executing, .waiting, some recipientIds =>
      if updatable s.db.recipients recipientIds then
        (s.lock? (.chunk position) (recipientIds.map .recipient)).map (·.setPhase position (.linking transferId))
      else some (s.setPhase position (.rejected "Transfer batch recipient row not found for update"))
    | _, _, _ => none
  | .commitLink position outcome message =>
    match s.phases position with
    | .linking transferId =>
      if s.db.transfers.find? transferId = none then
        let recipientIds := s.chunk position
        let t := { s with
          db := linkChunk s.db transferId recipientIds s.now
          links := recipientIds.map (·, transferId) ++ s.links }.release (.chunk position)
        match outcome with
        | .answered =>
          some ({ t with
            recipientsByIndex := fun id => if id ∈ recipientIds then some transferId else s.recipientsByIndex id }.setPhase
              position (.linked transferId))
        | .lost => some (t.setPhase position (.rejected message))
        | .failed => some ((s.release (.chunk position)).setPhase position (.rejected message))
      else none
    | _ => none
  | .reject position message =>
    match s.phases position with
    | .waiting | .linked _ => some (s.setPhase position (.rejected message))
    | .linking _ => some ((s.release (.chunk position)).setPhase position (.rejected message))
    | _ => none
  | .fulfill position =>
    match s.phases position with
    | .linked _ => some (s.setPhase position .fulfilled)
    | _ => none
  | .failChunk position n error =>
    match s.phases position, s.settlements n with
    | .linked transferId, .idle =>
      let input : SettlePaymentTransferBatchInput :=
        ⟨transferId, s.db.organizationId, some s.db.projectId, .failed, some error, none, s.now⟩
      some ((s.setSettlement n (.started input)).setPhase position (.failing n))
    | _, _ => none
  | .failedChunk position message =>
    match s.phases position with
    | .failing n =>
      match s.settlements n with
      | .done true => some (s.setPhase position .fulfilled)
      | .done false => some (s.setPhase position (.rejected message))
      | _ => none
    | _ => none
  | .beginCleanup =>
    match s.request with
    | .executing =>
      if (List.range s.chunks.length).all fun position => (s.phases position).ended then
        some { s with request := .cleaning 0 }
      else none
    | _ => none
  | .cleanUp outcome =>
    match s.request with
    | .cleaning position =>
      if position < s.chunks.length then
        match s.phases position with
        | .rejected reason =>
          let unlinkedIndexes := (s.chunk position).filter fun id => s.recipientsByIndex id = none
          if unlinkedIndexes = [] then some { s with request := .cleaning (position + 1) }
          else if s.locks.free .request (unlinkedIndexes.map .recipient) then
            let recipients :=
              updateTransferRecipientsStatus s.db.recipients unlinkedIndexes none .failed (some reason)
            match outcome with
            | .answered => some { s with db := { s.db with recipients }, request := .cleaning (position + 1) }
            | .lost => some { s with db := { s.db with recipients }, request := .aborted }
            | .failed => some { s with request := .aborted }
          else none
        | _ => some { s with request := .cleaning (position + 1) }
      else none
    | _ => none
  | .lockForRecompute =>
    if s.request = .cleaning s.chunks.length then
      (s.lock? .request [.batch]).map fun t => { t with request := .recomputing }
    else none
  | .scanForRecompute =>
    match s.request with
    | .recomputing =>
      some { s with request := .scanned (deriveTransferBatchStatus (recipientStatuses s.db.recipients)) }
    | _ => none
  | .commitRecompute outcome =>
    match s.request with
    | .scanned status =>
      let t := s.release .request
      match outcome with
      | .answered => some { t with db := { s.db with batch := recomputed status }, request := .finished }
      | .lost => some { t with db := { s.db with batch := recomputed status }, request := .aborted }
      | .failed => some { t with request := .aborted }
    | _ => none
  | .abort =>
    match s.request with
    | .finished | .aborted => none
    | _ => some { s.release .request with request := .aborted }
  | _ => none

def stepSettlement (s : System) : Step → Option System
  | .startSettlement n input =>
    match s.settlements n with
    | .idle => if input.transferStatus ∈ terminalStatuses then some (s.setSettlement n (.started input)) else none
    | _ => none
  | .claimTransfer n =>
    match s.settlements n with
    | .started input =>
      if s.db.transfers.matches? input.transferId input.guard then
        (s.lock? (.settlement n) [.transfer input.transferId]).map (·.setSettlement n (.claimed input))
      else if s.locks.free (.settlement n) [.transfer input.transferId] then some (s.setSettlement n (.done true))
      else none
    | _ => none
  | .updateRecipients n =>
    match s.settlements n with
    | .claimed input =>
      let recipientIds := settledRecipients s.db.recipients input.transferId
      if recipientIds = [] then some ((s.release (.settlement n)).setSettlement n (.done false))
      else
        (s.lock? (.settlement n) (recipientIds.map .recipient)).map
          (·.setSettlement n (.settled input recipientIds))
    | _ => none
  | .lockBatch n =>
    match s.settlements n with
    | .settled input recipientIds =>
      (s.lock? (.settlement n) [.batch]).map (·.setSettlement n (.locked input recipientIds))
    | _ => none
  | .scan n =>
    match s.settlements n with
    | .locked input recipientIds =>
      let recipients := settleRecipients s.db.recipients input recipientIds
      some (s.setSettlement n
        (.scanned input recipientIds (deriveTransferBatchStatus (recipientStatuses recipients))))
    | _ => none
  | .commitSettlement n outcome =>
    match s.settlements n with
    | .scanned input recipientIds status =>
      let t := { s with db := settle s.db input recipientIds status }.release (.settlement n)
      match outcome with
      | .answered => some (t.setSettlement n (.done true))
      | .lost => some (t.setSettlement n (.done false))
      | .failed => some ((s.release (.settlement n)).setSettlement n (.done false))
    | _ => none
  | .rollBackSettlement n =>
    match s.settlements n with
    | .idle | .done _ => none
    | _ => some ((s.release (.settlement n)).setSettlement n (.done false))
  | _ => none

def step (s : System) : Step → Option System
  | .elapse ms => some { s with now := s.now + ms }
  | .finalize transferId =>
    match updateTransfer s.db.transfers (finalizedTransfer transferId s.now) with
    | .ok (transfers, some _) => some { s with db := { s.db with transfers } }
    | _ => none
  | l => (s.stepRequest l).or (s.stepSettlement l)

end System

end Sdp.Batches
