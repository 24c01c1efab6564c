import Sdp.Code.PolicyRules
import Sdp.Code.TransferTracker

/-!
# Wallet operations and their approval

From `packages/sdp-policy/src/enforce.ts`, `db/repositories/policy.repository.postgres.ts`,
`services/policy/enforcement.service.ts` and `services/policy/approved-operation-replay.ts`: one wallet
operation, its approval request, the enforcement that records them, and any number of approvers,
executors and recovery runs. Every statement selects the rows by their ids and each SQL statement
or transaction is one step. A process reads its own clock, so a step has a `now` of its own.
-/

namespace Sdp.Operations

open Payments (CallOutcome)
open Policy (PolicyDecision)

inductive WalletOperationStatus
  | created | evaluated | pendingApproval | executing | completed | failed | canceled
deriving DecidableEq, Repr

inductive ApprovalRequestStatus
  | pending | approved | rejected | canceled | expired | failed
deriving DecidableEq, Repr

structure WalletOperationRow where
  status : WalletOperationStatus
  executionStartedAt : Option Nat
  executionAttemptId : Option String
  executionLeaseExpiresAt : Option Nat
  executionAttempts : Nat
  executionCompletedAt : Option Nat
  executionResult : Option String
  executionEffectStartedAt : Option Nat
  executionError : Option String
deriving DecidableEq

namespace WalletOperationRow

/-- No caller of `enforceWalletOperationPolicy` gives another status. -/
def fresh : WalletOperationRow := ⟨.created, none, none, none, 0, none, none, none, none⟩

/-- The attempt is the last one that was claimed and its lease has not run out. -/
def leasedBy (row : WalletOperationRow) (attempt : String) (now : Nat) : Bool :=
  row.status = .executing && row.executionAttemptId = some attempt && row.executionLeaseExpiresAt.any (now < ·)

def leaseOver (row : WalletOperationRow) (now : Nat) : Bool := row.executionLeaseExpiresAt.all (· ≤ now)

end WalletOperationRow

/-- The row of the operation and the one of its request. `wallet_operation_id` is unique in `approval_requests`. -/
structure OperationDatabase where
  operation : Option WalletOperationRow
  request : Option ApprovalRequestStatus
deriving DecidableEq

namespace OperationDatabase

/-- An `UPDATE` of the operation. -/
def update (db : OperationDatabase) (guard : WalletOperationRow → Bool)
    (set : WalletOperationRow → WalletOperationRow) : OperationDatabase :=
  { db with operation := db.operation.map fun row => if guard row then set row else row }

/-- Whether the `UPDATE` finds the row. -/
def finds (db : OperationDatabase) (guard : WalletOperationRow → Bool) : Bool := db.operation.any guard

def createWalletOperation (db : OperationDatabase) : OperationDatabase := { db with operation := some .fresh }

/-- The row that is already there is returned as it is. -/
def createApprovalRequest (db : OperationDatabase) : OperationDatabase × ApprovalRequestStatus :=
  let status := db.request.getD .pending
  ({ db with request := some status }, status)

def updateWalletOperationStatus (db : OperationDatabase) (status : WalletOperationStatus) : OperationDatabase :=
  db.update (fun _ => true) ({ · with status })

/-- The operation keeps its status when the guard does not hold. -/
def updateApprovalRequestStatus (db : OperationDatabase) (status : ApprovalRequestStatus)
    (operationStatus : WalletOperationStatus) : OperationDatabase :=
  if db.request = some .pending then
    let guard (row : WalletOperationRow) : Bool :=
      if operationStatus = .failed then row.status = .created || row.status = .pendingApproval
      else row.status = .pendingApproval
    { db with request := some status }.update guard ({ · with status := operationStatus })
  else db

/-- Ten minutes. -/
def leaseMs : Nat := 10 * 60000

def claimable (db : OperationDatabase) (now : Nat) (row : WalletOperationRow) : Bool :=
  row.status = .executing && row.executionEffectStartedAt.isNone &&
    (row.executionStartedAt.isNone || row.leaseOver now) && db.request = some .approved

def claimWalletOperationExecution (db : OperationDatabase) (attempt : String) (now : Nat) : OperationDatabase :=
  db.update (db.claimable now) fun row =>
    { row with
      executionStartedAt := some now
      executionAttemptId := some attempt
      executionLeaseExpiresAt := some (now + leaseMs)
      executionAttempts := row.executionAttempts + 1
      executionCompletedAt := none
      executionResult := none
      executionEffectStartedAt := none
      executionError := none }

def renewWalletOperationExecutionLease (db : OperationDatabase) (attempt : String) (now : Nat) : OperationDatabase :=
  db.update (·.leasedBy attempt now) ({ · with executionLeaseExpiresAt := some (now + leaseMs) })

def beginWalletOperationExecutionEffect (db : OperationDatabase) (attempt : String) (now : Nat) : OperationDatabase :=
  db.update (·.leasedBy attempt now) fun row =>
    { row with executionEffectStartedAt := some (row.executionEffectStartedAt.getD now) }

def completable (attempt : String) (now : Nat) (row : WalletOperationRow) : Bool :=
  row.leasedBy attempt now && row.executionStartedAt.isSome

structure CompleteInput where
  attempt : String
  /-- The status is `completed`, else `failed`. -/
  completed : Bool
  result : Option String
  error : Option String

def completeWalletOperationExecution (db : OperationDatabase) (input : CompleteInput) (now : Nat) :
    OperationDatabase :=
  db.update (completable input.attempt now) fun row =>
    { row with
      status := if input.completed then .completed else .failed
      executionCompletedAt := some now
      executionResult := input.result
      executionError := input.error
      executionLeaseExpiresAt := none }

def interrupted : String :=
  "Approved execution was interrupted after its external effect began; manual reconciliation is required"

/-- The first statement of `recoverApprovedWalletOperations`. Its other ones claim like any executor. -/
def failInterrupted (db : OperationDatabase) (now : Nat) : OperationDatabase :=
  db.update
    (fun row => row.status = .executing && row.executionEffectStartedAt.isSome && row.leaseOver now &&
      db.request = some .approved)
    ({ · with
      status := .failed
      executionCompletedAt := some now
      executionError := some interrupted
      executionLeaseExpiresAt := none })

end OperationDatabase

/-! ## Enforcement -/

def walletOperationStatusForDecision : PolicyDecision → WalletOperationStatus
  | .allow => .evaluated
  | .approvalRequired | .providerApprovalRequired | .review => .pendingApproval
  | .deny | .notEvaluated => .failed

/-- Where `enforceWalletOperationPolicy` stands. `requested` says that `approvalRequestId` is set. -/
inductive Enforcement
  | idle
  | created
  | requesting
  | recording (status : WalletOperationStatus) (requested : Bool)
  | updating (status : WalletOperationStatus) (requested : Bool)
  | compensating (requested : Bool)
  | returned
deriving DecidableEq

/-- How the calls of the enforcement end, in their order. -/
inductive EnforcementStep
  | createWalletOperation (outcome : CallOutcome)
  /-- `loadEffectivePolicies` and the evaluation. -/
  | evaluate (decision : Option PolicyDecision)
  | createApprovalRequest (outcome : CallOutcome)
  | recordPolicyEvaluation (ok : Bool)
  | updateWalletOperationStatus (outcome : CallOutcome)
  | compensate (outcome : CallOutcome)
deriving DecidableEq

/-- The database after a call that ends so. -/
def afterCall (outcome : CallOutcome) (db db' : OperationDatabase) : OperationDatabase :=
  if outcome = .failed then db else db'

def enforcementStep (db : OperationDatabase) : Enforcement → EnforcementStep → Option (OperationDatabase × Enforcement)
  | .idle, .createWalletOperation outcome =>
    some (afterCall outcome db db.createWalletOperation, if outcome = .answered then .created else .returned)
  | .created, .evaluate none => some (db, .compensating false)
  | .created, .evaluate (some decision) =>
    let status := walletOperationStatusForDecision decision
    some (db, if status = .pendingApproval then .requesting else .recording status false)
  | .requesting, .createApprovalRequest outcome =>
    let (db', status) := db.createApprovalRequest
    some (afterCall outcome db db',
      if outcome = .answered ∧ status = .pending then .recording .pendingApproval true else .compensating false)
  | .recording status requested, .recordPolicyEvaluation ok =>
    some (db, if ok then .updating status requested else .compensating requested)
  | .updating status requested, .updateWalletOperationStatus outcome =>
    some (afterCall outcome db (db.updateWalletOperationStatus status),
      if outcome = .answered then .returned else .compensating requested)
  | .compensating requested, .compensate outcome =>
    let db' := if requested then db.updateApprovalRequestStatus .failed .failed
      else db.updateWalletOperationStatus .failed
    some (afterCall outcome db db', .returned)
  | _, _ => none

/-! ## The system -/

inductive Resolution
  | approve | reject | cancel
deriving DecidableEq, Repr

def Resolution.requestStatus : Resolution → ApprovalRequestStatus
  | .approve => .approved
  | .reject => .rejected
  | .cancel => .canceled

def Resolution.operationStatus : Resolution → WalletOperationStatus
  | .approve => .executing
  | .reject | .cancel => .canceled

inductive ExecutionEvent
  | claimed (attempt : String)
  | began (attempt : String)
deriving DecidableEq

/-- No step reads the history. -/
structure System where
  db : OperationDatabase
  enforcement : Enforcement
  /-- The ids that `crypto.randomUUID` gave. -/
  issued : List String
  history : List ExecutionEvent
deriving DecidableEq

def System.start : System := ⟨⟨none, none⟩, .idle, [], []⟩

inductive Event
  | enforce (step : EnforcementStep)
  | resolve (resolution : Resolution)
  | claim (attempt : String) (now : Nat)
  | renew (attempt : String) (now : Nat)
  | begin (attempt : String) (now : Nat)
  | complete (input : OperationDatabase.CompleteInput) (now : Nat)
  | failInterrupted (now : Nat)

/-- An attempt that was claimed long ago may still take a step. A call that fails takes none. -/
def step (s : System) : Event → Option System
  | .enforce e => (enforcementStep s.db s.enforcement e).map fun (db, enforcement) => { s with db, enforcement }
  | .resolve r =>
    if s.db.request.isSome then
      some { s with db := s.db.updateApprovalRequestStatus r.requestStatus r.operationStatus }
    else none
  | .claim attempt now =>
    if attempt ∈ s.issued then none
    else
      some { s with
        db := s.db.claimWalletOperationExecution attempt now
        issued := attempt :: s.issued
        history := s.history ++ if s.db.finds (s.db.claimable now) then [.claimed attempt] else [] }
  | .renew attempt now => some { s with db := s.db.renewWalletOperationExecutionLease attempt now }
  | .begin attempt now =>
    some { s with
      db := s.db.beginWalletOperationExecutionEffect attempt now
      history := s.history ++ if s.db.finds (·.leasedBy attempt now) then [.began attempt] else [] }
  | .complete input now => some { s with db := s.db.completeWalletOperationExecution input now }
  | .failInterrupted now => some { s with db := s.db.failInterrupted now }

end Sdp.Operations
