import Sdp.Lib.Run
import Sdp.Lib.Table

/-!
# Workflow rules and their executions

From `services/workflows/event-bus.ts`, `services/jobs/run-workflow-executions.ts`,
`db/repositories/workflow-execution.repository.postgres.ts`, `db/repositories/asset-workflow.repository.postgres.ts`,
`routes/issuance/handlers/workflow-executions.ts` and `packages/sdp-issuance/src/workflows`: any number of event
deliveries, engine ticks and human decisions over one database. Each SQL statement and each call of an action is one
step. Times are milliseconds. How the guard of a rule is evaluated is a parameter. Audit rows, logs and the secrets of
rules are left out.
-/

open Sdp.Lib

namespace Sdp.Workflows

/-- An id that the application made. None has the separator of `tenantCacheKey`. -/
abbrev Id := { text : String // ':' ∉ text.toList }

/-! ## The catalog of actions -/

inductive WorkflowActionType
  | allowlistAdd | allowlistRemove | sendWebhook | notify | record | pause | unpause | freeze | unfreeze
  | seize | forceBurn | burn | mint
deriving DecidableEq, Repr

inductive WorkflowExecutionTier
  | automated | sensitive | requiresApproval
deriving DecidableEq, Repr

inductive TokenTransactionType
  | mint | burn | freeze | unfreeze | seize | forceBurn | updateAuthority | pause | unpause | deploy
deriving DecidableEq, Repr

inductive Requirement
  | none
  | base (action : TokenTransactionType)
  | allowlist
  | tokenTransaction (action : TokenTransactionType)
deriving DecidableEq, Repr

structure WorkflowAction where
  requires : Requirement
  execution : WorkflowExecutionTier
deriving DecidableEq, Repr

/-- `WORKFLOW_ACTIONS` -/
def resolveWorkflowAction : WorkflowActionType → WorkflowAction
  | .allowlistAdd => ⟨.allowlist, .automated⟩
  | .allowlistRemove => ⟨.allowlist, .automated⟩
  | .sendWebhook => ⟨.none, .automated⟩
  | .notify => ⟨.none, .automated⟩
  | .record => ⟨.none, .automated⟩
  | .pause => ⟨.tokenTransaction .pause, .sensitive⟩
  | .unpause => ⟨.tokenTransaction .unpause, .sensitive⟩
  | .freeze => ⟨.tokenTransaction .freeze, .sensitive⟩
  | .unfreeze => ⟨.tokenTransaction .unfreeze, .sensitive⟩
  | .seize => ⟨.tokenTransaction .seize, .requiresApproval⟩
  | .forceBurn => ⟨.tokenTransaction .forceBurn, .requiresApproval⟩
  | .burn => ⟨.base .burn, .requiresApproval⟩
  | .mint => ⟨.base .mint, .requiresApproval⟩

/-- `APPROVAL_GATED_ACTIONS`, and `singleShot` of a tick. -/
def WorkflowActionType.gated (type : WorkflowActionType) : Bool :=
  (resolveWorkflowAction type).execution = .requiresApproval

/-- `ADVANCED_SETTINGS`, with the actions that each setting unlocks. -/
def advancedSettings : List (String × List TokenTransactionType) :=
  [("pauseTransfers", [.pause, .unpause]), ("freezeAccounts", [.freeze, .unfreeze]),
   ("permanentDelegate", [.seize, .forceBurn]), ("transferFee", [.updateAuthority]),
   ("interestBearing", [.updateAuthority]), ("scaledUiAmount", [.updateAuthority]),
   ("transferHook", [.updateAuthority]), ("nonTransferable", [])]

def legacySettingAliases : List (String × List String) :=
  [("freezeTransfers", ["pauseTransfers", "freezeAccounts"])]

/-- The keys of the expanded selection. -/
def expandLegacySettingKeys (selected : List String) : List String :=
  selected.flatMap fun key =>
    match legacySettingAliases.lookup key with
    | none => [key]
    | some targets => targets.filter fun target => target ∉ selected

def selectedSettingsUnlock (selectedSettings : List String) (action : TokenTransactionType) : Bool :=
  (expandLegacySettingKeys selectedSettings).any fun key => (advancedSettings.lookup key).any (·.contains action)

/-- `selectedSettings` are the keys of the stored selection. -/
structure AssetGateContext where
  selectedSettings : List String
  hasAllowlist : Bool
  isMintable : Bool
deriving DecidableEq

inductive ActionSupportReason
  | unknownAction | noAllowlist | capabilityDisabled | notMintable
deriving DecidableEq, Repr

def ActionSupportReason.text : ActionSupportReason → String
  | .unknownAction => "unknown_action"
  | .noAllowlist => "no_allowlist"
  | .capabilityDisabled => "capability_disabled"
  | .notMintable => "not_mintable"

def validateActionSupported (action : WorkflowActionType) (gate : AssetGateContext) :
    Except ActionSupportReason Unit :=
  match (resolveWorkflowAction action).requires with
  | .none => .ok ()
  | .base action => if action = .mint ∧ ¬ gate.isMintable then .error .notMintable else .ok ()
  | .allowlist => if gate.hasAllowlist then .ok () else .error .noAllowlist
  | .tokenTransaction action =>
    if selectedSettingsUnlock gate.selectedSettings action then .ok () else .error .capabilityDisabled

/-! ## Rules -/

inductive WorkflowTriggerType
  | kycApproved | kycRejected | onrampSettled | offrampSettled | recurringPaymentFailed | tokenOperationCompleted
deriving DecidableEq, Repr

inductive ReviewMode
  | auto | manual
deriving DecidableEq, Repr

/-- `retryPolicySchema` admits no policy without an attempt. -/
@[ext]
structure RetryPolicy where
  maxAttempts : Nat
  retryAfterMinutes : Nat
  pos : 0 < maxAttempts

instance : DecidableEq RetryPolicy := fun _ _ => decidable_of_iff _ RetryPolicy.ext_iff.symm

/-- `condition` and `params` are JSON texts. -/
structure AssetWorkflowDefinition where
  condition : Option String
  params : String
  retryPolicy : Option RetryPolicy
deriving DecidableEq

structure AssetWorkflowRow where
  id : Id
  organizationId : Id
  projectId : Id
  tokenId : Id
  triggerType : WorkflowTriggerType
  actionType : WorkflowActionType
  definition : AssetWorkflowDefinition
  enabled : Bool
  reviewMode : ReviewMode
  createdAt : Nat
  deletedAt : Option Nat
deriving DecidableEq

abbrev Rules := Table Id AssetWorkflowRow (·.id)

structure UpdateAssetWorkflowInput where
  workflowId : Id
  organizationId : Id
  projectId : Id
  definition : Option AssetWorkflowDefinition
  reviewMode : Option ReviewMode
  enabled : Option Bool

def UpdateAssetWorkflowInput.set (input : UpdateAssetWorkflowInput) (rule : AssetWorkflowRow) : AssetWorkflowRow :=
  { rule with
    definition := input.definition.getD rule.definition
    reviewMode := input.reviewMode.getD rule.reviewMode
    enabled := input.enabled.getD rule.enabled }

theorem UpdateAssetWorkflowInput.id_set (input : UpdateAssetWorkflowInput) (rule : AssetWorkflowRow) :
    (input.set rule).id = rule.id := rfl

/-- `WHERE id = ? AND organization_id = ? AND project_id = ? AND deleted_at IS NULL`, for the row of the id. -/
def AssetWorkflowRow.visibleTo (organizationId projectId : Id) (rule : AssetWorkflowRow) : Bool :=
  rule.organizationId = organizationId && rule.projectId = projectId && rule.deletedAt.isNone

def updateWorkflow (rules : Rules) (input : UpdateAssetWorkflowInput) : Rules :=
  rules.update input.workflowId (·.visibleTo input.organizationId input.projectId) input.set input.id_set

def deleteWorkflow (rules : Rules) (workflowId organizationId projectId : Id) (now : Nat) : Rules :=
  rules.update workflowId (·.visibleTo organizationId projectId)
    (fun rule => { rule with deletedAt := some now, enabled := false }) fun _ => rfl

def getWorkflowById (rules : Rules) (workflowId organizationId projectId : Id) : Option AssetWorkflowRow :=
  (rules.find? workflowId).filter (·.visibleTo organizationId projectId)

/-- What `ORDER BY at ASC LIMIT limit` may return of the candidates. -/
def firstRows {ρ : Type} [DecidableEq ρ] (limit : Nat) (at_ : ρ → Nat) (candidates rows : List ρ) : Bool :=
  rows.Nodup && rows.all (· ∈ candidates) && decide (rows.Pairwise (at_ · ≤ at_ ·)) &&
    (rows.length = min limit candidates.length : Bool) &&
    candidates.all fun r => r ∈ rows || rows.all fun r' => at_ r' ≤ at_ r

/-! ## Executions -/

inductive WorkflowExecutionStatus
  | awaitingReview | pending | processing | succeeded | failed | cancelled
deriving DecidableEq, Repr

/-- `triggerPayload` and `result` are JSON texts. -/
structure WorkflowExecutionRow where
  id : Id
  organizationId : Id
  projectId : Id
  workflowId : Id
  tokenId : Id
  triggerType : WorkflowTriggerType
  actionType : WorkflowActionType
  status : WorkflowExecutionStatus
  idempotencyKey : String
  triggerPayload : String
  result : String := "{}"
  attemptCount : Nat := 0
  maxAttempts : Nat
  nextAttemptAt : Option Nat := none
  lockedAt : Option Nat := none
  error : Option String := none
  decidedBy : Option String := none
  decidedAt : Option Nat := none
  createdAt : Nat
  updatedAt : Nat
deriving DecidableEq

abbrev Executions := Table Id WorkflowExecutionRow (·.id)

namespace WorkflowExecutionRow

/-- The unique index of the table. -/
def event (row : WorkflowExecutionRow) : Id × String := (row.workflowId, row.idempotencyKey)

def claim (now : Nat) (row : WorkflowExecutionRow) : WorkflowExecutionRow :=
  { row with status := .processing, lockedAt := some now, attemptCount := row.attemptCount + 1, updatedAt := now }

/-- The first statement of `recoverStaleProcessing`. -/
def park (now : Nat) (row : WorkflowExecutionRow) : WorkflowExecutionRow :=
  { row with
    status := .failed, error := some "STALE_RECOVERED_NEEDS_REVIEW", lockedAt := none, nextAttemptAt := none
    updatedAt := now }

/-- The second one. `GREATEST(n - 1, 0)` is the subtraction of natural numbers. -/
def recover (now : Nat) (row : WorkflowExecutionRow) : WorkflowExecutionRow :=
  { row with status := .pending, lockedAt := none, attemptCount := row.attemptCount - 1, updatedAt := now }

def decide (to_ : WorkflowExecutionStatus) (decidedBy : String) (now : Nat) (row : WorkflowExecutionRow) :
    WorkflowExecutionRow :=
  { row with
    status := to_, attemptCount := 0, nextAttemptAt := none, lockedAt := none, error := none
    decidedBy := some decidedBy, decidedAt := some now, updatedAt := now }

def withdraw (now : Nat) (row : WorkflowExecutionRow) : WorkflowExecutionRow :=
  { row with
    status := .cancelled, nextAttemptAt := none, lockedAt := none, error := some "RULE_WITHDRAWN", updatedAt := now }

theorem id_claim (now : Nat) (row : WorkflowExecutionRow) : (row.claim now).id = row.id := rfl

theorem id_park (now : Nat) (row : WorkflowExecutionRow) : (row.park now).id = row.id := rfl

theorem id_recover (now : Nat) (row : WorkflowExecutionRow) : (row.recover now).id = row.id := rfl

theorem id_decide (to_ : WorkflowExecutionStatus) (decidedBy : String) (now : Nat) (row : WorkflowExecutionRow) :
    (row.decide to_ decidedBy now).id = row.id := rfl

theorem id_withdraw (now : Nat) (row : WorkflowExecutionRow) : (row.withdraw now).id = row.id := rfl

/-- What `recoverStaleProcessing` looks for. -/
def stale (staleBefore : Nat) (row : WorkflowExecutionRow) : Bool :=
  row.status = .processing && row.lockedAt.any (· ≤ staleBefore)

/-- What `listDueExecutions` looks for. -/
def due (dueBefore : Nat) (row : WorkflowExecutionRow) : Bool :=
  row.status = .pending && row.nextAttemptAt.all (· ≤ dueBefore) && row.attemptCount < row.maxAttempts

/-- What `cancelOpenExecutionsForWorkflow` looks for. -/
def openFor (workflowId organizationId projectId : Id) (row : WorkflowExecutionRow) : Bool :=
  row.workflowId = workflowId && row.organizationId = organizationId && row.projectId = projectId &&
    (row.status = .awaitingReview || row.status = .pending)

end WorkflowExecutionRow

/-- The input of the terminal writes and of `rescheduleExecution`. -/
inductive Verdict
  | complete (result : String)
  | fail (error : String) (result : Option String)
  | reschedule (error : String) (nextAttemptAt : Nat)
deriving DecidableEq

namespace Verdict

def set (now : Nat) (row : WorkflowExecutionRow) : Verdict → WorkflowExecutionRow
  | complete result =>
    { row with
      status := .succeeded, result, error := none, lockedAt := none, nextAttemptAt := none, updatedAt := now }
  | fail error result =>
    { row with
      status := .failed, error := some error, result := result.getD row.result, lockedAt := none
      nextAttemptAt := none, updatedAt := now }
  | reschedule error nextAttemptAt =>
    { row with
      status := .pending, error := some error, nextAttemptAt := some nextAttemptAt, lockedAt := none
      updatedAt := now }

theorem id_set (now : Nat) (row : WorkflowExecutionRow) (verdict : Verdict) : (verdict.set now row).id = row.id := by
  cases verdict <;> rfl

end Verdict

/-- `completeExecution`, `failExecution` and `rescheduleExecution`. -/
def Verdict.write (executions : Executions) (executionId : Id) (now : Nat) (verdict : Verdict) : Executions :=
  executions.update executionId (·.status = .processing) (fun row => verdict.set now row) fun row => verdict.id_set now row

def claimExecution (executions : Executions) (executionId : Id) (now : Nat) : Executions :=
  executions.update executionId (·.status = .pending) (·.claim now) (·.id_claim now)

/-- What `UPDATE … RETURNING *` of a claim returns. -/
def claimedRow (executions : Executions) (executionId : Id) (now : Nat) : Option WorkflowExecutionRow :=
  ((executions.find? executionId).filter (·.status = .pending)).map (·.claim now)

/-! ## Event deliveries -/

structure WorkflowEvent where
  type : WorkflowTriggerType
  organizationId : Id
  projectId : Id
  eventKey : String
  tokenId : Option Id
  payload : String
deriving DecidableEq

/-- The rules that `listEnabledWorkflowsForTrigger` looks for. -/
def AssetWorkflowRow.triggeredBy (event : WorkflowEvent) (rule : AssetWorkflowRow) : Bool :=
  rule.organizationId = event.organizationId && rule.projectId = event.projectId && rule.triggerType = event.type &&
    rule.enabled && rule.deletedAt.isNone && event.tokenId.all (· = rule.tokenId)

def defaultMaxAttempts : Nat := 5

/-- The status of a new execution: held for a human, or due at once. -/
def initialStatus (rule : AssetWorkflowRow) : WorkflowExecutionStatus :=
  if rule.reviewMode = .manual ∨ rule.actionType.gated then .awaitingReview else .pending

def newExecution (rule : AssetWorkflowRow) (event : WorkflowEvent) (id : Id) (now : Nat) : WorkflowExecutionRow where
  id
  organizationId := event.organizationId
  projectId := event.projectId
  workflowId := rule.id
  tokenId := rule.tokenId
  triggerType := rule.triggerType
  actionType := rule.actionType
  status := initialStatus rule
  idempotencyKey := event.eventKey
  triggerPayload := event.payload
  maxAttempts := (rule.definition.retryPolicy.map (·.maxAttempts)).getD defaultMaxAttempts
  createdAt := now
  updatedAt := now

/-- `ON CONFLICT (workflow_id, idempotency_key) DO NOTHING` -/
def createExecution (executions : Executions) (row : WorkflowExecutionRow) : Executions :=
  if executions.rows.any (·.event = row.event) then executions else executions.insertNew row

/-- A run of `dispatchWorkflowEvent`, with the rules that it has yet to look at. -/
structure Delivery where
  no : Nat
  event : WorkflowEvent
  rules : List AssetWorkflowRow
  enqueued : Nat := 0

/-! ## Ticks -/

def batchSize : Nat := 25
def staleAfterMs : Nat := 3 * 60 * 1000
def defaultRetryAfterMinutes : Nat := 5
def maxRetryDelayMinutes : Nat := 6 * 60
def concurrency : Nat := 5

def tenantCacheKey (execution : WorkflowExecutionRow) (id : Id) : String :=
  execution.organizationId.val ++ ":" ++ execution.projectId.val ++ ":" ++ id.val

/-- `params` and `retryAfterMinutes` of a guard that passed. -/
structure Guard where
  params : String
  retryAfterMinutes : Nat
deriving DecidableEq

/-- The first half of `guardExecution`. -/
def checkRule : Option AssetWorkflowRow → Except String AssetWorkflowRow
  | none => .error "RULE_NOT_FOUND"
  | some rule => if rule.enabled then .ok rule else .error "RULE_DISABLED"

/-- The second half. -/
def checkGate (execution : WorkflowExecutionRow) (rule : AssetWorkflowRow) : Option AssetGateContext → Except String Guard
  | none => .error "ASSET_CONTEXT_UNAVAILABLE"
  | some gate =>
    match validateActionSupported execution.actionType gate with
    | .error reason => .error ("CAPABILITY_REVOKED:" ++ reason.text)
    | .ok () =>
      .ok ⟨rule.definition.params, (rule.definition.retryPolicy.map (·.retryAfterMinutes)).getD defaultRetryAfterMinutes⟩

/-- `nextAttemptIso` without its jitter, in milliseconds. -/
def retryDelayMs (baseMinutes attemptCount : Nat) : Nat :=
  min (baseMinutes * 2 ^ (attemptCount - 1)) maxRetryDelayMinutes * 60 * 1000

/-- The times that `nextAttemptIso` may return: the jitter is from 0.8 on and below 1.2, the time a whole number. -/
def nextAttemptIso (now baseMinutes attemptCount nextAttemptAt : Nat) : Bool :=
  let delay := retryDelayMs baseMinutes attemptCount
  8 * delay < 10 * (nextAttemptAt - now + 1) && 10 * (nextAttemptAt - now) ≤ 12 * delay && now ≤ nextAttemptAt

structure ActionExecutionResult where
  succeeded : Bool
  retryable : Bool
  result : String
  error : Option String
deriving DecidableEq

/-- The claim was the last one of the execution. -/
def WorkflowExecutionRow.exhausted (claimed : WorkflowExecutionRow) : Bool :=
  claimed.attemptCount ≥ claimed.maxAttempts

/-- The verdict on an action that returned. -/
def verdictOn (claimed : WorkflowExecutionRow) (nextAttemptAt : Nat) (outcome : ActionExecutionResult) : Verdict :=
  if outcome.succeeded then .complete outcome.result
  else if claimed.actionType.gated || !outcome.retryable || claimed.exhausted then
    .fail (outcome.error.getD "action failed") (some outcome.result)
  else .reschedule (outcome.error.getD "action failed") nextAttemptAt

/-- The verdict of the `catch`. -/
def verdictOnThrow (claimed : WorkflowExecutionRow) (nextAttemptAt : Nat) (message : String) : Verdict :=
  if claimed.actionType.gated || claimed.exhausted then .fail message none else .reschedule message nextAttemptAt

/-- Where `processDueExecution` stands after its claim. `retryAfterMinutes` is what a retry would wait. -/
inductive Stage
  | claimed
  | ruleChecked (rule : AssetWorkflowRow)
  | guarded (guard : Guard)
  | dispatched (retryAfterMinutes : Nat)
  | deciding (retryAfterMinutes : Nat) (verdict : Verdict)
  | rescuing (retryAfterMinutes : Nat) (message : String)
  | done
deriving DecidableEq

/-- `processDueExecution`, from its claim on. -/
structure Worker where
  claim : Nat
  tick : Nat
  /-- The row that the claim returned. -/
  claimed : WorkflowExecutionRow
  stage : Stage

def Worker.enter (stage : Stage) (worker : Worker) : Worker := { worker with stage }

theorem Worker.claim_enter (stage : Stage) (worker : Worker) : (worker.enter stage).claim = worker.claim := rfl

def Worker.live (worker : Worker) : Bool := worker.stage ≠ .done

structure RunWorkflowExecutionsResult where
  recovered : Nat := 0
  succeeded : Nat := 0
  failed : Nat := 0
  retried : Nat := 0

def RunWorkflowExecutionsResult.count (result : RunWorkflowExecutionsResult) : Verdict → RunWorkflowExecutionsResult
  | .complete _ => { result with succeeded := result.succeeded + 1 }
  | .fail _ _ => { result with failed := result.failed + 1 }
  | .reschedule _ _ => { result with retried := result.retried + 1 }

inductive Phase
  | parking | recovering | listing | draining | stopped
deriving DecidableEq, Repr

/-- `runDueWorkflowExecutions`. `taken` are the rows that a lane has shifted from the queue and not yet claimed, and
`idle` is the number of lanes that are about to shift the next one. -/
structure Tick where
  no : Nat
  now : Nat
  phase : Phase := .parking
  rules : String → Option (Option AssetWorkflowRow) := fun _ => none
  gates : String → Option (Option AssetGateContext) := fun _ => none
  queue : List WorkflowExecutionRow := []
  taken : List WorkflowExecutionRow := []
  idle : Nat := 0
  result : RunWorkflowExecutionsResult := {}

def Tick.staleBefore (tick : Tick) : Nat := tick.now - staleAfterMs

/-! ## The engine -/

inductive Decision
  | approve | retry | cancel
deriving DecidableEq, Repr

def Decision.source : Decision → WorkflowExecutionStatus
  | approve | cancel => .awaitingReview
  | retry => .failed

def Decision.target : Decision → WorkflowExecutionStatus
  | approve | retry => .pending
  | cancel => .cancelled

/-- Whoever decides on an execution. -/
structure Decider where
  id : String
  permissions : List String

def permissionForWorkflowAction (actionType : WorkflowActionType) : String :=
  if (resolveWorkflowAction actionType).execution = .automated then "tokens:write" else "tokens:admin"

def assertWorkflowActionPermitted (decider : Decider) (actionType : WorkflowActionType) : Bool :=
  decider.permissions.contains "*" || decider.permissions.contains (permissionForWorkflowAction actionType)

/-- How a write ends for its caller. A `lost` one took effect and the caller saw an error. -/
inductive CallOutcome
  | answered | failed | lost
deriving DecidableEq, Repr

/-- What happened, for the statements about runs. -/
inductive LogEntry
  | claimed (execution : Id) (claim : Nat)
  | dispatched (tick claim : Nat) (execution workflow : Id)
  | decided (execution : Id) (decision : Decision) (decider : Decider)
  /-- Stale recovery gave the execution its attempt back. -/
  | refunded (execution : Id)
  /-- Stale recovery took the execution from a tick that was still at it, or the answer to a verdict got lost. -/
  | disturbed (execution : Id)

/-- `holder` is the claim under which an execution is being processed; no statement reads it. `log` has the newest
entry first. -/
structure Engine where
  rules : Rules
  /-- `resolveAssetGateContext` of a token, an organization and a project. -/
  gates : Id → Id → Id → Option AssetGateContext
  executions : Executions
  deliveries : Table Nat Delivery (·.no)
  ticks : Table Nat Tick (·.no)
  workers : Table Nat Worker (·.claim)
  holder : Id → Option Nat
  log : List LogEntry

namespace Engine

def init : Engine where
  rules := .empty
  gates := fun _ _ _ => none
  executions := .empty
  deliveries := .empty
  ticks := .empty
  workers := .empty
  holder := fun _ => none
  log := []

def setTick (s : Engine) (t : Nat) (set : Tick → Tick) (hset : ∀ tick, (set tick).no = tick.no) : Engine :=
  { s with ticks := s.ticks.update t (fun _ => true) set hset }

def setStage (s : Engine) (n : Nat) (stage : Stage) : Engine :=
  { s with workers := s.workers.update n (fun _ => true) (·.enter stage) (·.claim_enter stage) }

/-- The claim under which the execution is being processed belongs to a worker that is still at it. -/
def held (s : Engine) (executionId : Id) : Bool :=
  (s.holder executionId).any fun n => (s.workers.find? n).any (·.live)

/-! ### Rules, events and decisions -/

def createWorkflow? (s : Engine) (rule : AssetWorkflowRow) : Option Engine :=
  if s.rules.find? rule.id = none then some { s with rules := s.rules.insertNew rule } else none

/-- An event arrives and its rules are read. -/
def deliver? (s : Engine) (no : Nat) (event : WorkflowEvent) (rules : List AssetWorkflowRow) : Option Engine :=
  if s.deliveries.find? no = none ∧
      firstRows 500 (·.createdAt) (s.rules.rows.filter (·.triggeredBy event)) rules = true then
    some { s with deliveries := s.deliveries.insertNew { no, event, rules } }
  else none

/-- A delivery looks at its next rule. The id of the new row is one that no row has. -/
def enqueue? (evaluateCondition : Option String → String → Bool) (s : Engine) (no : Nat) (id : Id) (now : Nat) :
    Option Engine :=
  match s.deliveries.find? no with
  | some { event, rules := rule :: _, .. } =>
    let next (created : Bool) : Table Nat Delivery (·.no) :=
      s.deliveries.update no (fun _ => true)
        (fun d => { d with rules := d.rules.tail, enqueued := d.enqueued + created.toNat }) fun _ => rfl
    if evaluateCondition rule.definition.condition event.payload = false then
      some { s with deliveries := next false }
    else if s.executions.find? id = none then
      let row := newExecution rule event id now
      some { s with
        executions := createExecution s.executions row
        deliveries := next (!s.executions.rows.any (·.event = row.event)) }
    else none
  | _ => none

/-- `approveExecution`, `retryExecution` and `cancelExecution`, for a decider who is permitted to. The columns that the
handler reads before are ones that never change. -/
def decide? (s : Engine) (decision : Decision) (decider : Decider) (id organizationId projectId tokenId : Id)
    (now : Nat) : Option Engine :=
  match s.executions.find? id with
  | none => none
  | some row =>
    if row.organizationId = organizationId ∧ row.projectId = projectId ∧ row.tokenId = tokenId ∧
        assertWorkflowActionPermitted decider row.actionType = true ∧ row.status = decision.source then
      some { s with
        executions := s.executions.update id (·.status = decision.source)
          (·.decide decision.target decider.id now) (·.id_decide decision.target decider.id now)
        log := .decided id decision decider :: s.log }
    else none

def cancelOpenExecutionsForWorkflow (s : Engine) (workflowId organizationId projectId : Id) (now : Nat) : Engine :=
  { s with
    executions := s.executions.updateAll (·.openFor workflowId organizationId projectId) (·.withdraw now)
      (·.id_withdraw now) }

/-! ### A tick -/

def startTick? (s : Engine) (no now : Nat) : Option Engine :=
  if s.ticks.find? no = none then some { s with ticks := s.ticks.insertNew { no, now } } else none

/-- The rows of a statement of `recoverStaleProcessing` are gone from whoever was processing them. -/
def takeFrom (s : Engine) (ids : List Id) : Engine :=
  { s with
    holder := fun id => if id ∈ ids then none else s.holder id
    log := (ids.filter s.held).map LogEntry.disturbed ++ s.log }

/-- The first statement of `recoverStaleProcessing`. -/
def park? (s : Engine) (no now : Nat) (rows : List WorkflowExecutionRow) : Option Engine :=
  match s.ticks.find? no with
  | some tick =>
    let candidates := s.executions.rows.filter fun row => row.stale tick.staleBefore && row.actionType.gated
    if tick.phase = .parking ∧ firstRows batchSize (·.lockedAt.getD 0) candidates rows = true then
      let t := s.takeFrom (rows.map (·.id))
      some ({ t with executions := s.executions.updateAll (fun row => row ∈ rows) (·.park now) (·.id_park now) }.setTick no
        (fun tick => { tick with
          phase := .recovering
          result := { tick.result with failed := tick.result.failed + rows.length } }) fun _ => rfl)
    else none
  | none => none

/-- The second one. -/
def recover? (s : Engine) (no now : Nat) (rows : List WorkflowExecutionRow) : Option Engine :=
  match s.ticks.find? no with
  | some tick =>
    let candidates := s.executions.rows.filter fun row => row.stale tick.staleBefore && !row.actionType.gated
    if tick.phase = .recovering ∧ firstRows batchSize (·.lockedAt.getD 0) candidates rows = true then
      let ids := rows.map (·.id)
      let t := s.takeFrom ids
      some ({ t with
        executions := s.executions.updateAll (fun row => row ∈ rows) (·.recover now) (·.id_recover now)
        log := ids.map LogEntry.refunded ++ t.log }.setTick no
          (fun tick => { tick with
            phase := .listing
            result := { tick.result with recovered := rows.length } }) fun _ => rfl)
    else none
  | none => none

def list? (s : Engine) (no : Nat) (rows : List WorkflowExecutionRow) : Option Engine :=
  match s.ticks.find? no with
  | some tick =>
    if tick.phase = .listing ∧ firstRows batchSize (·.createdAt) (s.executions.rows.filter (·.due tick.now)) rows = true then
      some (s.setTick no
        (fun tick => { tick with phase := .draining, queue := rows, idle := min concurrency rows.length }) fun _ => rfl)
    else none
  | none => none

/-- A lane shifts the next row. -/
def shift? (s : Engine) (no : Nat) : Option Engine :=
  match s.ticks.find? no with
  | some tick =>
    match tick.queue with
    | row :: queue =>
      if tick.phase = .draining ∧ 0 < tick.idle then
        some (s.setTick no
          (fun tick => { tick with queue, taken := row :: tick.taken, idle := tick.idle - 1 }) fun _ => rfl)
      else none
    | [] => none
  | none => none

/-- A lane claims the row that it shifted. One that sees an error ends with its tick. -/
def claim? (s : Engine) (no : Nat) (row : WorkflowExecutionRow) (claim now : Nat) (outcome : CallOutcome) : Option Engine :=
  match s.ticks.find? no with
  | some tick =>
    if tick.phase = .draining ∧ row ∈ tick.taken ∧ s.workers.find? claim = none then
      let t := s.setTick no (fun tick => { tick with taken := tick.taken.erase row }) fun _ => rfl
      match outcome, claimedRow s.executions row.id now with
      | .failed, _ => some t
      | .lost, none => some t
      | .answered, none => some (t.setTick no (fun tick => { tick with idle := tick.idle + 1 }) fun _ => rfl)
      | outcome, some claimed =>
        let stage := if outcome = .answered then Stage.claimed else .done
        some { t with
          executions := claimExecution s.executions row.id now
          workers := s.workers.insertNew { claim, tick := no, claimed, stage }
          holder := Function.update s.holder row.id (some claim)
          log := .claimed row.id claim :: s.log }
    else none
  | none => none

/-- The tick dies: its lanes shift and claim no more. Its workers die one by one. -/
def stop (s : Engine) (no : Nat) : Engine := s.setTick no (fun tick => { tick with phase := .stopped }) fun _ => rfl

/-! ### The run of one execution -/

/-- What `guardExecution` does after a lookup. -/
def afterGuard {α : Type} (next : α → Stage) : Except String α → Stage
  | .ok a => next a
  | .error error => .deciding defaultRetryAfterMinutes (.fail error none)

/-- `loadRule`, and the checks of the rule. -/
def loadRule? (s : Engine) (n : Nat) : Option Engine :=
  match s.workers.find? n with
  | some { tick := no, claimed, stage := .claimed, .. } =>
    match s.ticks.find? no with
    | some tick =>
      let key := tenantCacheKey claimed claimed.workflowId
      match tick.rules key with
      | some cached => some (s.setStage n (afterGuard .ruleChecked (checkRule cached)))
      | none =>
        let rule := getWorkflowById s.rules claimed.workflowId claimed.organizationId claimed.projectId
        some ((s.setStage n (afterGuard .ruleChecked (checkRule rule))).setTick no
          (fun tick => { tick with rules := Function.update tick.rules key (some rule) }) fun _ => rfl)
    | none => none
  | _ => none

/-- `loadGate`, and the check of the action. -/
def loadGate? (s : Engine) (n : Nat) : Option Engine :=
  match s.workers.find? n with
  | some { tick := no, claimed, stage := .ruleChecked rule, .. } =>
    match s.ticks.find? no with
    | some tick =>
      let key := tenantCacheKey claimed claimed.tokenId
      match tick.gates key with
      | some cached => some (s.setStage n (afterGuard .guarded (checkGate claimed rule cached)))
      | none =>
        let gate := s.gates claimed.tokenId claimed.organizationId claimed.projectId
        some ((s.setStage n (afterGuard .guarded (checkGate claimed rule gate))).setTick no
          (fun tick => { tick with gates := Function.update tick.gates key (some gate) }) fun _ => rfl)
    | none => none
  | _ => none

def dispatch? (s : Engine) (n : Nat) : Option Engine :=
  match s.workers.find? n with
  | some { tick, claimed, stage := .guarded guard, .. } =>
    some { s.setStage n (.dispatched guard.retryAfterMinutes) with
      log := .dispatched tick n claimed.id claimed.workflowId :: s.log }
  | _ => none

/-- The action returns. -/
def finish? (s : Engine) (n : Nat) (outcome : ActionExecutionResult) (nextAttemptAt : Nat) : Option Engine :=
  match s.workers.find? n with
  | some { tick := no, claimed, stage := .dispatched minutes, .. } =>
    match s.ticks.find? no with
    | some tick =>
      if nextAttemptIso tick.now minutes claimed.attemptCount nextAttemptAt then
        some (s.setStage n (.deciding minutes (verdictOn claimed nextAttemptAt outcome)))
      else none
    | none => none
  | _ => none

/-- What the lookups and the action may throw. -/
def throw? (s : Engine) (n : Nat) (message : String) : Option Engine :=
  match s.workers.find? n with
  | some { stage := .claimed, .. } | some { stage := .ruleChecked _, .. } =>
    some (s.setStage n (.rescuing defaultRetryAfterMinutes message))
  | some { stage := .dispatched minutes, .. } => some (s.setStage n (.rescuing minutes message))
  | _ => none

/-- The statement of a verdict. -/
def put (s : Engine) (executionId : Id) (now : Nat) (verdict : Verdict) : Engine :=
  { s with
    executions := verdict.write s.executions executionId now
    holder :=
      if s.executions.matches? executionId (·.status = .processing) then Function.update s.holder executionId none
      else s.holder }

/-- The lane of a worker counts the verdict and goes on. -/
def freeLane (s : Engine) (no : Nat) (verdict : Verdict) : Engine :=
  s.setTick no (fun tick => { tick with idle := tick.idle + 1, result := tick.result.count verdict }) fun _ => rfl

/-- The verdict is written. -/
def write? (s : Engine) (n now : Nat) (outcome : CallOutcome) (message : String) : Option Engine :=
  match s.workers.find? n with
  | some { tick, claimed, stage := .deciding minutes verdict, .. } =>
    match outcome with
    | .answered => some (((s.put claimed.id now verdict).setStage n .done).freeLane tick verdict)
    | .failed => some (s.setStage n (.rescuing minutes message))
    | .lost =>
      let t := s.put claimed.id now verdict
      some { t.setStage n (.rescuing minutes message) with log := .disturbed claimed.id :: s.log }
  | _ => none

/-- The verdict of the `catch` is written. A lane that sees another error ends. -/
def rescue? (s : Engine) (n now : Nat) (outcome : CallOutcome) (nextAttemptAt : Nat) : Option Engine :=
  match s.workers.find? n with
  | some { tick := no, claimed, stage := .rescuing minutes message, .. } =>
    match s.ticks.find? no with
    | some tick =>
      if nextAttemptIso tick.now minutes claimed.attemptCount nextAttemptAt then
        let verdict := verdictOnThrow claimed nextAttemptAt message
        match outcome with
        | .answered => some (((s.put claimed.id now verdict).setStage n .done).freeLane no verdict)
        | .failed => some (s.setStage n .done)
        | .lost => some ((s.put claimed.id now verdict).setStage n .done)
      else none
    | none => none
  | _ => none

end Engine

inductive Step
  | createWorkflow (rule : AssetWorkflowRow)
  | updateWorkflow (input : UpdateAssetWorkflowInput)
  | deleteWorkflow (workflowId organizationId projectId : Id) (now : Nat)
  /-- The tokens and their profiles change. -/
  | setGates (gates : Id → Id → Id → Option AssetGateContext)
  | deliver (no : Nat) (event : WorkflowEvent) (rules : List AssetWorkflowRow)
  | enqueue (no : Nat) (id : Id) (now : Nat)
  | decide (decision : Decision) (decider : Decider) (id organizationId projectId tokenId : Id) (now : Nat)
  | cancelOpen (workflowId organizationId projectId : Id) (now : Nat)
  | startTick (no now : Nat)
  | park (no now : Nat) (rows : List WorkflowExecutionRow)
  | recover (no now : Nat) (rows : List WorkflowExecutionRow)
  | list (no : Nat) (rows : List WorkflowExecutionRow)
  | shift (no : Nat)
  | claim (no : Nat) (row : WorkflowExecutionRow) (claim now : Nat) (outcome : CallOutcome)
  | stop (no : Nat)
  | loadRule (n : Nat)
  | loadGate (n : Nat)
  | dispatch (n : Nat)
  | finish (n : Nat) (outcome : ActionExecutionResult) (nextAttemptAt : Nat)
  | throw (n : Nat) (message : String)
  | write (n now : Nat) (outcome : CallOutcome) (message : String)
  | rescue (n now : Nat) (outcome : CallOutcome) (nextAttemptAt : Nat)
  /-- The process of a worker dies. -/
  | die (n : Nat)

/-- The next state of the engine. -/
def step (evaluateCondition : Option String → String → Bool) (s : Engine) : Step → Option Engine
  | .createWorkflow rule => s.createWorkflow? rule
  | .updateWorkflow input => some { s with rules := updateWorkflow s.rules input }
  | .deleteWorkflow workflowId organizationId projectId now =>
    some { s with rules := deleteWorkflow s.rules workflowId organizationId projectId now }
  | .setGates gates => some { s with gates }
  | .deliver no event rules => s.deliver? no event rules
  | .enqueue no id now => s.enqueue? evaluateCondition no id now
  | .decide decision decider id organizationId projectId tokenId now =>
    s.decide? decision decider id organizationId projectId tokenId now
  | .cancelOpen workflowId organizationId projectId now =>
    some (s.cancelOpenExecutionsForWorkflow workflowId organizationId projectId now)
  | .startTick no now => s.startTick? no now
  | .park no now rows => s.park? no now rows
  | .recover no now rows => s.recover? no now rows
  | .list no rows => s.list? no rows
  | .shift no => s.shift? no
  | .claim no row claim now outcome => s.claim? no row claim now outcome
  | .stop no => some (s.stop no)
  | .loadRule n => s.loadRule? n
  | .loadGate n => s.loadGate? n
  | .dispatch n => s.dispatch? n
  | .finish n outcome nextAttemptAt => s.finish? n outcome nextAttemptAt
  | .throw n message => s.throw? n message
  | .write n now outcome message => s.write? n now outcome message
  | .rescue n now outcome nextAttemptAt => s.rescue? n now outcome nextAttemptAt
  | .die n => some (s.setStage n .done)

end Sdp.Workflows
