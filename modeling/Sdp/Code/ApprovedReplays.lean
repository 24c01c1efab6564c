import Sdp.Code.ApiKeys
import Sdp.Code.PolicyEvaluate
import Sdp.Code.WalletOperations
import Sdp.Lib.JsValues

/-!
# Replaying an approved operation

`resumeApprovedOperation` of `services/policy/enforcement.service.ts`, and what it reads: the operation of
`createWalletOperation` and the evaluation of `recordPolicyEvaluation`, beside the machine of `WalletOperations`.
The order of `localeCompare` is a parameter.
-/

open Sdp.Lib.Json
open Sdp.Policy

namespace Sdp.Operations

open Payments (CallOutcome)

/-! ## The input and its payload -/

/-- `null` and `undefined` are one where the code writes `?? null`. -/
structure CreateWalletOperationInput where
  organizationId : String
  projectId : Option String
  custodyWalletId : Option String
  walletId : String
  apiKeyId : Option String
  actor : JsValue
  source : Option String
  operationFamily : WalletOperationFamily
  operationType : WalletOperationType
  asset : Option String
  amount : Option String
  destination : Option String
  legs : List PolicyCandidate
  context : JsValue
  providerExtensions : JsValue
  rawPayload : Members JsValue
  idempotencyKey : Option String
  unique : actor.UniqueKeys ∧ context.UniqueKeys ∧ providerExtensions.UniqueKeys ∧ (JsValue.obj rawPayload).UniqueKeys

def isUndefined : JsValue → Bool
  | .undefined => true
  | _ => false

/-- `== null` -/
def isNullish : JsValue → Bool
  | .undefined | .null => true
  | _ => false

def isJsonObject : JsValue → Bool
  | .obj _ => true
  | _ => false

/-- A property of an object is set. -/
def assign (members : Members JsValue) (key : String) (value : JsValue) : Members JsValue :=
  if key ∈ members.map Prod.fst then members.map fun m => if m.1 = key then (key, value) else m
  else members ++ [(key, value)]

def createWalletOperationRawPayload (input : CreateWalletOperationInput) : JsValue :=
  let rawPayload := input.rawPayload
  let rawPayload := if isUndefined input.actor then rawPayload else assign rawPayload "actor" input.actor
  let rawPayload := if isNullish input.context then rawPayload else assign rawPayload "context" input.context
  .obj (if isNullish input.providerExtensions then rawPayload
    else assign rawPayload "providerExtensions" input.providerExtensions)

/-- An object literal of spreads. -/
def spread (objects : List (Members JsValue)) : Members JsValue :=
  objects.flatten.foldl (fun members m => assign members m.1 m.2) []

def walletOperationRawPayload (input : CreateWalletOperationInput) : JsValue :=
  .obj (spread
    [input.rawPayload,
      if isUndefined input.actor then [] else [("actor", input.actor)],
      if isNullish input.context then [] else [("context", input.context)],
      if isNullish input.providerExtensions then [] else [("providerExtensions", input.providerExtensions)]])

/-- What is read back of a value that was written to a `jsonb` column. -/
def fromJsonb (value : JsValue) : JsValue := ((value.toTree?.getD .null).stored.reorder enumerated).value

def stableJson (localeCompare : String → String → Ordering) (value : JsValue) : Option (List Char) :=
  (value.reorder (arranged localeCompare)).toTree?.map Tree.text

def jsonValuesEqual (localeCompare : String → String → Ordering) (left right : JsValue) : Bool :=
  stableJson localeCompare left = stableJson localeCompare right

/-! ## Rows -/

/-- The columns of `wallet_operations` that only the insert writes. -/
structure OperationRecord where
  id : String
  organizationId : String
  projectId : Option String
  custodyWalletId : Option String
  walletId : String
  apiKeyId : Option String
  source : String
  operationFamily : WalletOperationFamily
  operationType : WalletOperationType
  asset : Option String
  amount : Option String
  destination : Option String
  rawPayload : JsValue
  idempotencyKey : Option String

def createWalletOperation (id : String) (input : CreateWalletOperationInput) : OperationRecord :=
  { id
    organizationId := input.organizationId
    projectId := input.projectId
    custodyWalletId := input.custodyWalletId
    walletId := input.walletId
    apiKeyId := input.apiKeyId
    source := input.source.getD "api"
    operationFamily := input.operationFamily
    operationType := input.operationType
    asset := input.asset
    amount := input.amount
    destination := input.destination
    rawPayload := fromJsonb (createWalletOperationRawPayload input)
    idempotencyKey := input.idempotencyKey }

structure PolicyContext where
  source : EffectivePolicySource
  profileId : Option String
  revisionId : Option String
  defaultAction : PolicyDefaultAction
  decision : PolicyDecision
  requiresApproval : Bool

def createPolicyContext (scope : PolicyScopeEvaluation) : PolicyContext :=
  ⟨scope.source, scope.profileId, scope.revisionId, scope.defaultAction, scope.decision, scope.requiresApproval⟩

structure PolicyEvaluationContext where
  operation : OperationRecord
  walletPolicy : PolicyContext
  apiKeyPolicy : Option PolicyContext

structure PolicyEvaluationRow where
  id : String
  walletOperationId : String
  walletPolicyRevisionId : Option String
  apiKeyPolicyRevisionId : Option String
  decision : PolicyDecision
  reasonCode : String
  reason : String
  matchedRules : List MatchedPolicyRule
  evaluationContext : Option PolicyEvaluationContext
  requiresApproval : Bool
  approvalRequestId : Option String

def reasonCodeText : PolicyEvaluationReasonCode → String
  | .implicitDefaultAllow => "implicit_default_allow"
  | .walletPolicyMatch => "wallet_policy_match"
  | .apiKeyPolicyMatch => "api_key_policy_match"
  | .walletPolicyMissing => "wallet_policy_missing"
  | .apiKeyPolicyMissing => "api_key_policy_missing"

/-- An operation that is asked for, with the policies that are in force and the ids that it gets. -/
structure OperationRequest where
  input : CreateWalletOperationInput
  walletPolicy : EffectivePolicy
  apiKeyPolicy : Option EffectivePolicy
  operationId : String
  evaluationId : String
  /-- The part after the prefix. -/
  approvalRequestSuffix : String

namespace OperationRequest

def approvalRequestId (request : OperationRequest) : String := "appr_" ++ request.approvalRequestSuffix

def operation (request : OperationRequest) : OperationRecord := createWalletOperation request.operationId request.input

/-- What the policies are evaluated on. -/
def candidates (request : OperationRequest) : EvaluateCandidatePoliciesInput where
  candidate :=
    { apiKeyId := request.input.apiKeyId
      operationFamily := request.input.operationFamily
      operationType := request.input.operationType
      asset := request.input.asset
      amount := request.input.amount
      destination := request.input.destination }
  legs := request.input.legs
  walletPolicy := request.walletPolicy
  apiKeyPolicy := request.apiKeyPolicy

/-- The row of `recordPolicyEvaluation`. -/
def evaluationRow (request : OperationRequest) (evaluation : CandidatePolicyEvaluation) (requested : Bool) :
    PolicyEvaluationRow :=
  { id := request.evaluationId
    walletOperationId := request.operationId
    walletPolicyRevisionId := evaluation.walletPolicyRevisionId
    apiKeyPolicyRevisionId := evaluation.apiKeyPolicyRevisionId
    decision := evaluation.decision
    reasonCode := reasonCodeText evaluation.reasonCode
    reason := evaluation.reason
    matchedRules := evaluation.matchedRules
    evaluationContext := some
      ⟨request.operation, createPolicyContext evaluation.wallet, evaluation.apiKey.map createPolicyContext⟩
    requiresApproval := evaluation.requiresApproval
    approvalRequestId := if requested then some request.approvalRequestId else none }

end OperationRequest

/-! ## The system -/

/-- The operation with what was recorded of it. -/
structure Recorded where
  system : System
  operation : Option OperationRecord
  evaluations : List PolicyEvaluationRow

def Recorded.start : Recorded := ⟨.start, none, []⟩

inductive RecordedEvent
  | plain (event : Event)
  /-- `loadEffectivePolicies` may fail. -/
  | evaluate (loaded : Bool)
  | recordPolicyEvaluation (outcome : CallOutcome)

def recordedStep (request : OperationRequest) (s : Recorded) : RecordedEvent → Option Recorded
  | .plain (.enforce (.evaluate _)) | .plain (.enforce (.recordPolicyEvaluation _)) => none
  | .plain (.enforce (.createWalletOperation outcome)) =>
    (step s.system (.enforce (.createWalletOperation outcome))).map fun system =>
      { s with system, operation := if outcome = .failed then s.operation else some request.operation }
  | .plain event => (step s.system event).map fun system => { s with system }
  | .evaluate loaded =>
    let decision := (evaluateCandidatePolicies request.candidates).toOption.map CandidatePolicyEvaluation.decision
    (step s.system (.enforce (.evaluate (if loaded then decision else none)))).map fun system => { s with system }
  | .recordPolicyEvaluation outcome =>
    match s.system.enforcement, evaluateCandidatePolicies request.candidates with
    | .recording _ requested, .ok evaluation =>
      (step s.system (.enforce (.recordPolicyEvaluation (decide (outcome = .answered))))).map fun system =>
        { s with
          system
          evaluations := if outcome = .failed then s.evaluations
            else s.evaluations ++ [request.evaluationRow evaluation requested] }
    | _, _ => none

/-! ## The replay -/

structure TenantScope where
  organizationId : String
  projectId : Option String

/-- The operation of this id, when the tenant owns it. -/
def Recorded.getWalletOperationById (s : Recorded) (scope : TenantScope) (id : String) :
    Option (OperationRecord × WalletOperationRow) :=
  match s.operation, s.system.db.operation with
  | some operation, some row =>
    if operation.id = id ∧ operation.organizationId = scope.organizationId ∧ operation.projectId = scope.projectId then
      some (operation, row)
    else none
  | _, _ => none

def Recorded.listPolicyEvaluationsForOperation (s : Recorded) (id : String) : List PolicyEvaluationRow :=
  s.evaluations.filter fun evaluation => evaluation.walletOperationId = id

structure WalletOperationEnvelope extends OperationRecord where
  actor : Option JsValue
  context : JsValue
  providerExtensions : JsValue
  status : WalletOperationStatus

structure WalletOperationPolicyEnforcement where
  operation : WalletOperationEnvelope
  evaluation : PolicyEvaluationRow

/-- A property of a value. -/
def property (value : JsValue) (key : String) : JsValue :=
  match value with
  | .obj members => ((members.find? fun m => m.1 = key).map Prod.snd).getD .undefined
  | _ => .undefined

def storedOperationContext (rawPayload : JsValue) : JsValue :=
  if isJsonObject (property rawPayload "context") then property rawPayload "context" else .obj []

def storedOperationActor (rawPayload : JsValue) : Option JsValue :=
  if isJsonObject (property rawPayload "actor") then some (property rawPayload "actor") else none

def storedOperationProviderExtensions (rawPayload : JsValue) : JsValue :=
  if isJsonObject (property rawPayload "providerExtensions") then property rawPayload "providerExtensions"
  else match property rawPayload "provider" with
    | .str provider => .obj [("provider", .str provider)]
    | _ => .obj []

def forbidden (message : String) : ApiKeys.AppError := ⟨.forbidden, message⟩

/-- `matches` of `resumeApprovedOperation`. -/
def operationMatches (localeCompare : String → String → Ordering) (operation : OperationRecord)
    (input : CreateWalletOperationInput) : Bool :=
  operation.organizationId = input.organizationId && operation.projectId = input.projectId &&
    operation.custodyWalletId = input.custodyWalletId && operation.walletId = input.walletId &&
    operation.apiKeyId = input.apiKeyId && operation.operationFamily = input.operationFamily &&
    operation.operationType = input.operationType && operation.asset = input.asset &&
    operation.amount = input.amount && operation.destination = input.destination &&
    jsonValuesEqual localeCompare operation.rawPayload (walletOperationRawPayload input)

def resumeApprovedOperation (localeCompare : String → String → Ordering) (s : Recorded) (scope : TenantScope)
    (walletOperationId executionAttemptId : String) (input : CreateWalletOperationInput) (now : Nat) :
    Except ApiKeys.AppError WalletOperationPolicyEnforcement :=
  match s.getWalletOperationById scope walletOperationId with
  | none => .error (forbidden "Wallet operation approval is not executable")
  | some (operation, row) =>
    if row.status ≠ .executing ∨ row.executionStartedAt = none ∨ row.executionAttemptId ≠ some executionAttemptId ∨
        row.executionLeaseExpiresAt.all (· ≤ now) then
      .error (forbidden "Wallet operation approval is not executable")
    else if !operationMatches localeCompare operation input then
      .error (forbidden "Approved wallet operation does not match replayed action")
    else match (s.listPolicyEvaluationsForOperation walletOperationId).getLast? with
      | none => .error (forbidden "Wallet operation has no satisfied approval gate")
      | some original =>
        if !original.requiresApproval ∨ original.approvalRequestId.getD "" = "" ∨ original.evaluationContext.isNone then
          .error (forbidden "Wallet operation has no satisfied approval gate")
        else .ok
          { operation :=
              { operation with
                operationFamily := input.operationFamily
                operationType := input.operationType
                actor := storedOperationActor operation.rawPayload
                context := storedOperationContext operation.rawPayload
                providerExtensions := storedOperationProviderExtensions operation.rawPayload
                status := row.status }
            evaluation :=
              { original with
                decision := .allow
                reasonCode := "approval_satisfied"
                reason := "Required approval was granted"
                requiresApproval := false } }

end Sdp.Operations
