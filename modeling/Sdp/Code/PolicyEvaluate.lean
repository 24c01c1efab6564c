import Sdp.Code.PolicyRules
import Sdp.Lib.Strictest

/-!
# Candidate policy evaluation

From `packages/sdp-policy/src/evaluate.ts` and `decisions.ts`.
-/

open Sdp.Amount Sdp.Lib

namespace Sdp.Policy

/-- `DECISION_RANK` -/
def decisionRank : PolicyDecision → Nat
  | .notEvaluated => 0
  | .allow => 1
  | .review => 2
  | .providerApprovalRequired => 3
  | .approvalRequired => 4
  | .deny => 5

def PolicyDecision.text : PolicyDecision → String
  | .allow => "allow"
  | .deny => "deny"
  | .approvalRequired => "approval_required"
  | .providerApprovalRequired => "provider_approval_required"
  | .review => "review"
  | .notEvaluated => "not_evaluated"

def isApprovalDecision (decision : PolicyDecision) : Bool :=
  decision = .approvalRequired ∨ decision = .providerApprovalRequired

inductive PolicyDefaultAction
  | allow | deny | approvalRequired | review
deriving DecidableEq, Repr

@[coe] def PolicyDefaultAction.decision : PolicyDefaultAction → PolicyDecision
  | .allow => .allow
  | .deny => .deny
  | .approvalRequired => .approvalRequired
  | .review => .review

instance : Coe PolicyDefaultAction PolicyDecision := ⟨PolicyDefaultAction.decision⟩

inductive EffectivePolicySource
  | implicitDefaultAllow | customerProfile
deriving DecidableEq, Repr

inductive PolicyRuleScope
  | wallet | apiKey
deriving DecidableEq, Repr

inductive PolicyEvaluationReasonCode
  | implicitDefaultAllow | walletPolicyMatch | apiKeyPolicyMatch | walletPolicyMissing
  | apiKeyPolicyMissing
deriving DecidableEq, Repr

structure PolicyRevision where
  id : String
  rules : List PolicyRule
deriving DecidableEq

/-- A policy without a revision is `IMPLICIT_DEFAULT_ALLOW_POLICY`: the wallet, API-key and
enforcement stores return nothing else when no profile is active. -/
structure EffectivePolicy where
  source : EffectivePolicySource
  profileId : Option String
  revision : Option PolicyRevision
  defaultAction : PolicyDefaultAction
  implicitAllow : revision = none → defaultAction = .allow

/-- `IMPLICIT_DEFAULT_ALLOW_POLICY` -/
def implicitDefaultAllowPolicy : EffectivePolicy where
  source := .implicitDefaultAllow
  profileId := none
  revision := none
  defaultAction := .allow
  implicitAllow := fun _ => rfl

structure CandidateView where
  candidate : PolicyCandidate
  leg : Option Nat
deriving DecidableEq

structure ViewRuleEvaluation extends RuleEvaluation where
  leg : Option Nat
deriving DecidableEq

structure MatchedPolicyRule where
  scope : PolicyRuleScope
  ruleId : Option String
  kind : PolicyRuleKind
  decision : PolicyDecision
  reason : String
  rule : PolicyRule
  leg : Option Nat
deriving DecidableEq

structure PolicyScopeEvaluation where
  scope : PolicyRuleScope
  source : EffectivePolicySource
  profileId : Option String
  revisionId : Option String
  defaultAction : PolicyDefaultAction
  decision : PolicyDecision
  reasonCode : PolicyEvaluationReasonCode
  reason : String
  matchedRules : List MatchedPolicyRule
  requiresApproval : Bool
deriving DecidableEq

structure CandidatePolicyEvaluation where
  wallet : PolicyScopeEvaluation
  apiKey : Option PolicyScopeEvaluation
  decision : PolicyDecision
  reasonCode : PolicyEvaluationReasonCode
  reason : String
  matchedRules : List MatchedPolicyRule
  requiresApproval : Bool
  walletPolicyRevisionId : Option String
  apiKeyPolicyRevisionId : Option String
deriving DecidableEq

structure EvaluateCandidatePoliciesInput where
  candidate : PolicyCandidate
  legs : List PolicyCandidate
  walletPolicy : EffectivePolicy
  apiKeyPolicy : Option EffectivePolicy

def missingPolicyReasonCode : PolicyRuleScope → PolicyEvaluationReasonCode
  | .wallet => .walletPolicyMissing
  | .apiKey => .apiKeyPolicyMissing

def matchedPolicyReasonCode : PolicyRuleScope → PolicyEvaluationReasonCode
  | .wallet => .walletPolicyMatch
  | .apiKey => .apiKeyPolicyMatch

def scopeLabel : PolicyRuleScope → String
  | .wallet => "wallet"
  | .apiKey => "API key"

def candidateViews (candidate : PolicyCandidate) (legs : List PolicyCandidate) : List CandidateView :=
  { candidate := candidate, leg := none } ::
    legs.mapIdx fun index leg => { candidate := leg, leg := some index }

def viewRules (rules : List PolicyRule) (view : CandidateView) (hasLegs : Bool) : List PolicyRule :=
  if !hasLegs ∨ view.leg.isSome then rules
  else rules.filter fun rule => rule.kind ≠ .destination

def selectStrictestRule (evaluations : List ViewRuleEvaluation) : Option ViewRuleEvaluation :=
  strictest (fun evaluation => decisionRank evaluation.decision) evaluations

def toMatchedRule (scope : PolicyRuleScope) (evaluation : ViewRuleEvaluation) : MatchedPolicyRule where
  scope := scope
  ruleId := evaluation.rule.base.id
  kind := evaluation.rule.kind
  decision := evaluation.decision
  reason := evaluation.reason
  rule := evaluation.rule
  leg := evaluation.leg

def viewReason (evaluation : ViewRuleEvaluation) : String :=
  match evaluation.leg with
  | none => evaluation.reason
  | some leg => s!"Leg {leg + 1}: {evaluation.reason}"

/-- The evaluations of one view: `viewRules(...).flatMap(...)`. -/
def viewEvaluations (rules : List PolicyRule) (hasLegs : Bool) (view : CandidateView) :
    Except AmountError (List ViewRuleEvaluation) := do
  let evaluations ← (viewRules rules view hasLegs).mapM fun rule => evaluatePolicyRule rule view.candidate
  return (evaluations.filterMap id).map fun evaluation => { evaluation with leg := view.leg }

def evaluatePolicyScope (scope : PolicyRuleScope) (policy : EffectivePolicy)
    (views : List CandidateView) : Except AmountError PolicyScopeEvaluation :=
  match policy.revision with
  | none => .ok
    { scope := scope, source := .implicitDefaultAllow, profileId := none, revisionId := none
      defaultAction := policy.defaultAction, decision := .allow
      reasonCode := missingPolicyReasonCode scope
      reason := s!"{scopeLabel scope} policy is not active; implicit default allow applies."
      matchedRules := [], requiresApproval := false }
  | some revision => do
    let hasLegs := views.any fun view => view.leg.isSome
    let perView ← views.mapM (viewEvaluations revision.rules hasLegs)
    let ruleEvaluations := perView.flatten
    match selectStrictestRule ruleEvaluations with
    | some selectedRule =>
      return {
        scope := scope, source := policy.source, profileId := policy.profileId
        revisionId := some revision.id, defaultAction := policy.defaultAction
        decision := selectedRule.decision, reasonCode := matchedPolicyReasonCode scope
        reason := viewReason selectedRule
        matchedRules := ruleEvaluations.map (toMatchedRule scope)
        requiresApproval := isApprovalDecision selectedRule.decision }
    | none =>
      return {
        scope := scope, source := policy.source, profileId := policy.profileId
        revisionId := some revision.id, defaultAction := policy.defaultAction
        decision := policy.defaultAction, reasonCode := matchedPolicyReasonCode scope
        reason := s!"No {scopeLabel scope} policy rules matched; default action {policy.defaultAction.decision.text} applies."
        matchedRules := [], requiresApproval := isApprovalDecision policy.defaultAction }

/-- `null` when no API key is involved. -/
def resolveApiKeyScopeEvaluation (input : EvaluateCandidatePoliciesInput) :
    Except AmountError (Option PolicyScopeEvaluation) :=
  match input.apiKeyPolicy with
  | some policy => do
    return some (← evaluatePolicyScope .apiKey policy (candidateViews input.candidate input.legs))
  | none =>
    if input.candidate.apiKeyId.isSome then do
      return some (← evaluatePolicyScope .apiKey implicitDefaultAllowPolicy
        (candidateViews input.candidate input.legs))
    else .ok none

def summarizeScopeDecisions (scopes : List PolicyScopeEvaluation) (selected : PolicyScopeEvaluation) :
    String :=
  if scopes.all fun scope => scope.source = .implicitDefaultAllow then
    "No active wallet or API key policy exists; implicit default allow applies."
  else
    let decisions := ", ".intercalate (scopes.map fun scope => s!"{scopeLabel scope.scope}={scope.decision.text}")
    s!"{selected.reason} Combined policy decision: {decisions}."

def evaluateCandidatePolicies (input : EvaluateCandidatePoliciesInput) :
    Except AmountError CandidatePolicyEvaluation := do
  let wallet ← evaluatePolicyScope .wallet input.walletPolicy (candidateViews input.candidate input.legs)
  let apiKey ← resolveApiKeyScopeEvaluation input
  -- `scopes.reduce` starts from the wallet scope, which is always the first.
  let rest := apiKey.toList
  let scopes := wallet :: rest
  let selected := strictestFrom (fun scope => decisionRank scope.decision) wallet rest
  let allScopesUseImplicitAllow := scopes.all fun scope =>
    scope.source = .implicitDefaultAllow ∧ scope.decision = .allow
  return {
      wallet := wallet, apiKey := apiKey, decision := selected.decision
      reasonCode := if allScopesUseImplicitAllow then .implicitDefaultAllow else selected.reasonCode
      reason := summarizeScopeDecisions scopes selected
      matchedRules := scopes.flatMap fun scope => scope.matchedRules
      requiresApproval := isApprovalDecision selected.decision
      walletPolicyRevisionId := wallet.revisionId
      apiKeyPolicyRevisionId := apiKey.bind fun scope => scope.revisionId }

structure PolicyDryRunCriterion where
  scope : PolicyRuleScope
  ruleId : Option String
  kind : PolicyRuleKind
  name : Option String
  matched : Bool
  action : Option PolicyDecision
  reason : Option String
  leg : Option Nat
deriving DecidableEq

/-- The object that `describeCandidateRuleCriteria` makes of one rule. -/
def ruleCriterion (scope : PolicyRuleScope) (view : CandidateView) (rule : PolicyRule)
    (evaluation : Option RuleEvaluation) : PolicyDryRunCriterion where
  scope := scope
  ruleId := rule.base.id
  kind := rule.kind
  name := rule.base.name
  matched := evaluation.isSome
  action := evaluation.map (·.decision)
  reason := evaluation.map (·.reason)
  leg := view.leg

def describeCandidateRuleCriteria (scope : PolicyRuleScope) (policy : EffectivePolicy) (candidate : PolicyCandidate)
    (legs : List PolicyCandidate) : Except AmountError (List PolicyDryRunCriterion) :=
  match policy.revision with
  | none => .ok []
  | some revision => do
    let perView ← (candidateViews candidate legs).mapM fun view =>
      (viewRules revision.rules view (0 < legs.length)).mapM fun rule => do
        return ruleCriterion scope view rule (← evaluatePolicyRule rule view.candidate)
    return perView.flatten

end Sdp.Policy
