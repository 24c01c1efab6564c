import Sdp.PolicyEvaluate

/-!
# What is shown of the rules

A dry run shows what the enforcement records. A rule is shown as restrictive by its action, which is not always what
it does.
-/

open Sdp.Amount Sdp.Lib

namespace Sdp.Policy

/-! ## Criteria -/

/-- The criteria of a scope, in order. -/
def scopeCriteria (scope : PolicyRuleScope) (rules : List PolicyRule) (candidate : PolicyCandidate)
    (legs : List PolicyCandidate) : List PolicyDryRunCriterion :=
  (candidateViews candidate legs).flatMap fun view =>
    (viewRules rules view (!legs.isEmpty)).map fun rule => ruleCriterion scope view rule (ruleMatch rule view.candidate)

theorem describeCandidateRuleCriteria_eq (scope : PolicyRuleScope) (policy : EffectivePolicy)
    (candidate : PolicyCandidate) (legs : List PolicyCandidate) :
    describeCandidateRuleCriteria scope policy candidate legs =
      .ok (scopeCriteria scope policy.rules candidate legs) := by
  unfold describeCandidateRuleCriteria EffectivePolicy.rules
  cases policy.revision with
  | none =>
    have hnone : ∀ view : CandidateView, viewRules [] view (!legs.isEmpty) = [] := by
      intro view
      unfold viewRules
      split <;> rfl
    simp [scopeCriteria, hnone]
  | some revision =>
    have hlegs : decide (0 < legs.length) = !legs.isEmpty := by cases legs <;> rfl
    have hview : ∀ view : CandidateView,
        ((viewRules revision.rules view (0 < legs.length)).mapM fun rule => do
          return ruleCriterion scope view rule (← evaluatePolicyRule rule view.candidate)) =
        .ok ((viewRules revision.rules view (!legs.isEmpty)).map fun rule =>
          ruleCriterion scope view rule (ruleMatch rule view.candidate)) := by
      intro view
      rw [hlegs]
      refine mapM_ok _ _ _ fun rule => ?_
      rw [evaluatePolicyRule_eq]
      rfl
    have hviews := mapM_ok _ _ (candidateViews candidate legs) hview
    dsimp only
    rw [hviews, scopeCriteria, List.flatMap_def]
    rfl

/-- What the enforcement would record of a criterion. -/
structure Entry where
  scope : PolicyRuleScope
  ruleId : Option String
  kind : PolicyRuleKind
  decision : Option PolicyDecision
  reason : Option String
  leg : Option Nat

def PolicyDryRunCriterion.entry (criterion : PolicyDryRunCriterion) : Entry :=
  ⟨criterion.scope, criterion.ruleId, criterion.kind, criterion.action, criterion.reason, criterion.leg⟩

def MatchedPolicyRule.entry (rule : MatchedPolicyRule) : Entry :=
  ⟨rule.scope, rule.ruleId, rule.kind, some rule.decision, some rule.reason, rule.leg⟩

theorem rule_of_evaluateAmountRule {rule : AmountPolicyRule} {operation : PolicyCandidate} {e : RuleEvaluation}
    (h : evaluateAmountRule rule operation = .ok (some e)) : e.rule = .amount rule := by
  unfold evaluateAmountRule at h
  cases hamount : operation.amount with
  | none =>
    simp only [hamount] at h
    split_ifs at h <;> cases h
    rfl
  | some amount =>
    simp only [hamount] at h
    split_ifs at h
    case neg =>
      cases hlo : boundHit amount rule.min (· < 0) with
      | error error => simp [hlo, bind, Except.bind] at h
      | ok lo =>
        cases hhi : boundHit amount rule.max (0 < ·) with
        | error error => cases lo <;> simp [hlo, hhi, bind, Except.bind, pure, Except.pure] at h; exact h ▸ rfl
        | ok hi =>
          cases lo <;> cases hi <;> simp [hlo, hhi, bind, Except.bind, pure, Except.pure] at h <;> exact h ▸ rfl
    all_goals cases h
    all_goals rfl

theorem rule_of_ruleMatch {rule : PolicyRule} {candidate : PolicyCandidate} {e : RuleEvaluation}
    (h : ruleMatch rule candidate = some e) : e.rule = rule := by
  have h : evaluatePolicyRule rule candidate = .ok (some e) := (evaluatePolicyRule_eq rule candidate).trans (h ▸ rfl)
  cases rule with
  | always rule =>
    cases h
    rfl
  | amount rule => exact rule_of_evaluateAmountRule h
  | operationFamily rule =>
    have h := Except.ok.inj h
    unfold evaluateOperationFamilyRule at h
    dsimp only at h
    split_ifs at h <;> cases h <;> rfl
  | operationType rule =>
    have h := Except.ok.inj h
    unfold evaluateOperationTypeRule at h
    dsimp only at h
    split_ifs at h <;> cases h <;> rfl
  | asset rule =>
    have h := Except.ok.inj h
    unfold evaluateAssetRule at h
    dsimp only at h
    split_ifs at h
    · cases h
      rfl
    · split at h <;> cases h
      rfl
  | destination rule =>
    have h := Except.ok.inj h
    unfold evaluateDestinationRule at h
    dsimp only at h
    split_ifs at h
    · cases h
      rfl
    · split at h
      · cases h
        rfl
      · split at h
        · cases h
          rfl
        · split_ifs at h <;> cases h <;> rfl
    · split at h <;> cases h
      rfl
  | approval rule =>
    have h := Except.ok.inj h
    unfold evaluateApprovalRule at h
    dsimp only at h
    split_ifs at h
    cases h
    rfl

theorem entry_toMatchedRule {scope : PolicyRuleScope} {view : CandidateView} {rule : PolicyRule} {e : RuleEvaluation}
    (h : ruleMatch rule view.candidate = some e) :
    (toMatchedRule scope { e with leg := view.leg }).entry = (ruleCriterion scope view rule (some e)).entry := by
  have hrule := rule_of_ruleMatch h
  subst hrule
  rfl

theorem entries_of_view (scope : PolicyRuleScope) (rules : List PolicyRule) (view : CandidateView) :
    ((rules.map fun rule => ruleCriterion scope view rule (ruleMatch rule view.candidate)).filter (·.matched)).map
        (·.entry) =
      (((rules.filterMap fun rule => ruleMatch rule view.candidate).map fun e =>
        ({ e with leg := view.leg } : ViewRuleEvaluation)).map (toMatchedRule scope)).map (·.entry) := by
  induction rules with
  | nil => rfl
  | cons rule rules ih =>
    cases h : ruleMatch rule view.candidate with
    | none =>
      have hrest : (rule :: rules).filterMap (fun rule => ruleMatch rule view.candidate) =
          rules.filterMap fun rule => ruleMatch rule view.candidate := List.filterMap_cons_none h
      rw [List.map_cons, h, List.filter_cons_of_neg (by simp [ruleCriterion]), hrest]
      exact ih
    | some e =>
      have hrest : (rule :: rules).filterMap (fun rule => ruleMatch rule view.candidate) =
          e :: rules.filterMap fun rule => ruleMatch rule view.candidate := List.filterMap_cons_some h
      rw [List.map_cons, h, List.filter_cons_of_pos (by simp [ruleCriterion]), hrest]
      simp only [List.map_cons, entry_toMatchedRule h]
      exact congrArg _ ih

theorem entries_of_scope (scope : PolicyRuleScope) (rules : List PolicyRule) (candidate : PolicyCandidate)
    (legs : List PolicyCandidate) :
    ((scopeCriteria scope rules candidate legs).filter (·.matched)).map (·.entry) =
      ((scopeMatches rules candidate legs).map (toMatchedRule scope)).map (·.entry) := by
  unfold scopeCriteria scopeMatches
  induction candidateViews candidate legs with
  | nil => rfl
  | cons view views ih =>
    simp only [List.flatMap_cons, List.filter_append, List.map_append, ih]
    congr 1
    exact entries_of_view scope _ view

/-! ## A scope -/

/-- The reason of a scope that a criterion decides. -/
def PolicyDryRunCriterion.decides (criterion : PolicyDryRunCriterion) (evaluation : PolicyScopeEvaluation) : Prop :=
  criterion.matched = true ∧ criterion.action = some evaluation.decision ∧ ∃ reason, criterion.reason = some reason ∧
    evaluation.reason = match criterion.leg with
      | none => reason
      | some leg => s!"Leg {leg + 1}: {reason}"

/-- The criteria of a scope and what the enforcement records of it. -/
structure Agree (criteria : List PolicyDryRunCriterion) (evaluation : PolicyScopeEvaluation) : Prop where
  entries : (criteria.filter (·.matched)).map (·.entry) = evaluation.matchedRules.map (·.entry)
  decisive : evaluation.matchedRules ≠ [] → ∃ criterion ∈ criteria, criterion.decides evaluation

theorem decides_of_selected {scope : PolicyRuleScope} {rules : List PolicyRule} {candidate : PolicyCandidate}
    {legs : List PolicyCandidate} {selected : ViewRuleEvaluation} {evaluation : PolicyScopeEvaluation}
    (h : selectStrictestRule (scopeMatches rules candidate legs) = some selected)
    (hdecision : evaluation.decision = selected.decision) (hreason : evaluation.reason = viewReason selected) :
    ∃ criterion ∈ scopeCriteria scope rules candidate legs, criterion.decides evaluation := by
  obtain ⟨hmem, -⟩ := strictest_greatest _ _ _ h
  obtain ⟨view, hview, hselected⟩ := List.mem_flatMap.mp hmem
  obtain ⟨e, he, rfl⟩ := List.mem_map.mp hselected
  obtain ⟨rule, hrule, hmatch⟩ := List.mem_filterMap.mp he
  refine ⟨ruleCriterion scope view rule (some e), ?_, rfl, ?_, e.reason, rfl, hreason⟩
  · exact List.mem_flatMap.mpr ⟨view, hview, List.mem_map.mpr ⟨rule, hrule, hmatch ▸ rfl⟩⟩
  · rw [hdecision]
    rfl

theorem criteria_agree_scope (scope : PolicyRuleScope) (policy : EffectivePolicy) (candidate : PolicyCandidate)
    (legs : List PolicyCandidate) {evaluation : PolicyScopeEvaluation}
    (h : evaluatePolicyScope scope policy (candidateViews candidate legs) = .ok evaluation) :
    Agree (scopeCriteria scope policy.rules candidate legs) evaluation := by
  unfold evaluatePolicyScope at h
  cases hrevision : policy.revision with
  | none =>
    rw [hrevision] at h
    cases h
    have hrules : policy.rules = [] := by simp [EffectivePolicy.rules, hrevision]
    refine ⟨?_, fun hne => absurd rfl hne⟩
    rw [entries_of_scope, hrules]
    simp [scopeMatches, viewMatches, viewRules]
  | some revision =>
    have hrules : policy.rules = revision.rules := by simp [EffectivePolicy.rules, hrevision]
    simp only [hrevision, any_leg_candidateViews, bind, Except.bind,
      mapM_ok _ _ _ (viewEvaluations_eq revision.rules (!legs.isEmpty))] at h
    rw [← List.flatMap_def, ← scopeMatches] at h
    rw [hrules]
    cases hselected : selectStrictestRule (scopeMatches revision.rules candidate legs) with
    | some selected =>
      rw [hselected] at h
      cases h
      exact ⟨entries_of_scope scope revision.rules candidate legs, fun _ => decides_of_selected hselected rfl rfl⟩
    | none =>
      rw [hselected] at h
      cases h
      have hnil := (strictest_eq_none _ _).mp hselected
      refine ⟨?_, fun hne => absurd rfl hne⟩
      rw [entries_of_scope, hnil]
      rfl

/-- What a dry run shows as matched is what the enforcement records, in order, and one of the criteria shown decides
each scope in which some rule matches. -/
theorem criteria_agree (input : EvaluateCandidatePoliciesInput) :
    ∃ evaluation criteria, evaluateCandidatePolicies input = .ok evaluation ∧
      describeCandidateRuleCriteria .wallet input.walletPolicy input.candidate input.legs = .ok criteria ∧
      Agree criteria evaluation.wallet ∧
      ∀ policy, input.apiKeyScope = some policy → ∃ apiKey apiKeyCriteria, evaluation.apiKey = some apiKey ∧
        describeCandidateRuleCriteria .apiKey policy input.candidate input.legs = .ok apiKeyCriteria ∧
        Agree apiKeyCriteria apiKey := by
  obtain ⟨wallet, hwallet, -⟩ := evaluatePolicyScope_spec .wallet input.walletPolicy input.candidate input.legs
  obtain ⟨apiKey, hapiKey, -⟩ := resolveApiKeyScopeEvaluation_spec input
  refine ⟨_, _, by simp only [evaluateCandidatePolicies, hwallet, hapiKey, bind, Except.bind]; rfl,
    describeCandidateRuleCriteria_eq .., criteria_agree_scope _ _ _ _ hwallet, fun policy hpolicy => ?_⟩
  obtain ⟨evaluation, hevaluation, -⟩ := evaluatePolicyScope_spec .apiKey policy input.candidate input.legs
  refine ⟨evaluation, _, ?_, describeCandidateRuleCriteria_eq .., criteria_agree_scope _ _ _ _ hevaluation⟩
  show apiKey = some evaluation
  unfold resolveApiKeyScopeEvaluation at hapiKey
  unfold EvaluateCandidatePoliciesInput.apiKeyScope at hpolicy
  cases hkey : input.apiKeyPolicy with
  | some own =>
    rw [hkey] at hapiKey hpolicy
    cases hpolicy
    simp only [hevaluation, bind, Except.bind] at hapiKey
    exact (Except.ok.inj hapiKey).symm
  | none =>
    rw [hkey] at hapiKey hpolicy
    dsimp only at hapiKey hpolicy
    split_ifs at hapiKey hpolicy
    cases hpolicy
    simp only [hevaluation, bind, Except.bind] at hapiKey
    exact (Except.ok.inj hapiKey).symm

/-! ## Restrictive rules -/

/-- Some operation is not simply allowed by the rule. -/
def CanRestrict (rule : PolicyRule) : Prop :=
  ∃ operation evaluation, evaluatePolicyRule rule operation = .ok (some evaluation) ∧ evaluation.decision ≠ .allow

/-- The action of the rule, if it has one, says all that the rule does. -/
def ActionDecides : PolicyRule → Prop
  | .always _ | .approval _ => True
  | .asset rule => ruleValues rule.asset rule.assets ≠ []
  | .operationFamily rule => ruleValues rule.family rule.families ≠ []
  | .operationType rule => ruleValues rule.operationType rule.operationTypes ≠ []
  | .amount _ | .destination _ => False

def ruleDecision (rule : PolicyRule) (operation : PolicyCandidate) : Option PolicyDecision :=
  (ruleMatch rule operation).map (·.decision)

theorem canRestrict_iff {rule : PolicyRule} :
    CanRestrict rule ↔ ∃ operation decision, ruleDecision rule operation = some decision ∧ decision ≠ .allow := by
  simp only [CanRestrict, evaluatePolicyRule_eq, ruleDecision, Except.ok.injEq, Option.map_eq_some_iff]
  constructor
  · rintro ⟨operation, e, he, hne⟩
    exact ⟨operation, e.decision, ⟨e, he, rfl⟩, hne⟩
  · rintro ⟨operation, _, ⟨e, he, rfl⟩, hne⟩
    exact ⟨operation, e, he, hne⟩

def anyOperation : PolicyCandidate where
  apiKeyId := none
  operationFamily := .transfer
  operationType := .paymentTransferExecute
  asset := none
  amount := none
  destination := none

theorem canRestrict_of_all {rule : PolicyRule} (decision : PolicyDecision)
    (h : ∀ operation d, ruleDecision rule operation = some d → d = decision)
    (hsome : ∃ operation, ruleDecision rule operation = some decision) : CanRestrict rule ↔ decision ≠ .allow := by
  rw [canRestrict_iff]
  constructor
  · rintro ⟨operation, d, hd, hne⟩
    exact h operation d hd ▸ hne
  · intro hne
    obtain ⟨operation, hoperation⟩ := hsome
    exact ⟨operation, decision, hoperation, hne⟩

theorem canRestrict_named {α : Type} {rule : PolicyRule} {values : List α} {action : Option PolicyRuleAction}
    (named : PolicyCandidate → Prop) [DecidablePred named]
    (h : ∀ operation, ruleDecision rule operation =
      if values.length = 0 then some .review else if named operation then some (actionOr action .allow) else none)
    (hnamed : ∀ value ∈ values, ∃ operation, named operation) :
    CanRestrict rule ↔ values = [] ∨ actionOr action .allow ≠ .allow := by
  cases values with
  | nil =>
    have hreview : ∀ operation, ruleDecision rule operation = some .review := h
    have hall : ∀ operation d, ruleDecision rule operation = some d → d = .review :=
      fun operation d hd => Option.some.inj (hd.symm.trans (hreview operation))
    rw [canRestrict_of_all .review hall ⟨anyOperation, hreview anyOperation⟩]
    simp
  | cons value rest =>
    have hnamed := hnamed value List.mem_cons_self
    have h : ∀ operation, ruleDecision rule operation =
        if named operation then some (actionOr action .allow) else none := h
    have hall : ∀ operation d, ruleDecision rule operation = some d → d = actionOr action .allow := by
      intro operation d hd
      rw [h] at hd
      split at hd <;> cases hd
      rfl
    obtain ⟨operation, hoperation⟩ := hnamed
    rw [canRestrict_of_all _ hall ⟨operation, (h operation).trans (if_pos hoperation)⟩]
    simp

theorem canRestrict_operationFamily (rule : OperationFamilyPolicyRule) : CanRestrict (.operationFamily rule) ↔
    ruleValues rule.family rule.families = [] ∨ actionOr rule.action .allow ≠ .allow := by
  refine canRestrict_named (fun operation => operation.operationFamily ∈ ruleValues rule.family rule.families)
    (fun operation => ?_) fun family hfamily => ⟨{ anyOperation with operationFamily := family }, hfamily⟩
  simp only [ruleDecision, ruleMatch, evaluatePolicyRule, evaluateOperationFamilyRule, ite_not]
  split_ifs <;> rfl

theorem canRestrict_operationType (rule : OperationTypePolicyRule) : CanRestrict (.operationType rule) ↔
    ruleValues rule.operationType rule.operationTypes = [] ∨ actionOr rule.action .allow ≠ .allow := by
  refine canRestrict_named
    (fun operation => operation.operationType ∈ ruleValues rule.operationType rule.operationTypes)
    (fun operation => ?_) fun type htype => ⟨{ anyOperation with operationType := type }, htype⟩
  simp only [ruleDecision, ruleMatch, evaluatePolicyRule, evaluateOperationTypeRule, ite_not]
  split_ifs <;> rfl

theorem canRestrict_asset (rule : AssetPolicyRule) : CanRestrict (.asset rule) ↔
    ruleValues rule.asset rule.assets = [] ∨ actionOr rule.action .allow ≠ .allow := by
  refine canRestrict_named
    (fun operation => (listedValue (ruleValues rule.asset rule.assets) operation.asset).isSome = true)
    (fun operation => ?_) fun asset hasset => ⟨{ anyOperation with asset := some asset }, by simp [listedValue, hasset]⟩
  simp only [ruleDecision, ruleMatch, evaluatePolicyRule, evaluateAssetRule]
  split_ifs with hempty hlisted
  · rfl
  · obtain ⟨asset, hasset⟩ := Option.isSome_iff_exists.mp hlisted
    simp [hasset]
  · simp [Option.not_isSome_iff_eq_none.mp hlisted]

theorem canRestrict_always (rule : AlwaysPolicyRule) :
    CanRestrict (.always rule) ↔ actionOr rule.action .allow ≠ .allow :=
  canRestrict_of_all _ (fun _ _ h => (Option.some.inj h).symm) ⟨anyOperation, rfl⟩

theorem exists_listed {α : Type} (values : List α) (default : α) :
    ∃ value, 0 < values.length → value ∈ values := by
  cases values with
  | nil => exact ⟨default, fun h => absurd h (lt_irrefl 0)⟩
  | cons value rest => exact ⟨value, fun _ => List.mem_cons_self⟩

theorem canRestrict_approval (rule : ApprovalPolicyRule) :
    CanRestrict (.approval rule) ↔ actionOr rule.action .approvalRequired ≠ .allow := by
  refine canRestrict_of_all _ (fun operation d hd => ?_) ?_
  · simp only [ruleDecision, ruleMatch, evaluatePolicyRule, evaluateApprovalRule] at hd
    split_ifs at hd <;> cases hd
    rfl
  · obtain ⟨family, hfamily⟩ := exists_listed (ruleValues none rule.families) .transfer
    obtain ⟨type, htype⟩ := exists_listed (ruleValues none rule.operationTypes) .paymentTransferExecute
    obtain ⟨asset, hasset⟩ := exists_listed (ruleValues none rule.assets) ""
    refine ⟨⟨none, family, type, some asset, none, none⟩, ?_⟩
    have hlisted : ¬ (0 < (ruleValues none rule.assets).length ∧
        (listedValue (ruleValues none rule.assets) (some asset)).isNone = true) := by
      rintro ⟨hlength, hnone⟩
      simp [listedValue, hasset hlength] at hnone
    simp only [ruleDecision, ruleMatch, evaluatePolicyRule, evaluateApprovalRule]
    rw [if_neg fun h => h.2 (hfamily h.1), if_neg fun h => h.2 (htype h.1), if_neg hlisted]
    rfl

theorem canRestrict_destination (rule : DestinationPolicyRule) : CanRestrict (.destination rule) := by
  have hdecision : ∀ operation, ruleDecision (.destination rule) operation =
      (evaluateDestinationRule rule operation).map (·.decision) := fun _ => rfl
  rw [canRestrict_iff]
  cases hblock : ruleValues none rule.blocklist with
  | cons blocked rest =>
    refine ⟨{ anyOperation with destination := some blocked }, .deny, ?_, by decide⟩
    have hlisted : listedValue (blocked :: rest) (some blocked) = some blocked := by simp [listedValue]
    rw [hdecision, evaluateDestinationRule, hblock]
    simp [hlisted]
  | nil =>
    cases hallow : ruleValues rule.destination rule.destinations ++ ruleValues none rule.allowlist with
    | nil =>
      refine ⟨anyOperation, .review, ?_, by decide⟩
      rw [hdecision, evaluateDestinationRule, hblock, hallow]
      rfl
    | cons allowed rest =>
      refine ⟨anyOperation, .deny, ?_, by decide⟩
      rw [hdecision, evaluateDestinationRule, hblock, hallow]
      rfl

theorem canRestrict_amount (rule : AmountPolicyRule) : CanRestrict (.amount rule) := by
  cases hassets : ruleValues rule.asset rule.assets with
  | nil =>
    refine ⟨anyOperation, ⟨.review, "Amount rule has no assets.", .amount rule⟩, ?_, nofun⟩
    rw [evaluatePolicyRule, evaluateAmountRule, hassets]
    rfl
  | cons asset rest =>
    refine ⟨{ anyOperation with asset := some asset, amount := some "" },
      ⟨.review, "Operation amount is invalid for amount policy evaluation.", .amount rule⟩, ?_, nofun⟩
    rw [evaluatePolicyRule, evaluateAmountRule, hassets]
    simp [listedValue, isDecimalString]

/-- What a rule does, kind by kind. -/
theorem canRestrict_iff_kind (rule : PolicyRule) : CanRestrict rule ↔ match rule with
    | .amount _ | .destination _ => True
    | .always rule => actionOr rule.action .allow ≠ .allow
    | .approval rule => actionOr rule.action .approvalRequired ≠ .allow
    | .asset rule => ruleValues rule.asset rule.assets = [] ∨ actionOr rule.action .allow ≠ .allow
    | .operationFamily rule => ruleValues rule.family rule.families = [] ∨ actionOr rule.action .allow ≠ .allow
    | .operationType rule =>
      ruleValues rule.operationType rule.operationTypes = [] ∨ actionOr rule.action .allow ≠ .allow := by
  cases rule with
  | amount rule => exact iff_true_intro (canRestrict_amount rule)
  | destination rule => exact iff_true_intro (canRestrict_destination rule)
  | always rule => exact canRestrict_always rule
  | approval rule => exact canRestrict_approval rule
  | asset rule => exact canRestrict_asset rule
  | operationFamily rule => exact canRestrict_operationFamily rule
  | operationType rule => exact canRestrict_operationType rule

theorem actionOr_some_ne {action : PolicyRuleAction} {fallback : PolicyDecision} :
    actionOr (some action) fallback ≠ .allow ↔ action ≠ .allow := by
  cases action <;> simp [actionOr, PolicyRuleAction.decision]

theorem canRestrict_of_action {rule : PolicyRule} {action : PolicyRuleAction} (h : rule.base.action = some action) :
    CanRestrict rule ↔ action ≠ .allow ∨ ¬ ActionDecides rule := by
  rw [canRestrict_iff_kind]
  cases rule <;> simp only [PolicyRule.base] at h <;> simp [ActionDecides, h, actionOr_some_ne, or_comm]

theorem policyRuleRestricts_of_none {rule : PolicyRule} (h : rule.base.action = none) :
    policyRuleRestricts rule = true ↔ CanRestrict rule := by
  rw [canRestrict_iff_kind]
  unfold policyRuleRestricts
  rw [h]
  cases rule <;> simp only [PolicyRule.base] at h <;> simp [h, actionOr]

/-- A rule is classified exactly, unless its action is to allow and it still restricts: by an amount, by a destination,
or because it names nothing. -/
theorem policyRuleRestricts_exact_iff (rule : PolicyRule) :
    (policyRuleRestricts rule = true ↔ CanRestrict rule) ↔ (rule.base.action = some .allow → ActionDecides rule) := by
  cases haction : rule.base.action with
  | none => exact iff_of_true (policyRuleRestricts_of_none haction) nofun
  | some action =>
    have hrestricts : policyRuleRestricts rule = true ↔ action ≠ .allow := by
      unfold policyRuleRestricts
      rw [haction]
      exact decide_eq_true_iff
    rw [hrestricts, canRestrict_of_action haction]
    by_cases hallow : action = .allow
    · simp [hallow]
    · simp [hallow]

/-- The cap of a rule that allows. -/
def cappedRule : PolicyRule :=
  .amount { id := some "cap", action := some .allow, asset := some "USDC", max := some "100" }

theorem capped_rule_restricts : ¬ (policyRuleRestricts cappedRule = true ↔ CanRestrict cappedRule) :=
  fun h => nomatch h.mpr (canRestrict_amount _)

end Sdp.Policy
