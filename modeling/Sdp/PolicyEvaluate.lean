import Sdp.Amount
import Sdp.Spec.Policy

/-!
# The evaluator computes `Spec/Policy.lean`

First one rule, then one scope, then the whole candidate.
-/

open Sdp.Amount Sdp.Lib

namespace Sdp.Policy

/-! ## One rule -/

theorem boundHit_ok (amount : String) (bound : Option String) (test : Int → Bool)
    (ha : isDecimalString amount = true) (hb : invalidBound bound = false) :
    ∃ r, boundHit amount bound test = .ok r := by
  cases bound with
  | none => exact ⟨none, rfl⟩
  | some b =>
    have hdec : isDecimalString b = true := by simpa [invalidBound] using hb
    obtain ⟨order, ho⟩ := compareDecimalAmounts_ok amount b ha hdec
    exact ⟨_, by simp only [boundHit, ho, bind, Except.bind]; rfl⟩

theorem evaluateAmountRule_ok (rule : AmountPolicyRule) (operation : PolicyCandidate) :
    ∃ r, evaluateAmountRule rule operation = .ok r := by
  unfold evaluateAmountRule
  cases operation.amount with
  | none => dsimp only; split_ifs <;> exact ⟨_, rfl⟩
  | some amount =>
    dsimp only
    split_ifs with _ _ hdec _ hbound
    -- Every early return gives a value. What is left compares the amount with the bounds.
    case neg =>
      simp only [Bool.not_eq_true', Bool.not_eq_false] at hdec
      simp only [not_or, Bool.not_eq_true] at hbound
      obtain ⟨lo, hlo⟩ := boundHit_ok amount rule.min (· < 0) hdec hbound.1
      obtain ⟨hi, hhi⟩ := boundHit_ok amount rule.max (0 < ·) hdec hbound.2
      rw [hlo, hhi]
      cases lo <;> cases hi <;> exact ⟨_, rfl⟩
    all_goals exact ⟨_, rfl⟩

theorem evaluatePolicyRule_ok (rule : PolicyRule) (operation : PolicyCandidate) :
    ∃ r, evaluatePolicyRule rule operation = .ok r := by
  cases rule with
  | amount rule => exact evaluateAmountRule_ok rule operation
  | operationFamily | operationType | asset | destination | approval | always => exact ⟨_, rfl⟩

/-- The match of a rule on a candidate, if there is one. -/
def ruleMatch (rule : PolicyRule) (candidate : PolicyCandidate) : Option RuleEvaluation :=
  match evaluatePolicyRule rule candidate with
  | .ok r => r
  | .error _ => none

theorem evaluatePolicyRule_eq (rule : PolicyRule) (candidate : PolicyCandidate) :
    evaluatePolicyRule rule candidate = .ok (ruleMatch rule candidate) := by
  obtain ⟨r, hr⟩ := evaluatePolicyRule_ok rule candidate
  simp only [ruleMatch, hr]

theorem ruleReaches_iff (rule : PolicyRule) (candidate : PolicyCandidate) (d : PolicyDecision) :
    RuleReaches rule candidate d ↔ ∃ e, ruleMatch rule candidate = some e ∧ e.decision = d := by
  simp only [RuleReaches, evaluatePolicyRule_eq, Except.ok.injEq]

/-! ## One scope -/

theorem mapM_ok {α β ε : Type} (f : α → Except ε β) (g : α → β) (l : List α)
    (h : ∀ x, f x = .ok (g x)) : l.mapM f = .ok (l.map g) := by
  have hf : f = fun x => pure (g x) := funext h
  rw [hf, List.mapM_pure]
  rfl

def viewMatches (rules : List PolicyRule) (hasLegs : Bool) (view : CandidateView) :
    List ViewRuleEvaluation :=
  ((viewRules rules view hasLegs).filterMap fun rule => ruleMatch rule view.candidate).map
    fun evaluation => { evaluation with leg := view.leg }

theorem viewEvaluations_eq (rules : List PolicyRule) (hasLegs : Bool) (view : CandidateView) :
    viewEvaluations rules hasLegs view = .ok (viewMatches rules hasLegs view) := by
  simp only [viewEvaluations, bind, Except.bind, pure, Except.pure,
    mapM_ok _ _ _ (fun rule => evaluatePolicyRule_eq rule view.candidate), viewMatches,
    List.filterMap_map]
  rfl

theorem mem_viewMatches (rules : List PolicyRule) (hasLegs : Bool) (view : CandidateView)
    (d : PolicyDecision) :
    (∃ e ∈ viewMatches rules hasLegs view, e.decision = d) ↔
      ∃ rule ∈ viewRules rules view hasLegs, RuleReaches rule view.candidate d := by
  simp only [viewMatches, List.mem_map, List.mem_filterMap, ruleReaches_iff]
  constructor
  · rintro ⟨_, ⟨e, ⟨rule, hr, he⟩, rfl⟩, hd⟩
    exact ⟨rule, hr, e, he, hd⟩
  · rintro ⟨rule, hr, e, he, hd⟩
    exact ⟨_, ⟨e, ⟨rule, hr, he⟩, rfl⟩, hd⟩

theorem any_leg_candidateViews (candidate : PolicyCandidate) (legs : List PolicyCandidate) :
    (candidateViews candidate legs).any (fun view => view.leg.isSome) = !legs.isEmpty := by
  cases legs with
  | nil => rfl
  | cons leg legs => simp [candidateViews]

/-- The matches of a scope on all views, in evaluation order. -/
def scopeMatches (rules : List PolicyRule) (candidate : PolicyCandidate)
    (legs : List PolicyCandidate) : List ViewRuleEvaluation :=
  (candidateViews candidate legs).flatMap (viewMatches rules (!legs.isEmpty))

theorem mem_scopeMatches (rules : List PolicyRule) (candidate : PolicyCandidate)
    (legs : List PolicyCandidate) (d : PolicyDecision) :
    (∃ e ∈ scopeMatches rules candidate legs, e.decision = d) ↔ ScopeReaches rules candidate legs d := by
  have hview : (∃ e ∈ scopeMatches rules candidate legs, e.decision = d) ↔
      ∃ view ∈ candidateViews candidate legs,
        ∃ rule ∈ viewRules rules view (!legs.isEmpty), RuleReaches rule view.candidate d := by
    simp only [scopeMatches, List.mem_flatMap, ← mem_viewMatches]
    constructor
    · rintro ⟨e, ⟨view, hv, he⟩, hd⟩
      exact ⟨view, hv, e, he, hd⟩
    · rintro ⟨view, hv, e, he, hd⟩
      exact ⟨e, ⟨view, hv, he⟩, hd⟩
  rw [hview]
  simp only [candidateViews, List.mem_cons, List.mem_mapIdx, exists_eq_or_imp]
  apply or_congr
  · simp only [viewRules, Option.isSome_none, Bool.false_eq_true, or_false, Bool.not_eq_true',
      Bool.not_eq_false', List.isEmpty_iff]
    split_ifs with h
    · simp [h]
    · simp only [List.mem_filter, decide_eq_true_eq, h, false_or, and_assoc]
  · constructor
    · rintro ⟨view, ⟨i, hi, rfl⟩, rule, hr, h⟩
      refine ⟨legs[i], List.getElem_mem hi, rule, ?_, h⟩
      simpa [viewRules] using hr
    · rintro ⟨leg, hl, rule, hr, h⟩
      obtain ⟨i, hi, rfl⟩ := List.getElem_of_mem hl
      exact ⟨_, ⟨i, hi, rfl⟩, rule, by simpa [viewRules] using hr, h⟩

theorem select_decides (policy : EffectivePolicy) (candidate : PolicyCandidate)
    (legs : List PolicyCandidate) :
    ScopeDecides policy candidate legs
      (match selectStrictestRule (scopeMatches policy.rules candidate legs) with
        | some selectedRule => selectedRule.decision
        | none => policy.defaultAction) := by
  cases h : selectStrictestRule (scopeMatches policy.rules candidate legs) with
  | none =>
    have hnil := (strictest_eq_none _ _).mp h
    refine .inr ⟨rfl, fun m hm => ?_⟩
    obtain ⟨e, he, -⟩ := (mem_scopeMatches _ _ _ _).mpr hm
    rw [hnil] at he
    cases he
  | some e =>
    obtain ⟨hmem, hmax⟩ := strictest_greatest _ _ _ h
    refine .inl ⟨(mem_scopeMatches _ _ _ _).mp ⟨e, hmem, rfl⟩, ?_⟩
    intro m hm
    obtain ⟨e', he', rfl⟩ := (mem_scopeMatches _ _ _ _).mpr hm
    exact hmax e' he'

/-- A scope always evaluates, and to the decision that the policy means. -/
theorem evaluatePolicyScope_spec (scope : PolicyRuleScope) (policy : EffectivePolicy)
    (candidate : PolicyCandidate) (legs : List PolicyCandidate) :
    ∃ e, evaluatePolicyScope scope policy (candidateViews candidate legs) = .ok e ∧
      ScopeDecides policy candidate legs e.decision := by
  have hdec := select_decides policy candidate legs
  unfold evaluatePolicyScope
  cases hrev : policy.revision with
  | none =>
    refine ⟨_, rfl, .inr ⟨by rw [policy.implicitAllow hrev]; rfl, fun m hm => ?_⟩⟩
    simp [ScopeReaches, EffectivePolicy.rules, hrev] at hm
  | some revision =>
    have hrules : policy.rules = revision.rules := by simp [EffectivePolicy.rules, hrev]
    rw [hrules] at hdec
    simp only [any_leg_candidateViews, bind, Except.bind,
      mapM_ok _ _ _ (viewEvaluations_eq revision.rules (!legs.isEmpty))]
    rw [← List.flatMap_def, ← scopeMatches]
    cases h : selectStrictestRule (scopeMatches revision.rules candidate legs) with
    | some selected => exact ⟨_, rfl, by simpa [h] using hdec⟩
    | none => exact ⟨_, rfl, by simpa [h] using hdec⟩

/-! ## The whole candidate -/

theorem resolveApiKeyScopeEvaluation_spec (input : EvaluateCandidatePoliciesInput) :
    ∃ k, resolveApiKeyScopeEvaluation input = .ok k ∧
      Option.Rel (fun e policy => ScopeDecides policy input.candidate input.legs e.decision)
        k input.apiKeyScope := by
  unfold resolveApiKeyScopeEvaluation EvaluateCandidatePoliciesInput.apiKeyScope
  cases input.apiKeyPolicy with
  | some policy =>
    obtain ⟨e, he, hd⟩ := evaluatePolicyScope_spec .apiKey policy input.candidate input.legs
    exact ⟨some e, by dsimp only; rw [he]; rfl, .some hd⟩
  | none =>
    dsimp only
    split_ifs
    · obtain ⟨e, he, hd⟩ := evaluatePolicyScope_spec .apiKey implicitDefaultAllowPolicy
        input.candidate input.legs
      exact ⟨some e, by rw [he]; rfl, .some hd⟩
    · exact ⟨none, rfl, .none⟩

/-- What an evaluation is made of: one decision per scope, and the strictest of them. -/
def EvaluationOf (input : EvaluateCandidatePoliciesInput) (e : CandidatePolicyEvaluation) : Prop :=
  ScopeDecides input.walletPolicy input.candidate input.legs e.wallet.decision ∧
    Option.Rel (fun k policy => ScopeDecides policy input.candidate input.legs k.decision)
      e.apiKey input.apiKeyScope ∧
    IsGreatest {d | d = e.wallet.decision ∨ ∃ k, e.apiKey = some k ∧ d = k.decision} e.decision

theorem evaluateCandidatePolicies_spec (input : EvaluateCandidatePoliciesInput) :
    ∃ e, evaluateCandidatePolicies input = .ok e ∧ EvaluationOf input e := by
  obtain ⟨wallet, hw, hwd⟩ :=
    evaluatePolicyScope_spec .wallet input.walletPolicy input.candidate input.legs
  obtain ⟨apiKey, hk, hkd⟩ := resolveApiKeyScopeEvaluation_spec input
  refine ⟨_, by simp only [evaluateCandidatePolicies, hw, hk, bind, Except.bind]; rfl, hwd, hkd, ?_⟩
  dsimp only
  cases apiKey with
  | none => exact ⟨.inl rfl, by rintro d (rfl | ⟨k, hk, -⟩) <;> [exact le_refl _; cases hk]⟩
  | some k =>
    obtain ⟨hle, hlek⟩ := rank_le_strictestFrom
      (fun scope : PolicyScopeEvaluation => decisionRank scope.decision) wallet [k]
    refine ⟨?_, ?_⟩
    · rcases strictestFrom_mem (fun scope : PolicyScopeEvaluation => decisionRank scope.decision)
        wallet [k] with h | h
      · left; exact congrArg _ h
      · right; exact ⟨k, rfl, congrArg _ (List.mem_singleton.mp h)⟩
    · rintro d (rfl | ⟨k', hk', rfl⟩)
      · exact hle
      · cases hk'; exact hlek k List.mem_cons_self

theorem EvaluationOf.scope_le {input : EvaluateCandidatePoliciesInput} {e : CandidatePolicyEvaluation}
    (h : EvaluationOf input e) {policy : EffectivePolicy} (hp : policy ∈ input.scopes)
    {d : PolicyDecision} (hd : ScopeDecides policy input.candidate input.legs d) : d ≤ e.decision := by
  obtain ⟨hw, hk, hmax⟩ := h
  rcases List.mem_cons.mp hp with rfl | hp
  · rw [hd.unique hw]; exact hmax.2 (.inl rfl)
  · rw [Option.mem_toList] at hp
    rw [hp] at hk
    cases hka : e.apiKey with
    | none => rw [hka] at hk; cases hk
    | some k =>
      rw [hka] at hk
      obtain ⟨hk⟩ := hk
      rw [hd.unique hk]
      exact hmax.2 (.inr ⟨k, hka, rfl⟩)

theorem EvaluationOf.decides {input : EvaluateCandidatePoliciesInput} {e : CandidatePolicyEvaluation}
    (h : EvaluationOf input e) :
    ∃ policy ∈ input.scopes, ScopeDecides policy input.candidate input.legs e.decision := by
  obtain ⟨hw, hk, hmax⟩ := h
  rcases hmax.1 with h | ⟨k, hka, h⟩
  · exact ⟨_, List.mem_cons_self, by rw [h]; exact hw⟩
  · rw [hka] at hk
    cases hs : input.apiKeyScope with
    | none => rw [hs] at hk; cases hk
    | some policy =>
      rw [hs] at hk
      obtain ⟨hk⟩ := hk
      refine ⟨policy, ?_, by rw [h]; exact hk⟩
      simp [EvaluateCandidatePoliciesInput.scopes, hs]

/-- Inputs that differ only in the order of legs and rules. -/
def SameUpToOrder (input input' : EvaluateCandidatePoliciesInput) : Prop :=
  input.candidate = input'.candidate ∧ input.legs.Perm input'.legs ∧
    SamePolicy input.walletPolicy input'.walletPolicy ∧
    Option.Rel SamePolicy input.apiKeyPolicy input'.apiKeyPolicy

theorem SamePolicy.symm {p q : EffectivePolicy} (h : SamePolicy p q) : SamePolicy q p :=
  ⟨h.1.symm, h.2.symm⟩

theorem rel_samePolicy_symm {p q : Option EffectivePolicy} (h : Option.Rel SamePolicy p q) :
    Option.Rel SamePolicy q p := by
  cases h with
  | none => exact .none
  | some h => exact .some h.symm

theorem SameUpToOrder.symm {input input' : EvaluateCandidatePoliciesInput}
    (h : SameUpToOrder input input') : SameUpToOrder input' input := by
  obtain ⟨hc, hl, hw, hk⟩ := h
  exact ⟨hc.symm, hl.symm, hw.symm, rel_samePolicy_symm hk⟩

theorem SameUpToOrder.scope {input input' : EvaluateCandidatePoliciesInput}
    (h : SameUpToOrder input input') {policy : EffectivePolicy} (hp : policy ∈ input.scopes) :
    ∃ policy' ∈ input'.scopes, SamePolicy policy policy' := by
  obtain ⟨hc, -, hw, hk⟩ := h
  rcases List.mem_cons.mp hp with rfl | hp
  · exact ⟨_, List.mem_cons_self, hw⟩
  · rw [Option.mem_toList] at hp
    unfold EvaluateCandidatePoliciesInput.scopes EvaluateCandidatePoliciesInput.apiKeyScope at *
    cases hi : input.apiKeyPolicy <;> cases hi' : input'.apiKeyPolicy <;> rw [hi, hi'] at hk <;> cases hk
    · simp only [hi] at hp
      split_ifs at hp with hkey
      obtain rfl := Option.some.inj hp
      rw [hc] at hkey
      exact ⟨implicitDefaultAllowPolicy, by simp [hkey], List.Perm.refl _, rfl⟩
    · rename_i p q hpq
      simp only [hi, Option.some.injEq] at hp
      exact ⟨q, by simp, hp ▸ hpq⟩

theorem decision_le_of_same {input input' : EvaluateCandidatePoliciesInput}
    {e e' : CandidatePolicyEvaluation} (h : SameUpToOrder input input') (he : EvaluationOf input e)
    (he' : EvaluationOf input' e') : e.decision ≤ e'.decision := by
  obtain ⟨policy, hp, hd⟩ := he.decides
  obtain ⟨policy', hp', hsame⟩ := h.scope hp
  exact he'.scope_le hp' (h.1 ▸ hd.perm hsame h.2.1)

/-- The evaluator computes the meaning of the policies. Hence one denied leg denies all, a further
rule never weakens a scope that some rule already matches, and no order matters. -/
theorem policy_evaluation_strictest (input : EvaluateCandidatePoliciesInput) :
    ∃ e, evaluateCandidatePolicies input = .ok e ∧ EvaluationOf input e ∧
      ((∃ policy ∈ input.scopes, ∃ leg ∈ input.legs, ∃ rule ∈ policy.rules, RuleReaches rule leg .deny) →
        e.decision = .deny) ∧
      (∀ (scope : PolicyRuleScope) (policy policy' : EffectivePolicy) (rule : PolicyRule)
        (pre post : List PolicyRule), policy.rules = pre ++ post → policy'.rules = pre ++ rule :: post →
        ScopeMatches policy input.candidate input.legs →
        ∃ s s', evaluatePolicyScope scope policy (candidateViews input.candidate input.legs) = .ok s ∧
          evaluatePolicyScope scope policy' (candidateViews input.candidate input.legs) = .ok s' ∧
          s.decision ≤ s'.decision) ∧
      (∀ input', SameUpToOrder input input' →
        ∃ e', evaluateCandidatePolicies input' = .ok e' ∧ e'.decision = e.decision) := by
  obtain ⟨e, he, hof⟩ := evaluateCandidatePolicies_spec input
  refine ⟨e, he, hof, ?_, ?_, ?_⟩
  · rintro ⟨policy, hp, leg, hl, rule, hr, hdeny⟩
    obtain ⟨s, -, hs⟩ := evaluatePolicyScope_spec .wallet policy input.candidate input.legs
    have hle := hs.reached_le (.inr ⟨leg, hl, rule, hr, hdeny⟩)
    exact le_antisymm (le_deny _) (hle.trans (hof.scope_le hp hs))
  · rintro scope policy policy' rule pre post hrules hrules' ⟨m, hm⟩
    obtain ⟨s, hs, hsd⟩ := evaluatePolicyScope_spec scope policy input.candidate input.legs
    obtain ⟨s', hs', hsd'⟩ := evaluatePolicyScope_spec scope policy' input.candidate input.legs
    refine ⟨s, s', hs, hs', ?_⟩
    have hreach : ScopeReaches policy.rules input.candidate input.legs s.decision := by
      rcases hsd with h | ⟨-, hno⟩
      · exact h.1
      · exact absurd hm (hno m)
    refine hsd'.reached_le (hreach.mono ?_)
    intro r hr
    rw [hrules, List.mem_append] at hr
    rw [hrules', List.mem_append, List.mem_cons]
    tauto
  · intro input' hsame
    obtain ⟨e', he', hof'⟩ := evaluateCandidatePolicies_spec input'
    exact ⟨e', he', le_antisymm (decision_le_of_same hsame.symm hof' hof) (decision_le_of_same hsame hof hof')⟩

end Sdp.Policy
