import Sdp.Code.PolicyEvaluate
import Mathlib.Order.Bounds.Basic

/-!
# What a policy evaluation means

Decisions are ordered by strictness. A scope takes the strictest decision that any of
its rules reaches on any view, and its default action when no rule reaches one.
-/

namespace Sdp.Policy

theorem decisionRank_injective : Function.Injective decisionRank := by
  intro a b h
  cases a <;> cases b <;> first | rfl | cases h

/-- `a ≤ b` when `b` is at least as strict. -/
instance : LinearOrder PolicyDecision := LinearOrder.lift' decisionRank decisionRank_injective

theorem decision_le_iff (a b : PolicyDecision) : a ≤ b ↔ decisionRank a ≤ decisionRank b := Iff.rfl

theorem le_deny (d : PolicyDecision) : d ≤ .deny := by
  rw [decision_le_iff]; cases d <;> decide

/-- The rule takes the decision `d` on this candidate. -/
def RuleReaches (rule : PolicyRule) (candidate : PolicyCandidate) (d : PolicyDecision) : Prop :=
  ∃ evaluation, evaluatePolicyRule rule candidate = .ok (some evaluation) ∧ evaluation.decision = d

/-- Some rule takes the decision `d` on some view: every rule on every leg, and on the candidate
itself every rule but the destination rules of an operation with legs. -/
def ScopeReaches (rules : List PolicyRule) (candidate : PolicyCandidate) (legs : List PolicyCandidate)
    (d : PolicyDecision) : Prop :=
  (∃ rule ∈ rules, (legs = [] ∨ rule.kind ≠ .destination) ∧ RuleReaches rule candidate d) ∨
    ∃ leg ∈ legs, ∃ rule ∈ rules, RuleReaches rule leg d

def EffectivePolicy.rules (policy : EffectivePolicy) : List PolicyRule :=
  match policy.revision with
  | none => []
  | some revision => revision.rules

/-- `d` is the decision of the scope. -/
def ScopeDecides (policy : EffectivePolicy) (candidate : PolicyCandidate) (legs : List PolicyCandidate)
    (d : PolicyDecision) : Prop :=
  IsGreatest {m | ScopeReaches policy.rules candidate legs m} d ∨
    (d = policy.defaultAction ∧ ∀ m, ¬ ScopeReaches policy.rules candidate legs m)

/-- The policy of the API-key scope, when an API key is involved. -/
def EvaluateCandidatePoliciesInput.apiKeyScope (input : EvaluateCandidatePoliciesInput) :
    Option EffectivePolicy :=
  match input.apiKeyPolicy with
  | some policy => some policy
  | none => if input.candidate.apiKeyId.isSome then some implicitDefaultAllowPolicy else none

/-- All scopes that an evaluation looks at. -/
def EvaluateCandidatePoliciesInput.scopes (input : EvaluateCandidatePoliciesInput) :
    List EffectivePolicy :=
  input.walletPolicy :: input.apiKeyScope.toList

/-- The same policy with its rules in another order. -/
def SamePolicy (p q : EffectivePolicy) : Prop :=
  p.rules.Perm q.rules ∧ p.defaultAction = q.defaultAction

/-- Some rule matches the candidate, or one of its legs. -/
def ScopeMatches (policy : EffectivePolicy) (candidate : PolicyCandidate)
    (legs : List PolicyCandidate) : Prop :=
  ∃ d, ScopeReaches policy.rules candidate legs d

/-- A leg as a transfer batch builds it: the operation fields of the candidate, and an amount. -/
def BatchLeg (candidate leg : PolicyCandidate) : Prop :=
  leg.operationFamily = candidate.operationFamily ∧ leg.operationType = candidate.operationType ∧
    leg.asset = candidate.asset ∧ leg.amount.isSome

/-! ## What follows from the meaning -/

theorem ScopeDecides.unique {policy : EffectivePolicy} {candidate : PolicyCandidate}
    {legs : List PolicyCandidate} {d e : PolicyDecision} (hd : ScopeDecides policy candidate legs d)
    (he : ScopeDecides policy candidate legs e) : d = e := by
  rcases hd with hd | ⟨rfl, hno⟩
  · rcases he with he | ⟨-, hno⟩
    · exact hd.unique he
    · exact absurd hd.1 (hno d)
  · rcases he with he | ⟨rfl, -⟩
    · exact absurd he.1 (hno e)
    · rfl

theorem ScopeDecides.reached_le {policy : EffectivePolicy} {candidate : PolicyCandidate}
    {legs : List PolicyCandidate} {d m : PolicyDecision} (hd : ScopeDecides policy candidate legs d)
    (hm : ScopeReaches policy.rules candidate legs m) : m ≤ d := by
  rcases hd with hd | ⟨-, hno⟩
  · exact hd.2 hm
  · exact absurd hm (hno m)

theorem ScopeReaches.mono {rules rules' : List PolicyRule} {candidate : PolicyCandidate}
    {legs : List PolicyCandidate} {d : PolicyDecision} (hsub : ∀ r ∈ rules, r ∈ rules')
    (h : ScopeReaches rules candidate legs d) : ScopeReaches rules' candidate legs d := by
  rcases h with ⟨rule, hr, hk, h⟩ | ⟨leg, hl, rule, hr, h⟩
  · exact .inl ⟨rule, hsub rule hr, hk, h⟩
  · exact .inr ⟨leg, hl, rule, hsub rule hr, h⟩

theorem ScopeReaches.perm {rules rules' : List PolicyRule} {legs legs' : List PolicyCandidate}
    (hr : rules.Perm rules') (hl : legs.Perm legs') (candidate : PolicyCandidate) (d : PolicyDecision) :
    ScopeReaches rules candidate legs d ↔ ScopeReaches rules' candidate legs' d := by
  have hnil : legs = [] ↔ legs' = [] := by
    constructor
    · rintro rfl; exact hl.nil_eq.symm
    · rintro rfl; exact hl.eq_nil
  simp only [ScopeReaches, hr.mem_iff, hl.mem_iff, hnil]

theorem ScopeDecides.perm {p q : EffectivePolicy} {candidate : PolicyCandidate}
    {legs legs' : List PolicyCandidate} {d : PolicyDecision} (hpq : SamePolicy p q)
    (hl : legs.Perm legs') (h : ScopeDecides p candidate legs d) : ScopeDecides q candidate legs' d := by
  have hiff := ScopeReaches.perm hpq.1 hl candidate
  simpa only [ScopeDecides, hiff, hpq.2] using h

end Sdp.Policy
