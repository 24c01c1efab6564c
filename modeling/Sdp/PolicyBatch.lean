import Sdp.PolicyEvaluate

/-!
# A batch against its legs alone

The default action applies when no rule matches any view. So a leg that no rule matches
brings the default in only if nothing else matches either.
-/

open Sdp.Amount Sdp.Lib

namespace Sdp.Policy

/-! ## Which rules match every leg of a batch -/

theorem evaluateAmountRule_none_iff (rule : AmountPolicyRule) (operation : PolicyCandidate) :
    evaluateAmountRule rule operation = .ok none ↔
      (ruleValues rule.asset rule.assets).length ≠ 0 ∧
        ((listedValue (ruleValues rule.asset rule.assets) operation.asset).isNone ∨
          operation.amount = none) := by
  unfold evaluateAmountRule
  dsimp only
  by_cases hlen : (ruleValues rule.asset rule.assets).length = 0
  · simp [hlen]
  by_cases hlisted : (listedValue (ruleValues rule.asset rule.assets) operation.asset).isNone
  · rw [if_neg hlen, if_pos hlisted]
    exact ⟨fun _ => ⟨hlen, .inl hlisted⟩, fun _ => rfl⟩
  simp only [if_neg hlen, if_neg hlisted]
  cases hamount : operation.amount with
  | none => simp [hlen]
  | some amount =>
    -- Every branch from here on decides something, or throws.
    simp only [hlisted, Bool.false_eq_true, false_or, reduceCtorEq, and_false, iff_false]
    intro h
    split at h
    · cases h
    split at h
    · cases h
    split at h
    · cases h
    simp only [bind, Except.bind, pure, Except.pure] at h
    split at h
    · cases h
    · split at h
      · cases h
      · split at h
        · cases h
        · split at h <;> cases h

theorem evaluateAmountRule_matches (rule : AmountPolicyRule) (v leg : PolicyCandidate)
    (hasset : leg.asset = v.asset) (hamount : leg.amount.isSome)
    (h : ruleMatch (.amount rule) v ≠ none) : ruleMatch (.amount rule) leg ≠ none := by
  obtain ⟨r, hr⟩ := evaluateAmountRule_ok rule leg
  simp only [ruleMatch, evaluatePolicyRule, hr] at h ⊢
  rintro rfl
  obtain ⟨hlen, hlisted | hnone⟩ := (evaluateAmountRule_none_iff rule leg).mp hr
  · rw [(evaluateAmountRule_none_iff rule v).mpr ⟨hlen, .inl (hasset ▸ hlisted)⟩] at h
    exact h rfl
  · rw [hnone] at hamount
    cases hamount

/-- A rule that matches one view of a batch matches each leg, unless it blocks the view. -/
theorem rule_matches_leg (rule : PolicyRule) (candidate v leg : PolicyCandidate)
    (hv : v = candidate ∨ BatchLeg candidate v) (hleg : BatchLeg candidate leg) (d : PolicyDecision)
    (h : RuleReaches rule v d) : d = .deny ∨ ∃ m, RuleReaches rule leg m := by
  have hf : leg.operationFamily = v.operationFamily := by
    rcases hv with rfl | hv
    · exact hleg.1
    · exact hleg.1.trans hv.1.symm
  have ht : leg.operationType = v.operationType := by
    rcases hv with rfl | hv
    · exact hleg.2.1
    · exact hleg.2.1.trans hv.2.1.symm
  have ha : leg.asset = v.asset := by
    rcases hv with rfl | hv
    · exact hleg.2.2.1
    · exact hleg.2.2.1.trans hv.2.2.1.symm
  obtain ⟨e, he, rfl⟩ := (ruleReaches_iff _ _ _).mp h
  suffices hm : e.decision = .deny ∨ ruleMatch rule leg ≠ none by
    rcases hm with hm | hm
    · exact .inl hm
    · obtain ⟨e', he'⟩ := Option.ne_none_iff_exists'.mp hm
      exact .inr ⟨e'.decision, (ruleReaches_iff _ _ _).mpr ⟨e', he', rfl⟩⟩
  cases rule with
  | always rule => right; simp [ruleMatch, evaluatePolicyRule]
  | operationFamily rule =>
    right
    simp only [ruleMatch, evaluatePolicyRule, evaluateOperationFamilyRule, hf] at he ⊢
    split_ifs at he ⊢ <;> simp
  | operationType rule =>
    right
    simp only [ruleMatch, evaluatePolicyRule, evaluateOperationTypeRule, ht] at he ⊢
    split_ifs at he ⊢ <;> simp
  | asset rule =>
    right
    simp only [ruleMatch, evaluatePolicyRule, evaluateAssetRule, ha] at he ⊢
    rw [he]; simp
  | approval rule =>
    right
    simp only [ruleMatch, evaluatePolicyRule, evaluateApprovalRule, hf, ht, ha] at he ⊢
    rw [he]; simp
  | amount rule => right; exact evaluateAmountRule_matches rule v leg ha hleg.2.2.2 (by rw [he]; simp)
  | destination rule =>
    simp only [ruleMatch, evaluatePolicyRule, evaluateDestinationRule] at he ⊢
    split at he
    · next hempty => right; simp [hempty]
    · next hempty =>
      simp only [if_neg hempty]
      split at he
      · left
        obtain rfl := Option.some.inj he
        rfl
      · -- No blocklist hit, so there is an allowlist, and it decides every leg.
        split at he
        · next hallow =>
          right
          simp only [if_pos hallow]
          split
          · simp
          · split
            · simp
            · split_ifs <;> simp
        · cases he

theorem batch_leg_matches (policy : EffectivePolicy) (candidate : PolicyCandidate)
    (legs : List PolicyCandidate) (hlegs : ∀ leg ∈ legs, BatchLeg candidate leg)
    (leg : PolicyCandidate) (hleg : leg ∈ legs) (d : PolicyDecision)
    (h : ScopeReaches policy.rules candidate legs d) :
    d = .deny ∨ ScopeMatches policy leg [] := by
  have hview : ∃ v, (v = candidate ∨ BatchLeg candidate v) ∧ ∃ rule ∈ policy.rules, RuleReaches rule v d := by
    rcases h with ⟨rule, hr, -, h⟩ | ⟨l, hl, rule, hr, h⟩
    · exact ⟨candidate, .inl rfl, rule, hr, h⟩
    · exact ⟨l, .inr (hlegs l hl), rule, hr, h⟩
  obtain ⟨v, hv, rule, hr, h⟩ := hview
  rcases rule_matches_leg rule candidate v leg hv (hlegs leg hleg) d h with hd | ⟨m, hm⟩
  · exact .inl hd
  · exact .inr ⟨m, .inl ⟨rule, hr, .inl rfl, hm⟩⟩

/-! ## The law -/

theorem ScopeReaches.of_leg {rules : List PolicyRule} {candidate leg : PolicyCandidate}
    {legs : List PolicyCandidate} {d : PolicyDecision} (hleg : leg ∈ legs)
    (h : ScopeReaches rules leg [] d) : ScopeReaches rules candidate legs d := by
  rcases h with ⟨rule, hr, -, h⟩ | ⟨l, hl, -⟩
  · exact .inr ⟨leg, hleg, rule, hr, h⟩
  · cases hl

/-- A batch is at least as strict as a leg alone when some rule matches the leg, when no rule matches
any view, and when all legs are the legs of a transfer batch. -/
theorem batch_as_strict_as_leg (scope : PolicyRuleScope) (policy : EffectivePolicy)
    (candidate : PolicyCandidate) (legs : List PolicyCandidate) :
    ∃ whole, evaluatePolicyScope scope policy (candidateViews candidate legs) = .ok whole ∧
      ∀ leg ∈ legs, ∃ alone, evaluatePolicyScope scope policy (candidateViews leg []) = .ok alone ∧
        (ScopeMatches policy leg [] ∨ ¬ ScopeMatches policy candidate legs ∨
          (∀ l ∈ legs, BatchLeg candidate l) → alone.decision ≤ whole.decision) := by
  obtain ⟨whole, hw, hwd⟩ := evaluatePolicyScope_spec scope policy candidate legs
  refine ⟨whole, hw, fun leg hleg => ?_⟩
  obtain ⟨alone, ha, had⟩ := evaluatePolicyScope_spec scope policy leg []
  refine ⟨alone, ha, fun h => ?_⟩
  rcases had with had | ⟨hdefault, hno⟩
  · exact hwd.reached_le (.of_leg hleg had.1)
  · -- The leg alone takes the default action.
    rcases hwd with hwd | ⟨hwdefault, -⟩
    · rcases h with ⟨m, hm⟩ | h | h
      · exact absurd hm (hno m)
      · exact absurd ⟨_, hwd.1⟩ h
      · rcases batch_leg_matches policy candidate legs h leg hleg _ hwd.1 with hd | ⟨m, hm⟩
        · rw [hd]; exact le_deny _
        · exact absurd hm (hno m)
    · rw [hdefault, hwdefault]

/-- Deny by default, and one rule that allows up to 100 of an asset. -/
def allowSmallAmounts : EffectivePolicy where
  source := .customerProfile
  profileId := some "wcp_1"
  revision := some { id := "wcpr_1", rules := [.amount { asset := some "USDC", max := some "100" }] }
  defaultAction := .deny
  implicitAllow := by simp

def batchCandidate (amount destination : Option String) : PolicyCandidate where
  apiKeyId := none
  operationFamily := .payment
  operationType := .paymentTransferBatchExecute
  asset := some "USDC"
  amount := amount
  destination := destination

/-- A leg without an amount is denied alone, and passes in a batch with a leg that has one. -/
theorem unmatched_leg_passes :
    ¬ ∀ (scope : PolicyRuleScope) (policy : EffectivePolicy) (candidate : PolicyCandidate)
      (legs : List PolicyCandidate),
      ∃ whole, evaluatePolicyScope scope policy (candidateViews candidate legs) = .ok whole ∧
        ∀ leg ∈ legs, ∃ alone, evaluatePolicyScope scope policy (candidateViews leg []) = .ok alone ∧
          alone.decision ≤ whole.decision := by
  intro h
  obtain ⟨whole, hw, h⟩ := h .wallet allowSmallAmounts (batchCandidate (some "5") none)
    [batchCandidate (some "5") (some "a"), batchCandidate none (some "b")]
  obtain ⟨alone, ha, hle⟩ := h (batchCandidate none (some "b")) (by decide)
  have hwd : whole.decision = .allow := by
    have := congrArg (Except.map (·.decision)) hw
    exact (Except.ok.inj this).symm
  have had : alone.decision = .deny := by
    have := congrArg (Except.map (·.decision)) ha
    exact (Except.ok.inj this).symm
  rw [hwd, had] at hle
  exact absurd hle (by decide)

end Sdp.Policy
