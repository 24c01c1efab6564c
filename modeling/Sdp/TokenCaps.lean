import Sdp.Amount
import Sdp.Code.TokenCaps

/-!
# What the stored cap means

The column holds the cap in base units. It means what the issuer set as long as the decimals stay or a cap
comes with them.
-/

open Sdp.Amount Sdp.Lib

namespace Sdp.Deployments

/-- A row with the cap that its issuer set last. -/
structure Issued where
  token : Token
  maxSupply : Option String
deriving DecidableEq

namespace Issued

def create (input : CreateTokenInput) : Option Issued :=
  (createToken input).map fun token => ⟨token, givenCap input.maxSupply⟩

def update (s : Issued) (call : UpdateCall) : Issued :=
  let result := updateToken s.token call
  { token := result.1
    maxSupply := if result.2 = .updated then call.input.maxSupply.elim s.maxSupply givenCap else s.maxSupply }

/-- The column is the cap at the scale of the row. -/
def Faithful (s : Issued) : Prop :=
  (s.token.maxSupply.map fun (baseUnits : Nat) => (baseUnits : ℚ)) =
    s.maxSupply.map fun text => decimalValue text * 10 ^ s.token.decimals

end Issued

/-- An edit of the decimals of a draft alone, under a cap that is not zero. -/
def UpdateCall.rescales (call : UpdateCall) (t : Token) : Bool :=
  t.isDraft && call.expectedDeploymentState.all (· = (t.status, t.mintAddress)) &&
    call.input.maxSupply.isNone && call.input.decimals.any (· ≠ t.decimals) && t.maxSupply.any (· ≠ 0)

theorem decimalValue_mul {text : String} {decimals n : Nat} (h : parseDecimalAmount text decimals = .ok n) :
    (n : ℚ) = decimalValue text * 10 ^ decimals := by
  rw [decimalValue_of_parse h, div_mul_cancel₀]
  exact pow_ne_zero _ (by norm_num)

theorem createToken_faithful {input : CreateTokenInput} {s : Issued} (h : Issued.create input = some s) :
    s.Faithful := by
  obtain ⟨token, hcreate, rfl⟩ := Option.map_eq_some_iff.mp h
  unfold createToken at hcreate
  split at hcreate
  · next hnone =>
    obtain rfl := Option.some.inj hcreate
    simp [Issued.Faithful, hnone, CreateTokenInput.row]
  · next text hsome =>
    split at hcreate
    · next baseUnits hparse =>
      obtain rfl := Option.some.inj hcreate
      simp only [Issued.Faithful, hsome, CreateTokenInput.row, Option.map_some, Option.some.injEq]
      exact decimalValue_mul hparse
    · cases hcreate

theorem resolve_faithful {maxSupply : Option String} {decimals : Option Nat} {existing : Token}
    {resolved : Option Nat × Option Nat} (h : resolveMaxSupplyBaseUnits maxSupply decimals existing = some resolved) :
    (resolved.1.map fun (baseUnits : Nat) => (baseUnits : ℚ)) =
      maxSupply.map fun text => decimalValue text * 10 ^ decimals.getD existing.decimals := by
  unfold resolveMaxSupplyBaseUnits at h
  split at h
  · obtain rfl := Option.some.inj h
    rfl
  · split at h
    · cases h
    · next hparse =>
      split at h
      · obtain rfl := Option.some.inj h
        simp only [Option.map_some, decimalValue_mul hparse]
      · split at h
        · cases h
        · obtain rfl := Option.some.inj h
          simp only [Option.map_some, decimalValue_mul hparse]

/-! ## One call -/

theorem updateToken_eq {t : Token} {call : UpdateCall} {resolved : Option (Option Nat) × Option Nat}
    (hresolved : call.resolve t = some resolved) :
    (updateToken t call = (t, .updated) ∧ call.input.isEmpty = true) ∨
      (updateToken t call = (t, .conflict) ∧ (call.write t resolved).applies t = false) ∨
      (updateToken t call).2 = .updated ∧ (call.write t resolved).applies t = true ∧
        (updateToken t call).1.maxSupply = resolved.1.getD t.maxSupply ∧
        (updateToken t call).1.decimals = call.input.decimals.getD t.decimals := by
  unfold updateToken
  simp only [hresolved]
  split
  · next hempty => exact .inl ⟨rfl, ((Bool.and_eq_true _ _).mp hempty).1⟩
  · split
    · next happlies => exact .inr (.inr ⟨rfl, happlies, rfl, rfl⟩)
    · next happlies => exact .inr (.inl ⟨rfl, by simpa using happlies⟩)

theorem updateToken_refused {t : Token} {call : UpdateCall} (h : (updateToken t call).2 ≠ .updated) :
    (updateToken t call).1 = t := by
  cases hresolved : call.resolve t with
  | none => simp only [updateToken, hresolved]
  | some resolved =>
    rcases updateToken_eq hresolved with ⟨hsame, -⟩ | ⟨hsame, -⟩ | ⟨hupdated, -⟩
    · rw [hsame]
    · rw [hsame]
    · exact absurd hupdated h

theorem applies_uncapped {t : Token} {call : UpdateCall} (hcap : call.input.maxSupply = none) :
    (call.write t (none, none)).applies t =
      ((if call.input.requiresUndeployedGuard then t.isDraft
          else !call.input.requiresStableDeploymentGuard || t.status ≠ .deploying) &&
        call.expectedDeploymentState.all (· = (t.status, t.mintAddress))) := by
  unfold TokenWrite.applies UpdateCall.write
  simp only [hcap, Option.isSome_none, Bool.false_and, Bool.not_false, Bool.true_or, Bool.and_true, Option.all_none]
  cases call.expectedDeploymentState with
  | none => simp
  | some expected =>
    rw [Bool.and_assoc]
    congr 1
    simp [Prod.ext_iff, eq_comm]

theorem rescales_capped {t : Token} {call : UpdateCall} (hcap : call.input.maxSupply ≠ none) :
    call.rescales t = false := by
  simp [UpdateCall.rescales, hcap]

theorem applies_of_rescales {t : Token} {call : UpdateCall} (h : call.rescales t = true) :
    (call.write t (none, none)).applies t = true := by
  simp only [UpdateCall.rescales, Bool.and_eq_true, Option.isNone_iff_eq_none] at h
  obtain ⟨⟨⟨⟨hdraft, hexpected⟩, hcap⟩, hdecimals⟩, -⟩ := h
  have hguard : call.input.requiresUndeployedGuard = true := by
    obtain ⟨d, hd, -⟩ := (Option.any_eq_true _ _).mp hdecimals
    simp [UpdateTokenInput.requiresUndeployedGuard, hd]
  rw [applies_uncapped hcap, if_pos hguard, hdraft, hexpected]
  rfl

theorem rescales_of_applies {t : Token} {call : UpdateCall} {d : Nat} (hcap : call.input.maxSupply = none)
    (hd : call.input.decimals = some d) (happlies : (call.write t (none, none)).applies t = true) :
    call.rescales t = (d ≠ t.decimals && t.maxSupply.any (· ≠ 0)) := by
  have hguard : call.input.requiresUndeployedGuard = true := by
    simp [UpdateTokenInput.requiresUndeployedGuard, hd]
  rw [applies_uncapped hcap, if_pos hguard, Bool.and_eq_true] at happlies
  simp [UpdateCall.rescales, happlies.1, happlies.2, hcap, hd]

theorem scale_iff {c : Nat} {v : ℚ} {d d' : Nat} (h : (c : ℚ) = v * 10 ^ d) :
    (c : ℚ) = v * 10 ^ d' ↔ d' = d ∨ c = 0 := by
  have hpow : ∀ n : Nat, (10 : ℚ) ^ n ≠ 0 := fun n => pow_ne_zero n (by norm_num)
  constructor
  · intro h'
    by_cases hv : v = 0
    · right
      rw [hv, zero_mul] at h
      exact_mod_cast h
    · left
      have hsame : (10 : ℚ) ^ d' = 10 ^ d := mul_left_cancel₀ hv (h'.symm.trans h)
      exact pow_right_injective₀ (by norm_num) (by norm_num) hsame
  · rintro (rfl | rfl)
    · exact h
    · have hv : v = 0 := by
        have hzero : v * 10 ^ d = 0 := by rw [← h, Nat.cast_zero]
        exact (mul_eq_zero.mp hzero).resolve_right (hpow d)
      rw [hv, zero_mul, Nat.cast_zero]

/-- A call keeps the meaning of the cap unless it edits the decimals alone. -/
theorem update_faithful_iff {s : Issued} (hs : s.Faithful) (call : UpdateCall) :
    (s.update call).Faithful ↔ call.rescales s.token = false := by
  have hsame : ∀ {outcome}, updateToken s.token call = (s.token, outcome) →
      (outcome = .updated → call.input.maxSupply = none) → (s.update call).Faithful := by
    intro outcome hupdate hnone
    unfold Issued.update
    rw [hupdate]
    by_cases houtcome : outcome = .updated
    · simpa [houtcome, hnone houtcome] using hs
    · simpa [houtcome] using hs
  cases hcap : call.input.maxSupply with
  | some maxSupply =>
    rw [iff_true_right (rescales_capped (by simp [hcap]))]
    cases hresolved : call.resolve s.token with
    | none =>
      have hrefused : updateToken s.token call = (s.token, .badRequest) := by simp only [updateToken, hresolved]
      exact hsame hrefused (by simp)
    | some resolved =>
      rcases updateToken_eq hresolved with ⟨-, hempty⟩ | ⟨hconflict, -⟩ | ⟨hupdated, -, hmax, hdecimals⟩
      · simp [UpdateTokenInput.isEmpty, hcap] at hempty
      · exact hsame hconflict (by simp)
      · simp only [UpdateCall.resolve, hcap] at hresolved
        obtain ⟨base, hbase, rfl⟩ := Option.map_eq_some_iff.mp hresolved
        simp only [Issued.Faithful, Issued.update, hupdated, if_true, hmax, hdecimals, hcap, Option.getD_some,
          Option.elim_some]
        exact resolve_faithful hbase
  | none =>
    have hresolved : call.resolve s.token = some (none, none) := by simp [UpdateCall.resolve, hcap]
    rcases updateToken_eq hresolved with ⟨hempty, hinput⟩ | ⟨hconflict, happlies⟩ | ⟨hupdated, happlies, hmax, hdecimals⟩
    · rw [iff_true_left (hsame hempty fun _ => hcap)]
      simp only [UpdateTokenInput.isEmpty, UpdateTokenInput.requiresUndeployedGuard, Bool.and_eq_true, Bool.not_eq_true',
        Bool.or_eq_false_iff, Option.isSome_eq_false_iff, Option.isNone_iff_eq_none] at hinput
      simp [UpdateCall.rescales, hinput.1.1.1.2]
    · -- The row refuses the call: no draft, or not the expected state.
      rw [iff_true_left (hsame hconflict (by simp))]
      by_contra hrescales
      rw [Bool.not_eq_false] at hrescales
      rw [applies_of_rescales hrescales] at happlies
      cases happlies
    · simp only [Issued.Faithful, Issued.update, hupdated, if_true, hmax, hdecimals, hcap, Option.getD_none,
        Option.elim_none]
      cases hd : call.input.decimals with
      | none =>
        unfold Issued.Faithful at hs
        simpa [UpdateCall.rescales, hd] using hs
      | some d =>
        rw [rescales_of_applies hcap hd happlies]
        unfold Issued.Faithful at hs
        cases hstored : s.token.maxSupply with
        | none =>
          rw [hstored] at hs
          simp [Option.map_eq_none_iff.mp hs.symm]
        | some c =>
          rw [hstored] at hs
          obtain ⟨text, htext, hvalue⟩ := Option.map_eq_some_iff.mp hs.symm
          simp only [htext, Option.map_some, Option.some.injEq, Option.getD_some, scale_iff hvalue.symm]
          simp [or_iff_not_imp_left]

/-! ## All calls -/

/-- A created row, under any calls: the cap always means what its issuer set last and a refused call changes
nothing, exactly when no call edits the decimals of a draft alone while a cap that is not zero stands. -/
theorem stored_cap_faithful {input : CreateTokenInput} {s : Issued} (h : Issued.create input = some s)
    (calls : List UpdateCall) :
    ((∀ k, (stateAt Issued.update s calls k).Faithful) ∧
        ∀ k, ∀ hk : k < calls.length,
          (updateToken (stateAt Issued.update s calls k).token calls[k]).2 ≠ .updated →
            (stateAt Issued.update s calls (k + 1)).token = (stateAt Issued.update s calls k).token) ↔
      ∀ k, ∀ hk : k < calls.length, calls[k].rescales (stateAt Issued.update s calls k).token = false := by
  have hrefused : ∀ k, ∀ hk : k < calls.length,
      (updateToken (stateAt Issued.update s calls k).token calls[k]).2 ≠ .updated →
        (stateAt Issued.update s calls (k + 1)).token = (stateAt Issued.update s calls k).token := by
    intro k hk hne
    rw [stateAt_succ Issued.update s calls hk]
    exact updateToken_refused hne
  rw [and_iff_left hrefused]
  exact forall_stateAt_iff (P := Issued.Faithful) (fun s call hs => update_faithful_iff hs call)
    (createToken_faithful h) calls

/-- A draft with six decimals and a cap of a hundred tokens. -/
def cappedDraft : CreateTokenInput where
  signingWalletId := 0
  symbol := "GOLD"
  decimals := some 6
  maxSupply := some "100"
  isMintable := none
  isFreezable := none
  requiresAllowlist := none
  supportsBlocklist := false

def cappedRow : Issued := ⟨cappedDraft.row (some 100000000), some "100"⟩

theorem create_cappedDraft : Issued.create cappedDraft = some cappedRow := by rfl

def edit (decimals : Option Nat) (maxSupply : Option (Option String)) : UpdateCall where
  input := { metadata := false, symbol := none, decimals, status := none, requiresAllowlist := none, maxSupply }
  signingWalletId := none
  expectedDeploymentState := some (.pending, none)

/-- Nine decimals with the cap given again, another cap, no cap, and then two decimals. -/
def faithfulEdits : List UpdateCall :=
  [edit (some 9) (some (some "100")), edit none (some (some "2.5")), edit none (some none), edit (some 2) none]

theorem faithfulEdits_faithful :
    (stateAt Issued.update cappedRow faithfulEdits 2).Faithful ∧
      (stateAt Issued.update cappedRow faithfulEdits 4).Faithful := by
  have h := (stored_cap_faithful create_cappedDraft faithfulEdits).mpr (by decide)
  exact ⟨h.1 2, h.1 4⟩

/-- Nine decimals alone make the hundred tokens a tenth of one. -/
theorem decimals_edit_shrinks_cap :
    Issued.create cappedDraft = some cappedRow ∧
      (cappedRow.update (edit (some 9) none)).token.decimals = 9 ∧
      (cappedRow.update (edit (some 9) none)).token.maxSupply = some 100000000 ∧
      (cappedRow.update (edit (some 9) none)).maxSupply = some "100" ∧
      ¬ (cappedRow.update (edit (some 9) none)).Faithful := by
  refine ⟨create_cappedDraft, by rfl, by decide +kernel, by decide +kernel, fun h => ?_⟩
  have hrescales := (update_faithful_iff (createToken_faithful create_cappedDraft) _).mp h
  exact absurd hrescales (by decide)

end Sdp.Deployments
