import Sdp.AmountValues
import Sdp.Code.KaminoWithdraw

/-!
# Amounts at the scale of a mint

`acceptAtMintScale` strips the zeros that a mint does not need before it looks at the places. A text of nothing but a
point and zeros is stripped to nothing.
-/

open Sdp.Amount

namespace Sdp.Kamino

/-- A zero that is written without a digit before the point. -/
def BareZero (value : String) : Prop := ∃ k, trim value.toList = '.' :: List.replicate (k + 1) '0'

/-- A number of base units that the mint can move. -/
def Representable (value : String) (decimals : Nat) : Prop :=
  ∃ q, Denotes value q ∧ ∃ n : Nat, q * 10 ^ decimals = n ∧ n ≤ maxU64BaseUnits

/-! ## Stripping zeros -/

theorem trimInsignificant_point {whole fraction : List Char} (hwhole : ∀ c ∈ whole, isDigit c = true) :
    trimInsignificantFractionalZeroes (whole ++ '.' :: fraction) =
      let kept := (fraction.reverse.dropWhile (· = '0')).reverse
      if kept = [] then whole else whole ++ '.' :: kept := by
  have htake : (whole ++ '.' :: fraction).takeWhile (· ≠ '.') = whole := by
    rw [List.takeWhile_append_of_pos fun c hc => by simpa using isDigit_ne_dot (hwhole c hc)]
    simp
  have hdrop : (whole ++ '.' :: fraction).drop (whole.length + 1) = fraction := by simp
  unfold trimInsignificantFractionalZeroes
  simp only [htake, hdrop]
  rw [if_neg (by simp)]

theorem decimalScale_text {l : List Char} {q : ℚ} (h : DecimalText l q) :
    decimalScale (String.ofList l) = (normalizeDecimalParts l).fraction.length := by
  have hd : isDecimalString (String.ofList l) = true := isDecimalString_iff.mpr ⟨q, by rwa [String.toList_ofList]⟩
  rw [decimalScale, trim_decimal _ hd, String.toList_ofList]

theorem trimmed_text {l : List Char} {q : ℚ} (h : DecimalText l q) (hbare : ¬∃ k, l = '.' :: List.replicate (k + 1) '0') :
    DecimalText (trimInsignificantFractionalZeroes l) q ∧ ∀ decimals n : Nat, q * 10 ^ decimals = n →
      decimalScale (String.ofList (trimInsignificantFractionalZeroes l)) ≤ decimals := by
  cases h with
  | integer _ hne hwhole =>
    have hsame : trimInsignificantFractionalZeroes l = l := if_pos (dot_notMem_digits hwhole)
    have htext := DecimalText.integer l hne hwhole
    rw [hsame, decimalScale_text htext]
    refine ⟨htext, fun decimals n _ => ?_⟩
    simp [normalizeDecimalParts, List.splitOn_eq_singleton (dot_notMem_digits hwhole)]
  | point whole fraction hne hwhole hfraction =>
    rw [trimInsignificant_point hwhole, value_kept]
    set kept := (fraction.reverse.dropWhile (· = '0')).reverse with hkept
    have hdigits : ∀ c ∈ kept, isDigit c = true := fun c hc => hfraction c (mem_kept hc)
    by_cases hnil : kept = []
    · have hwhole' : whole ≠ [] := by
        rintro rfl
        have hzeros : kept ++ List.replicate (fraction.length - kept.length) '0' = fraction := trimmed_append_zeros fraction
        rw [hnil, List.nil_append, List.length_nil, Nat.sub_zero] at hzeros
        obtain ⟨k, hk⟩ : ∃ k, fraction.length = k + 1 :=
          Nat.exists_eq_succ_of_ne_zero fun hzero => hne.elim (absurd rfl) (absurd (List.length_eq_zero_iff.mp hzero))
        exact hbare ⟨k, by rw [← hk, hzeros, List.nil_append]⟩
      have htext := DecimalText.integer whole hwhole' hwhole
      rw [if_pos hnil, decimalScale_text htext]
      refine ⟨by simpa [hnil, digitsValue] using htext, fun decimals n _ => ?_⟩
      simp [normalizeDecimalParts, List.splitOn_eq_singleton (dot_notMem_digits hwhole)]
    · have htext := DecimalText.point whole kept (.inr hnil) hwhole hdigits
      rw [if_neg hnil, decimalScale_text htext]
      refine ⟨htext, fun decimals n hn => ?_⟩
      have hparts : (normalizeDecimalParts (whole ++ '.' :: kept)).fraction = kept := by
        simp [normalizeDecimalParts, List.splitOn_append_cons_self_of_not_mem (dot_notMem_digits hwhole),
          List.splitOn_eq_singleton (dot_notMem_digits hdigits)]
      rw [hparts]
      exact length_le_of_integral hdigits (kept_last fraction) hn

/-! ## Acceptance -/

theorem decimals_of_denotes {value : String} {q : ℚ} (h : Denotes value q) :
    isDecimalString (String.ofList (trim value.toList)) = true :=
  isDecimalString_iff.mpr ⟨q, by rwa [String.toList_ofList]⟩

theorem denotes_ofList {l : List Char} {q : ℚ} (h : DecimalText l q) : Denotes (String.ofList l) q := by
  have hd : isDecimalString (String.ofList l) = true := isDecimalString_iff.mpr ⟨q, by rwa [String.toList_ofList]⟩
  rw [Denotes, trim_decimal _ hd, String.toList_ofList]
  exact h

/-- What is accepted: an amount in range, unless it is the zero that is stripped to nothing. -/
theorem acceptAtMintScale_iff {field value out : String} {decimals : Nat} :
    acceptAtMintScale field value decimals = .ok out ↔ ¬BareZero value ∧ ∃ n : Nat, Denotes value (n / 10 ^ decimals) ∧
      n ≤ maxU64BaseUnits ∧ out = formatDecimalAmount n decimals := by
  have hten : (10 : ℚ) ^ decimals ≠ 0 := pow_ne_zero _ (by norm_num)
  constructor
  · intro h
    unfold acceptAtMintScale at h
    simp only at h
    split at h
    · cases h
    · next hdecimal =>
      rw [Bool.not_eq_true, Bool.not_eq_false'] at hdecimal
      split at h
      · cases h
      · split at h
        · cases h
        · next n hparse =>
          split at h
          · cases h
          · next hrange =>
            cases h
            obtain ⟨q, hq⟩ := isDecimalString_iff.mp hdecimal
            rw [String.toList_ofList] at hq
            have hbare : ¬BareZero value := by
              rintro ⟨k, hk⟩
              rw [hk] at hparse
              have hempty : trimInsignificantFractionalZeroes ('.' :: List.replicate (k + 1) '0') = [] := by
                simpa [List.dropWhile_replicate] using
                  @trimInsignificant_point [] (List.replicate (k + 1) '0') (by simp)
              rw [hempty] at hparse
              cases decimal_of_parse hparse
            have hsame := (denotes_ofList (trimmed_text hq hbare).1).unique (parseDecimalAmount_iff.mp hparse).1
            exact ⟨hbare, n, by rwa [← hsame], Nat.le_of_not_lt hrange, rfl⟩
  · rintro ⟨hbare, n, hvalue, hrange, rfl⟩
    obtain ⟨htext, hscale⟩ := trimmed_text hvalue hbare
    have hplaces := hscale decimals n (div_mul_cancel₀ _ hten)
    have hparse := parseDecimalAmount_iff.mpr ⟨denotes_ofList htext, hplaces⟩
    unfold acceptAtMintScale
    simp only [decimals_of_denotes hvalue, Bool.not_true, Bool.false_eq_true, if_false, if_neg (Nat.not_lt.mpr hplaces),
      hparse, if_neg (Nat.not_lt.mpr hrange)]

/-- Acceptance is exact and normal at a text: it is accepted if the mint can move it, with the same value, and two
accepted texts are one if their values are. -/
def AcceptedExactly (field value : String) (decimals : Nat) : Prop :=
  ((∃ out, acceptAtMintScale field value decimals = .ok out) ↔ Representable value decimals) ∧
  (∀ out, acceptAtMintScale field value decimals = .ok out → ∃ q, Denotes value q ∧ Denotes out q) ∧
  ∀ other out out', acceptAtMintScale field value decimals = .ok out → acceptAtMintScale field other decimals = .ok out' →
    (out = out' ↔ ∃ q, Denotes value q ∧ Denotes other q)

theorem representable_iff {value : String} {decimals : Nat} :
    Representable value decimals ↔ ∃ n : Nat, Denotes value (n / 10 ^ decimals) ∧ n ≤ maxU64BaseUnits := by
  have hten : (10 : ℚ) ^ decimals ≠ 0 := pow_ne_zero _ (by norm_num)
  constructor
  · rintro ⟨q, hq, n, hn, hrange⟩
    exact ⟨n, by rwa [← hn, mul_div_cancel_right₀ _ hten], hrange⟩
  · rintro ⟨n, hvalue, hrange⟩
    exact ⟨_, hvalue, n, div_mul_cancel₀ _ hten, hrange⟩

theorem BareZero.denotes {value : String} (h : BareZero value) : Denotes value 0 := by
  obtain ⟨k, hk⟩ := h
  have htext := DecimalText.point [] (List.replicate (k + 1) '0') (.inr (by simp)) (by simp) fun c hc => by
    rw [List.eq_of_mem_replicate hc]
    rfl
  have hzero : digitsValue (List.replicate (k + 1) '0') = 0 := by
    simpa [digitsValue] using digitsValue_zeros [] (k + 1)
  rw [hzero] at htext
  rw [Denotes, hk]
  simpa [digitsValue] using htext

/-- Acceptance is exact, for any mint, at every text but a zero with no digit before the point. -/
theorem accepted_exactly_iff (field value : String) (decimals : Nat) :
    AcceptedExactly field value decimals ↔ ¬BareZero value := by
  have hten : (10 : ℚ) ^ decimals ≠ 0 := pow_ne_zero _ (by norm_num)
  constructor
  · rintro ⟨hexact, -⟩ hbare
    have hzero : Representable value decimals := ⟨0, hbare.denotes, 0, by simp, Nat.zero_le _⟩
    obtain ⟨out, hout⟩ := hexact.mpr hzero
    exact (acceptAtMintScale_iff.mp hout).1 hbare
  · intro hbare
    refine ⟨⟨?_, ?_⟩, ?_, ?_⟩
    · rintro ⟨out, hout⟩
      obtain ⟨-, n, hvalue, hrange, -⟩ := acceptAtMintScale_iff.mp hout
      exact representable_iff.mpr ⟨n, hvalue, hrange⟩
    · intro h
      obtain ⟨n, hvalue, hrange⟩ := representable_iff.mp h
      exact ⟨_, acceptAtMintScale_iff.mpr ⟨hbare, n, hvalue, hrange, rfl⟩⟩
    · intro out hout
      obtain ⟨-, n, hvalue, -, rfl⟩ := acceptAtMintScale_iff.mp hout
      exact ⟨_, hvalue, (parseDecimalAmount_iff.mp (parseDecimalAmount_format n decimals)).1⟩
    · intro other out out' hout hout'
      obtain ⟨-, n, hvalue, -, rfl⟩ := acceptAtMintScale_iff.mp hout
      obtain ⟨-, m, hother, -, rfl⟩ := acceptAtMintScale_iff.mp hout'
      constructor
      · intro hsame
        have hparse := parseDecimalAmount_format n decimals
        rw [hsame, parseDecimalAmount_format] at hparse
        rw [Except.ok.inj hparse] at hother
        exact ⟨_, hvalue, hother⟩
      · rintro ⟨q, hq, hq'⟩
        have heq := (hvalue.unique hq).trans (hq'.unique hother)
        rw [div_left_inj' hten, Nat.cast_inj] at heq
        rw [heq]

/-- A zero that a mint can move is refused, and with a digit before the point it is accepted. -/
theorem bare_zero_is_refused : Representable ".0" 6 ∧
    acceptAtMintScale "amount" ".0" 6 = .error (.amount .invalidDecimalAmount) ∧
    acceptAtMintScale "amount" "0.0" 6 = .ok "0" := by
  refine ⟨⟨0, BareZero.denotes ⟨0, rfl⟩, 0, by simp, Nat.zero_le _⟩, ?_, ?_⟩
  · rfl
  · rfl

end Sdp.Kamino
