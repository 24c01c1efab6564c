import Mathlib.Algebra.Order.Floor.Semifield
import Sdp.AmountValues
import Sdp.Code.DecimalDivision
import Sdp.Code.TokenSupply
import Sdp.Lib.HalfRounding

/-!
# Rounding twice

A numerator of at most nine places is divided and rounded once. With more places the quotient is rounded at these
first, which takes what is just below a half up to it.
-/

namespace Sdp.DecimalDivision

open Sdp.Amount
open Sdp.Issuance (plainDecimal)
open Sdp.Lib

def DecimalFixedPoint.value (a : DecimalFixedPoint) : ℚ := a.raw / 10 ^ a.decimals

/-- What the library documents: it reads a plain decimal within its bits, and no text with another value, divides exactly
and rounds the quotient once at the places of the dividend, and writes a number exactly or rounded at fewer places. -/
structure FixedPoints.Lawful (lib : FixedPoints) : Prop where
  read {bits decimals n : Nat} {value : String} (plain : plainDecimal value = true)
    (h : Denotes value (n / 10 ^ decimals)) (scale : decimalScale value ≤ decimals) (range : n < 2 ^ bits) :
    lib.decimalFixedPoint bits decimals value = .ok ⟨n, decimals⟩
  readExact {bits decimals n : Nat} {value : String} {x : DecimalFixedPoint} (h : Denotes value (n / 10 ^ decimals))
    (scale : decimalScale value ≤ decimals) (ok : lib.decimalFixedPoint bits decimals value = .ok x) :
    x = ⟨n, decimals⟩
  divide {a b : DecimalFixedPoint} (nonzero : b.raw ≠ 0)
    (range : roundHalf (a.value / b.value * 10 ^ a.decimals) < 2 ^ decimalBits) :
    lib.divideDecimalFixedPoint a b .round = .ok ⟨roundHalf (a.value / b.value * 10 ^ a.decimals), a.decimals⟩
  write (a : DecimalFixedPoint) : ∃ text, lib.decimalFixedPointToString a none = .ok text ∧ Denotes text a.value
  writeRounded (a : DecimalFixedPoint) {decimals : Nat} (fewer : decimals ≤ a.decimals) :
    ∃ text, lib.decimalFixedPointToString a (some ⟨decimals, .round⟩) = .ok text ∧
      Denotes text (roundHalf (a.value * 10 ^ decimals) / 10 ^ decimals)

/-- A plain decimal, or another text with the point at its start or end that the library reads where it has room. -/
def FixedPoints.Reads (lib : FixedPoints) (text : String) : Prop :=
  let normalized := String.ofList (trim text.toList)
  plainDecimal normalized = true ∨
    ∀ decimals n : Nat, Denotes text (n / 10 ^ decimals) → decimalScale text ≤ decimals → n < 2 ^ decimalBits →
      ∃ x, lib.decimalFixedPoint decimalBits decimals normalized = .ok x

/-- The numbers of the division fit into the bits. -/
structure InRange (numerator denominator : String) (p q : ℚ) : Prop where
  dividend : p * 10 ^ max (decimalScale numerator) divisionDecimals < 2 ^ decimalBits
  divisor : q * 10 ^ decimalScale denominator < 2 ^ decimalBits
  quotient : roundHalf (p / q * 10 ^ max (decimalScale numerator) divisionDecimals) < 2 ^ decimalBits

theorem nonneg_of_denotes {text : String} {p : ℚ} (h : Denotes text p) : 0 ≤ p := by
  obtain ⟨n, hn⟩ := parse_of_denotes h le_rfl
  rw [h.unique (parseDecimalAmount_iff.mp hn).1]
  positivity

section

variable {lib : FixedPoints} (hlib : lib.Lawful)
include hlib

theorem parseAmount_ok {text : String} {p : ℚ} {decimals : Nat} (hreads : lib.Reads text) (h : Denotes text p)
    (hscale : decimalScale text ≤ decimals) (hrange : p * 10 ^ decimals < 2 ^ decimalBits) :
    ∃ n : Nat, p = n / 10 ^ decimals ∧ parseAmount lib text decimals = .ok ⟨n, decimals⟩ := by
  obtain ⟨n, hn⟩ := parse_of_denotes h hscale
  have hp : p = n / 10 ^ decimals := h.unique (parseDecimalAmount_iff.mp hn).1
  have hdecimal := decimal_of_parse hn
  have htrim := trim_decimal _ hdecimal
  rw [String.toList_ofList] at htrim
  have hten : (10 : ℚ) ^ decimals ≠ 0 := pow_ne_zero _ (by norm_num)
  rw [hp, div_mul_cancel₀ _ hten] at hrange
  have hbits : n < 2 ^ decimalBits := by exact_mod_cast hrange
  have htext : Denotes (String.ofList (trim text.toList)) (n / 10 ^ decimals) := by
    rw [Denotes, String.toList_ofList, htrim]
    exact (parseDecimalAmount_iff.mp hn).1
  have hscale' : decimalScale (String.ofList (trim text.toList)) ≤ decimals := by
    rw [decimalScale, String.toList_ofList, htrim]
    exact hscale
  refine ⟨n, hp, ?_⟩
  simp only [parseAmount, hdecimal, Bool.not_true, Bool.false_eq_true, if_false]
  rcases hreads with hplain | hreads
  · exact hlib.read hplain htext hscale' hbits
  · obtain ⟨x, hx⟩ := hreads decimals n (parseDecimalAmount_iff.mp hn).1 hscale hbits
    rw [hx, hlib.readExact htext hscale' hx]

/-- What the division returns: rounded once at the places of the dividend, and again if these are more than nine. -/
theorem divideDecimalAmounts_ok {numerator denominator : String} {p q : ℚ} (hnumerator : lib.Reads numerator)
    (hdenominator : lib.Reads denominator) (hp : Denotes numerator p) (hq : Denotes denominator q) (hne : q ≠ 0)
    (hrange : InRange numerator denominator p q) :
    let places := max (decimalScale numerator) divisionDecimals
    let quotient := roundHalf (p / q * 10 ^ places)
    ∃ text, divideDecimalAmounts lib numerator denominator = .ok text ∧
      Denotes text (if divisionDecimals < places then
        roundHalf ((quotient : ℚ) / 10 ^ places * 10 ^ divisionDecimals) / 10 ^ divisionDecimals
        else quotient / 10 ^ places) := by
  intro places quotient
  obtain ⟨n, hn, hnum⟩ := parseAmount_ok hlib hnumerator hp (le_max_left _ _) hrange.dividend
  obtain ⟨m, hm, hden⟩ := parseAmount_ok hlib hdenominator hq le_rfl hrange.divisor
  have hm0 : m ≠ 0 := by
    rintro rfl
    exact hne (by rw [hm]; simp)
  have hdivide := hlib.divide (a := ⟨n, places⟩) (b := ⟨m, decimalScale denominator⟩) hm0 (by
    rw [DecimalFixedPoint.value, DecimalFixedPoint.value, ← hn, ← hm]
    exact hrange.quotient)
  rw [DecimalFixedPoint.value, DecimalFixedPoint.value, ← hn, ← hm] at hdivide
  simp only [divideDecimalAmounts, hnum, hden, bind, Except.bind, if_neg hm0]
  rw [hdivide]
  simp only
  split
  · next hmore =>
    obtain ⟨text, htext, hdenotes⟩ := hlib.writeRounded ⟨quotient, places⟩ (Nat.le_of_lt hmore)
    exact ⟨text, htext, hdenotes⟩
  · obtain ⟨text, htext, hdenotes⟩ := hlib.write ⟨quotient, places⟩
    exact ⟨text, htext, hdenotes⟩

/-- The division is rounded correctly unless a numerator of more than nine places has a quotient just below a half. -/
theorem divideDecimalAmounts_rounded_iff {numerator denominator : String} {p q : ℚ} (hnumerator : lib.Reads numerator)
    (hdenominator : lib.Reads denominator) (hp : Denotes numerator p) (hq : Denotes denominator q) (hne : q ≠ 0)
    (hrange : InRange numerator denominator p q) :
    (∃ text, divideDecimalAmounts lib numerator denominator = .ok text ∧
        Denotes text (roundHalf (p / q * 10 ^ divisionDecimals) / 10 ^ divisionDecimals)) ↔
      ¬(divisionDecimals < decimalScale numerator ∧
        NearHalf (5 * 10 ^ (decimalScale numerator - divisionDecimals - 1)) (p / q * 10 ^ divisionDecimals)) := by
  obtain ⟨text, htext, hdenotes⟩ := divideDecimalAmounts_ok hlib hnumerator hdenominator hp hq hne hrange
  have hten : ∀ k : Nat, (10 : ℚ) ^ k ≠ 0 := fun k => pow_ne_zero k (by norm_num)
  -- The text that is returned denotes one number.
  have hvalue : ∀ v : ℚ, (∃ text, divideDecimalAmounts lib numerator denominator = .ok text ∧ Denotes text v) ↔
      Denotes text v := fun v => by
    constructor
    · rintro ⟨text', htext', hv⟩
      rwa [← Except.ok.inj (htext.symm.trans htext')] at hv
    · exact fun hv => ⟨text, htext, hv⟩
  rw [hvalue]
  have hx : 0 ≤ p / q * 10 ^ divisionDecimals := by
    have hp0 := nonneg_of_denotes hp
    have hq0 := nonneg_of_denotes hq
    positivity
  rcases Nat.lt_or_ge divisionDecimals (decimalScale numerator) with hmore | hfew
  · set k := decimalScale numerator - divisionDecimals - 1 with hk
    have hplaces : decimalScale numerator = divisionDecimals + (k + 1) := by omega
    have hmax : max (decimalScale numerator) divisionDecimals = decimalScale numerator := max_eq_left hmore.le
    have hdouble : (10 : ℚ) ^ (k + 1) = 2 * ((5 * 10 ^ k : Nat) : ℚ) := by
      push_cast
      ring
    have hfirst : p / q * 10 ^ decimalScale numerator = p / q * 10 ^ divisionDecimals * (2 * ((5 * 10 ^ k : Nat) : ℚ)) := by
      rw [hplaces, pow_add, ← mul_assoc, hdouble]
    have hsecond : ∀ r : ℚ, r / 10 ^ decimalScale numerator * 10 ^ divisionDecimals = r / (2 * ((5 * 10 ^ k : Nat) : ℚ)) :=
      fun r => by
        rw [hplaces, pow_add, ← hdouble, div_mul_eq_mul_div, mul_comm r, mul_div_mul_left _ _ (hten _)]
    simp only [hmax, if_pos hmore, hfirst, hsecond] at hdenotes
    simp only [hmore, true_and, ← roundHalf_twice (Nat.mul_pos (by decide) (Nat.pow_pos (by decide)) : 0 < 5 * 10 ^ k) hx]
    constructor
    · intro h
      have hsame := hdenotes.unique h
      rwa [div_left_inj' (hten _), Nat.cast_inj] at hsame
    · intro h
      rwa [h] at hdenotes
  · have hmax : max (decimalScale numerator) divisionDecimals = divisionDecimals := max_eq_right hfew
    simp only [hmax, lt_irrefl, if_false] at hdenotes
    exact iff_of_true hdenotes fun h => absurd h.1 (Nat.not_lt.mpr hfew)

end

/-! ## The library on natural numbers -/

theorem roundHalf_div (a : Nat) {b : Nat} (hb : 0 < b) : roundHalf ((a : ℚ) / b) = (2 * a + b) / (2 * b) := by
  have hb' : (b : ℚ) ≠ 0 := Nat.cast_ne_zero.mpr hb.ne'
  have hsum : (a : ℚ) / b + 1 / 2 = ((2 * a + b : Nat) : ℚ) / ((2 * b : Nat) : ℚ) := by
    push_cast
    field_simp
  rw [roundHalf, hsum, Nat.floor_div_eq_div]

/-- The library, with numbers of any size once they are read. -/
def naturalFixedPoints : FixedPoints where
  decimalFixedPoint totalBits decimals value :=
    match parseDecimalAmount value decimals with
    | .ok raw => if raw < 2 ^ totalBits then .ok ⟨raw, decimals⟩ else .error .fixedPoints
    | .error _ => .error .fixedPoints
  divideDecimalFixedPoint a b _ :=
    let raw := (2 * (a.raw * 10 ^ b.decimals) + b.raw) / (2 * b.raw)
    if b.raw = 0 ∨ 2 ^ decimalBits ≤ raw then .error .fixedPoints else .ok ⟨raw, a.decimals⟩
  decimalFixedPointToString a options :=
    match options with
    | none => .ok (formatDecimalAmount a.raw a.decimals)
    | some options =>
      let unit := 10 ^ (a.decimals - options.decimals)
      .ok (formatDecimalAmount ((2 * a.raw + unit) / (2 * unit)) options.decimals)

theorem naturalFixedPoints_lawful : naturalFixedPoints.Lawful where
  read {bits decimals n value} _ h scale range := by
    simp only [naturalFixedPoints, parseDecimalAmount_iff.mpr ⟨h, scale⟩, if_pos range]
  readExact {bits decimals n value x} h scale ok := by
    simp only [naturalFixedPoints, parseDecimalAmount_iff.mpr ⟨h, scale⟩] at ok
    split at ok <;> cases ok
    rfl
  divide {a b} nonzero range := by
    have hquotient : a.value / b.value * 10 ^ a.decimals = ((a.raw * 10 ^ b.decimals : Nat) : ℚ) / b.raw := by
      have hb : (b.raw : ℚ) ≠ 0 := Nat.cast_ne_zero.mpr nonzero
      unfold DecimalFixedPoint.value
      push_cast
      field_simp
    rw [hquotient, roundHalf_div _ (Nat.pos_of_ne_zero nonzero)] at range ⊢
    simp only [naturalFixedPoints]
    rw [if_neg (by simp only [nonzero, false_or, not_le]; exact range)]
  write a := ⟨_, rfl, (parseDecimalAmount_iff.mp (parseDecimalAmount_format a.raw a.decimals)).1⟩
  writeRounded a {decimals} fewer := by
    have hpositive : 0 < 10 ^ (a.decimals - decimals) := Nat.pow_pos (by decide)
    have hvalue : a.value * 10 ^ decimals = (a.raw : ℚ) / ((10 ^ (a.decimals - decimals) : Nat) : ℚ) := by
      have hsplit : (10 : ℚ) ^ a.decimals = 10 ^ (a.decimals - decimals) * 10 ^ decimals := by
        rw [← pow_add, Nat.sub_add_cancel fewer]
      rw [DecimalFixedPoint.value, hsplit]
      push_cast
      field_simp
    refine ⟨_, rfl, ?_⟩
    rw [hvalue, roundHalf_div _ hpositive]
    exact (parseDecimalAmount_iff.mp (parseDecimalAmount_format _ decimals)).1

theorem denotes_of_chars {text : String} {chars : List Char} {p : ℚ} (htext : text.toList = chars)
    (h : DecimalText chars p) : Denotes text p ∧ trim text.toList = chars := by
  have hdecimal : isDecimalString text = true := isDecimalString_iff.mpr ⟨p, htext ▸ h⟩
  have htrim := trim_decimal text hdecimal
  exact ⟨by rwa [Denotes, htrim, htext], htrim.trans htext⟩

theorem denotes_three : Denotes "3" 3 ∧ decimalScale "3" = 0 := by
  have hchars : "3".toList = ['3'] := rfl
  obtain ⟨hq, htrim⟩ := denotes_of_chars hchars (.integer ['3'] (by simp) (List.all_eq_true.mp rfl))
  have hvalue : digitsValue ['3'] = 3 := rfl
  rw [hvalue] at hq
  exact ⟨hq, by rw [decimalScale, htrim]; rfl⟩

/-- One by three is rounded once. -/
theorem one_third_is_rounded :
    ∃ text, divideDecimalAmounts naturalFixedPoints "1" "3" = .ok text ∧
      Denotes text (roundHalf (1 / 3 * 10 ^ divisionDecimals) / 10 ^ divisionDecimals) := by
  have hchars : "1".toList = ['1'] := rfl
  obtain ⟨hp, htrim⟩ := denotes_of_chars hchars (.integer ['1'] (by simp) (List.all_eq_true.mp rfl))
  have hvalue : digitsValue ['1'] = 1 := rfl
  rw [hvalue, Nat.cast_one] at hp
  have hscale : decimalScale "1" = 0 := by
    rw [decimalScale, htrim]
    rfl
  obtain ⟨hq, hscaleq⟩ := denotes_three
  have hrounded : roundHalf (1 / 3 * 10 ^ divisionDecimals) = 333333333 := by
    rw [roundHalf_eq_iff (by norm_num)]
    norm_num [divisionDecimals]
  have hrange : InRange "1" "3" 1 3 := by
    refine ⟨?_, ?_, ?_⟩
    · rw [hscale]
      norm_num [divisionDecimals, decimalBits]
    · rw [hscaleq]
      norm_num [decimalBits]
    · rw [hscale, max_eq_right (Nat.zero_le _), hrounded]
      norm_num [decimalBits]
  refine (divideDecimalAmounts_rounded_iff naturalFixedPoints_lawful (.inl rfl) (.inl rfl) hp hq (by norm_num) hrange).mpr fun h => ?_
  rw [hscale] at h
  exact absurd h.1 (by decide)

/-- Fourteen ten-billionths by three are less than half a billionth, and a whole one is returned. -/
theorem third_is_rounded_twice :
    (∃ text, divideDecimalAmounts naturalFixedPoints "0.0000000014" "3" = .ok text ∧ Denotes text (1 / 10 ^ 9)) ∧
      roundHalf (14 / 10 ^ 10 / 3 * 10 ^ divisionDecimals) = 0 := by
  have hchars : "0.0000000014".toList = ['0'] ++ '.' :: ['0', '0', '0', '0', '0', '0', '0', '0', '1', '4'] := rfl
  have hdigits : ∀ c ∈ ['0', '0', '0', '0', '0', '0', '0', '0', '1', '4'], isDigit c = true :=
    List.all_eq_true.mp rfl
  obtain ⟨hp, htrim⟩ := denotes_of_chars hchars (.point _ _ (.inl (by simp)) (List.all_eq_true.mp rfl) hdigits)
  have hzero : digitsValue ['0'] = 0 := rfl
  have hfraction : digitsValue ['0', '0', '0', '0', '0', '0', '0', '0', '1', '4'] = 14 := rfl
  rw [hzero, hfraction, Nat.cast_zero, zero_add] at hp
  have hscale : decimalScale "0.0000000014" = 10 := by
    rw [decimalScale, htrim]
    rfl
  obtain ⟨hq, hscaleq⟩ := denotes_three
  have hquotient : roundHalf (((14 : Nat) : ℚ) / 10 ^ 10 / 3 * 10 ^ 10) = 5 := by
    rw [roundHalf_eq_iff (by norm_num)]
    norm_num
  have hmax : max 10 divisionDecimals = 10 := rfl
  have hrange : InRange "0.0000000014" "3" (((14 : Nat) : ℚ) / 10 ^ 10) 3 := by
    refine ⟨?_, ?_, ?_⟩
    · rw [hscale, hmax]
      norm_num [decimalBits]
    · rw [hscaleq]
      norm_num [decimalBits]
    · rw [hscale, hmax, hquotient]
      norm_num [decimalBits]
  constructor
  · obtain ⟨text, htext, hdenotes⟩ := divideDecimalAmounts_ok naturalFixedPoints_lawful (.inl rfl) (.inl rfl) hp hq (by norm_num) hrange
    refine ⟨text, htext, ?_⟩
    have hagain : roundHalf (((5 : Nat) : ℚ) / 10 ^ 10 * 10 ^ divisionDecimals) = 1 := by
      rw [roundHalf_eq_iff (by positivity)]
      norm_num [divisionDecimals]
    simp only [hscale, hmax] at hdenotes
    rw [if_pos (by decide)] at hdenotes
    have hdenotes' : Denotes text (roundHalf (((5 : Nat) : ℚ) / 10 ^ 10 * 10 ^ divisionDecimals) / 10 ^ divisionDecimals) := by
      rwa [← hquotient]
    rw [hagain, Nat.cast_one] at hdenotes'
    exact hdenotes'
  · rw [roundHalf_eq_iff (by norm_num)]
    norm_num [divisionDecimals]

end Sdp.DecimalDivision
