import Mathlib.Data.Int.Log
import Mathlib.Data.List.TakeWhile
import Mathlib.Data.Rat.Floor
import Mathlib.Tactic.NormNum
import Sdp.Digits
import Sdp.Lib.Hex

/-!
# `Number` of a text

A number is the rational that the nearest double stands for. A text of no number is told neither from one of a
number too large, nor a zero from the other.
-/

namespace Sdp.Amount

/-- To the nearest integer, halves to the even one. -/
def roundEven (x : ℚ) : ℤ :=
  let rest := x - ⌊x⌋
  if rest < 1 / 2 ∨ rest = 1 / 2 ∧ ⌊x⌋ % 2 = 0 then ⌊x⌋ else ⌊x⌋ + 1

/-- The exponent of the last of the 53 bits, which stays where it is below the smallest normal double. -/
def lastBit (x : ℚ) : ℤ := max (Int.log 2 |x| - 52) (-1074)

def nearestDouble (x : ℚ) : Option ℚ :=
  let y := (roundEven (x / 2 ^ lastBit x) : ℚ) * 2 ^ lastBit x
  if |y| < 2 ^ 1024 then some y else none

def signed : List Char → ℤ × List Char
  | '-' :: rest => (-1, rest)
  | '+' :: rest => (1, rest)
  | text => (1, text)

def isExponentMark (c : Char) : Bool := c = 'e' || c = 'E'

def decimalLiteral (text : List Char) : Option ℚ :=
  let mantissa := text.takeWhile fun c => !isExponentMark c
  if isDecimalLoop mantissa false false then
    let parts := normalizeDecimalParts mantissa
    let value : ℚ := digitsValue (parts.whole ++ parts.fraction) / 10 ^ parts.fraction.length
    match text.drop mantissa.length with
    | [] => some value
    | _ :: exponent =>
      let (sign, digits) := signed exponent
      if digits ≠ [] ∧ digits.all isDigit then some (value * 10 ^ (sign * digitsValue digits)) else none
  else none

def radixOf (c : Char) : Option Nat :=
  if c = 'x' ∨ c = 'X' then some 16 else if c = 'o' ∨ c = 'O' then some 8
  else if c = 'b' ∨ c = 'B' then some 2 else none

def radixLiteral : List Char → Option ℚ
  | '0' :: c :: digits => do
    let radix ← radixOf c
    if digits ≠ [] ∧ digits.all fun d => Lib.isHex d && Lib.hexValue d < radix then
      some (digits.foldl (fun n d => radix * n + Lib.hexValue d) 0)
    else none
  | _ => none

def number (text : List Char) : Option ℚ :=
  let literal := trim text
  if literal = [] then some 0
  else match radixLiteral literal with
    | some x => nearestDouble x
    | none =>
      let (sign, digits) := signed literal
      (decimalLiteral digits).bind fun x => nearestDouble (sign * x)

theorem roundEven_intCast (n : ℤ) : roundEven (n : ℚ) = n := by
  simp [roundEven]

theorem zpow_abs_log (n : Nat) : Int.log 2 |(n : ℚ)| = Nat.log 2 n := by
  rw [Nat.abs_cast, Int.log_natCast]

theorem nearestDouble_natCast {n : Nat} (h : n < 2 ^ 53) : nearestDouble n = some (n : ℚ) := by
  have hlog : Nat.log 2 n < 53 := by
    rcases Nat.eq_zero_or_pos n with rfl | hpos
    · simp
    · exact Nat.log_lt_of_lt_pow hpos.ne' h
  obtain ⟨k, hk⟩ : ∃ k : Nat, lastBit (n : ℚ) = -(k : ℤ) :=
    Int.exists_eq_neg_ofNat (by rw [lastBit, zpow_abs_log]; omega)
  have hscaled : (n : ℚ) / 2 ^ lastBit (n : ℚ) = ((n * 2 ^ k : Nat) : ℤ) := by
    rw [hk, zpow_neg, zpow_natCast, div_inv_eq_mul]
    push_cast
    rfl
  have hsame : (roundEven ((n : ℚ) / 2 ^ lastBit (n : ℚ)) : ℚ) * 2 ^ lastBit (n : ℚ) = n := by
    rw [hscaled, roundEven_intCast, ← hscaled]
    exact div_mul_cancel₀ _ (zpow_ne_zero _ two_ne_zero)
  have hbound : |(n : ℚ)| < 2 ^ 1024 := by
    rw [Nat.abs_cast]
    exact_mod_cast lt_trans h (Nat.pow_lt_pow_right (by decide) (by decide))
  simp only [nearestDouble, hsame, if_pos hbound]

theorem splitOn_digits {digits : List Char} (h : ∀ c ∈ digits, isDigit c = true) : digits.splitOn '.' = [digits] :=
  List.splitOn_eq_singleton fun hmem => absurd (h '.' hmem) (by decide)

theorem isDecimalLoop_of_digits {digits : List Char} (h : ∀ c ∈ digits, isDigit c = true) (hne : digits ≠ []) :
    isDecimalLoop digits false false = true := by
  have happend := isDecimalLoop_digits h [] false false
  rw [List.append_nil] at happend
  rw [happend]
  simpa [isDecimalLoop] using hne

theorem decimalLiteral_digits {digits : List Char} (h : ∀ c ∈ digits, isDigit c = true) (hne : digits ≠ []) :
    decimalLiteral digits = some (digitsValue digits : ℚ) := by
  have hmantissa : (digits.takeWhile fun c => !isExponentMark c) = digits :=
    List.takeWhile_eq_self_iff.mpr fun c hc => by
      have hc := h c hc
      unfold isExponentMark
      by_contra hmark
      simp only [Bool.not_eq_true', Bool.or_eq_false_iff, decide_eq_false_iff_not, not_and_or, not_not] at hmark
      rcases hmark with rfl | rfl <;> exact absurd hc (by decide)
  simp [decimalLiteral, hmantissa, isDecimalLoop_of_digits h hne, normalizeDecimalParts, splitOn_digits h, hne]

theorem radixLiteral_digits {digits : List Char} (h : ∀ c ∈ digits, isDigit c = true) : radixLiteral digits = none := by
  unfold radixLiteral
  split
  · next c rest =>
    have hc := h c (by simp)
    have hradix : radixOf c = none := by
      unfold radixOf
      rw [if_neg, if_neg, if_neg] <;> rintro (rfl | rfl) <;> exact absurd hc (by decide)
    rw [hradix]
    rfl
  · rfl

theorem signed_digits {digits : List Char} (h : ∀ c ∈ digits, isDigit c = true) : signed digits = (1, digits) := by
  unfold signed
  split
  · exact absurd (h '-' (by simp)) (by decide)
  · exact absurd (h '+' (by simp)) (by decide)
  · rfl

theorem number_digits {digits : List Char} (h : ∀ c ∈ digits, isDigit c = true) (hne : digits ≠ []) :
    number digits = nearestDouble (digitsValue digits) := by
  have htrim : trim digits = digits := by
    have hloop : isDecimalString (String.ofList digits) = true := by
      simpa [isDecimalString, hne] using isDecimalLoop_of_digits h hne
    simpa using trim_decimal _ hloop
  simp [number, htrim, hne, radixLiteral_digits h, signed_digits h, decimalLiteral_digits h hne]

theorem number_toDigits {n : Nat} (h : n < 2 ^ 53) : number (Nat.toDigits 10 n) = some (n : ℚ) := by
  rw [number_digits (fun _ => isDigit_of_mem_toDigits) Nat.toDigits_ne_nil,
    digitsValue_toDigits, nearestDouble_natCast h]

end Sdp.Amount
