import Mathlib.Algebra.Order.Field.Basic
import Mathlib.Data.Sign.Basic
import Mathlib.Tactic.Ring
import Sdp.Digits

/-!
# What a decimal text denotes

The texts that `isDecimalString` lets through and the rational numbers they stand for. Parsing and formatting go
between them and base units, and the comparison is that of the numbers.
-/

namespace Sdp.Amount

/-- Digits, perhaps with a point and more digits, and at least one digit; and the number they write. -/
inductive DecimalText : List Char → ℚ → Prop
  | integer (whole : List Char) (hne : whole ≠ []) (hwhole : ∀ c ∈ whole, isDigit c = true) :
      DecimalText whole (digitsValue whole)
  | point (whole fraction : List Char) (hne : whole ≠ [] ∨ fraction ≠ []) (hwhole : ∀ c ∈ whole, isDigit c = true)
      (hfraction : ∀ c ∈ fraction, isDigit c = true) :
      DecimalText (whole ++ '.' :: fraction)
        (digitsValue whole + digitsValue fraction / 10 ^ fraction.length)

/-- Blanks around the text are no part of it. -/
def Denotes (text : String) (value : ℚ) : Prop := DecimalText (trim text.toList) value

/-! ## The grammar -/

theorem isDecimalLoop_point {l : List Char} {hasDigit : Bool} :
    isDecimalLoop l hasDigit true = true ↔ (∀ c ∈ l, isDigit c = true) ∧ (hasDigit = true ∨ l ≠ []) := by
  induction l generalizing hasDigit with
  | nil => simp [isDecimalLoop]
  | cons c l ih =>
    rw [isDecimalLoop]
    split
    · next hdot => simp [hdot, isDigit]
    · cases hdigit : isDigit c <;> simp [hdigit, ih]

theorem isDecimalLoop_cases {l : List Char} {hasDigit : Bool} (h : isDecimalLoop l hasDigit false = true) :
    ((∀ c ∈ l, isDigit c = true) ∧ (hasDigit = true ∨ l ≠ [])) ∨
      ∃ whole fraction, l = whole ++ '.' :: fraction ∧ (hasDigit = true ∨ whole ≠ [] ∨ fraction ≠ []) ∧
        (∀ c ∈ whole, isDigit c = true) ∧ ∀ c ∈ fraction, isDigit c = true := by
  induction l generalizing hasDigit with
  | nil => exact .inl ⟨by simp, .inl (by simpa [isDecimalLoop] using h)⟩
  | cons c l ih =>
    rw [isDecimalLoop] at h
    split at h
    · next hdot =>
      obtain ⟨hdigits, hsome⟩ := isDecimalLoop_point.mp (by simpa using h)
      exact .inr ⟨[], l, by rw [hdot, List.nil_append], hsome.imp_right .inr, by simp, hdigits⟩
    · cases hdigit : isDigit c with
      | false => simp [hdigit] at h
      | true =>
        simp only [hdigit, Bool.not_true, Bool.false_eq_true, if_false] at h
        rcases ih h with ⟨hdigits, -⟩ | ⟨whole, fraction, rfl, -, hwhole, hfraction⟩
        · exact .inl ⟨List.forall_mem_cons.mpr ⟨hdigit, hdigits⟩, .inr (List.cons_ne_nil _ _)⟩
        · exact .inr ⟨c :: whole, fraction, rfl, .inr (.inl (List.cons_ne_nil _ _)),
            List.forall_mem_cons.mpr ⟨hdigit, hwhole⟩, hfraction⟩

theorem isDecimalString_iff {text : String} : isDecimalString text = true ↔ ∃ value, DecimalText text.toList value := by
  unfold isDecimalString
  constructor
  · intro h
    split at h
    · cases h
    · rcases isDecimalLoop_cases h with ⟨hdigits, hsome⟩ | ⟨whole, fraction, htext, hsome, hwhole, hfraction⟩
      · exact ⟨_, .integer _ (hsome.resolve_left (by simp)) hdigits⟩
      · rw [htext]
        exact ⟨_, .point whole fraction (hsome.resolve_left (by simp)) hwhole hfraction⟩
  · rintro ⟨value, h⟩
    generalize text.toList = l at h
    cases h with
    | integer _ hne hwhole =>
      have hloop := isDecimalLoop_digits hwhole [] false false
      rw [List.append_nil] at hloop
      rw [if_neg hne, hloop]
      simp [isDecimalLoop, hne]
    | point whole fraction hne hwhole hfraction =>
      rw [if_neg (by simp), isDecimalLoop_digits hwhole, isDecimalLoop, if_pos rfl, if_neg (by simp),
        isDecimalLoop_point]
      exact ⟨hfraction, by simpa using hne⟩

/-! ## The number -/

theorem decimalValue_of_denotes {text : String} {value : ℚ} (h : Denotes text value) : decimalValue text = value := by
  unfold Denotes at h
  unfold decimalValue
  generalize trim text.toList = l at h
  cases h with
  | integer _ hne hwhole =>
    simp [normalizeDecimalParts, List.splitOn_eq_singleton (dot_notMem_digits hwhole), hne]
  | point whole fraction hne hwhole hfraction =>
    have hten : (10 : ℚ) ^ fraction.length ≠ 0 := pow_ne_zero _ (by norm_num)
    simp only [normalizeDecimalParts, List.splitOn_append_cons_self_of_not_mem (dot_notMem_digits hwhole),
      List.splitOn_eq_singleton (dot_notMem_digits hfraction), List.getD_cons_zero, List.getD_cons_succ]
    have hwhole : digitsValue (if whole = [] then ['0'] else whole) = digitsValue whole := by
      split
      · next hnil => rw [hnil]; rfl
      · rfl
    rw [digitsValue_append, hwhole, Nat.cast_add, Nat.cast_mul, Nat.cast_pow, Nat.cast_ofNat, add_div,
      mul_div_cancel_right₀ _ hten]

theorem Denotes.unique {text : String} {p q : ℚ} (hp : Denotes text p) (hq : Denotes text q) : p = q :=
  (decimalValue_of_denotes hp).symm.trans (decimalValue_of_denotes hq)

theorem parse_of_denotes {text : String} {value : ℚ} {decimals : Nat} (h : Denotes text value)
    (hscale : decimalScale text ≤ decimals) : ∃ n, parseDecimalAmount text decimals = .ok n := by
  have hd : isDecimalString (String.ofList (trim text.toList)) = true :=
    isDecimalString_iff.mpr ⟨value, by rwa [String.toList_ofList]⟩
  unfold decimalScale at hscale
  unfold parseDecimalAmount
  simp only [hd, Bool.not_true, Bool.false_eq_true, if_false, if_neg (Nat.not_lt.mpr hscale)]
  exact ⟨_, rfl⟩

/-- What parses is exactly what denotes a number and has no more places than there are. -/
theorem parseDecimalAmount_iff {text : String} {decimals n : Nat} :
    parseDecimalAmount text decimals = .ok n ↔ Denotes text (n / 10 ^ decimals) ∧ decimalScale text ≤ decimals := by
  constructor
  · intro h
    obtain ⟨value, hvalue⟩ := isDecimalString_iff.mp (decimal_of_parse h)
    rw [String.toList_ofList] at hvalue
    refine ⟨?_, scale_of_parse h⟩
    rwa [← decimalValue_of_parse h, decimalValue_of_denotes hvalue]
  · rintro ⟨hvalue, hscale⟩
    obtain ⟨m, hm⟩ := parse_of_denotes hvalue hscale
    have hsame : (m : ℚ) / 10 ^ decimals = n / 10 ^ decimals :=
      (decimalValue_of_parse hm).symm.trans (decimalValue_of_denotes hvalue)
    have hten : (10 : ℚ) ^ decimals ≠ 0 := pow_ne_zero _ (by norm_num)
    rw [div_left_inj' hten, Nat.cast_inj] at hsame
    rw [hm, hsame]

/-! ## Trailing zeros -/

theorem mem_kept {fraction : List Char} {c : Char} (h : c ∈ (fraction.reverse.dropWhile (· = '0')).reverse) :
    c ∈ fraction := by
  have hmem := (List.dropWhile_sublist (· = '0')).subset (List.mem_reverse.mp h)
  exact List.mem_reverse.mp hmem

theorem kept_last (fraction : List Char) : ∀ c ∈ ((fraction.reverse.dropWhile (· = '0')).reverse).getLast?, c ≠ '0' := by
  intro c hc
  rw [List.getLast?_reverse] at hc
  have hnot := List.head?_dropWhile_not (· = '0') fraction.reverse
  rw [Option.mem_def.mp hc] at hnot
  simpa using hnot

theorem value_kept (fraction : List Char) :
    let kept := (fraction.reverse.dropWhile (· = '0')).reverse
    (digitsValue fraction / 10 ^ fraction.length : ℚ) = digitsValue kept / 10 ^ kept.length := by
  intro kept
  have hzeros : kept ++ List.replicate (fraction.length - kept.length) '0' = fraction := trimmed_append_zeros fraction
  generalize fraction.length - kept.length = n at hzeros
  have hn : (10 : ℚ) ^ n ≠ 0 := pow_ne_zero _ (by norm_num)
  rw [← hzeros, digitsValue_zeros, List.length_append, List.length_replicate, pow_add, Nat.cast_mul, Nat.cast_pow,
    Nat.cast_ofNat, mul_div_mul_right _ _ hn]

theorem length_le_of_integral {whole fraction : List Char} {decimals n : Nat}
    (hfraction : ∀ c ∈ fraction, isDigit c = true) (hlast : ∀ c ∈ fraction.getLast?, c ≠ '0')
    (h : (digitsValue whole + digitsValue fraction / 10 ^ fraction.length : ℚ) * 10 ^ decimals = n) :
    fraction.length ≤ decimals := by
  by_contra hlt
  obtain ⟨extra, hextra⟩ : ∃ extra, fraction.length = decimals + (extra + 1) := ⟨fraction.length - decimals - 1, by omega⟩
  have hten : (10 : ℚ) ^ fraction.length ≠ 0 := pow_ne_zero _ (by norm_num)
  have hdecimals : (10 : ℚ) ^ decimals ≠ 0 := pow_ne_zero _ (by norm_num)
  have hvalue : digitsValue (whole ++ fraction) = n * 10 ^ (extra + 1) := by
    have hscaled : (digitsValue (whole ++ fraction) : ℚ) = n * 10 ^ (extra + 1) := by
      rw [← h, digitsValue_append, Nat.cast_add, Nat.cast_mul, Nat.cast_pow, Nat.cast_ofNat, mul_assoc, ← pow_add,
        ← hextra, add_mul, div_mul_cancel₀ _ hten]
    exact_mod_cast hscaled
  cases fraction using List.reverseRecOn with
  | nil => simp at hextra
  | append_singleton front c =>
    have hc : isDigit c = true := hfraction c (by simp)
    have hne : c ≠ '0' := hlast c (by simp)
    rw [← List.append_assoc, digitsValue_append, List.length_singleton, pow_one, Nat.pow_succ] at hvalue
    have hdigit := digitsValue_digit hc
    have hzero := digitsValue_eq_zero hc
    have hmultiple : n * (10 ^ extra * 10) = 10 * (n * 10 ^ extra) := by ring
    rw [hmultiple] at hvalue
    exact hne (hzero.mp (by omega))

theorem compareDecimalAmounts_sign {left right : String} {p q : ℚ} (hp : Denotes left p) (hq : Denotes right q) :
    compareDecimalAmounts left right = .ok (SignType.sign (p - q) : ℤ) := by
  obtain ⟨n, hn⟩ := parse_of_denotes hp (Nat.le_max_left _ (decimalScale right))
  obtain ⟨m, hm⟩ := parse_of_denotes hq (Nat.le_max_right (decimalScale left) _)
  have hten : (0 : ℚ) < 10 ^ max (decimalScale left) (decimalScale right) := pow_pos (by norm_num) _
  have hpn := hp.unique (parseDecimalAmount_iff.mp hn).1
  have hqm := hq.unique (parseDecimalAmount_iff.mp hm).1
  have hdifference : p - q = ((n : ℚ) - m) / 10 ^ max (decimalScale left) (decimalScale right) := by
    rw [hpn, hqm, sub_div]
  simp only [compareDecimalAmounts, hn, hm, bind, Except.bind, pure, Except.pure]
  rw [hdifference]
  rcases Nat.lt_trichotomy n m with hlt | heq | hgt
  · have hneg : ((n : ℚ) - m) / 10 ^ max (decimalScale left) (decimalScale right) < 0 :=
      div_neg_of_neg_of_pos (sub_neg.mpr (Nat.cast_lt.mpr hlt)) hten
    rw [if_neg hlt.ne, if_pos hlt, sign_neg hneg]
    rfl
  · rw [if_pos heq, heq, sub_self, zero_div, sign_zero]
    rfl
  · have hpos : 0 < ((n : ℚ) - m) / 10 ^ max (decimalScale left) (decimalScale right) :=
      div_pos (sub_pos.mpr (Nat.cast_lt.mpr hgt)) hten
    rw [if_neg hgt.ne', if_neg hgt.not_gt, sign_pos hpos]
    rfl

/-- Base units come back as they were; a text comes back with the same value, and comes back unchanged from then on;
and texts compare as the numbers that they denote. -/
theorem amounts_round_trip :
    (∀ n decimals, parseDecimalAmount (formatDecimalAmount n decimals) decimals = .ok n) ∧
    (∀ text decimals n, parseDecimalAmount text decimals = .ok n → ∃ value, Denotes text value ∧
      Denotes (formatDecimalAmount n decimals) value ∧
      ∀ m, parseDecimalAmount (formatDecimalAmount n decimals) decimals = .ok m →
        formatDecimalAmount m decimals = formatDecimalAmount n decimals) ∧
    ∀ left right p q, Denotes left p → Denotes right q →
      compareDecimalAmounts left right = .ok (SignType.sign (p - q) : ℤ) := by
  refine ⟨parseDecimalAmount_format, fun text decimals n h => ?_, fun _ _ _ _ => compareDecimalAmounts_sign⟩
  have hformat := parseDecimalAmount_format n decimals
  refine ⟨n / 10 ^ decimals, (parseDecimalAmount_iff.mp h).1, (parseDecimalAmount_iff.mp hformat).1, fun m hm => ?_⟩
  rw [hformat] at hm
  rw [Except.ok.inj hm]

/-- A text with zeros on both sides, and a half written without a whole part. -/
theorem half_comes_back : (∃ value, Denotes "00.50" value ∧ Denotes (formatDecimalAmount 5000 4) value) ∧
    compareDecimalAmounts ".5" "00.49" = .ok (SignType.sign ((5 : ℚ) / 10 - 49 / 100) : ℤ) := by
  obtain ⟨-, htext, hcompare⟩ := amounts_round_trip
  have hhalf : parseDecimalAmount "00.50" 4 = .ok 5000 := by decide
  obtain ⟨value, hvalue, hformat, -⟩ := htext "00.50" 4 5000 hhalf
  refine ⟨⟨value, hvalue, hformat⟩, hcompare ".5" "00.49" _ _ ?_ ?_⟩
  · have h : parseDecimalAmount ".5" 1 = .ok 5 := by decide
    simpa using (parseDecimalAmount_iff.mp h).1
  · have h : parseDecimalAmount "00.49" 2 = .ok 49 := by decide
    have hvalue := (parseDecimalAmount_iff.mp h).1
    norm_num at hvalue ⊢
    exact hvalue

end Sdp.Amount
