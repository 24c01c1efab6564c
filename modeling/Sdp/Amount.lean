import Mathlib.Algebra.Order.Field.Rat
import Mathlib.Tactic.NormNum
import Mathlib.Tactic.Set
import Sdp.Code.Amount

/-! # Comparing and formatting decimal amounts -/

namespace Sdp.Amount

theorem isDigit_not_trimmed (c : Char) (h : isDigit c = true) : isTrimmed c = false := by
  simp only [isDigit, Bool.decide_and, Bool.and_eq_true, decide_eq_true_eq] at h
  have h1 : 48 ≤ c.toNat := h.1
  have h2 : c.toNat ≤ 57 := h.2
  simp only [isTrimmed, decide_eq_false_iff_not, not_or, not_and]
  constructor
  · simp only [List.mem_cons, List.not_mem_nil, or_false]; omega
  · omega

theorem isDecimalLoop_chars (l : List Char) (hasDigit seenDot : Bool)
    (h : isDecimalLoop l hasDigit seenDot = true) : ∀ c ∈ l, isTrimmed c = false := by
  induction l generalizing hasDigit seenDot with
  | nil => simp
  | cons c rest ih =>
    intro x hx
    unfold isDecimalLoop at h
    split at h
    · rename_i hdot
      split at h
      · cases h
      · rcases List.mem_cons.mp hx with rfl | hx
        · subst hdot; decide
        · exact ih _ _ h x hx
    · split at h
      · cases h
      · rename_i hd
        rcases List.mem_cons.mp hx with rfl | hx
        · exact isDigit_not_trimmed x (by simpa using hd)
        · exact ih _ _ h x hx

theorem dropWhile_of_none {l : List Char} (h : ∀ c ∈ l, isTrimmed c = false) :
    l.dropWhile isTrimmed = l := by
  cases l with
  | nil => rfl
  | cons c rest => rw [List.dropWhile_cons_of_neg]; simp [h c List.mem_cons_self]

theorem trim_of_none {l : List Char} (h : ∀ c ∈ l, isTrimmed c = false) : trim l = l := by
  rw [trim, dropWhile_of_none h, dropWhile_of_none (by simpa using h), List.reverse_reverse]

theorem trim_decimal (value : String) (h : isDecimalString value = true) :
    trim value.toList = value.toList := by
  unfold isDecimalString at h
  split at h
  · cases h
  · exact trim_of_none (isDecimalLoop_chars _ _ _ h)

theorem parseDecimalAmount_ok (value : String) (decimals : Nat) (h : isDecimalString value = true)
    (hs : decimalScale value ≤ decimals) : ∃ n, parseDecimalAmount value decimals = .ok n := by
  have ht := trim_decimal value h
  rw [decimalScale, ht] at hs
  simp only [parseDecimalAmount, ht, String.ofList_toList, h, Bool.not_true, Bool.false_eq_true,
    if_false, if_neg (Nat.not_lt.mpr hs)]
  exact ⟨_, rfl⟩

theorem compareDecimalAmounts_ok (left right : String) (hl : isDecimalString left = true)
    (hr : isDecimalString right = true) : ∃ order, compareDecimalAmounts left right = .ok order := by
  obtain ⟨n, hn⟩ := parseDecimalAmount_ok left _ hl (Nat.le_max_left _ (decimalScale right))
  obtain ⟨m, hm⟩ := parseDecimalAmount_ok right _ hr (Nat.le_max_right (decimalScale left) _)
  simp only [compareDecimalAmounts, hn, hm, bind, Except.bind, pure, Except.pure]
  split
  · exact ⟨_, rfl⟩
  · exact ⟨_, rfl⟩

/-! ## The value of digits -/

theorem digitsValue_zeros (digits : List Char) (n : Nat) :
    digitsValue (digits ++ List.replicate n '0') = digitsValue digits * 10 ^ n := by
  induction n with
  | zero => simp
  | succ n ih =>
    rw [List.replicate_succ', ← List.append_assoc]
    unfold digitsValue at ih ⊢
    rw [List.foldl_append, ih, Nat.pow_succ]
    simp [Nat.mul_comm, Nat.mul_assoc]

theorem digitsValue_dropWhile (digits : List Char) : digitsValue (digits.dropWhile (· = '0')) = digitsValue digits := by
  induction digits with
  | nil => rfl
  | cons c rest ih =>
    by_cases hc : c = '0'
    · subst hc
      rw [List.dropWhile_cons_of_pos (by simp), ih]
      rfl
    · rw [List.dropWhile_cons_of_neg (by simpa using hc)]

theorem parseDecimalAmount_value {value : String} {decimals n : Nat} (hd : isDecimalString value = true)
    (h : parseDecimalAmount value decimals = .ok n) :
    let parts := normalizeDecimalParts value.toList
    parts.fraction.length ≤ decimals ∧
      n = digitsValue (parts.whole ++ parts.fraction) * 10 ^ (decimals - parts.fraction.length) := by
  intro parts
  simp only [parseDecimalAmount, trim_decimal value hd, String.ofList_toList, hd, Bool.not_true] at h
  split at h
  · contradiction
  · split at h
    · contradiction
    · next hlen =>
      cases h
      refine ⟨Nat.le_of_not_lt hlen, ?_⟩
      rw [← digitsValue_zeros, List.append_assoc]
      split
      · next hnil => exact (congrArg digitsValue hnil).symm.trans (digitsValue_dropWhile _)
      · exact digitsValue_dropWhile _

/-! ## The value of an amount -/

def decimalValue (text : String) : ℚ :=
  let parts := normalizeDecimalParts (trim text.toList)
  digitsValue (parts.whole ++ parts.fraction) / 10 ^ parts.fraction.length

theorem decimal_of_parse {text : String} {decimals n : Nat} (h : parseDecimalAmount text decimals = .ok n) :
    isDecimalString (String.ofList (trim text.toList)) = true := by
  by_contra hd
  rw [Bool.not_eq_true] at hd
  simp only [parseDecimalAmount, hd, Bool.not_false, if_true] at h
  cases h

theorem parse_trim {text : String} {decimals n : Nat} (h : parseDecimalAmount text decimals = .ok n) :
    parseDecimalAmount (String.ofList (trim text.toList)) decimals = .ok n := by
  have htrim := trim_decimal _ (decimal_of_parse h)
  rw [String.toList_ofList] at htrim
  unfold parseDecimalAmount at h ⊢
  rw [String.toList_ofList, htrim]
  exact h

theorem decimalValue_of_parse {text : String} {decimals n : Nat} (h : parseDecimalAmount text decimals = .ok n) :
    decimalValue text = n / 10 ^ decimals := by
  have hd := decimal_of_parse h
  obtain ⟨hlength, hn⟩ := parseDecimalAmount_value hd (parse_trim h)
  rw [String.toList_ofList] at hlength hn
  unfold decimalValue
  rw [hn]
  simp only [Nat.cast_mul, Nat.cast_pow, Nat.cast_ofNat]
  have hten : ∀ k : Nat, (10 : ℚ) ^ k ≠ 0 := fun k => pow_ne_zero k (by norm_num)
  rw [div_eq_div_iff (hten _) (hten _), mul_assoc, ← pow_add, Nat.sub_add_cancel hlength]

theorem scale_of_parse {text : String} {decimals n : Nat} (h : parseDecimalAmount text decimals = .ok n) :
    decimalScale text ≤ decimals := by
  obtain ⟨hlength, -⟩ := parseDecimalAmount_value (decimal_of_parse h) (parse_trim h)
  rwa [String.toList_ofList] at hlength

/-! ## Formatting -/

theorem isDigit_ne_dot {c : Char} (h : isDigit c = true) : c ≠ '.' := by
  rintro rfl
  cases h

theorem isDecimalLoop_digits {digits : List Char} (h : ∀ c ∈ digits, isDigit c = true) (rest : List Char)
    (hasDigit seenDot : Bool) :
    isDecimalLoop (digits ++ rest) hasDigit seenDot = isDecimalLoop rest (hasDigit || !digits.isEmpty) seenDot := by
  induction digits generalizing hasDigit with
  | nil => simp
  | cons c digits ih =>
    have hc := h c List.mem_cons_self
    rw [List.cons_append, isDecimalLoop, if_neg (isDigit_ne_dot hc), hc]
    simp [ih fun c hc => h c (List.mem_cons_of_mem _ hc)]

theorem dot_notMem_digits {digits : List Char} (h : ∀ c ∈ digits, isDigit c = true) : '.' ∉ digits :=
  fun hmem => isDigit_ne_dot (h _ hmem) rfl

theorem isDecimalString_digits {whole fraction : List Char} (hne : whole ≠ [])
    (hwhole : ∀ c ∈ whole, isDigit c = true) (hfraction : ∀ c ∈ fraction, isDigit c = true) :
    isDecimalString (String.ofList (if fraction = [] then whole else whole ++ '.' :: fraction)) = true := by
  unfold isDecimalString
  rw [String.toList_ofList]
  by_cases hnil : fraction = []
  · have hloop := isDecimalLoop_digits hwhole [] false false
    rw [List.append_nil] at hloop
    rw [if_pos hnil, if_neg hne, hloop]
    simp [isDecimalLoop, hne]
  · have hloop := isDecimalLoop_digits hfraction [] (false || !whole.isEmpty) true
    rw [List.append_nil] at hloop
    rw [if_neg hnil, if_neg (by simp), isDecimalLoop_digits hwhole, isDecimalLoop, if_pos rfl, if_neg (by simp), hloop]
    simp [isDecimalLoop, hne]

theorem parseDecimalAmount_digits {whole fraction : List Char} {decimals : Nat} (hne : whole ≠ [])
    (hwhole : ∀ c ∈ whole, isDigit c = true) (hfraction : ∀ c ∈ fraction, isDigit c = true)
    (hscale : fraction.length ≤ decimals) :
    parseDecimalAmount (String.ofList (if fraction = [] then whole else whole ++ '.' :: fraction)) decimals =
      .ok (digitsValue (whole ++ fraction) * 10 ^ (decimals - fraction.length)) := by
  have hparts : normalizeDecimalParts (if fraction = [] then whole else whole ++ '.' :: fraction) =
      ⟨whole, fraction⟩ := by
    unfold normalizeDecimalParts
    split
    · next hnil => simp [List.splitOn_eq_singleton (dot_notMem_digits hwhole), hne, hnil]
    · simp [List.splitOn_append_cons_self_of_not_mem (dot_notMem_digits hwhole),
        List.splitOn_eq_singleton (dot_notMem_digits hfraction), hne]
  have hdecimal := isDecimalString_digits hne hwhole hfraction
  have hlength : decimalScale (String.ofList (if fraction = [] then whole else whole ++ '.' :: fraction)) ≤
      decimals := by
    rw [decimalScale, trim_decimal _ hdecimal, String.toList_ofList, hparts]
    exact hscale
  obtain ⟨n, hn⟩ := parseDecimalAmount_ok _ _ hdecimal hlength
  obtain ⟨-, hvalue⟩ := parseDecimalAmount_value hdecimal hn
  rw [String.toList_ofList, hparts] at hvalue
  rw [hn, hvalue]

theorem trimmed_append_zeros (digits : List Char) :
    let trimmed := (digits.reverse.dropWhile (· = '0')).reverse
    trimmed ++ List.replicate (digits.length - trimmed.length) '0' = digits := by
  intro trimmed
  have hzeros : digits.reverse.takeWhile (· = '0') =
      List.replicate (digits.reverse.takeWhile (· = '0')).length '0' :=
    List.eq_replicate_iff.mpr ⟨rfl, fun c hc => by simpa using List.all_eq_true.mp List.all_takeWhile c hc⟩
  have hsplit : digits = trimmed ++ (digits.reverse.takeWhile (· = '0')).reverse := by
    rw [← List.reverse_append, List.takeWhile_append_dropWhile, List.reverse_reverse]
  have hlength : digits.length - trimmed.length = (digits.reverse.takeWhile (· = '0')).length := by
    have hsum := congrArg List.length hsplit
    simp only [List.length_append, List.length_reverse] at hsum ⊢
    omega
  rw [hlength, ← List.reverse_replicate, ← hzeros, ← hsplit]

theorem isDigit_of_mem_toDigits {c : Char} {n : Nat} (h : c ∈ Nat.toDigits 10 n) : isDigit c = true := by
  have hc := Nat.isDigit_of_mem_toDigits (by decide) (by decide) h
  simp only [Char.isDigit, Bool.and_eq_true, decide_eq_true_eq] at hc
  exact decide_eq_true hc

theorem digitsValue_toDigits (n : Nat) : digitsValue (Nat.toDigits 10 n) = n := by
  have hvalue := Nat.ofDigitChars_ten_toDigits (n := n)
  rwa [Nat.ofDigitChars_eq_foldl] at hvalue

theorem digitsValue_padded (n k : Nat) : digitsValue (List.replicate k '0' ++ Nat.toDigits 10 n) = n := by
  rw [← digitsValue_dropWhile, List.dropWhile_append_of_pos, digitsValue_dropWhile, digitsValue_toDigits]
  intro c hc
  simpa using List.eq_of_mem_replicate hc

theorem formatDecimalAmount_spec (n decimals : Nat) : ∃ whole fraction : List Char,
    formatDecimalAmount n decimals = String.ofList (if fraction = [] then whole else whole ++ '.' :: fraction) ∧
      whole ≠ [] ∧ (∀ c ∈ whole, isDigit c = true) ∧ (∀ c ∈ fraction, isDigit c = true) ∧
      fraction.length ≤ decimals ∧ digitsValue (whole ++ fraction) * 10 ^ (decimals - fraction.length) = n := by
  unfold formatDecimalAmount
  simp only
  split
  · next hzero =>
    subst hzero
    refine ⟨Nat.toDigits 10 n, [], rfl, Nat.toDigits_ne_nil, fun c => isDigit_of_mem_toDigits, nofun, Nat.le_refl 0, ?_⟩
    simp [digitsValue_toDigits]
  · next hpositive =>
    set padded := List.replicate (decimals + 1 - (Nat.toDigits 10 n).length) '0' ++ Nat.toDigits 10 n with hpadded
    set tail := padded.drop (padded.length - decimals)
    set fraction := (tail.reverse.dropWhile (· = '0')).reverse
    have hlength : decimals + 1 ≤ padded.length := by
      rw [hpadded, List.length_append, List.length_replicate]
      omega
    have hdigits : ∀ c ∈ padded, isDigit c = true := by
      intro c hc
      rcases List.mem_append.mp hc with hc | hc
      · rw [List.eq_of_mem_replicate hc]
        rfl
      · exact isDigit_of_mem_toDigits hc
    have hzeros : fraction ++ List.replicate (tail.length - fraction.length) '0' = tail := trimmed_append_zeros tail
    have htail : tail.length = decimals := by
      simp only [tail, List.length_drop]
      omega
    have hfraction : fraction.length ≤ decimals := by
      have hsum := congrArg List.length hzeros
      simp only [List.length_append, List.length_replicate] at hsum
      omega
    have hmem : ∀ c ∈ fraction, c ∈ tail := fun c hc => hzeros ▸ List.mem_append_left _ hc
    have hne : padded.take (padded.length - decimals) ≠ [] := by
      rw [ne_eq, List.take_eq_nil_iff, not_or, ← List.length_eq_zero_iff]
      omega
    refine ⟨padded.take (padded.length - decimals), fraction, rfl, hne, fun c hc => hdigits c (List.mem_of_mem_take hc),
      fun c hc => hdigits c (List.mem_of_mem_drop (hmem c hc)), hfraction, ?_⟩
    rw [← digitsValue_zeros, List.append_assoc, ← htail, hzeros, htail, List.take_append_drop, hpadded,
      digitsValue_padded]

/-- What is formatted is parsed again as it was. -/
theorem parseDecimalAmount_format (n decimals : Nat) :
    parseDecimalAmount (formatDecimalAmount n decimals) decimals = .ok n := by
  obtain ⟨whole, fraction, htext, hne, hwhole, hfraction, hlength, hvalue⟩ := formatDecimalAmount_spec n decimals
  rw [htext, parseDecimalAmount_digits hne hwhole hfraction hlength, hvalue]

end Sdp.Amount
