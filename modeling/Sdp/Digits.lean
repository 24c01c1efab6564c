import Mathlib.Data.List.Induction
import Mathlib.Tactic.IntervalCases
import Mathlib.Tactic.Ring
import Sdp.Amount

/-!
# Digits

Texts of digits are told by their length and their value, and those without leading zeros by their value alone.
-/

namespace Sdp.Amount

theorem digitsValue_append (digits more : List Char) :
    digitsValue (digits ++ more) = digitsValue digits * 10 ^ more.length + digitsValue more := by
  induction more using List.reverseRecOn with
  | nil => simp [digitsValue]
  | append_singleton more c ih =>
    rw [← List.append_assoc]
    unfold digitsValue at ih ⊢
    rw [List.foldl_append, ih, List.foldl_append, List.length_append, List.length_singleton, Nat.pow_succ]
    simp only [List.foldl_cons, List.foldl_nil]
    ring

theorem digitsValue_digit {c : Char} (h : isDigit c = true) : digitsValue [c] < 10 := by
  simp only [isDigit, Bool.decide_and, Bool.and_eq_true, decide_eq_true_eq] at h
  have hle : c.toNat ≤ 57 := h.2
  have hzero : '0'.toNat = 48 := rfl
  simp only [digitsValue, List.foldl_cons, List.foldl_nil, hzero]
  omega

theorem digitsValue_eq_zero {c : Char} (h : isDigit c = true) : digitsValue [c] = 0 ↔ c = '0' := by
  simp only [isDigit, Bool.decide_and, Bool.and_eq_true, decide_eq_true_eq] at h
  have hge : 48 ≤ c.toNat := h.1
  have hzero : '0'.toNat = 48 := rfl
  refine ⟨fun hvalue => Char.toNat_inj.mp ?_, fun hc => by rw [hc]; rfl⟩
  simp only [digitsValue, List.foldl_cons, List.foldl_nil, hzero] at hvalue
  omega

theorem digitsValue_lt {digits : List Char} (h : ∀ c ∈ digits, isDigit c = true) :
    digitsValue digits < 10 ^ digits.length := by
  induction digits with
  | nil => simp [digitsValue]
  | cons c digits ih =>
    have hc := digitsValue_digit (h c List.mem_cons_self)
    have hrest := ih fun c hc => h c (List.mem_cons_of_mem _ hc)
    rw [← List.singleton_append, digitsValue_append, List.length_append, List.length_singleton, Nat.pow_add, pow_one]
    have hle : digitsValue [c] * 10 ^ digits.length ≤ 9 * 10 ^ digits.length := Nat.mul_le_mul_right _ (by omega)
    omega

theorem digitsValue_singleton_inj {c d : Char} (hc : isDigit c = true) (hd : isDigit d = true)
    (h : digitsValue [c] = digitsValue [d]) : c = d := by
  simp only [isDigit, Bool.decide_and, Bool.and_eq_true, decide_eq_true_eq] at hc hd
  have hc' : 48 ≤ c.toNat := hc.1
  have hd' : 48 ≤ d.toNat := hd.1
  have hzero : '0'.toNat = 48 := rfl
  simp only [digitsValue, List.foldl_cons, List.foldl_nil, hzero] at h
  exact Char.toNat_inj.mp (by omega)

theorem isDigit_iff {c : Char} : isDigit c = true ↔ c.isDigit = true := by
  simp only [isDigit, Char.isDigit, Bool.decide_and, Bool.and_eq_true, decide_eq_true_eq]
  exact Iff.rfl

theorem digitsValue_inj {l l' : List Char} (hl : ∀ c ∈ l, isDigit c = true) (hl' : ∀ c ∈ l', isDigit c = true)
    (hlength : l.length = l'.length) (h : digitsValue l = digitsValue l') : l = l' := by
  induction l generalizing l' with
  | nil => exact (List.length_eq_zero_iff.mp hlength.symm).symm
  | cons c l ih =>
    cases l' with
    | nil => cases hlength
    | cons d l' =>
      have hrest := fun c hc => hl c (List.mem_cons_of_mem _ hc)
      have hrest' := fun c hc => hl' c (List.mem_cons_of_mem _ hc)
      rw [← List.singleton_append, ← List.singleton_append (x := d), digitsValue_append, digitsValue_append] at h
      have hlen : l.length = l'.length := by simpa using hlength
      have hlt := digitsValue_lt hrest
      have hlt' := digitsValue_lt hrest'
      rw [hlen] at h hlt
      have hpos : 0 < 10 ^ l'.length := Nat.pow_pos (by decide)
      have hhead : digitsValue [c] = digitsValue [d] := by
        have hdiv := congrArg (· / 10 ^ l'.length) h
        simpa [Nat.mul_comm _ (10 ^ l'.length), Nat.mul_add_div hpos, Nat.div_eq_of_lt hlt,
          Nat.div_eq_of_lt hlt'] using hdiv
      have htail : digitsValue l = digitsValue l' := by
        rw [hhead] at h
        omega
      rw [digitsValue_singleton_inj (hl c List.mem_cons_self) (hl' d List.mem_cons_self) hhead,
        ih hrest hrest' hlen htail]

/-! ## Leading zeros -/

/-- Zero, or digits that start with another digit. -/
def Plain (digits : List Char) : Prop := digits = ['0'] ∨ digits ≠ [] ∧ ∀ c ∈ digits.head?, c ≠ '0'

theorem le_digitsValue {digits : List Char} (hdigits : ∀ c ∈ digits, isDigit c = true) (hne : digits ≠ [])
    (hhead : ∀ c ∈ digits.head?, c ≠ '0') : 10 ^ (digits.length - 1) ≤ digitsValue digits := by
  cases digits with
  | nil => exact absurd rfl hne
  | cons c digits =>
    have hc : digitsValue [c] ≠ 0 := mt (digitsValue_eq_zero (hdigits c List.mem_cons_self)).mp (hhead c rfl)
    rw [← List.singleton_append, digitsValue_append]
    have hle : 1 * 10 ^ digits.length ≤ digitsValue [c] * 10 ^ digits.length := Nat.mul_le_mul_right _ (by omega)
    simp only [List.singleton_append, List.length_cons, Nat.add_sub_cancel]
    omega

theorem length_le_of_value {l l' : List Char} (hl : ∀ c ∈ l, isDigit c = true) (hl' : ∀ c ∈ l', isDigit c = true)
    (hplain : Plain l) (hplain' : Plain l') (h : digitsValue l = digitsValue l') : l'.length ≤ l.length := by
  have hlt := digitsValue_lt hl
  rcases hplain' with rfl | ⟨hne', hhead'⟩
  · have hne : l ≠ [] := by
      rcases hplain with rfl | ⟨hne, -⟩
      · simp
      · exact hne
    exact List.length_pos_iff.mpr hne
  · have hle := le_digitsValue hl' hne' hhead'
    have hlength : l'.length - 1 < l.length :=
      (Nat.pow_lt_pow_iff_right (by decide)).mp (by omega : 10 ^ (l'.length - 1) < 10 ^ l.length)
    have hpos := List.length_pos_iff.mpr hne'
    omega

theorem Plain.eq {l l' : List Char} (hplain : Plain l) (hplain' : Plain l') (hl : ∀ c ∈ l, isDigit c = true)
    (hl' : ∀ c ∈ l', isDigit c = true) (h : digitsValue l = digitsValue l') : l = l' :=
  digitsValue_inj hl hl' (Nat.le_antisymm (length_le_of_value hl' hl hplain' hplain h.symm)
    (length_le_of_value hl hl' hplain hplain' h)) h

theorem plain_toDigits (n : Nat) : Plain (Nat.toDigits 10 n) := by
  induction n using Nat.strongRecOn with
  | ind n ih =>
    rw [Nat.toDigits_eq_if (by decide)]
    split
    · next hlt =>
      interval_cases n
      · exact .inl rfl
      all_goals exact .inr ⟨by simp, by simp [Nat.digitChar]⟩
    · next hge =>
      have hquotient : 0 < n / 10 := Nat.div_pos (Nat.le_of_not_lt hge) (by decide)
      rcases ih (n / 10) (Nat.div_lt_self (by omega) (by decide)) with hzero | ⟨hne, hhead⟩
      · -- Only zero is written as one zero.
        have hvalue := digitsValue_toDigits (n / 10)
        rw [hzero] at hvalue
        exact absurd hvalue hquotient.ne
      · refine .inr ⟨by simp, ?_⟩
        obtain ⟨c, rest, hdigits⟩ := List.exists_cons_of_ne_nil hne
        rw [hdigits] at hhead ⊢
        exact hhead

theorem Plain.toDigits {digits : List Char} (hplain : Plain digits) (hdigits : ∀ c ∈ digits, isDigit c = true) :
    Nat.toDigits 10 (digitsValue digits) = digits :=
  (plain_toDigits _).eq hplain (fun _ => isDigit_of_mem_toDigits) hdigits (digitsValue_toDigits _)

end Sdp.Amount
