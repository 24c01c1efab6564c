import Mathlib.Data.List.Basic

/-!
# The text of a JSON array of scalars

As a database prints it: items are separated by a comma and a blank, and of a string the quote, the
backslash and the control characters are escaped. Different arrays have different texts.
-/

namespace Sdp.Lib.Json

/-! ## Strings -/

/-- What follows the backslash in the escape of the character with this code. -/
def escapeTail : Nat → List Char
  | 8 => ['b']
  | 9 => ['t']
  | 10 => ['n']
  | 12 => ['f']
  | 13 => ['r']
  | 34 => ['"']
  | 92 => ['\\']
  | n => ['u', '0', '0', Nat.digitChar (n / 16), Nat.digitChar (n % 16)]

/-- The codes of the characters that are escaped. -/
def escapedCodes : List Nat := List.range 32 ++ [34, 92]

def escapeChar (c : Char) : List Char := if c.toNat ∈ escapedCodes then '\\' :: escapeTail c.toNat else [c]

theorem escapeTail_inj : ∀ n ∈ escapedCodes, ∀ m ∈ escapedCodes, escapeTail n = escapeTail m → n = m := by
  decide

theorem length_escapeTail : ∀ n ∈ escapedCodes, ∀ m ∈ escapedCodes,
    (escapeTail n).head? = (escapeTail m).head? → (escapeTail n).length = (escapeTail m).length := by
  decide

theorem escapeTail_ne_nil (n : Nat) : escapeTail n ≠ [] := by
  unfold escapeTail
  split <;> simp

theorem escapeTail_append {n m : Nat} (hn : n ∈ escapedCodes) (hm : m ∈ escapedCodes) {x y : List Char}
    (h : escapeTail n ++ x = escapeTail m ++ y) : n = m ∧ x = y := by
  have hhead : (escapeTail n).head? = (escapeTail m).head? := by
    have hheads := congrArg List.head? h
    rwa [List.head?_append_of_ne_nil _ (escapeTail_ne_nil n), List.head?_append_of_ne_nil _ (escapeTail_ne_nil m)] at hheads
  obtain ⟨htails, hrest⟩ := List.append_inj h (length_escapeTail n hn m hm hhead)
  exact ⟨escapeTail_inj n hn m hm htails, hrest⟩

theorem mem_escapedCodes_backslash : ('\\').toNat ∈ escapedCodes := by decide

theorem escapeChar_append {c d : Char} {x y : List Char} (h : escapeChar c ++ x = escapeChar d ++ y) :
    c = d ∧ x = y := by
  unfold escapeChar at h
  split at h
  · next hc =>
    split at h
    · next hd =>
      obtain ⟨hcode, hrest⟩ := escapeTail_append hc hd (List.cons.inj h).2
      exact ⟨Char.toNat_inj.mp hcode, hrest⟩
    · next hd =>
      rw [← (List.cons.inj h).1] at hd
      exact absurd mem_escapedCodes_backslash hd
  · next hc =>
    split at h
    · rw [(List.cons.inj h).1] at hc
      exact absurd mem_escapedCodes_backslash hc
    · exact List.cons.inj h

theorem quote_ne_escapeChar {c : Char} {x y : List Char} : '"' :: x ≠ escapeChar c ++ y := by
  intro h
  unfold escapeChar at h
  split at h
  · cases (List.cons.inj h).1
  · next hc =>
    rw [← (List.cons.inj h).1] at hc
    exact absurd (by decide) hc

def quoted (s : String) : List Char := '"' :: s.toList.flatMap escapeChar ++ ['"']

theorem escaped_append {s t x y : List Char}
    (h : s.flatMap escapeChar ++ '"' :: x = t.flatMap escapeChar ++ '"' :: y) : s = t ∧ x = y := by
  induction s generalizing t with
  | nil =>
    cases t with
    | nil => exact ⟨rfl, (List.cons.inj h).2⟩
    | cons d t =>
      rw [List.flatMap_cons, List.append_assoc] at h
      exact absurd h quote_ne_escapeChar
  | cons c s ih =>
    rw [List.flatMap_cons, List.append_assoc] at h
    cases t with
    | nil => exact absurd h.symm quote_ne_escapeChar
    | cons d t =>
      rw [List.flatMap_cons, List.append_assoc] at h
      obtain ⟨rfl, hrest⟩ := escapeChar_append h
      obtain ⟨rfl, hxy⟩ := ih hrest
      exact ⟨rfl, hxy⟩

theorem quoted_append {s t : String} {x y : List Char} (h : quoted s ++ x = quoted t ++ y) : s = t ∧ x = y := by
  simp only [quoted, List.cons_append, List.append_assoc, List.nil_append, List.cons.injEq, true_and] at h
  obtain ⟨hst, hxy⟩ := escaped_append h
  exact ⟨String.toList_inj.mp hst, hxy⟩

/-! ## Numbers -/

def number (n : Int) : List Char := if n < 0 then '-' :: Nat.toDigits 10 n.natAbs else Nat.toDigits 10 n.natAbs

theorem toDigits_inj {n m : Nat} (h : Nat.toDigits 10 n = Nat.toDigits 10 m) : n = m := by
  rw [← Nat.ofDigitChars_ten_toDigits (n := n), h, Nat.ofDigitChars_ten_toDigits]

theorem isDigit_of_mem {c : Char} {n : Nat} (h : c ∈ Nat.toDigits 10 n) : c.isDigit = true :=
  Nat.isDigit_of_mem_toDigits (by decide) (by decide) h

theorem mem_number {c : Char} {n : Int} (h : c ∈ number n) : c = '-' ∨ c.isDigit = true := by
  unfold number at h
  split at h
  · exact (List.mem_cons.mp h).imp_right isDigit_of_mem
  · exact .inr (isDigit_of_mem h)

theorem number_inj {n m : Int} (h : number n = number m) : n = m := by
  have hminus (k : Nat) (x : List Char) : Nat.toDigits 10 k ≠ '-' :: x := by
    intro hk
    have hdigit := isDigit_of_mem (hk ▸ List.mem_cons_self)
    exact absurd hdigit (by decide)
  unfold number at h
  split at h
  · split at h
    · have habs := toDigits_inj (List.cons.inj h).2
      omega
    · exact absurd h.symm (hminus _ _)
  · split at h
    · exact absurd h (hminus _ _)
    · have habs := toDigits_inj h
      omega

/-! ## Arrays -/

inductive Scalar
  | null
  | num (n : Int)
  | str (s : String)
deriving DecidableEq

def Scalar.text : Scalar → List Char
  | .null => ['n', 'u', 'l', 'l']
  | .num n => number n
  | .str s => quoted s

def itemsText : List Scalar → List Char
  | [] => [']']
  | [a] => a.text ++ [']']
  | a :: b :: items => a.text ++ ',' :: ' ' :: itemsText (b :: items)

def arrayText (items : List Scalar) : String := String.ofList ('[' :: itemsText items)

/-- What may follow an item. -/
def ends : List Char := [',', ']']

theorem split_at_first {α : Type} {p : α → Prop} {s t x y : List α} {c d : α} (hs : ∀ a ∈ s, p a) (ht : ∀ a ∈ t, p a)
    (hc : ¬ p c) (hd : ¬ p d) (h : s ++ c :: x = t ++ d :: y) : s = t ∧ c = d ∧ x = y := by
  induction s generalizing t with
  | nil =>
    cases t with
    | nil => exact ⟨rfl, List.cons.inj h⟩
    | cons b t =>
      obtain ⟨rfl, -⟩ := List.cons.inj h
      exact absurd (ht c List.mem_cons_self) hc
  | cons a s ih =>
    cases t with
    | nil =>
      obtain ⟨rfl, -⟩ := List.cons.inj h
      exact absurd (hs a List.mem_cons_self) hd
    | cons b t =>
      obtain ⟨rfl, hrest⟩ := List.cons.inj h
      obtain ⟨rfl, hends⟩ := ih (fun a ha => hs a (List.mem_cons_of_mem _ ha))
        (fun a ha => ht a (List.mem_cons_of_mem _ ha)) hrest
      exact ⟨rfl, hends⟩

theorem number_ne_nil (n : Int) : number n ≠ [] := by
  unfold number
  split
  · simp
  · exact Nat.toDigits_ne_nil

theorem number_cons {n : Int} {c : Char} {x y : List Char} (h : number n ++ x = c :: y) : c = '-' ∨ c.isDigit = true := by
  cases hn : number n with
  | nil => exact absurd hn (number_ne_nil n)
  | cons a l =>
    rw [hn] at h
    obtain ⟨rfl, -⟩ := List.cons.inj h
    exact mem_number (hn ▸ List.mem_cons_self)

theorem text_append {a b : Scalar} {c d : Char} {x y : List Char} (hc : c ∈ ends) (hd : d ∈ ends)
    (h : a.text ++ c :: x = b.text ++ d :: y) : a = b ∧ c = d ∧ x = y := by
  have hends {e : Char} (he : e ∈ ends) : ¬ (e = '-' ∨ e.isDigit = true) := by
    simp only [ends, List.mem_cons, List.not_mem_nil, or_false] at he
    rcases he with rfl | rfl <;> decide
  cases a with
  | null =>
    cases b with
    | null => exact ⟨rfl, by simpa [Scalar.text] using h⟩
    | num m => exact absurd (number_cons h.symm) (by decide)
    | str t => cases (List.cons.inj h).1
  | num n =>
    cases b with
    | null => exact absurd (number_cons h) (by decide)
    | num m =>
      obtain ⟨htext, hrest⟩ := split_at_first (fun _ => mem_number) (fun _ => mem_number) (hends hc) (hends hd) h
      exact ⟨congrArg Scalar.num (number_inj htext), hrest⟩
    | str t => exact absurd (number_cons h) (by decide)
  | str s =>
    cases b with
    | null => cases (List.cons.inj h).1
    | num m => exact absurd (number_cons h.symm) (by decide)
    | str t =>
      obtain ⟨rfl, hrest⟩ := quoted_append h
      exact ⟨rfl, List.cons.inj hrest⟩

theorem bracket_ne_text {a : Scalar} {x y : List Char} : ']' :: x ≠ a.text ++ y := by
  intro h
  cases a with
  | null => cases (List.cons.inj h).1
  | num n => exact absurd (number_cons h.symm) (by decide)
  | str s => cases (List.cons.inj h).1

theorem itemsText_inj {items items' : List Scalar} (h : itemsText items = itemsText items') : items = items' := by
  have hcomma : ',' ∈ ends := by decide
  have hbracket : ']' ∈ ends := by decide
  induction items using itemsText.induct generalizing items' with
  | case1 =>
    match items' with
    | [] => rfl
    | [a] => exact absurd h bracket_ne_text
    | a :: b :: _ => exact absurd h bracket_ne_text
  | case2 a =>
    match items' with
    | [] => exact absurd h.symm bracket_ne_text
    | [a'] => rw [(text_append hbracket hbracket h).1]
    | a' :: b :: _ => cases (text_append hbracket hcomma h).2.1
  | case3 a b items ih =>
    match items' with
    | [] => exact absurd h.symm bracket_ne_text
    | [a'] => cases (text_append hcomma hbracket h).2.1
    | a' :: b' :: _ =>
      obtain ⟨rfl, -, hrest⟩ := text_append hcomma hcomma h
      rw [ih (List.cons.inj hrest).2]

theorem arrayText_inj {items items' : List Scalar} (h : arrayText items = arrayText items') : items = items' :=
  itemsText_inj (List.cons.inj (String.ofList_injective h)).2

end Sdp.Lib.Json
