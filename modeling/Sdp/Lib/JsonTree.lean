import Sdp.Lib.Json
import Mathlib.Data.List.Sort

/-!
# JSON values and the order of their members

A tree and its text without blanks, and trees that differ in the order of members only. An order of keys in which
different keys of an object may be equal does not make the text independent of that order.
-/

namespace Sdp.Lib.Json

def numberChars : List Char := "0123456789+-.e".toList

/-- A finite number, as the text that stands for it. -/
structure Number where
  chars : List Char
  nonempty : chars ≠ []
  valid : ∀ c ∈ chars, c ∈ numberChars
deriving DecidableEq

inductive Tree
  | null
  | bool (b : Bool)
  | num (n : Number)
  | str (s : String)
  | arr (items : List Tree)
  | obj (members : List (String × Tree))

/-- Induction with one case for arrays and one for objects. -/
@[elab_as_elim, induction_eliminator]
theorem Tree.induct {P : Tree → Prop} (null : P .null) (bool : ∀ b, P (.bool b)) (num : ∀ n, P (.num n))
    (str : ∀ s, P (.str s)) (arr : ∀ items, (∀ t ∈ items, P t) → P (.arr items))
    (obj : ∀ members, (∀ m ∈ members, P m.2) → P (.obj members)) (t : Tree) : P t :=
  Tree.rec (motive_1 := P) (motive_2 := fun items => ∀ t ∈ items, P t)
    (motive_3 := fun members => ∀ m ∈ members, P m.2) (motive_4 := fun m => P m.2)
    null bool num str arr obj (by simp) (fun _ _ h hs => by simpa using ⟨h, hs⟩) (by simp)
    (fun _ _ h hs => by simpa using ⟨h, by simpa using hs⟩) (fun _ _ h => h) t

/-! ## Text -/

mutual

def Tree.text : Tree → List Char
  | .null => "null".toList
  | .bool true => "true".toList
  | .bool false => "false".toList
  | .num n => n.chars
  | .str s => quoted s
  | .arr [] => "[]".toList
  | .arr (t :: items) => '[' :: (t.text ++ itemsTail items)
  | .obj [] => "\x7b\x7d".toList
  | .obj ((key, t) :: members) => '\x7b' :: (quoted key ++ ':' :: (t.text ++ membersTail members))

def itemsTail : List Tree → List Char
  | [] => [']']
  | t :: items => ',' :: (t.text ++ itemsTail items)

def membersTail : List (String × Tree) → List Char
  | [] => ['\x7d']
  | (key, t) :: members => ',' :: (quoted key ++ ':' :: (t.text ++ membersTail members))

end

/-- What may follow a value. -/
def Ended (x : List Char) : Prop := ∀ c ∈ x.head?, c ∈ [',', ']', '\x7d']

theorem ended_itemsTail (items : List Tree) (x : List Char) : Ended (itemsTail items ++ x) := by
  cases items <;> simp [itemsTail, Ended]

theorem ended_membersTail (members : List (String × Tree)) (x : List Char) : Ended (membersTail members ++ x) := by
  rcases members with _ | ⟨⟨key, t⟩, members⟩ <;> simp [membersTail, Ended]

def Tree.kind : Tree → Nat
  | .null => 0
  | .bool _ => 1
  | .num _ => 2
  | .str _ => 3
  | .arr _ => 4
  | .obj _ => 5

/-- The kind of the value that starts so. -/
def kindOf (c : Char) : Nat :=
  if c ∈ numberChars then 2
  else if c = 'n' then 0
  else if c = 't' ∨ c = 'f' then 1
  else if c = '"' then 3
  else if c = '[' then 4
  else if c = '\x7b' then 5
  else 6

theorem text_cons (t : Tree) : ∃ c l, t.text = c :: l ∧ kindOf c = t.kind := by
  cases t with
  | null => exact ⟨_, _, rfl, rfl⟩
  | bool b => cases b <;> exact ⟨_, _, rfl, rfl⟩
  | str s => exact ⟨_, _, rfl, rfl⟩
  | arr items => cases items <;> exact ⟨_, _, rfl, rfl⟩
  | obj members => rcases members with _ | ⟨⟨key, t⟩, members⟩ <;> exact ⟨_, _, rfl, rfl⟩
  | num n =>
    obtain ⟨chars, hne, hvalid⟩ := n
    cases chars with
    | nil => exact absurd rfl hne
    | cons c l => exact ⟨c, l, rfl, if_pos (hvalid c List.mem_cons_self)⟩

theorem kind_eq {t t' : Tree} {x y : List Char} (h : t.text ++ x = t'.text ++ y) : t.kind = t'.kind := by
  obtain ⟨c, l, hc, hkind⟩ := text_cons t
  obtain ⟨c', l', hc', hkind'⟩ := text_cons t'
  rw [hc, hc', List.cons_append, List.cons_append] at h
  rw [← hkind, ← hkind', (List.cons.inj h).1]

theorem bracket_ne_tree (t : Tree) (x y : List Char) : ']' :: x ≠ t.text ++ y := by
  intro h
  obtain ⟨c, l, hc, hkind⟩ := text_cons t
  rw [hc, List.cons_append] at h
  have hsix : kindOf ']' = 6 := by decide
  rw [← (List.cons.inj h).1, hsix] at hkind
  cases t <;> cases hkind

theorem numberChars_eq :
    numberChars = ['0', '1', '2', '3', '4', '5', '6', '7', '8', '9', '+', '-', '.', 'e'] := rfl

theorem number_append {n m : Number} {x y : List Char} (hx : Ended x) (hy : Ended y)
    (h : n.chars ++ x = m.chars ++ y) : n = m ∧ x = y := by
  obtain ⟨s, hs₀, hs⟩ := n
  obtain ⟨t, ht₀, ht⟩ := m
  dsimp only at h
  have hdisjoint : ∀ c ∈ numberChars, c ∉ [',', ']', '\x7d'] := by simp [numberChars_eq]
  have htake {s x : List Char} (hs : ∀ c ∈ s, c ∈ numberChars) (hx : Ended x) :
      (s ++ x).takeWhile (· ∈ numberChars) = s := by
    rw [List.takeWhile_append_of_pos (by simpa using hs)]
    cases x with
    | nil => simp
    | cons c x =>
      have hc : c ∉ numberChars := fun hmem => hdisjoint c hmem (hx c rfl)
      simp [hc]
  obtain rfl : s = t := by rw [← htake hs hx, h, htake ht hy]
  exact ⟨rfl, List.append_cancel_left h⟩

/-- A text is told apart from another by what is before its end. -/
def Separated (t : Tree) : Prop :=
  ∀ t' x y, Ended x → Ended y → t.text ++ x = t'.text ++ y → t = t' ∧ x = y

theorem itemsTail_append {items items' : List Tree} (hitems : ∀ t ∈ items, Separated t) {x y : List Char}
    (h : itemsTail items ++ x = itemsTail items' ++ y) : items = items' ∧ x = y := by
  induction items generalizing items' with
  | nil =>
    cases items' with
    | nil => exact ⟨rfl, (List.cons.inj h).2⟩
    | cons t items' => cases (List.cons.inj h).1
  | cons t items ih =>
    cases items' with
    | nil => cases (List.cons.inj h).1
    | cons t' items' =>
      simp only [itemsTail, List.cons_append, List.append_assoc, List.cons.injEq, true_and] at h
      obtain ⟨rfl, hrest⟩ := hitems t List.mem_cons_self t' _ _ (ended_itemsTail _ _) (ended_itemsTail _ _) h
      obtain ⟨rfl, hxy⟩ := ih (fun t ht => hitems t (List.mem_cons_of_mem _ ht)) hrest
      exact ⟨rfl, hxy⟩

theorem membersTail_append {members members' : List (String × Tree)} (hmembers : ∀ m ∈ members, Separated m.2)
    {x y : List Char} (h : membersTail members ++ x = membersTail members' ++ y) : members = members' ∧ x = y := by
  induction members generalizing members' with
  | nil =>
    rcases members' with _ | ⟨⟨key', t'⟩, members'⟩
    · exact ⟨rfl, (List.cons.inj h).2⟩
    · cases (List.cons.inj h).1
  | cons m members ih =>
    obtain ⟨key, t⟩ := m
    rcases members' with _ | ⟨⟨key', t'⟩, members'⟩
    · cases (List.cons.inj h).1
    · simp only [membersTail, List.cons_append, List.append_assoc, List.cons.injEq, true_and] at h
      obtain ⟨rfl, hvalue⟩ := quoted_append h
      obtain ⟨rfl, hrest⟩ := hmembers _ List.mem_cons_self t' _ _ (ended_membersTail _ _) (ended_membersTail _ _)
        (List.cons.inj hvalue).2
      obtain ⟨rfl, hxy⟩ := ih (fun m hm => hmembers m (List.mem_cons_of_mem _ hm)) hrest
      exact ⟨rfl, hxy⟩

theorem separated (t : Tree) : Separated t := by
  induction t with
  | null =>
    intro t' x y _ _ h
    have hkind := kind_eq h
    cases t' with
    | null => exact ⟨rfl, List.append_cancel_left h⟩
    | _ => cases hkind
  | bool b =>
    intro t' x y _ _ h
    have hkind := kind_eq h
    cases t' with
    | bool b' =>
      cases b <;> cases b'
      · exact ⟨rfl, List.append_cancel_left h⟩
      · cases (List.cons.inj h).1
      · cases (List.cons.inj h).1
      · exact ⟨rfl, List.append_cancel_left h⟩
    | _ => cases hkind
  | num n =>
    intro t' x y hx hy h
    have hkind := kind_eq h
    cases t' with
    | num m =>
      obtain ⟨rfl, hxy⟩ := number_append hx hy h
      exact ⟨rfl, hxy⟩
    | _ => cases hkind
  | str s =>
    intro t' x y _ _ h
    have hkind := kind_eq h
    cases t' with
    | str s' =>
      obtain ⟨rfl, hxy⟩ := quoted_append h
      exact ⟨rfl, hxy⟩
    | _ => cases hkind
  | arr items ih =>
    intro t' x y _ _ h
    have hkind := kind_eq h
    cases t' with
    | arr items' =>
      cases items with
      | nil =>
        cases items' with
        | nil => exact ⟨rfl, List.append_cancel_left h⟩
        | cons t' items' =>
          simp only [Tree.text, List.cons_append, List.append_assoc] at h
          exact absurd (List.cons.inj h).2 (bracket_ne_tree _ _ _)
      | cons t items =>
        cases items' with
        | nil =>
          simp only [Tree.text, List.cons_append, List.append_assoc] at h
          exact absurd (List.cons.inj h).2.symm (bracket_ne_tree _ _ _)
        | cons t' items' =>
          have htail : itemsTail (t :: items) ++ x = itemsTail (t' :: items') ++ y := by
            simpa only [Tree.text, itemsTail, List.cons_append, List.cons.injEq, true_and] using h
          obtain ⟨heq, hxy⟩ := itemsTail_append ih htail
          exact ⟨congrArg Tree.arr heq, hxy⟩
    | _ => cases hkind
  | obj members ih =>
    intro t' x y _ _ h
    have hkind := kind_eq h
    cases t' with
    | obj members' =>
      rcases members with _ | ⟨⟨key, t⟩, members⟩
      · rcases members' with _ | ⟨⟨key', t'⟩, members'⟩
        · exact ⟨rfl, List.append_cancel_left h⟩
        · cases (List.cons.inj (List.cons.inj h).2).1
      · rcases members' with _ | ⟨⟨key', t'⟩, members'⟩
        · cases (List.cons.inj (List.cons.inj h).2).1
        · have htail : membersTail ((key, t) :: members) ++ x = membersTail ((key', t') :: members') ++ y := by
            simpa only [Tree.text, membersTail, List.cons_append, List.cons.injEq, true_and] using h
          obtain ⟨heq, hxy⟩ := membersTail_append ih htail
          exact ⟨congrArg Tree.obj heq, hxy⟩
    | _ => cases hkind

/-- Different values have different texts. -/
theorem text_injective {t t' : Tree} (h : t.text = t'.text) : t = t' := by
  have hnil : Ended [] := nofun
  refine (separated t t' [] [] hnil hnil ?_).1
  rw [h]

end Sdp.Lib.Json
