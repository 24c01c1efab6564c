import Sdp.Lib.AddressBlocks
import Sdp.Lib.Hex

/-!
# Texts of addresses

The dotted quad of four octets, and the one canonical text of eight groups: the longest run of two or more zero
groups is left out, the first one of equally long.
-/

namespace Sdp.Lib

def quadText (octets : List Nat) : List Char := ['.'].intercalate (octets.map (Nat.toDigits 10))

def groupsText (groups : List Nat) : List Char := [':'].intercalate (groups.map (Nat.toDigits 16))

inductive Canonical (groups : List Nat) : List Char → Prop
  | full (alone : ∀ head tail, groups ≠ head ++ 0 :: 0 :: tail) : Canonical groups (groupsText groups)
  | elided (head tail : List Nat) (n : Nat) (hgroups : groups = head ++ List.replicate n 0 ++ tail) (two : 2 ≤ n)
      (longest : ∀ head' k tail', groups = head' ++ List.replicate k 0 ++ tail' → k ≤ n)
      (first : ∀ head' tail', groups = head' ++ List.replicate n 0 ++ tail' → head.length ≤ head'.length) :
      Canonical groups (groupsText head ++ ':' :: ':' :: groupsText tail)

theorem groupsText_singleton (g : Nat) : groupsText [g] = Nat.toDigits 16 g := List.intercalate_singleton

theorem groupsText_cons_cons (g g' : Nat) (groups : List Nat) :
    groupsText (g :: g' :: groups) = Nat.toDigits 16 g ++ ':' :: groupsText (g' :: groups) := by
  simp [groupsText, List.intercalate_cons_cons]

def IsGroupChar (c : Char) : Prop := c = ':' ∨ isLowerHex c = true

theorem mem_intercalate {α : Type} {sep c : α} {parts : List (List α)} (h : c ∈ [sep].intercalate parts) :
    c = sep ∨ ∃ part ∈ parts, c ∈ part := by
  induction parts with
  | nil => cases h
  | cons part parts ih =>
    rcases eq_or_ne parts [] with rfl | hne
    · rw [List.intercalate_singleton] at h
      exact .inr ⟨part, List.mem_cons_self, h⟩
    · rw [List.intercalate_cons_of_ne_nil hne, List.mem_append, List.mem_append, List.mem_singleton] at h
      rcases h with (h | h) | h
      · exact .inr ⟨part, List.mem_cons_self, h⟩
      · exact .inl h
      · exact (ih h).imp_right fun ⟨other, hmem, hc⟩ => ⟨other, List.mem_cons_of_mem _ hmem, hc⟩

theorem isGroupChar_groupsText {groups : List Nat} {c : Char} (h : c ∈ groupsText groups) : IsGroupChar c := by
  refine (mem_intercalate h).imp_right fun ⟨part, hpart, hc⟩ => ?_
  obtain ⟨g, -, rfl⟩ := List.mem_map.mp hpart
  exact isLowerHex_of_mem hc

theorem splitOn_quadText {octets : List Nat} (hne : octets ≠ []) :
    (quadText octets).splitOn '.' = octets.map (Nat.toDigits 10) := by
  refine List.splitOn_intercalate '.' (fun part hpart hdot => ?_) (by simpa using hne)
  obtain ⟨octet, -, rfl⟩ := List.mem_map.mp hpart
  exact absurd (Nat.isDigit_of_mem_toDigits (by decide) (by decide) hdot) (by decide)

theorem splitOn_groupsText {groups : List Nat} (hne : groups ≠ []) :
    (groupsText groups).splitOn ':' = groups.map (Nat.toDigits 16) := by
  refine List.splitOn_intercalate ':' (fun part hpart hcolon => ?_) (by simpa using hne)
  obtain ⟨g, -, rfl⟩ := List.mem_map.mp hpart
  exact absurd (isLowerHex_of_mem hcolon) (by decide)

theorem Canonical.isGroupChar {groups : List Nat} {text : List Char} (h : Canonical groups text) :
    ∀ c ∈ text, IsGroupChar c := by
  intro c hc
  cases h with
  | full alone => exact isGroupChar_groupsText hc
  | elided head tail n hgroups two longest first =>
    rcases List.mem_append.mp hc with hc | hc
    · exact isGroupChar_groupsText hc
    · rcases List.mem_cons.mp hc with rfl | hc
      · exact .inl rfl
      · rcases List.mem_cons.mp hc with rfl | hc
        · exact .inl rfl
        · exact isGroupChar_groupsText hc

theorem groupsText_leads (g : Nat) (head : List Nat) (rest : List Char) :
    ∃ more, groupsText (g :: head) ++ ':' :: rest = Nat.toDigits 16 g ++ ':' :: more := by
  cases head with
  | nil => exact ⟨rest, by rw [groupsText_singleton]⟩
  | cons g' head => exact ⟨groupsText (g' :: head) ++ ':' :: rest, by simp [groupsText_cons_cons]⟩

theorem Canonical.leads {groups : List Nat} {text : List Char} (h : Canonical groups text) (hlength : groups.length = 8) :
    (∃ g rest more, groups = g :: rest ∧ text = Nat.toDigits 16 g ++ ':' :: more ∧ ¬List.replicate 5 0 <+: groups) ∨
    ∃ n tail, groups = List.replicate n 0 ++ tail ∧ 2 ≤ n ∧ tail.head? ≠ some 0 ∧
      text = ':' :: ':' :: groupsText tail := by
  cases h with
  | full alone =>
    obtain ⟨g, g', rest, rfl⟩ : ∃ g g' rest, groups = g :: g' :: rest := by
      match groups, hlength with
      | g :: g' :: rest, _ => exact ⟨g, g', rest, rfl⟩
    refine .inl ⟨g, g' :: rest, groupsText (g' :: rest), rfl, groupsText_cons_cons g g' rest, ?_⟩
    rintro ⟨tail, htail⟩
    exact alone [] (List.replicate 3 0 ++ tail) (by simpa [List.replicate] using htail.symm)
  | elided head tail n hgroups two longest first =>
    cases head with
    | nil =>
      refine .inr ⟨n, tail, by simpa using hgroups, two, fun hzero => ?_, rfl⟩
      obtain ⟨rest, rfl⟩ := List.head?_eq_some_iff.mp hzero
      -- One more zero would make the run longer.
      have hlonger := longest [] (n + 1) rest (by rw [hgroups, List.replicate_succ']; simp)
      omega
    | cons g head =>
      obtain ⟨more, hmore⟩ := groupsText_leads g head (':' :: groupsText tail)
      refine .inl ⟨g, head ++ List.replicate n 0 ++ tail, more, by simpa using hgroups, hmore, ?_⟩
      rintro ⟨rest, hrest⟩
      have hfive := longest [] 5 rest (by simpa using hrest.symm)
      have hlen := congrArg List.length hgroups
      simp only [hlength, List.length_append, List.length_cons, List.length_replicate] at hlen
      -- The head is within the five zeros and makes the run longer.
      have hhead : g :: head = List.replicate (head.length + 1) 0 := by
        have hleading : g :: head <+: List.replicate 5 0 := by
          have hleft : g :: head <+: groups := ⟨List.replicate n 0 ++ tail, by rw [hgroups, List.append_assoc]⟩
          exact List.prefix_of_prefix_length_le hleft ⟨rest, hrest⟩ (by simp; omega)
        exact List.eq_replicate_iff.mpr ⟨rfl, fun x hx => (List.mem_replicate.mp (hleading.subset hx)).2⟩
      have hlonger := longest [] (head.length + 1 + n) tail (by rw [hgroups, hhead, List.nil_append, List.replicate_append_replicate])
      omega

end Sdp.Lib
