import Mathlib.Data.List.Chain
import Mathlib.Data.List.Infix

/-!
# Greedy packings

A list is cut into consecutive parts, each of which goes on as long as it can.
-/

namespace Sdp.Lib

variable {α : Type} (good : List α → Prop)

/-- The part cannot take over the head of the next one. -/
def Full (part next : List α) : Prop := ∀ x, next.head? = some x → ¬ good (part ++ [x])

structure Packing (parts : List (List α)) : Prop where
  nonempty : ∀ part ∈ parts, part ≠ []
  each : ∀ part ∈ parts, good part
  full : parts.IsChain (Full good)

/-- Closed under sublists. -/
def Hereditary : Prop := ∀ l l', l'.Sublist l → good l → good l'

variable {good}

theorem packing_nil : Packing good [] := ⟨nofun, nofun, .nil⟩

theorem packing_singleton {part : List α} (hne : part ≠ []) (h : good part) : Packing good [part] := by
  refine ⟨fun p hp => ?_, fun p hp => ?_, .singleton part⟩
  · rwa [List.mem_singleton.mp hp]
  · rwa [List.mem_singleton.mp hp]

theorem Packing.grow {parts : List (List α)} {part : List α} {x : α} (h : Packing good (parts ++ [part]))
    (hgood : good (part ++ [x])) : Packing good (parts ++ [part ++ [x]]) := by
  have hpart : part ≠ [] := h.nonempty part (by simp)
  refine ⟨fun p hp => ?_, fun p hp => ?_, ?_⟩
  · rcases List.mem_append.mp hp with hp | hp
    · exact h.nonempty p (List.mem_append_left _ hp)
    · rw [List.mem_singleton.mp hp]
      simp
  · rcases List.mem_append.mp hp with hp | hp
    · exact h.each p (List.mem_append_left _ hp)
    · rwa [List.mem_singleton.mp hp]
  · -- The head of the part is the same.
    have hchain := List.isChain_append.mp h.full
    refine List.isChain_append.mpr ⟨hchain.1, .singleton _, fun a ha b hb => ?_⟩
    cases hb
    have hfull := hchain.2.2 a ha part rfl
    intro y hy
    refine hfull y ?_
    rwa [List.head?_append_of_ne_nil _ hpart] at hy

theorem Packing.next {parts : List (List α)} {part : List α} {x : α} (h : Packing good (parts ++ [part]))
    (hfull : ¬ good (part ++ [x])) (hx : good [x]) : Packing good (parts ++ [part] ++ [[x]]) := by
  refine ⟨fun p hp => ?_, fun p hp => ?_, ?_⟩
  · rcases List.mem_append.mp hp with hp | hp
    · exact h.nonempty p hp
    · rw [List.mem_singleton.mp hp]
      simp
  · rcases List.mem_append.mp hp with hp | hp
    · exact h.each p hp
    · rwa [List.mem_singleton.mp hp]
  · refine List.isChain_append.mpr ⟨h.full, .singleton _, fun a ha b hb => ?_⟩
    cases hb
    rw [List.getLast?_concat] at ha
    cases ha
    intro y hy
    cases hy
    exact hfull

theorem Packing.tail {part : List α} {parts : List (List α)} (h : Packing good (part :: parts)) : Packing good parts :=
  ⟨fun p hp => h.nonempty p (List.mem_cons_of_mem _ hp), fun p hp => h.each p (List.mem_cons_of_mem _ hp), h.full.tail⟩

theorem Packing.ahead {part : List α} {parts : List (List α)} (h : Packing good (part :: parts))
    (hhered : Hereditary good) {u p rest : List α} (hp : good p) (hcut : u ++ (part ++ parts.flatten) = p ++ rest)
    (hlength : u.length < p.length) : parts.flatten <:+ rest := by
  obtain ⟨w, rfl, hw⟩ : ∃ w, p = u ++ w ∧ part ++ parts.flatten = w ++ rest := by
    rcases List.append_eq_append_iff.mp hcut with ⟨w, hw, hrest⟩ | ⟨w, hw, -⟩
    · exact ⟨w, hw, hrest⟩
    · rw [hw, List.length_append] at hlength
      omega
  rcases List.append_eq_append_iff.mp hw with ⟨v, hv, hrest⟩ | ⟨v, -, hrest⟩
  · cases v with
    | nil => exact hrest ▸ List.suffix_refl _
    | cons x v =>
      -- The other part would hold this one and the head of the next.
      exfalso
      cases parts with
      | nil => cases hrest
      | cons next parts =>
        have hfull := (List.isChain_cons_cons.mp h.full).1
        refine hfull x ?_ (hhered _ _ ?_ hp)
        · have hnext : next ≠ [] := h.nonempty next (by simp)
          rw [List.flatten_cons] at hrest
          rw [← List.head?_append_of_ne_nil next hnext, hrest]
          rfl
        · rw [hv]
          exact List.Sublist.trans (by simp) (List.sublist_append_right u _)
  · exact hrest ▸ List.suffix_append v _

/-- No other cut into good parts has fewer of them. -/
theorem Packing.length_le {parts : List (List α)} (h : Packing good parts) (hhered : Hereditary good)
    (cut : List (List α)) (hgood : ∀ p ∈ cut, p ≠ [] → good p) (hsuffix : parts.flatten <:+ cut.flatten) :
    parts.length ≤ cut.length := by
  induction parts generalizing cut with
  | nil => exact Nat.zero_le _
  | cons part parts ih =>
    induction cut with
    | nil =>
      have hnil := List.suffix_nil.mp hsuffix
      rw [List.flatten_cons, List.append_eq_nil_iff] at hnil
      exact absurd hnil.1 (h.nonempty part List.mem_cons_self)
    | cons p cut ihcut =>
      have hrest : ∀ q ∈ cut, q ≠ [] → good q := fun q hq => hgood q (List.mem_cons_of_mem _ hq)
      obtain ⟨u, hu⟩ := hsuffix
      rw [List.flatten_cons, List.flatten_cons] at hu
      by_cases hlength : u.length < p.length
      · have hp : p ≠ [] := by
          rintro rfl
          exact absurd hlength (Nat.not_lt_zero _)
        have hahead := h.ahead hhered (hgood p List.mem_cons_self hp) hu hlength
        exact Nat.succ_le_succ (ih h.tail cut hrest hahead)
      · -- The other part ends before this one starts.
        refine (ihcut hrest ?_).trans (Nat.le_succ _)
        rcases List.append_eq_append_iff.mp hu with ⟨w, hw, hcut⟩ | ⟨w, -, hcut⟩
        · have hnil : w = [] := by
            have hsum := congrArg List.length hw
            rw [List.length_append] at hsum
            exact List.eq_nil_of_length_eq_zero (by omega)
          subst hnil
          rw [List.flatten_cons, hcut]
          exact List.suffix_refl _
        · rw [List.flatten_cons, hcut]
          exact List.suffix_append w _

end Sdp.Lib
