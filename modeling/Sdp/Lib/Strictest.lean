import Mathlib.Order.Bounds.Basic
import Mathlib.Order.Lattice

/-!
# The strictest item of a list

A loop that keeps the best item so far and replaces it only by one of a higher rank.
-/

namespace Sdp.Lib

variable {α β : Type} [LinearOrder β] (rank : α → β)

def stricter (best x : α) : α := if rank best < rank x then x else best

def strictestFrom (best : α) (xs : List α) : α := xs.foldl (stricter rank) best

/-- The same loop with nothing kept at the start. -/
def strictest (xs : List α) : Option α :=
  xs.foldl (fun best x => match best with
    | none => some x
    | some b => some (stricter rank b x)) none

theorem stricter_mem (b x : α) : stricter rank b x = b ∨ stricter rank b x = x := by
  unfold stricter
  split
  · right; rfl
  · left; rfl

theorem rank_le_stricter (b x : α) :
    rank b ≤ rank (stricter rank b x) ∧ rank x ≤ rank (stricter rank b x) := by
  unfold stricter
  split
  · rename_i h
    exact ⟨h.le, le_refl _⟩
  · rename_i h
    exact ⟨le_refl _, not_lt.mp h⟩

theorem strictestFrom_mem (b : α) (xs : List α) :
    strictestFrom rank b xs = b ∨ strictestFrom rank b xs ∈ xs := by
  induction xs generalizing b with
  | nil => left; rfl
  | cons x xs ih =>
    rcases ih (stricter rank b x) with h | h
    · rcases stricter_mem rank b x with hb | hx
      · left; exact h.trans hb
      · right; rw [strictestFrom, List.foldl_cons] at *; rw [h, hx]; exact List.mem_cons_self
    · right; exact List.mem_cons_of_mem _ h

theorem rank_le_strictestFrom (b : α) (xs : List α) :
    rank b ≤ rank (strictestFrom rank b xs) ∧ ∀ x ∈ xs, rank x ≤ rank (strictestFrom rank b xs) := by
  induction xs generalizing b with
  | nil => exact ⟨le_refl _, by simp⟩
  | cons y ys ih =>
    obtain ⟨hb, hys⟩ := ih (stricter rank b y)
    obtain ⟨h1, h2⟩ := rank_le_stricter rank b y
    refine ⟨h1.trans hb, ?_⟩
    intro x hx
    rcases List.mem_cons.mp hx with rfl | hx
    · exact h2.trans hb
    · exact hys x hx

theorem strictest_cons (x : α) (xs : List α) :
    strictest rank (x :: xs) = some (strictestFrom rank x xs) := by
  have hsome : ∀ (b : α) (ys : List α), ys.foldl (fun best x => match best with
      | none => some x
      | some b => some (stricter rank b x)) (some b) = some (strictestFrom rank b ys) := by
    intro b ys
    induction ys generalizing b with
    | nil => rfl
    | cons y ys ih => exact ih (stricter rank b y)
  exact hsome x xs

theorem strictest_eq_none (xs : List α) : strictest rank xs = none ↔ xs = [] := by
  cases xs with
  | nil => simp [strictest]
  | cons x xs => simp [strictest_cons]

theorem strictest_greatest (xs : List α) (b : α) (h : strictest rank xs = some b) :
    b ∈ xs ∧ ∀ x ∈ xs, rank x ≤ rank b := by
  cases xs with
  | nil => simp [strictest] at h
  | cons x xs =>
    rw [strictest_cons, Option.some.injEq] at h
    subst h
    obtain ⟨hx, hxs⟩ := rank_le_strictestFrom rank x xs
    constructor
    · rcases strictestFrom_mem rank x xs with h | h
      · rw [h]; exact List.mem_cons_self
      · exact List.mem_cons_of_mem _ h
    · intro y hy
      rcases List.mem_cons.mp hy with rfl | hy
      · exact hx
      · exact hxs y hy

end Sdp.Lib
