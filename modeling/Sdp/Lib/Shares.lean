import Mathlib.Algebra.BigOperators.Group.Finset.Basic
import Mathlib.Algebra.Order.BigOperators.Group.Finset
import Mathlib.Algebra.Order.BigOperators.Group.List
import Mathlib.Data.Int.Cast.Lemmas
import Mathlib.Data.Int.Order.Basic
import Mathlib.Tactic.Linarith

/-!
# Shares of a pool

A pool backs shares when no finite set of holders holds more than the pool. Only finitely many
holders need a share, and nothing here says which.
-/

namespace Sdp.Lib

variable {α : Type}

def Backs (pool : ℤ) (share : α → ℕ) : Prop := ∀ S : Finset α, ((∑ a ∈ S, share a : ℕ) : ℤ) ≤ pool

theorem Backs.nonneg {pool : ℤ} {share : α → ℕ} (h : Backs pool share) : 0 ≤ pool := by
  simpa using h ∅

theorem Backs.share_le {pool : ℤ} {share : α → ℕ} (h : Backs pool share) (a : α) : (share a : ℤ) ≤ pool := by
  simpa using h {a}

theorem Backs.mono {pool pool' : ℤ} {share : α → ℕ} (h : Backs pool share) (hle : pool ≤ pool') :
    Backs pool' share := fun S => (h S).trans hle

theorem backs_zero (share : α → ℕ) (hz : ∀ a, share a = 0) : Backs 0 share := by
  intro S
  rw [Finset.sum_eq_zero fun a _ => hz a]
  rfl

theorem Backs.replace [DecidableEq α] {pool pool' : ℤ} {share share' : α → ℕ} (h : Backs pool share) (a : α)
    (hother : ∀ b, b ≠ a → share' b = share b) (hpool : pool + share' a ≤ pool' + share a) :
    Backs pool' share' := by
  intro S
  -- With `a` in the set or not, what the others hold is the same.
  have hrest : ∑ b ∈ S.erase a, share' b = ∑ b ∈ S.erase a, share b :=
    Finset.sum_congr rfl fun b hb => hother b (Finset.ne_of_mem_erase hb)
  have hins := h (insert a (S.erase a))
  rw [Finset.sum_insert (Finset.notMem_erase a S)] at hins
  by_cases ha : a ∈ S
  · rw [← Finset.add_sum_erase S share' ha, hrest]
    push_cast at hins ⊢
    linarith
  · rw [Finset.erase_eq_of_notMem ha] at hrest hins
    rw [hrest]
    push_cast at hins ⊢
    have : (0 : ℤ) ≤ share' a := Int.natCast_nonneg _
    linarith

/-- Holders on a list, each with the share that the list gives it. -/
theorem backs_of_listed [DecidableEq α] {l : List α} (hl : l.Nodup) (g share : α → ℕ)
    (hshare : ∀ a, share a = if a ∈ l then g a else 0) : Backs ((l.map g).sum : ℕ) share := by
  intro S
  have hsum : (l.map g).sum = ∑ a ∈ l.toFinset, g a := (List.sum_toFinset g hl).symm
  rw [hsum]
  norm_cast
  calc ∑ a ∈ S, share a = ∑ a ∈ S with a ∈ l, g a := by
        rw [Finset.sum_filter]
        exact Finset.sum_congr rfl fun a _ => hshare a
    _ ≤ ∑ a ∈ l.toFinset, g a := by
        refine Finset.sum_le_sum_of_subset fun a ha => ?_
        rw [Finset.mem_filter] at ha
        exact List.mem_toFinset.mpr ha.2

end Sdp.Lib
