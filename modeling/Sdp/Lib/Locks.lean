import Mathlib.Data.List.Basic

/-!
# Exclusive locks

Each resource has at most one owner, and a lock is held until its owner gives up all of its locks at
once, as the row locks of a transaction are.
-/

namespace Sdp.Lib

def Locks (ρ ω : Type) := ρ → Option ω

namespace Locks

variable {ρ ω : Type}

def none : Locks ρ ω := fun _ => Option.none

variable [DecidableEq ω]

/-- Nobody else holds one of the resources. -/
def free (l : Locks ρ ω) (o : ω) (rs : List ρ) : Bool := rs.all fun r => (l r).all (· = o)

def acquire [DecidableEq ρ] (l : Locks ρ ω) (o : ω) (rs : List ρ) : Locks ρ ω := fun r => if r ∈ rs then some o else l r

def release (l : Locks ρ ω) (o : ω) : Locks ρ ω := fun r => if l r = some o then Option.none else l r

theorem owner_of_free {l : Locks ρ ω} {o o' : ω} {rs : List ρ} (hfree : l.free o rs = true) {r : ρ} (hr : r ∈ rs)
    (h : l r = some o') : o' = o := by
  have hall := List.all_eq_true.mp hfree r hr
  rw [h] at hall
  exact of_decide_eq_true hall

omit [DecidableEq ω] in
theorem acquire_mem [DecidableEq ρ] {l : Locks ρ ω} {o : ω} {rs : List ρ} {r : ρ} (h : r ∈ rs) :
    l.acquire o rs r = some o :=
  if_pos h

theorem acquire_held [DecidableEq ρ] {l : Locks ρ ω} {o o' : ω} {rs : List ρ} (hfree : l.free o rs = true) {r : ρ}
    (h : l r = some o') : l.acquire o rs r = some o' := by
  unfold acquire
  split
  · next hr => rw [owner_of_free hfree hr h]
  · exact h

theorem release_held {l : Locks ρ ω} {o o' : ω} (hne : o' ≠ o) {r : ρ} (h : l r = some o') : l.release o r = some o' := by
  unfold release
  rw [if_neg fun ho => hne (Option.some.inj (h.symm.trans ho)), h]

end Locks

end Sdp.Lib
