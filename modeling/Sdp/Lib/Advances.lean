import Mathlib.Order.Basic
import Mathlib.Data.List.Nodup

/-!
# A value that moves by steps

The history of a value that is missing or moves from `d` to `next d`.
-/

namespace Sdp.Lib

variable {α : Type}

/-- `current` came from `start` by a move from each value of the list, the last move first. -/
def Advances (next : α → α) (start : Option α) : List α → Option α → Prop
  | [], current => current = start
  | d :: ds, current => current = some (next d) ∧ Advances next start ds (some d)

namespace Advances

variable [Preorder α] {next : α → α} {start : Option α}

theorem lt_of_mem (hnext : ∀ d, d < next d) {ds : List α} {current c : α}
    (h : Advances next start ds (some current)) (hc : c ∈ ds) : c < current := by
  induction ds generalizing current with
  | nil => cases hc
  | cons d ds ih =>
    obtain ⟨hcurrent, h⟩ := h
    obtain rfl := Option.some.inj hcurrent
    rcases List.mem_cons.mp hc with rfl | hc
    · exact hnext c
    · exact (ih h hc).trans (hnext d)

theorem nodup (hnext : ∀ d, d < next d) {ds : List α} {current : Option α} (h : Advances next start ds current) :
    ds.Nodup := by
  induction ds generalizing current with
  | nil => exact List.nodup_nil
  | cons d ds ih =>
    refine List.nodup_cons.mpr ⟨fun hd => ?_, ih h.2⟩
    exact lt_irrefl d (lt_of_mem hnext h.2 hd)

end Advances

end Sdp.Lib
