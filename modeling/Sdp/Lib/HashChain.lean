import Mathlib.Data.List.Induction

/-!
# Hash chains

Each link of a chain has the hash of the link before it and a hash of itself. Chains of one length
with one last hash are the same unless two of their hashes collide.
-/

namespace Sdp.Lib

/-- How links are read: the hash of the link before, the link's own hash, and the hash that a link
should have after a given one. -/
structure Links (ρ η : Type) where
  previous : ρ → Option η
  hash : ρ → η
  sealed : ρ → Option η → η

namespace Links

variable {ρ η : Type} (L : Links ρ η)

/-- The links follow each other from the hash `p`. -/
def Chained : Option η → List ρ → Prop
  | _, [] => True
  | p, r :: rs => L.previous r = p ∧ L.hash r = L.sealed r p ∧ Chained (some (L.hash r)) rs

/-- The hash of the last link. -/
def head (p : Option η) (rs : List ρ) : Option η := (rs.getLast?.map L.hash).or p

variable {L} {p : Option η} {rs rs' : List ρ} {r : ρ}

@[simp] theorem head_nil : L.head p [] = p := rfl

@[simp] theorem head_concat : L.head p (rs ++ [r]) = some (L.hash r) := by
  simp [head]

theorem head_cons : L.head p (r :: rs) = L.head (some (L.hash r)) rs := by
  cases rs using List.reverseRecOn with
  | nil => rfl
  | append_singleton rs' a _ => rw [← List.cons_append, head_concat, head_concat]

theorem chained_append : L.Chained p (rs ++ rs') ↔ L.Chained p rs ∧ L.Chained (L.head p rs) rs' := by
  induction rs generalizing p with
  | nil => simp [Chained]
  | cons r rs ih =>
    rw [List.cons_append, Chained, Chained, ih, head_cons]
    simp only [and_assoc]

theorem chained_concat : L.Chained p (rs ++ [r]) ↔
    L.Chained p rs ∧ L.previous r = L.head p rs ∧ L.hash r = L.sealed r (L.head p rs) := by
  rw [chained_append]
  simp [Chained]

theorem hash_of_mem (h : L.Chained p rs) (hr : r ∈ rs) : L.hash r = L.sealed r (L.previous r) := by
  induction rs generalizing p with
  | nil => cases hr
  | cons a rs ih =>
    obtain ⟨hprevious, hhash, hrest⟩ := h
    rcases List.mem_cons.mp hr with rfl | hr
    · rw [hhash, hprevious]
    · exact ih hrest hr

/-- The last hash and the length say what the whole chain is. -/
theorem eq_of_head (hrs : L.Chained p rs) (hrs' : L.Chained p rs') (hlength : rs.length = rs'.length)
    (hhead : L.head p rs = L.head p rs') (hinj : ∀ r ∈ rs, ∀ r' ∈ rs', L.hash r = L.hash r' → r = r') : rs = rs' := by
  -- From the last link back: equal links name equal predecessors.
  induction rs using List.reverseRecOn generalizing rs' with
  | nil => exact (List.length_eq_zero_iff.mp hlength.symm).symm
  | append_singleton rs r ih =>
    cases rs' using List.reverseRecOn with
    | nil => simp at hlength
    | append_singleton rs' r' _ =>
      rw [head_concat, head_concat] at hhead
      obtain rfl := hinj r (by simp) r' (by simp) (Option.some.inj hhead)
      obtain ⟨hrs, hprevious, -⟩ := chained_concat.mp hrs
      obtain ⟨hrs', hprevious', -⟩ := chained_concat.mp hrs'
      have hrest : rs = rs' := ih hrs hrs' (by simpa using hlength) (hprevious.symm.trans hprevious')
        fun a ha b hb => hinj a (List.mem_append_left _ ha) b (List.mem_append_left _ hb)
      rw [hrest]

end Links

end Sdp.Lib
