import Mathlib.Order.Bounds.Basic

/-!
# A register whose last writer wins

Writes with a stamp settle somewhere else and are applied to a register here, in any order. A write that
is applied may be dropped for a newer one that has settled, and it may overwrite an older one only.
-/

namespace Sdp.Lib

structure Entry (K V : Type) where
  stamp : K
  value : V

namespace Entry

variable {K V : Type} [LinearOrder K] {settled applied : Set (Entry K V)} {e e' : Entry K V} {value : V}

/-- The newest of the settled writes. -/
def Latest (settled : Set (Entry K V)) (e : Entry K V) : Prop := e ∈ settled ∧ ∀ e' ∈ settled, e'.stamp ≤ e.stamp

theorem Latest.eq (hinj : Set.InjOn stamp settled) (he : Latest settled e) (he' : Latest settled e') : e = e' :=
  hinj he.1 he'.1 (le_antisymm (he'.2 e he.1) (he.2 e' he'.1))

theorem Latest.singleton (e : Entry K V) : Latest {e} e := by
  refine ⟨rfl, ?_⟩
  rintro e' rfl
  exact le_rfl

/-- A write that is not older takes the register over. -/
theorem Latest.write (he : Latest settled e) (hle : e.stamp ≤ e'.stamp) : Latest (insert e' settled) e' := by
  refine ⟨.inl rfl, ?_⟩
  rintro g (rfl | hg)
  · exact le_rfl
  · exact (he.2 g hg).trans hle

theorem Latest.drop (he : Latest settled e) (hlt : e'.stamp < e.stamp) : Latest (insert e' settled) e := by
  refine ⟨.inr he.1, ?_⟩
  rintro g (rfl | hg)
  · exact hlt.le
  · exact he.2 g hg

/-- The register shows the newest settled write from the time on at which it is applied. -/
def Mirrored (settled applied : Set (Entry K V)) (value : V) : Prop :=
  ∀ e, Latest settled e → e ∈ applied → value = e.value

theorem Mirrored.settle {settled' applied' : Set (Entry K V)} (h : Mirrored settled applied value)
    (happlied : applied ⊆ settled) (hsettled' : settled ⊆ settled') (happlied' : applied' ⊆ applied) :
    Mirrored settled' applied' value := by
  intro e he hmem
  have hold := happlied' hmem
  exact h e ⟨happlied hold, fun e' he' => he.2 e' (hsettled' he')⟩ hold

theorem Mirrored.write (hinj : Set.InjOn stamp settled) (he : e ∈ settled)
    (hnew : ∀ e' ∈ applied, e' ∈ settled → ¬ e.stamp < e'.stamp) : Mirrored settled (insert e applied) e.value := by
  rintro g hg (rfl | happlied)
  · rfl
  · have hle : g.stamp ≤ e.stamp := not_lt.mp (hnew g happlied hg.1)
    rw [hinj he hg.1 (le_antisymm (hg.2 e he) hle)]

theorem Mirrored.drop (h : Mirrored settled applied value) (he' : e' ∈ settled) (hlt : e.stamp < e'.stamp) :
    Mirrored settled (insert e applied) value := by
  rintro g hg (rfl | happlied)
  · exact absurd (hg.2 e' he') (not_le.mpr hlt)
  · exact h g hg happlied

end Entry

end Sdp.Lib
