import Sdp.Lib.Json

/-!
# Parts behind their length

A list of parts, each behind its length and a mark, is decoded in one way, whatever the parts hold: the length tells
where a part ends before the part is looked at.
-/

namespace Sdp.Lib.LengthPrefixed

variable {α : Type}

/-- How lengths are measured and written. -/
structure Format (α : Type) where
  number : Nat → List α
  measure : List α → Nat
  mark : α
  number_injective : Function.Injective number
  mark_notMem : ∀ n, mark ∉ number n
  measure_append : ∀ s t, measure (s ++ t) = measure s + measure t
  measure_zero : ∀ s, measure s = 0 → s = []

variable (format : Format α)

def Format.prefixed (part : List α) : List α := format.number (format.measure part) ++ format.mark :: part

theorem Format.append_inj {s t x y : List α} (hmeasure : format.measure s = format.measure t) (h : s ++ x = t ++ y) :
    s = t ∧ x = y := by
  rcases List.append_eq_append_iff.mp h with ⟨extra, rfl, rfl⟩ | ⟨extra, rfl, rfl⟩
  · rw [format.measure_append] at hmeasure
    have hnil := format.measure_zero extra (by omega)
    simp [hnil]
  · rw [format.measure_append] at hmeasure
    have hnil := format.measure_zero extra (by omega)
    simp [hnil]

theorem Format.prefixed_append_inj {s t x y : List α} (h : format.prefixed s ++ x = format.prefixed t ++ y) :
    s = t ∧ x = y := by
  unfold prefixed at h
  rw [List.append_assoc, List.append_assoc, List.cons_append, List.cons_append] at h
  have hnumber (n : Nat) : ∀ a ∈ format.number n, a ≠ format.mark := fun a ha heq => format.mark_notMem n (heq ▸ ha)
  obtain ⟨hlength, -, hrest⟩ := Json.split_at_first (hnumber _) (hnumber _) (not_not.mpr rfl) (not_not.mpr rfl) h
  exact format.append_inj (format.number_injective hlength) hrest

theorem Format.prefixed_ne_nil (part : List α) : format.prefixed part ≠ [] := by
  simp [prefixed]

/-- Parts with a separator between them. -/
def Format.text (separator : List α) (parts : List (List α)) : List α :=
  List.intercalate separator (parts.map format.prefixed)

/-- What follows the first part. -/
def Format.following (separator : List α) : List (List α) → List α
  | [] => []
  | parts => separator ++ format.text separator parts

theorem Format.text_cons (separator part : List α) (parts : List (List α)) :
    format.text separator (part :: parts) = format.prefixed part ++ format.following separator parts := by
  cases parts with
  | nil => simp [text, following]
  | cons part' parts =>
    simp only [text, following, List.map_cons]
    rw [List.intercalate_cons_cons, List.append_assoc]

theorem Format.text_cons_ne_nil (separator part : List α) (parts : List (List α)) :
    format.text separator (part :: parts) ≠ [] := by
  rw [text_cons]
  exact List.append_ne_nil_of_left_ne_nil (format.prefixed_ne_nil part) _

/-- Whatever stands between the parts, they are decoded in one way. -/
theorem Format.text_injective (separator : List α) : Function.Injective (format.text separator) := by
  intro parts parts' h
  induction parts generalizing parts' with
  | nil =>
    cases parts' with
    | nil => rfl
    | cons part parts' => exact absurd h.symm (format.text_cons_ne_nil separator part parts')
  | cons part parts ih =>
    cases parts' with
    | nil => exact absurd h (format.text_cons_ne_nil separator part parts)
    | cons part' parts' =>
      rw [text_cons, text_cons] at h
      obtain ⟨rfl, hfollowing⟩ := format.prefixed_append_inj h
      have hrest : parts = parts' := by
        cases parts with
        | nil =>
          cases parts' with
          | nil => rfl
          | cons part' parts' =>
            exact absurd (List.append_eq_nil_iff.mp hfollowing.symm).2 (format.text_cons_ne_nil separator part' parts')
        | cons part' parts =>
          cases parts' with
          | nil =>
            exact absurd (List.append_eq_nil_iff.mp hfollowing).2 (format.text_cons_ne_nil separator part' parts)
          | cons part'' parts' => exact ih (List.append_cancel_left hfollowing)
      rw [hrest]

end Sdp.Lib.LengthPrefixed
