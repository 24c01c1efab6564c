import Mathlib.Algebra.Order.Floor.Semiring
import Mathlib.Data.Rat.Floor
import Mathlib.Tactic.FieldSimp
import Mathlib.Tactic.Linarith
import Mathlib.Tactic.Positivity

/-!
# Rounding to the nearest integer

Halves go up, and numbers are not negative. Rounding to fractions of an integer first and then to integers goes wrong
just below a half.
-/

namespace Sdp.Lib

def roundHalf (x : ℚ) : Nat := ⌊x + 1 / 2⌋₊

theorem roundHalf_eq_iff {x : ℚ} {n : Nat} (hx : 0 ≤ x) : roundHalf x = n ↔ n - 1 / 2 ≤ x ∧ x < n + 1 / 2 := by
  rw [roundHalf, Nat.floor_eq_iff (by linarith)]
  constructor
  · rintro ⟨hle, hlt⟩
    exact ⟨by linarith, by linarith⟩
  · rintro ⟨hle, hlt⟩
    exact ⟨by linarith, by linarith⟩

/-- A whole part and a fraction round to the whole part or to the next, by the fraction. -/
theorem roundHalf_add {n : Nat} {f : ℚ} (hf : 0 ≤ f) (hf' : f < 3 / 2) :
    roundHalf (n + f) = if 1 / 2 ≤ f then n + 1 else n := by
  have hn : (0 : ℚ) ≤ n := Nat.cast_nonneg n
  split
  · next hhalf =>
    rw [roundHalf_eq_iff (by linarith)]
    push_cast
    constructor <;> linarith
  · next hless =>
    rw [roundHalf_eq_iff (by linarith)]
    constructor <;> linarith

/-- The interval below a half that the first of two roundings, to `2 * k`-ths, takes to the half. -/
def NearHalf (k : Nat) (x : ℚ) : Prop := 1 / 2 - 1 / (4 * k) ≤ Int.fract x ∧ Int.fract x < 1 / 2

theorem roundHalf_twice {k : Nat} (hk : 0 < k) {x : ℚ} (hx : 0 ≤ x) :
    roundHalf (roundHalf (x * (2 * k)) / (2 * k)) = roundHalf x ↔ ¬NearHalf k x := by
  have hkq : (0 : ℚ) < k := Nat.cast_pos.mpr hk
  obtain ⟨n, f, hf, hf', rfl⟩ : ∃ (n : Nat) (f : ℚ), 0 ≤ f ∧ f < 1 ∧ x = n + f := by
    refine ⟨⌊x⌋₊, x - ⌊x⌋₊, sub_nonneg.mpr (Nat.floor_le hx), ?_, by ring⟩
    have hlt := Nat.lt_floor_add_one x
    linarith
  have hfract : Int.fract ((n : ℚ) + f) = f := by
    rw [Int.fract_natCast_add, Int.fract_eq_self.mpr ⟨hf, hf'⟩]
  -- The first rounding leaves the whole part alone.
  set g := roundHalf (f * (2 * k)) with hg
  have hscaled : 0 ≤ f * (2 * k) := by positivity
  obtain ⟨hlow, hhigh⟩ := (roundHalf_eq_iff hscaled).mp hg.symm
  have hfirst : roundHalf ((n + f) * (2 * k)) = n * (2 * k) + g := by
    rw [roundHalf_eq_iff (by positivity)]
    push_cast
    constructor <;> linarith
  have hle : (g : ℚ) ≤ 2 * k := by
    have hlt : (g : ℚ) < 2 * k + 1 := by nlinarith
    exact_mod_cast Nat.lt_succ_iff.mp (by exact_mod_cast hlt)
  have hquotient : ((n * (2 * k) + g : Nat) : ℚ) / (2 * k) = n + g / (2 * k) := by
    push_cast
    field_simp
  have hsmall : (g : ℚ) / (2 * k) < 3 / 2 := by
    rw [div_lt_iff₀ (by positivity)]
    nlinarith
  have hhalf : (1 / 2 : ℚ) ≤ g / (2 * k) ↔ 1 / 2 - 1 / (4 * k) ≤ f := by
    rw [le_div_iff₀ (by positivity)]
    have hsides : 1 / 2 - 1 / (4 * k) ≤ f ↔ (k : ℚ) - 1 / 2 ≤ f * (2 * k) := by
      rw [← mul_le_mul_iff_of_pos_right (by positivity : (0 : ℚ) < 2 * k)]
      have hleft : (1 / 2 - 1 / (4 * k)) * (2 * k) = (k : ℚ) - 1 / 2 := by
        field_simp
        ring
      rw [hleft]
    rw [hsides]
    constructor
    · intro h
      linarith
    · intro h
      have hkg : (k : ℚ) < g + 1 := by linarith
      have hkg : k ≤ g := Nat.lt_succ_iff.mp (by exact_mod_cast hkg)
      have hkg : (k : ℚ) ≤ g := Nat.cast_le.mpr hkg
      linarith
  rw [hfirst, hquotient, roundHalf_add (by positivity) hsmall, roundHalf_add hf (by linarith), NearHalf, hfract]
  simp only [hhalf]
  have hbelow : (1 / 2 : ℚ) - 1 / (4 * k) ≤ 1 / 2 := sub_le_self _ (by positivity)
  by_cases htop : (1 / 2 : ℚ) ≤ f
  · rw [if_pos htop, if_pos (hbelow.trans htop)]
    exact iff_of_true rfl fun h => not_lt.mpr htop h.2
  · rw [if_neg htop]
    by_cases hnear : 1 / 2 - 1 / (4 * k) ≤ f
    · rw [if_pos hnear]
      exact iff_of_false (Nat.succ_ne_self n) fun h => h ⟨hnear, not_le.mp htop⟩
    · rw [if_neg hnear]
      exact iff_of_true rfl fun h => hnear h.1

end Sdp.Lib
