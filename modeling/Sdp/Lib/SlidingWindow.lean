import Mathlib.Algebra.Order.Floor.Ring
import Mathlib.Data.Rat.Floor
import Mathlib.Tactic.FieldSimp
import Mathlib.Tactic.Linarith

/-!
# Counting over a sliding window by two aligned ones

Of the window that ends now, the part in front of the aligned window is estimated: as many requests of the aligned
window before are counted as if they lay evenly spread. What is let through stays near the limit all the same, since
the last request that was let through saw the whole of the window before.
-/

namespace Sdp.Lib.SlidingWindow

/-- The start of the aligned window that holds `t`. -/
def windowStart (size : Nat) (t : ℤ) : ℤ := t / size * size

/-- The part of the window before that still counts. -/
def weight (size : Nat) (now : ℤ) : ℚ := 1 - ((now - windowStart size now : ℤ) : ℚ) / size

/-- The requests of one aligned window. -/
def countIn (size : Nat) (admitted : List ℤ) (start : ℤ) : Nat :=
  admitted.countP fun t => windowStart size t = start

def estimate (size : Nat) (admitted : List ℤ) (now : ℤ) : ℚ :=
  countIn size admitted (windowStart size now) +
    countIn size admitted (windowStart size now - size) * weight size now

/-- The times of requests that were let through, the newest first. -/
inductive Admitted (size limit : Nat) : List ℤ → Prop where
  | nil : Admitted size limit []
  | cons {now : ℤ} {admitted : List ℤ} (rest : Admitted size limit admitted) (newest : ∀ t ∈ admitted, t ≤ now)
    (below : estimate size admitted now < limit) : Admitted size limit (now :: admitted)

section

variable {size : Nat}

theorem windowStart_le (hsize : 0 < size) (t : ℤ) : windowStart size t ≤ t :=
  Int.ediv_mul_le t (by exact_mod_cast hsize.ne')

theorem lt_windowStart_add (hsize : 0 < size) (t : ℤ) : t < windowStart size t + size := by
  have := Int.lt_ediv_add_one_mul_self t (by exact_mod_cast hsize : (0 : ℤ) < size)
  unfold windowStart
  linarith

theorem windowStart_mono (hsize : 0 < size) {s t : ℤ} (h : s ≤ t) : windowStart size s ≤ windowStart size t :=
  Int.mul_le_mul_of_nonneg_right (Int.ediv_le_ediv (by exact_mod_cast hsize) h) (Int.natCast_nonneg size)

theorem windowStart_recent (hsize : 0 < size) {s t : ℤ} (hold : t - size < s) (hnew : s ≤ t) :
    windowStart size s = windowStart size t ∨ windowStart size s = windowStart size t - size := by
  have hsize' : (0 : ℤ) < size := by exact_mod_cast hsize
  have hupper : s / size ≤ t / size := Int.ediv_le_ediv hsize' hnew
  have hlower : t / size - 1 ≤ s / size := by
    have hback : (t + -1 * size) / size = t / size + -1 := Int.add_mul_ediv_right t (-1) hsize'.ne'
    have := Int.ediv_le_ediv hsize' (by linarith : t + -1 * size ≤ s)
    omega
  unfold windowStart
  rcases (by omega : s / size = t / size ∨ s / size = t / size - 1) with hsame | hbefore
  · exact .inl (by rw [hsame])
  · exact .inr (by rw [hbefore]; ring)

theorem weight_pos (hsize : 0 < size) (now : ℤ) : 0 < weight size now := by
  have hlt : ((now - windowStart size now : ℤ) : ℚ) < size := by
    exact_mod_cast (by linarith [lt_windowStart_add hsize now] : now - windowStart size now < size)
  have hsize' : (0 : ℚ) < size := by exact_mod_cast hsize
  unfold weight
  rw [sub_pos, div_lt_one hsize']
  exact hlt

/-! ## What is let through -/

variable {limit : Nat} {admitted : List ℤ}

/-- No aligned window holds more requests than the limit. -/
theorem Admitted.countIn_le (hsize : 0 < size) (h : Admitted size limit admitted) (start : ℤ) :
    countIn size admitted start ≤ limit := by
  induction h with
  | nil => exact Nat.zero_le _
  | @cons now admitted _ _ hbelow ih =>
    unfold countIn at ih ⊢
    rw [List.countP_cons]
    split
    · next hhere =>
      have hhere : windowStart size now = start := by simpa using hhere
      have hnonneg : 0 ≤ (countIn size admitted (windowStart size now - size) : ℚ) * weight size now :=
        mul_nonneg (Nat.cast_nonneg _) (weight_pos hsize now).le
      have hcount : (countIn size admitted (windowStart size now) : ℚ) < limit := by
        unfold estimate at hbelow
        linarith
      rw [hhere] at hcount
      exact Nat.succ_le_of_lt (by exact_mod_cast hcount)
    · exact ih

theorem Admitted.upTo (h : Admitted size limit admitted) (t : ℤ) :
    Admitted size limit (admitted.filter fun s => s ≤ t) := by
  induction h with
  | nil => exact .nil
  | @cons now admitted hrest hnewest hbelow ih =>
    by_cases hnow : now ≤ t
    · have hall : ∀ s ∈ now :: admitted, decide (s ≤ t) = true := by
        intro s hs
        rcases List.mem_cons.mp hs with rfl | hs
        · exact decide_eq_true hnow
        · exact decide_eq_true ((hnewest s hs).trans hnow)
      rw [List.filter_eq_self.mpr hall]
      exact .cons hrest hnewest hbelow
    · rw [List.filter_cons_of_neg (by simpa using hnow)]
      exact ih

/-- The requests of the last `size` units are at most those of two aligned windows. -/
theorem countP_recent_le (hsize : 0 < size) {t : ℤ} (h : ∀ s ∈ admitted, s ≤ t) :
    admitted.countP (fun s => t - size < s) ≤
      countIn size admitted (windowStart size t) + countIn size admitted (windowStart size t - size) := by
  induction admitted with
  | nil => exact Nat.zero_le _
  | cons s admitted ih =>
    have hrest := ih fun s hs => h s (List.mem_cons_of_mem _ hs)
    unfold countIn at hrest ⊢
    simp only [List.countP_cons]
    by_cases hold : t - size < s
    · rcases windowStart_recent hsize hold (h s List.mem_cons_self) with hhere | hbefore
      · simp only [hold, hhere, decide_true, if_true]
        omega
      · simp only [hold, hbefore, decide_true, if_true]
        omega
    · simp only [hold, decide_false, if_false, Bool.false_eq_true]
      omega

theorem Admitted.recent_lt (hsize : 0 < size) (h : Admitted size limit admitted) {t : ℤ} (ht : ∀ s ∈ admitted, s ≤ t) :
    (admitted.countP (fun s => t - size < s) : ℚ) <
      limit * (1 + ((t - windowStart size t : ℤ) : ℚ) / size) + 1 := by
  have hsize' : (0 : ℚ) < size := by exact_mod_cast hsize
  have hoffset : (0 : ℚ) ≤ ((t - windowStart size t : ℤ) : ℚ) / size := by
    have hnonneg : (0 : ℤ) ≤ t - windowStart size t := by linarith [windowStart_le hsize t]
    exact div_nonneg (by exact_mod_cast hnonneg) hsize'.le
  have hrecent := countP_recent_le hsize ht
  by_cases hnone : countIn size admitted (windowStart size t) = 0
  · -- Nothing of this window: the window before holds at most the limit.
    have hbefore := h.countIn_le hsize (windowStart size t - size)
    have hcount : (admitted.countP (fun s => t - size < s) : ℚ) ≤ limit := by
      exact_mod_cast (by omega : admitted.countP (fun s => t - size < s) ≤ limit)
    have := mul_nonneg (Nat.cast_nonneg (α := ℚ) limit) hoffset
    linarith
  · -- The newest request is of this window, and when it came all others had come.
    cases h with
    | nil => exact absurd rfl hnone
    | @cons now admitted hrest hnewest hbelow =>
      have hnow : now ≤ t := ht now List.mem_cons_self
      have hhere : windowStart size now = windowStart size t := by
        obtain ⟨s, hs, hstart⟩ := List.countP_pos_iff.mp (Nat.pos_of_ne_zero hnone)
        have hle : s ≤ now := (List.mem_cons.mp hs).elim (fun h => h.le) (hnewest s)
        have hlower := windowStart_mono hsize hle
        rw [of_decide_eq_true hstart] at hlower
        exact le_antisymm (windowStart_mono hsize hnow) hlower
      have hothers : windowStart size now ≠ windowStart size t - size := by
        have : (0 : ℤ) < size := by exact_mod_cast hsize
        omega
      have hcurrent : countIn size (now :: admitted) (windowStart size t) =
          countIn size admitted (windowStart size t) + 1 := List.countP_cons_of_pos (decide_eq_true hhere)
      have hprevious : countIn size (now :: admitted) (windowStart size t - size) =
          countIn size admitted (windowStart size t - size) :=
        List.countP_cons_of_neg (by simpa using hothers)
      rw [hcurrent, hprevious] at hrecent
      have hlimit : (countIn size admitted (windowStart size t - size) : ℚ) ≤ limit := by
        exact_mod_cast hrest.countIn_le hsize _
      have hweight : ((now - windowStart size t : ℤ) : ℚ) / size ≤ ((t - windowStart size t : ℤ) : ℚ) / size :=
        div_le_div_of_nonneg_right (by exact_mod_cast Int.sub_le_sub_right hnow _) hsize'.le
      have htotal : ((now :: admitted).countP (fun s => t - size < s) : ℚ) ≤
          countIn size admitted (windowStart size t) + 1 + countIn size admitted (windowStart size t - size) := by
        exact_mod_cast hrecent
      unfold estimate weight at hbelow
      rw [hhere] at hbelow
      have hshare := mul_le_mul_of_nonneg_left hweight
        (Nat.cast_nonneg (α := ℚ) (countIn size admitted (windowStart size t - size)))
      have hspread := mul_le_mul_of_nonneg_right hlimit hoffset
      linarith

theorem Admitted.bound (hsize : 0 < size) (h : Admitted size limit admitted) (t : ℚ) :
    (admitted.countP (fun s : ℤ => t - size < s ∧ s ≤ t) : ℚ) <
      limit * (1 + (t - windowStart size ⌊t⌋) / size) + 1 := by
  have hsize' : (0 : ℚ) < size := by exact_mod_cast hsize
  have hbound := (h.upTo ⌊t⌋).recent_lt hsize (fun s hs => of_decide_eq_true (List.mem_filter.mp hs).2)
  have hcount : (admitted.filter fun s => s ≤ ⌊t⌋).countP (fun s => ⌊t⌋ - size < s) =
      admitted.countP fun s : ℤ => t - size < s ∧ s ≤ t := by
    rw [List.countP_filter]
    refine List.countP_congr fun s _ => ?_
    have hfloor : ⌊t - size⌋ = ⌊t⌋ - size := by exact_mod_cast Int.floor_sub_natCast t size
    simp only [Bool.and_eq_true, decide_eq_true_iff, Int.le_floor, ← hfloor, Int.floor_lt]
  have hoffset : ((⌊t⌋ - windowStart size ⌊t⌋ : ℤ) : ℚ) / size ≤ (t - windowStart size ⌊t⌋) / size := by
    refine div_le_div_of_nonneg_right ?_ hsize'.le
    push_cast
    exact sub_le_sub_right (Int.floor_le t) _
  have := mul_le_mul_of_nonneg_left hoffset (Nat.cast_nonneg (α := ℚ) limit)
  rw [hcount] at hbound
  linarith

end

end Sdp.Lib.SlidingWindow
