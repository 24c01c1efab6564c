import Mathlib.Logic.Function.Basic

/-!
# Machines that take labelled steps

`step s l` is the state after the step `l`, or `none` when `l` cannot happen in `s`.
A condition `ok` on the state before a step and its label cuts the runs down to the
ones whose steps all meet it.
-/

namespace Sdp.Lib

variable {σ ℓ : Type} (step : σ → ℓ → Option σ)

/-- The state after all steps of `ls`. -/
def run (s : σ) : List ℓ → Option σ
  | [] => some s
  | l :: ls => (step s l).bind fun t => run t ls

/-- What a run from a start state reaches when every step of it meets `ok`. -/
inductive Reachable (start : σ → Prop) (ok : σ → ℓ → Prop) : σ → Prop
  | start {s : σ} (h : start s) : Reachable start ok s
  | step {s t : σ} {l : ℓ} (hs : Reachable start ok s) (hok : ok s l) (ht : step s l = some t) :
      Reachable start ok t

/-- No condition on the steps. -/
def anyStep (_ : σ) (_ : ℓ) : Prop := True

variable {step} {start : σ → Prop} {ok : σ → ℓ → Prop}

theorem run_append (s : σ) (ls ls' : List ℓ) :
    run step s (ls ++ ls') = (run step s ls).bind fun t => run step t ls' := by
  induction ls generalizing s with
  | nil => rfl
  | cons l ls ih =>
    simp only [List.cons_append, run, Option.bind_assoc]
    exact congrArg (step s l).bind (funext ih)

/-- The invariant rule. The step case may use that the state before it is reachable. -/
theorem Reachable.invariant {P : σ → Prop} (hstart : ∀ s, start s → P s)
    (hstep : ∀ s l t, Reachable step start ok s → P s → ok s l → step s l = some t → P t)
    {s : σ} (h : Reachable step start ok s) : P s := by
  induction h with
  | start h => exact hstart _ h
  | step hs hok ht ih => exact hstep _ _ _ hs ih hok ht

theorem Reachable.weaken {ok' : σ → ℓ → Prop} (hok : ∀ s l, ok s l → ok' s l) {s : σ}
    (h : Reachable step start ok s) : Reachable step start ok' s := by
  induction h with
  | start h => exact .start h
  | step _ ho ht ih => exact .step ih (hok _ _ ho) ht

theorem Reachable.run_of {s t : σ} {ls : List ℓ} (hs : Reachable step start ok s)
    (hok : ∀ u, ∀ l ∈ ls, ok u l) (h : Lib.run step s ls = some t) : Reachable step start ok t := by
  induction ls generalizing s with
  | nil =>
    obtain rfl : s = t := by simpa [Lib.run] using h
    exact hs
  | cons l ls ih =>
    obtain ⟨u, hu, h⟩ := Option.bind_eq_some_iff.mp h
    exact ih (.step hs (hok s l List.mem_cons_self) hu) (fun v l' hl' => hok v l' (List.mem_cons_of_mem _ hl')) h

/-- A run that checks the condition at each step. -/
theorem Reachable.run_checked {check : σ → ℓ → Bool} {s t : σ} {ls : List ℓ}
    (hs : Reachable step start (fun u l => check u l = true) s)
    (h : Lib.run (fun u l => if check u l then step u l else none) s ls = some t) :
    Reachable step start (fun u l => check u l = true) t := by
  induction ls generalizing s with
  | nil =>
    obtain rfl : s = t := by simpa [Lib.run] using h
    exact hs
  | cons l ls ih =>
    obtain ⟨u, hu, h⟩ := Option.bind_eq_some_iff.mp h
    obtain ⟨hok, hu⟩ := Option.ite_none_right_eq_some.mp hu
    exact ih (.step hs hok hu) h

theorem Reachable.run {s t : σ} {ls : List ℓ} (hs : Reachable step start anyStep s)
    (h : Lib.run step s ls = some t) : Reachable step start anyStep t :=
  hs.run_of (fun _ _ _ => trivial) h

/-! ## Machines that always step -/

/-- The state after the first `k` steps. -/
def stateAt {σ ℓ : Type} (f : σ → ℓ → σ) (s : σ) (ls : List ℓ) (k : Nat) : σ := (ls.take k).foldl f s

theorem stateAt_succ {σ ℓ : Type} (f : σ → ℓ → σ) (s : σ) (ls : List ℓ) {k : Nat} (hk : k < ls.length) :
    stateAt f s ls (k + 1) = f (stateAt f s ls k) ls[k] := by
  rw [stateAt, List.take_succ_eq_append_getElem hk, List.foldl_append, List.foldl_cons, List.foldl_nil, stateAt]

theorem stateAt_of_length_le {σ ℓ : Type} (f : σ → ℓ → σ) (s : σ) (ls : List ℓ) {k : Nat} (hk : ls.length ≤ k) :
    stateAt f s ls (k + 1) = stateAt f s ls k := by
  rw [stateAt, stateAt, List.take_of_length_le hk, List.take_of_length_le (by omega)]

/-- A property that a step keeps exactly when it meets a condition holds all along exactly the runs whose
steps all meet it. -/
theorem forall_stateAt_iff {σ ℓ : Type} {f : σ → ℓ → σ} {P : σ → Prop} {ok : σ → ℓ → Prop}
    (hstep : ∀ s l, P s → (P (f s l) ↔ ok s l)) {s : σ} (hs : P s) (ls : List ℓ) :
    (∀ k, P (stateAt f s ls k)) ↔ ∀ k, ∀ hk : k < ls.length, ok (stateAt f s ls k) ls[k] := by
  constructor
  · intro h k hk
    refine (hstep _ _ (h k)).mp ?_
    rw [← stateAt_succ f s ls hk]
    exact h (k + 1)
  · intro h k
    induction k with
    | zero => exact hs
    | succ k ih =>
      rcases Nat.lt_or_ge k ls.length with hk | hk
      · rw [stateAt_succ f s ls hk]
        exact (hstep _ _ ih).mpr (h k hk)
      · rw [stateAt_of_length_le f s ls hk]
        exact ih

end Sdp.Lib
