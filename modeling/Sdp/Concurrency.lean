import Mathlib.Data.List.Nodup
import Mathlib.Data.List.Perm.Subperm
import Mathlib.Tactic.IntervalCases
import Sdp.Code.Concurrency

/-!
# A fan-out keeps to its bound and leaves nothing out

In every order in which promises settle, no more mappers run at a time than the bound allows, each item is mapped once
and in the order of the list, and when the workers have returned every item has its result.
-/

open Sdp.Lib

namespace Sdp.Concurrency

variable {α β : Type} {s t : Pool α β} {e : Event β} {items : List α} {concurrency : Nat}

/-- What holds whenever all workers wait. -/
structure Inv (items : List α) (concurrency : Nat) (s : Pool α β) : Prop where
  items_eq : s.items = items
  concurrency_eq : s.concurrency = concurrency
  next_le : s.nextIndex ≤ items.length
  calls_eq : s.calls = items.take s.nextIndex
  /-- Only as many workers start as there are. -/
  idle : ∀ worker, s.workerCount ≤ worker → s.workers worker = .ready
  /-- An item that a worker waits for was taken, and has no result yet. -/
  awaiting : ∀ worker index, s.workers worker = .awaiting index → index < s.nextIndex ∧ s.results index = none
  distinct : ∀ worker worker' index, s.workers worker = .awaiting index → s.workers worker' = .awaiting index →
    worker = worker'
  /-- An item that was taken has its result, or a worker waits for it. -/
  taken : ∀ index < s.nextIndex, (s.results index).isSome = true ∨ ∃ worker, s.workers worker = .awaiting index
  untaken : ∀ index, s.nextIndex ≤ index → s.results index = none
  /-- A worker returns when there is nothing left to take. -/
  returned : ∀ worker, s.workers worker = .returned → s.nextIndex = items.length

theorem inv_start (items : List α) (concurrency : Nat) :
    Inv items concurrency (.start items concurrency : Pool α β) where
  items_eq := rfl
  concurrency_eq := rfl
  next_le := Nat.zero_le _
  calls_eq := rfl
  idle _ _ := rfl
  awaiting _ _ h := by cases h
  distinct _ _ _ h := by cases h
  taken _ h := absurd h (Nat.not_lt_zero _)
  untaken _ _ := rfl
  returned _ h := by cases h

theorem state_cases {workers : Nat → Worker} {worker w : Nat} {state seen : Worker}
    (h : Function.update workers worker state w = seen) : w = worker ∧ state = seen ∨ w ≠ worker ∧ workers w = seen := by
  by_cases heq : w = worker
  · left
    subst heq
    exact ⟨rfl, by rwa [Function.update_self] at h⟩
  · right
    exact ⟨heq, by rwa [Function.update_of_ne heq] at h⟩

theorem Inv.loop {worker : Nat} (hs : Inv items concurrency s) (hworker : worker < s.workerCount)
    (hfree : ∀ index, s.workers worker ≠ .awaiting index) : Inv items concurrency (s.loop worker) := by
  obtain ⟨rfl, rfl, hnext, hcalls, hidle, hawaiting, hdistinct, htaken, huntaken, hreturned⟩ := hs
  have hidle' (state : Worker) (w : Nat) (hw : s.workerCount ≤ w) :
      Function.update s.workers worker state w = .ready := by
    have hne : w ≠ worker := fun heq => Nat.not_le_of_lt hworker (heq ▸ hw)
    rw [Function.update_of_ne hne]
    exact hidle w hw
  have htaken' (state : Worker) (index : Nat) (hindex : index < s.nextIndex) : (s.results index).isSome = true ∨
      ∃ w, Function.update s.workers worker state w = .awaiting index := by
    refine (htaken index hindex).imp_right (Exists.imp fun w hw => ?_)
    have hne : w ≠ worker := fun heq => hfree index (heq ▸ hw)
    rw [Function.update_of_ne hne, hw]
  unfold Pool.loop
  split
  · next item hitem =>
    obtain ⟨hlt, hitem⟩ := List.getElem?_eq_some_iff.mp hitem
    refine ⟨rfl, rfl, hlt, ?_, hidle' _, fun w index hw => ?_, fun w w' index hw hw' => ?_, fun index hindex => ?_,
      fun index hindex => huntaken index (Nat.le_of_succ_le hindex), fun w hw => ?_⟩
    · simp only
      rw [hcalls, List.take_add_one, List.getElem?_eq_getElem hlt, hitem]
      rfl
    · obtain ⟨-, heq⟩ | ⟨-, hw⟩ := state_cases hw
      · obtain rfl := Worker.awaiting.inj heq
        exact ⟨Nat.lt_succ_self _, huntaken _ (Nat.le_refl _)⟩
      · exact ⟨Nat.lt_succ_of_lt (hawaiting w index hw).1, (hawaiting w index hw).2⟩
    · -- What the worker takes was not taken before.
      obtain ⟨rfl, heq⟩ | ⟨-, hw⟩ := state_cases hw
      · obtain ⟨rfl, -⟩ | ⟨-, hw'⟩ := state_cases hw'
        · rfl
        · obtain rfl := Worker.awaiting.inj heq
          exact absurd (hawaiting w' _ hw').1 (Nat.lt_irrefl _)
      · obtain ⟨-, heq⟩ | ⟨-, hw'⟩ := state_cases hw'
        · obtain rfl := Worker.awaiting.inj heq
          exact absurd (hawaiting w _ hw).1 (Nat.lt_irrefl _)
        · exact hdistinct w w' index hw hw'
    · rcases Nat.lt_succ_iff_lt_or_eq.mp hindex with hindex | rfl
      · exact htaken' _ index hindex
      · exact .inr ⟨worker, Function.update_self ..⟩
    · obtain ⟨-, heq⟩ | ⟨-, hw⟩ := state_cases hw
      · cases heq
      · exact absurd (hreturned w hw) (Nat.ne_of_lt hlt)
  · next hnone =>
    have hlength := List.getElem?_eq_none_iff.mp hnone
    have hbefore {w index : Nat} (hw : Function.update s.workers worker .returned w = .awaiting index) :
        s.workers w = .awaiting index := by
      obtain ⟨-, heq⟩ | ⟨-, hw⟩ := state_cases hw
      · cases heq
      · exact hw
    exact ⟨rfl, rfl, hnext, hcalls, hidle' _, fun w index hw => hawaiting w index (hbefore hw),
      fun w w' index hw hw' => hdistinct w w' index (hbefore hw) (hbefore hw'), htaken' _, huntaken,
      fun _ _ => Nat.le_antisymm hnext hlength⟩

theorem Inv.settled {worker index : Nat} (hs : Inv items concurrency s) (hworker : s.workers worker = .awaiting index)
    (outcome : Settled β) : Inv items concurrency (s.settled worker index outcome) := by
  obtain ⟨rfl, rfl, hnext, hcalls, hidle, hawaiting, hdistinct, htaken, huntaken, hreturned⟩ := hs
  have hindex := (hawaiting worker index hworker).1
  have hother {w index' : Nat} (hw : Function.update s.workers worker .ready w = .awaiting index') :
      w ≠ worker ∧ s.workers w = .awaiting index' := by
    obtain ⟨-, heq⟩ | hw := state_cases hw
    · cases heq
    · exact hw
  refine ⟨rfl, rfl, hnext, hcalls, fun w hw => ?_, fun w index' hw => ?_, fun w w' index' hw hw' => ?_,
    fun index' hindex' => ?_, fun index' hindex' => ?_, fun w hw => ?_⟩
  · by_cases heq : w = worker
    · simp [Pool.settled, heq]
    · simp only [Pool.settled, Function.update_of_ne heq]
      exact hidle w hw
  · obtain ⟨hne, hw⟩ := hother hw
    have hne' : index' ≠ index := fun heq => hne (hdistinct w worker index (heq ▸ hw) hworker)
    refine ⟨(hawaiting w index' hw).1, ?_⟩
    simp only [Pool.settled, Function.update_of_ne hne']
    exact (hawaiting w index' hw).2
  · exact hdistinct w w' index' (hother hw).2 (hother hw').2
  · by_cases heq : index' = index
    · left
      simp [Pool.settled, heq]
    · refine (htaken index' hindex').imp (fun h => ?_) (Exists.imp fun w hw => ?_)
      · simp only [Pool.settled, Function.update_of_ne heq, h]
      · have hne : w ≠ worker := fun h => heq (Worker.awaiting.inj ((h ▸ hw).symm.trans hworker))
        simp only [Pool.settled, Function.update_of_ne hne, hw]
  · have hne : index' ≠ index := fun heq => Nat.not_le_of_lt hindex (heq ▸ hindex')
    simp only [Pool.settled, Function.update_of_ne hne]
    exact huntaken index' hindex'
  · obtain ⟨-, heq⟩ | ⟨-, hw⟩ := state_cases hw
    · cases heq
    · exact hreturned w hw

theorem Inv.step (hs : Inv items concurrency s) (h : step s e = some t) : Inv items concurrency t := by
  cases e with
  | start worker =>
    obtain ⟨⟨hworker, hready⟩, h⟩ := Option.ite_none_right_eq_some.mp h
    obtain rfl := Option.some.inj h
    exact hs.loop hworker fun index hawaiting => by cases hready.symm.trans hawaiting
  | settle worker outcome =>
    cases hworker : s.workers worker with
    | ready => simp [Concurrency.step, hworker] at h
    | returned => simp [Concurrency.step, hworker] at h
    | awaiting index =>
      simp only [Concurrency.step, hworker] at h
      obtain rfl := Option.some.inj h
      have hbound : worker < s.workerCount := by
        by_contra hn
        cases (hs.idle worker (Nat.le_of_not_lt hn)).symm.trans hworker
      refine (hs.settled hworker outcome).loop hbound fun index' h => ?_
      simp [Pool.settled] at h

theorem Inv.run {events : List (Event β)} (hs : Inv items concurrency s)
    (h : Lib.run Concurrency.step s events = some t) : Inv items concurrency t := by
  induction events generalizing s with
  | nil => exact Option.some.inj h ▸ hs
  | cons e events ih =>
    obtain ⟨u, hu, h⟩ := Option.bind_eq_some_iff.mp h
    exact ih (hs.step hu) h

/-- The item that a worker waits for. -/
def Worker.index? : Worker → Option Nat
  | .awaiting currentIndex => some currentIndex
  | _ => none

theorem Inv.in_flight_le (hs : Inv items concurrency s) {flying : List Nat} (hnodup : flying.Nodup)
    (hflying : ∀ index ∈ flying, ∃ worker, s.workers worker = .awaiting index) :
    flying.length ≤ min concurrency items.length := by
  have hcount : s.workerCount = min concurrency items.length := by rw [Pool.workerCount, hs.items_eq, hs.concurrency_eq]
  have hsubset : flying ⊆ (List.range s.workerCount).filterMap fun worker => (s.workers worker).index? := by
    intro index hindex
    obtain ⟨worker, hworker⟩ := hflying index hindex
    refine List.mem_filterMap.mpr ⟨worker, List.mem_range.mpr ?_, by rw [hworker]; rfl⟩
    by_contra hn
    cases (hs.idle worker (Nat.le_of_not_lt hn)).symm.trans hworker
  calc flying.length
      ≤ ((List.range s.workerCount).filterMap fun worker => (s.workers worker).index?).length :=
        (List.subperm_of_subset hnodup hsubset).length_le
    _ ≤ (List.range s.workerCount).length := List.length_filterMap_le _ _
    _ = min concurrency items.length := by rw [List.length_range, hcount]

theorem Inv.complete (hs : Inv items concurrency s) (hconcurrency : 0 < concurrency) (hfinished : s.finished) :
    s.calls = items ∧ ∀ index < items.length, (s.results index).isSome = true := by
  have hnext : s.nextIndex = items.length := by
    rcases Nat.eq_zero_or_pos items.length with hempty | hpos
    · exact Nat.le_antisymm hs.next_le (hempty ▸ Nat.zero_le _)
    · refine hs.returned 0 (hfinished 0 ?_)
      rw [Pool.workerCount, hs.items_eq, hs.concurrency_eq]
      exact Nat.lt_min.mpr ⟨hconcurrency, hpos⟩
  refine ⟨by rw [hs.calls_eq, hnext, List.take_length], fun index hindex => ?_⟩
  refine (hs.taken index (hnext ▸ hindex)).resolve_right fun hawaited => ?_
  obtain ⟨worker, hworker⟩ := hawaited
  by_cases hbound : worker < s.workerCount
  · cases (hfinished worker hbound).symm.trans hworker
  · cases (hs.idle worker (Nat.le_of_not_lt hbound)).symm.trans hworker

/-- A fan-out that is not finished goes on, whichever promise settles next. -/
theorem goes_on (hunfinished : ¬ s.finished) (outcome : Settled β) :
    ∃ worker, (step s (.start worker)).isSome = true ∨ (step s (.settle worker outcome)).isSome = true := by
  simp only [Pool.finished, not_forall] at hunfinished
  obtain ⟨worker, hworker, hne⟩ := hunfinished
  refine ⟨worker, ?_⟩
  cases hstate : s.workers worker with
  | ready => simp [step, hworker, hstate]
  | awaiting index => simp [step, hstate]
  | returned => exact absurd hstate hne

/-- In every order in which promises settle: the items in flight are never more than the bound, the mapper is called
with the items in their order and each once, and when the workers have returned it was called with all of them and each
has a result. -/
theorem fan_out_keeps_bound (items : List α) (concurrency : Nat) {events : List (Event β)}
    (h : Lib.run step (.start items concurrency) events = some s) :
    (∀ flying : List Nat, flying.Nodup → (∀ index ∈ flying, ∃ worker, s.workers worker = .awaiting index) →
        flying.length ≤ min concurrency items.length) ∧
      s.calls = items.take s.nextIndex ∧
      (0 < concurrency → s.finished → s.calls = items ∧ ∀ index < items.length, (s.results index).isSome = true) := by
  have hs := (inv_start items concurrency).run h
  exact ⟨fun _ hnodup hflying => hs.in_flight_le hnodup hflying, hs.calls_eq, hs.complete⟩

theorem two_at_a_time : ∃ s : Pool String Nat, Lib.run step (.start ["a", "b", "c"] 2) [.start 0, .start 1,
    .settle 1 (.fulfilled 1), .settle 0 (.rejected "timeout"), .settle 1 (.fulfilled 3)] = some s ∧
    s.calls = ["a", "b", "c"] ∧ ∀ index < 3, (s.results index).isSome = true := by
  have hworkers : (Lib.run step (.start ["a", "b", "c"] 2 : Pool String Nat) [.start 0, .start 1,
      .settle 1 (.fulfilled 1), .settle 0 (.rejected "timeout"), .settle 1 (.fulfilled 3)]).map
        (fun s => (s.workerCount, s.workers 0, s.workers 1)) = some (2, .returned, .returned) := by decide
  cases hs : Lib.run step (.start ["a", "b", "c"] 2 : Pool String Nat) [.start 0, .start 1,
      .settle 1 (.fulfilled 1), .settle 0 (.rejected "timeout"), .settle 1 (.fulfilled 3)] with
  | none =>
    rw [hs] at hworkers
    cases hworkers
  | some s =>
    rw [hs] at hworkers
    simp only [Option.map_some, Option.some.injEq, Prod.mk.injEq] at hworkers
    obtain ⟨hcount, hfirst, hsecond⟩ := hworkers
    refine ⟨s, rfl, (fan_out_keeps_bound ["a", "b", "c"] 2 hs).2.2 (by decide) fun worker hworker => ?_⟩
    rw [hcount] at hworker
    interval_cases worker
    · exact hfirst
    · exact hsecond

end Sdp.Concurrency
