import Mathlib.Data.Nat.Init
import Sdp.Lib.Run

/-!
# Bounded fan-outs

`mapSettledWithConcurrency` of `lib/concurrency.ts`. A worker runs up to its `await` and goes on when the promise of the
mapper settles, in any order of the workers; what the mapper does is its outcome.
-/

namespace Sdp.Concurrency

/-- `PromiseSettledResult` -/
inductive Settled (β : Type)
  | fulfilled (value : β)
  | rejected (reason : String)

inductive Worker
  | ready
  /-- It awaits the mapper of the item with this index. -/
  | awaiting (currentIndex : Nat)
  | returned
deriving DecidableEq

structure Pool (α β : Type) where
  items : List α
  concurrency : Nat
  nextIndex : Nat
  workers : Nat → Worker
  results : Nat → Option (Settled β)
  /-- The items that the mapper was called with. -/
  calls : List α

inductive Event (β : Type)
  | start (worker : Nat)
  | settle (worker : Nat) (outcome : Settled β)

variable {α β : Type}

namespace Pool

def start (items : List α) (concurrency : Nat) : Pool α β :=
  { items, concurrency, nextIndex := 0, workers := fun _ => .ready, results := fun _ => none, calls := [] }

def workerCount (s : Pool α β) : Nat := min s.concurrency s.items.length

/-- The head of the loop of a worker. -/
def loop (s : Pool α β) (worker : Nat) : Pool α β :=
  match s.items[s.nextIndex]? with
  | some item =>
    { s with
      nextIndex := s.nextIndex + 1
      workers := Function.update s.workers worker (.awaiting s.nextIndex)
      calls := s.calls ++ [item] }
  | none => { s with workers := Function.update s.workers worker .returned }

/-- The promise that a worker awaits settles, and the worker comes back to the head of its loop. -/
def settled (s : Pool α β) (worker index : Nat) (outcome : Settled β) : Pool α β :=
  { s with
    results := Function.update s.results index (some outcome)
    workers := Function.update s.workers worker .ready }

/-- `Promise.all` of the workers. -/
def finished (s : Pool α β) : Prop := ∀ worker < s.workerCount, s.workers worker = .returned

end Pool

def step (s : Pool α β) : Event β → Option (Pool α β)
  | .start worker => if worker < s.workerCount ∧ s.workers worker = .ready then some (s.loop worker) else none
  | .settle worker outcome =>
    match s.workers worker with
    | .awaiting index => some ((s.settled worker index outcome).loop worker)
    | _ => none

end Sdp.Concurrency
