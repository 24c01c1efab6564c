import Mathlib.Data.List.Sort
import Sdp.Code.EarnMovements
import Sdp.Lib.Table

/-!
# The queue of unsettled vault movements

`claimUnsettledVaultMovements` of `db/repositories/earn-movements.repository.ts`: one statement that takes a batch in
two reserved parts and an overflow, and moves the attempt cursor of what it takes. It skips the rows that are locked.
-/

open Sdp.Lib

namespace Sdp.Earn

/-- A movement with the cursor of its reconciliation. -/
structure QueuedMovement extends Movement where
  reconciliationAttemptedAt : Option Nat
deriving DecidableEq

abbrev MovementQueue := Table Nat QueuedMovement (·.id)

namespace QueuedMovement

def attemptCursor (m : QueuedMovement) : Nat := m.reconciliationAttemptedAt.getD m.createdAt

/-- `ORDER BY COALESCE(reconciliation_attempted_at, created_at), created_at, id` -/
def attemptedBefore (m m' : QueuedMovement) : Prop :=
  toLex (m.attemptCursor, toLex (m.createdAt, m.id)) ≤ toLex (m'.attemptCursor, toLex (m'.createdAt, m'.id))

instance : DecidableRel attemptedBefore := fun _ _ => inferInstanceAs (Decidable (_ ≤ _))

def confirmed (m : QueuedMovement) : Bool := m.executionModel = .vaultDirect ∧ m.status = .confirmed

def blockhashBound (m : QueuedMovement) : Bool :=
  m.executionModel = .vaultDirect ∧ (m.status = .requested ∨ m.status = .submitted)

def unsettled (m : QueuedMovement) : Bool := m.blockhashBound || m.confirmed

/-- `(status = 'confirmed') ASC` first. -/
def overflowBefore (m m' : QueuedMovement) : Prop :=
  toLex (decide (m.status = .confirmed), toLex (m.attemptCursor, toLex (m.createdAt, m.id))) ≤
    toLex (decide (m'.status = .confirmed), toLex (m'.attemptCursor, toLex (m'.createdAt, m'.id)))

instance : DecidableRel overflowBefore := fun _ _ => inferInstanceAs (Decidable (_ ≤ _))

/-- `ORDER BY (status = 'confirmed'), created_at, id` -/
def returnedBefore (m m' : QueuedMovement) : Prop :=
  toLex (decide (m.status = .confirmed), toLex (m.createdAt, m.id)) ≤
    toLex (decide (m'.status = .confirmed), toLex (m'.createdAt, m'.id))

instance : DecidableRel returnedBefore := fun _ _ => inferInstanceAs (Decidable (_ ≤ _))

end QueuedMovement

/-- The ids of a `SELECT … ORDER BY … LIMIT … FOR UPDATE SKIP LOCKED`. -/
def selectForUpdate (t : MovementQueue) (locked : Nat → Bool) (condition : QueuedMovement → Bool)
    (before : QueuedMovement → QueuedMovement → Prop) [DecidableRel before] (limit : Nat) : List Nat :=
  (((t.rows.filter fun m => condition m && !locked m.id).insertionSort before).take limit).map (·.id)

def confirmedQuota (limit : Nat) : Nat := if 1 < limit then max 1 (limit / 4) else 0

/-- The ids that one statement claims. -/
def claimedIds (t : MovementQueue) (locked : Nat → Bool) (limit : Nat) : List Nat :=
  let blockhashBoundQuota := limit - confirmedQuota limit
  let blockhashBound := selectForUpdate t locked (·.blockhashBound) QueuedMovement.attemptedBefore blockhashBoundQuota
  let confirmed := selectForUpdate t locked (·.confirmed) QueuedMovement.attemptedBefore (confirmedQuota limit)
  let reserved := blockhashBound ++ confirmed
  let overflow := selectForUpdate t locked (fun m => m.unsettled && m.id ∉ reserved) QueuedMovement.overflowBefore
    (limit - reserved.length)
  reserved ++ overflow

/-- The movements that are returned, and the queue after the statement. -/
def claimUnsettledVaultMovements (t : MovementQueue) (locked : Nat → Bool) (now limit : Nat) :
    Except String (List QueuedMovement × MovementQueue) :=
  if limit < 1 ∨ 256 < limit then
    .error "claimUnsettledVaultMovements limit must be an integer from 1 to 256"
  else
    let claimed := claimedIds t locked limit
    let touched := t.updateAll (fun m => m.id ∈ claimed)
      (fun m => { m with reconciliationAttemptedAt := some now }) fun _ => rfl
    .ok ((touched.rows.filter fun m => m.id ∈ claimed).insertionSort QueuedMovement.returnedBefore, touched)

end Sdp.Earn
