import Mathlib.Logic.Function.Basic
import Sdp.Code.RecurringCollections

/-!
# Finalizations of collections

Any number of collectors and recoverers that finalize collections of one recurring payment, over one
database. A finalization starts from an attempt and its transfer, read one after the other, whose
collection is verified on the chain. Meanwhile the job that tracks transfers settles them, and the
payment and its subscription may be stopped; what would make them active again is not here. The
moves of the due times are for the statements only.
-/

open Sdp.Lib

namespace Sdp.Recurring

open Payments

/-- Where a collector or recoverer stands. -/
inductive Finalization
  | idle
  | readAttempt (attempt : CollectionAttemptRow)
  | running (input : FinalizeInput) (fallbacks : Fallbacks)
  | committed (input : FinalizeInput)
  | failed

/-- The rows that a finalization updates. -/
inductive FinalizedRow
  | transfer | attempt | subscription | recurringPayment
deriving DecidableEq, Repr

structure System where
  db : CollectionDatabase
  finalizations : Nat → Finalization
  /-- The due times that the payment and the subscription have moved from, the last one first. -/
  recurringPaymentMoves : List Nat
  subscriptionMoves : List Nat

inductive Step
  | readAttempt (worker : Nat) (attemptId : String)
  | verify (worker : Nat) (destinationTokenAccount : String)
  | miss (worker : Nat) (row : FinalizedRow)
  | reread (worker : Nat) (row : FinalizedRow)
  | commit (worker : Nat) (finalizedAt : Nat)
  /-- A lost connection or a crash. -/
  | abort (worker : Nat)
  | stopRecurringPayment (status : RecurringPaymentStatus) (updatedAt : Nat)
  | stopSubscription (status : SubscriptionStatus) (updatedAt : Nat)
  | track (transferId : String) (expectedStatus status : PaymentTransferStatus) (updatedAt : Nat)

/-- Whether the update of the row misses. -/
def FinalizeInput.misses (input : FinalizeInput) (db : CollectionDatabase) : FinalizedRow → Bool
  | .transfer => !db.transfers.matches? input.transfer.id (input.transferUpdate 0).guard
  | .attempt => !db.attempts.matches? input.attempt.id (input.attemptUpdate 0).guard
  | .subscription => (input.updatedSubscription 0 db.subscription).isNone
  | .recurringPayment => (input.updatedRecurringPayment 0 db.recurringPayment).isNone

namespace Fallbacks

def miss? (fallbacks : Fallbacks) : FinalizedRow → Option Fallbacks
  | .transfer => if fallbacks.transfer matches .unused then some { fallbacks with transfer := .missed } else none
  | .attempt => if fallbacks.attempt matches .unused then some { fallbacks with attempt := .missed } else none
  | .subscription =>
    if fallbacks.subscription matches .unused then some { fallbacks with subscription := .missed } else none
  | .recurringPayment =>
    if fallbacks.recurringPayment matches .unused then some { fallbacks with recurringPayment := .missed } else none

def reread? (fallbacks : Fallbacks) (input : FinalizeInput) (db : CollectionDatabase) :
    FinalizedRow → Option Fallbacks
  | .transfer =>
    if fallbacks.transfer matches .missed then
      some { fallbacks with
        transfer := .read (getTransferById db.transfers input.transfer.id input.recurringPayment.organizationId
          (some input.recurringPayment.projectId)) }
    else none
  | .attempt =>
    if fallbacks.attempt matches .missed then
      some { fallbacks with attempt := .read (db.attempts.find? input.attempt.id) }
    else none
  | .subscription =>
    if fallbacks.subscription matches .missed then
      some { fallbacks with subscription := .read (some db.subscription) }
    else none
  | .recurringPayment =>
    if fallbacks.recurringPayment matches .missed then
      some { fallbacks with recurringPayment := .read (some db.recurringPayment) }
    else none

end Fallbacks

instance : LawfulBEq (PaymentTransferStatus × PaymentTransferStatus) := inferInstance

/-- How the tracking job settles a transfer. -/
def trackedStatuses : List (PaymentTransferStatus × PaymentTransferStatus) :=
  [(.processing, .confirmed), (.processing, .finalized), (.processing, .failed), (.confirmed, .finalized)]

namespace System

def setFinalization (s : System) (worker : Nat) (f : Finalization) : System :=
  { s with finalizations := Function.update s.finalizations worker f }

/-- The effect of a step, without the record of the moves. -/
def act (s : System) : Step → Option System
  | .readAttempt worker attemptId =>
    match s.finalizations worker, s.db.attempts.find? attemptId with
    | .idle, some attempt => some (s.setFinalization worker (.readAttempt attempt))
    | _, _ => none
  | .verify worker destinationTokenAccount =>
    match s.finalizations worker with
    | .readAttempt attempt => do
      let transferId ← attempt.transferId
      let transfer ← getTransferById s.db.transfers transferId s.db.recurringPayment.organizationId
        (some s.db.recurringPayment.projectId)
      let input ← verifyStoredRows s.db attempt transfer destinationTokenAccount
      some (s.setFinalization worker (.running input {}))
    | _ => none
  | .miss worker row =>
    match s.finalizations worker with
    | .running input fallbacks =>
      if input.misses s.db row then
        (fallbacks.miss? row).map fun fallbacks => s.setFinalization worker (.running input fallbacks)
      else none
    | _ => none
  | .reread worker row =>
    match s.finalizations worker with
    | .running input fallbacks =>
      (fallbacks.reread? input s.db row).map fun fallbacks => s.setFinalization worker (.running input fallbacks)
    | _ => none
  | .commit worker finalizedAt =>
    match s.finalizations worker with
    | .running input fallbacks =>
      (finalizeRecurringPaymentCollection s.db input fallbacks finalizedAt).map fun
        | .ok db => { s with db }.setFinalization worker (.committed input)
        | .error _ => s.setFinalization worker .failed
    | _ => none
  | .abort worker =>
    match s.finalizations worker with
    | .readAttempt _ | .running _ _ => some (s.setFinalization worker .failed)
    | _ => none
  | .stopRecurringPayment status updatedAt =>
    if status = .active then none
    else some { s with db := { s.db with recurringPayment := { s.db.recurringPayment with status, updatedAt } } }
  | .stopSubscription status updatedAt =>
    if status = .active then none
    else some { s with db := { s.db with subscription := { s.db.subscription with status, updatedAt } } }
  | .track transferId expectedStatus status updatedAt =>
    if (expectedStatus, status) ∈ trackedStatuses then
      match updateTransfer s.db.transfers
          { transferId, expectedStatus := some expectedStatus, status := some status, updatedAt } with
      | .ok (transfers, _) => some { s with db := { s.db with transfers } }
      | .error _ => none
    else none

/-- The due time that a step moved a row from. -/
def moved (before after : Option Nat) : List Nat := if after = before then [] else before.toList

def step (s : System) (l : Step) : Option System :=
  (s.act l).map fun t =>
    { t with
      recurringPaymentMoves :=
        moved s.db.recurringPayment.nextCollectionDueAt t.db.recurringPayment.nextCollectionDueAt ++
          s.recurringPaymentMoves
      subscriptionMoves :=
        moved s.db.subscription.nextCollectionDueAt t.db.subscription.nextCollectionDueAt ++ s.subscriptionMoves }

end System

end Sdp.Recurring
