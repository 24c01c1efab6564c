import Sdp.Code.RecurringCollections
import Sdp.Code.TransferTracker

/-!
# Activation, cancellation, resumption and update of a recurring payment

From `services/payments/recurring-payments/activation.ts`, `lifecycle.ts` and `update.ts`,
`packages/sdp-payments/src/recurring-payment-lifecycle.ts` and
`db/repositories/payment-recurring-payments.repository.postgres.ts`: any number of calls on one
recurring payment. A step is one statement on the payment's row, and any step may be the last of its
call. What a call does in between (the plan, the subscription, the attempts that it journals, the
chain) only decides whether it goes on, and it may fail anywhere. A time that a call writes is one
that it took since its start.
-/

namespace Sdp.Lifecycle

open Payments Recurring

/-! ## Decisions -/

inductive Operation
  | cancel | resume
deriving DecidableEq, Repr

inductive Transition
  | alreadyFinal | claimable | recoverable | processing | invalid
deriving DecidableEq, Repr

/-- The call goes on to claim the payment. -/
def Transition.proceeds (t : Transition) : Bool := t = .claimable || t = .recoverable

def getRecurringPaymentOperationStaleBefore (now : Nat) : Int := now - collectionStaleAfterMs

def isRecurringPaymentOperationStale (updatedAt now : Nat) : Bool :=
  (updatedAt : Int) ≤ getRecurringPaymentOperationStaleBefore now

namespace Operation

def processingStatus : Operation → RecurringPaymentStatus
  | .cancel => .canceling
  | .resume => .resuming

def claimableStatus : Operation → RecurringPaymentStatus
  | .cancel => .active
  | .resume => .canceled

def finalStatus : Operation → RecurringPaymentStatus
  | .cancel => .canceled
  | .resume => .active

end Operation

def decideRecurringPaymentLifecycleTransition (operation : Operation) (r : RecurringPaymentRow) (now : Nat) : Transition :=
  if r.status = operation.finalStatus then .alreadyFinal
  else if r.status = operation.processingStatus then
    if isRecurringPaymentOperationStale r.updatedAt now then .recoverable else .processing
  else if r.status = operation.claimableStatus then .claimable
  else .invalid

def decideRecurringPaymentActivationTransition (r : RecurringPaymentRow) (now : Nat) : Transition :=
  match r.status with
  | .active => .alreadyFinal
  | .activating => if isRecurringPaymentOperationStale r.updatedAt now then .recoverable else .processing
  | .pendingActivation => .claimable
  | _ => .invalid

def decideRecurringPaymentUpdateTransition (r : RecurringPaymentRow) (now : Nat) : Transition :=
  match r.status with
  | .pendingActivation | .active => .claimable
  | .updating => if isRecurringPaymentOperationStale r.updatedAt now then .recoverable else .processing
  | _ => .invalid

/-! ## Statements -/

/-- The claims: `processing` from `claimable`, or from a stale `processing`. -/
def claim (claimable processing : RecurringPaymentStatus) (r : RecurringPaymentRow) (updatedAt : Nat)
    (staleBefore : Option Int) : Option RecurringPaymentRow :=
  if r.status = claimable ∨ (r.status = processing ∧ staleBefore.any ((r.updatedAt : Int) ≤ ·)) then
    some { r with status := processing, updatedAt }
  else none

def claimRecurringPaymentActivation : RecurringPaymentRow → Nat → Option Int → Option RecurringPaymentRow :=
  claim .pendingActivation .activating

def claimRecurringPaymentLifecycle (operation : Operation) :
    RecurringPaymentRow → Nat → Option Int → Option RecurringPaymentRow :=
  claim operation.claimableStatus operation.processingStatus

def claimRecurringPaymentUpdate : RecurringPaymentRow → Nat → Option Int → Option RecurringPaymentRow :=
  claim .active .updating

def resetRecurringPaymentActivationIfNotActive (r : RecurringPaymentRow) (updatedAt : Nat) :
    Option RecurringPaymentRow :=
  if r.status = .activating then some { r with status := .pendingActivation, updatedAt } else none

/-- A missing field is one that the caller leaves out. -/
structure UpdateActivationInput where
  status : Option RecurringPaymentStatus := none
  nextCollectionDueAt : Option (Option Nat) := none
  destinationTokenAccount : Option (Option String) := none
  updatedAt : Nat

def updateRecurringPaymentActivation (r : RecurringPaymentRow) (input : UpdateActivationInput) :
    Option RecurringPaymentRow :=
  let allowActiveUpdate := input.status = some .active
  if r.status = .activating ∨ allowActiveUpdate then
    some { r with
      status := input.status.getD r.status
      nextCollectionDueAt := input.nextCollectionDueAt.getD r.nextCollectionDueAt
      destinationTokenAccount := input.destinationTokenAccount.getD r.destinationTokenAccount
      updatedAt := input.updatedAt }
  else none

def updateRecurringPaymentLifecycle (r : RecurringPaymentRow) (status expectedStatus : RecurringPaymentStatus)
    (updatedAt : Nat) : Option RecurringPaymentRow :=
  if r.status = expectedStatus then some { r with status, updatedAt } else none

/-- The fields of an update. A period is positive. -/
structure UpdateInput where
  status : Option RecurringPaymentStatus := none
  periodHours : Option { n : Nat // 0 < n } := none
  nextCollectionDueAt : Option (Option Nat) := none
  destinationTokenAccount : Option (Option String) := none
  expectedStatus : Option RecurringPaymentStatus := none
  expectedUpdatedAt : Option Nat := none
  updatedAt : Nat

def updatedPeriod (r : RecurringPaymentRow) (input : UpdateInput) : { n : Nat // 0 < n } :=
  input.periodHours.getD ⟨r.periodHours, r.period_hours_positive⟩

def updateRecurringPayment (r : RecurringPaymentRow) (input : UpdateInput) : Option RecurringPaymentRow :=
  if input.expectedStatus.all (r.status = ·) ∧ input.expectedUpdatedAt.all (r.updatedAt = ·) then
    some { r with
      status := input.status.getD r.status
      periodHours := (updatedPeriod r input).val
      nextCollectionDueAt := input.nextCollectionDueAt.getD r.nextCollectionDueAt
      destinationTokenAccount := input.destinationTokenAccount.getD r.destinationTokenAccount
      updatedAt := input.updatedAt
      period_hours_positive := (updatedPeriod r input).property }
  else none

/-! ## Calls -/

/-- The writes of an activation run, in their order. -/
inductive ActivationStage
  | plan | planSignature | planCreatedAt | subscription | authorizationSignature | finalize
deriving DecidableEq, Repr

/-- A signature that is stored already is not written again. -/
def ActivationStage.next : ActivationStage → List ActivationStage
  | .plan => [.planSignature, .planCreatedAt]
  | .planSignature => [.planCreatedAt]
  | .planCreatedAt => [.subscription]
  | .subscription => [.authorizationSignature, .finalize]
  | .authorizationSignature => [.finalize]
  | .finalize => []

/-- Where a call stands. -/
inductive Worker
  | idle
  /-- The handler has read the payment. -/
  | loaded (row : RecurringPaymentRow)
  /-- `activateRecurringPayment`, before and after its claim; `nowIso` is its start. -/
  | activation (nowIso : Nat)
  | claimed (nowIso : Nat)
  | activating (nowIso : Nat) (stage : ActivationStage)
  | activated (nowIso : Nat)
  /-- `recordActivationFailure` -/
  | failing (nowIso : Nat) (transactionFailed : Bool)
  | resetting (nowIso : Nat)
  /-- `cancelRecurringPayment` of a payment that was never activated. -/
  | cancelingPending
  /-- `runRecurringPaymentLifecycle`, before and after its claim. -/
  | lifecycle (operation : Operation) (nowIso : Nat)
  | lifecycleClaimed (operation : Operation)
  | updatingPending (row : RecurringPaymentRow)
  /-- `updateRecurringPayment`, before and after its claim. -/
  | update (nowIso : Nat)
  | updateClaimed
  | done

structure System where
  now : Nat
  row : RecurringPaymentRow
  workers : Nat → Worker
  /-- The activation run that claimed the payment last; for the statements only. -/
  holder : Option Nat

inductive Step
  | elapse (ms : Nat)
  | read (worker : Nat)
  | beginActivation (worker : Nat)
  | claimActivation (worker : Nat) (outcome : CallOutcome)
  /-- The attempt is journaled. -/
  | journalAttempt (worker : Nat)
  | writeActivation (worker : Nat) (stage : ActivationStage) (time : Nat) (outcome : CallOutcome)
  | finalizeActivation (worker : Nat) (nextCollectionDueAt : Nat) (time : Nat) (outcome : CallOutcome)
  | fail (worker : Nat) (transactionFailed : Bool)
  /-- The write of a failed transaction, which clears its signature. -/
  | clearSignature (worker : Nat) (time : Nat) (outcome : CallOutcome)
  | resetActivation (worker : Nat) (time : Nat) (outcome : CallOutcome)
  | beginLifecycle (worker : Nat) (operation : Operation)
  | cancelPending (worker : Nat) (time : Nat) (outcome : CallOutcome)
  /-- The payment is decided on again, after a collection is recovered. -/
  | recheckLifecycle (worker : Nat)
  | claimLifecycle (worker : Nat) (time : Nat) (outcome : CallOutcome)
  | resetLifecycle (worker : Nat) (time : Nat) (outcome : CallOutcome)
  | finalizeLifecycle (worker : Nat) (time : Nat) (outcome : CallOutcome)
  | beginUpdate (worker : Nat)
  | updatePending (worker : Nat) (input : UpdateInput) (outcome : CallOutcome)
  | recheckUpdate (worker : Nat)
  | claimUpdate (worker : Nat) (time : Nat) (outcome : CallOutcome)
  | resetUpdate (worker : Nat) (time : Nat) (outcome : CallOutcome)
  | finalizeUpdate (worker : Nat) (input : UpdateInput) (outcome : CallOutcome)
  /-- A collection moves the schedule on. -/
  | collect (currentCollectionDueAt nextCollectionDueAt : Nat) (destinationTokenAccount : String) (time : Nat)
  | crash (worker : Nat)

namespace System

def setWorker (s : System) (worker : Nat) (w : Worker) : System :=
  { s with workers := Function.update s.workers worker w }

/-- The row after a statement. -/
def write (s : System) (outcome : CallOutcome) (result : Option RecurringPaymentRow) : System :=
  match outcome with
  | .failed => s
  | .answered | .lost => { s with row := result.getD s.row }

/-- A time that was taken since `start`. -/
def taken (s : System) (start time : Nat) : Bool := start ≤ time && time ≤ s.now

def step (s : System) : Step → Option System
  | .elapse ms => some { s with now := s.now + ms }
  | .read worker =>
    match s.workers worker with
    | .idle => some (s.setWorker worker (.loaded s.row))
    | _ => none
  | .beginActivation worker =>
    match s.workers worker with
    | .loaded row =>
      if (decideRecurringPaymentActivationTransition row s.now).proceeds then
        some (s.setWorker worker (.activation s.now))
      else some (s.setWorker worker .done)
    | _ => none
  | .claimActivation worker outcome =>
    match s.workers worker with
    | .activation nowIso =>
      let result := claimRecurringPaymentActivation s.row nowIso (some (getRecurringPaymentOperationStaleBefore nowIso))
      let t := s.write outcome result
      match outcome, result with
      | .answered, some _ => some ({ t with holder := some worker }.setWorker worker (.claimed nowIso))
      -- The claim stands, but its run is over.
      | .lost, some _ => some ({ t with holder := some worker }.setWorker worker .done)
      | _, _ => some (t.setWorker worker .done)
    | _ => none
  | .journalAttempt worker =>
    match s.workers worker with
    | .claimed nowIso => some (s.setWorker worker (.activating nowIso .plan))
    | _ => none
  | .writeActivation worker stage time outcome =>
    match s.workers worker with
    | .activating nowIso current =>
      if stage ∈ current.next ∧ s.taken nowIso time then
        -- Whether a row was updated is not looked at.
        let t := s.write outcome (updateRecurringPaymentActivation s.row { updatedAt := time })
        match outcome with
        | .answered => some (t.setWorker worker (.activating nowIso stage))
        | _ => some (t.setWorker worker (.failing nowIso false))
      else none
    | _ => none
  | .finalizeActivation worker nextCollectionDueAt time outcome =>
    match s.workers worker with
    | .activating nowIso .finalize =>
      if s.taken nowIso time then
        let result := updateRecurringPaymentActivation s.row
          { status := some .active, nextCollectionDueAt := some (some nextCollectionDueAt), updatedAt := time }
        let t := s.write outcome result
        match outcome, result with
        | .answered, some _ => some (t.setWorker worker (.activated nowIso))
        | _, _ => some (t.setWorker worker (.failing nowIso false))
      else none
    | _ => none
  | .fail worker transactionFailed =>
    match s.workers worker with
    | .claimed nowIso => some (s.setWorker worker (.resetting nowIso))
    | .activating nowIso _ => some (s.setWorker worker (.failing nowIso transactionFailed))
    | .activated nowIso => some (s.setWorker worker (.failing nowIso false))
    | _ => none
  | .clearSignature worker time outcome =>
    match s.workers worker with
    | .failing nowIso true =>
      if s.taken nowIso time then
        let t := s.write outcome (updateRecurringPaymentActivation s.row { updatedAt := time })
        match outcome with
        | .answered => some (t.setWorker worker (.resetting nowIso))
        | _ => some (t.setWorker worker .done)
      else none
    | _ => none
  | .resetActivation worker time outcome =>
    match s.workers worker with
    | .failing nowIso false | .resetting nowIso =>
      if s.taken nowIso time then
        some ((s.write outcome (resetRecurringPaymentActivationIfNotActive s.row time)).setWorker worker .done)
      else none
    | _ => none
  | .beginLifecycle worker operation =>
    match s.workers worker with
    | .loaded row =>
      if operation = .cancel ∧ row.status = .pendingActivation then some (s.setWorker worker .cancelingPending)
      else if (decideRecurringPaymentLifecycleTransition operation row s.now).proceeds then
        some (s.setWorker worker (.lifecycle operation s.now))
      else some (s.setWorker worker .done)
    | _ => none
  | .cancelPending worker time outcome =>
    match s.workers worker with
    | .cancelingPending =>
      let result := updateRecurringPaymentLifecycle s.row .canceled .pendingActivation time
      some ((s.write outcome result).setWorker worker .done)
    | _ => none
  | .recheckLifecycle worker =>
    match s.workers worker with
    | .lifecycle .resume _ =>
      if (decideRecurringPaymentLifecycleTransition .resume s.row s.now).proceeds then some s
      else some (s.setWorker worker .done)
    | _ => none
  | .claimLifecycle worker time outcome =>
    match s.workers worker with
    | .lifecycle operation nowIso =>
      let result := claimRecurringPaymentLifecycle operation s.row time
        (some (getRecurringPaymentOperationStaleBefore nowIso))
      let t := s.write outcome result
      match outcome, result with
      | .answered, some _ => some (t.setWorker worker (.lifecycleClaimed operation))
      | _, _ => some (t.setWorker worker .done)
    | _ => none
  | .resetLifecycle worker time outcome =>
    match s.workers worker with
    | .lifecycleClaimed operation =>
      let result := updateRecurringPaymentLifecycle s.row operation.claimableStatus operation.processingStatus time
      some ((s.write outcome result).setWorker worker .done)
    | _ => none
  | .finalizeLifecycle worker time outcome =>
    match s.workers worker with
    | .lifecycleClaimed operation =>
      let result := updateRecurringPaymentLifecycle s.row operation.finalStatus operation.processingStatus time
      some ((s.write outcome result).setWorker worker .done)
    | _ => none
  | .beginUpdate worker =>
    match s.workers worker with
    | .loaded row =>
      if (decideRecurringPaymentUpdateTransition row s.now).proceeds then
        if row.status = .pendingActivation then some (s.setWorker worker (.updatingPending row))
        else some (s.setWorker worker (.update s.now))
      else some (s.setWorker worker .done)
    | _ => none
  | .updatePending worker input outcome =>
    match s.workers worker with
    | .updatingPending row =>
      let result := updateRecurringPayment s.row
        { input with status := none, expectedStatus := some .pendingActivation, expectedUpdatedAt := some row.updatedAt }
      some ((s.write outcome result).setWorker worker .done)
    | _ => none
  | .recheckUpdate worker =>
    match s.workers worker with
    | .update _ =>
      if (decideRecurringPaymentUpdateTransition s.row s.now).proceeds then some s
      else some (s.setWorker worker .done)
    | _ => none
  | .claimUpdate worker time outcome =>
    match s.workers worker with
    | .update nowIso =>
      let result := claimRecurringPaymentUpdate s.row time (some (getRecurringPaymentOperationStaleBefore nowIso))
      let t := s.write outcome result
      match outcome, result with
      | .answered, some _ => some (t.setWorker worker .updateClaimed)
      | _, _ => some (t.setWorker worker .done)
    | _ => none
  | .resetUpdate worker time outcome =>
    match s.workers worker with
    | .updateClaimed =>
      let result := updateRecurringPayment s.row
        { status := some .active, expectedStatus := some .updating, updatedAt := time }
      some ((s.write outcome result).setWorker worker .done)
    | _ => none
  | .finalizeUpdate worker input outcome =>
    match s.workers worker with
    | .updateClaimed =>
      let result := updateRecurringPayment s.row
        { input with status := some .active, expectedStatus := some .updating, expectedUpdatedAt := none }
      -- An update that cannot be finalized is reset like any other failure.
      match outcome, result with
      | .answered, some _ => some ((s.write outcome result).setWorker worker .done)
      | _, _ => some (s.write outcome result)
    | _ => none
  | .collect currentCollectionDueAt nextCollectionDueAt destinationTokenAccount time =>
    some (s.write .answered
      (updateRecurringPaymentCollection s.row currentCollectionDueAt nextCollectionDueAt destinationTokenAccount time))
  | .crash worker => some (s.setWorker worker .done)

end System

end Sdp.Lifecycle
