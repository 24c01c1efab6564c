import Sdp.Code.RecurringLifecycle
import Sdp.Lib.Run

/-!
# The lifecycle of a recurring payment

A claim carries no token that its later writes are checked with. As long as no claim is taken over
from a run that is still going, the status of the payment follows its graph.
-/

open Sdp.Lib

namespace Sdp.Lifecycle

open Payments Recurring

/-! ## The graph -/

def edge : RecurringPaymentStatus → RecurringPaymentStatus → Bool
  | .pendingActivation, .activating | .activating, .active | .activating, .pendingActivation
  | .pendingActivation, .canceled
  | .active, .canceling | .canceling, .canceled | .canceling, .active
  | .canceled, .resuming | .resuming, .active | .resuming, .canceled
  | .active, .updating | .updating, .active => true
  | _, _ => false

/-- The edges that no activation run takes. -/
def outerEdge (a b : RecurringPaymentStatus) : Bool :=
  edge a b && a ≠ .activating && b ≠ .activating && b ≠ .pendingActivation

theorem edge_of_outer {a b : RecurringPaymentStatus} (h : outerEdge a b = true) : edge a b = true := by
  simp only [outerEdge, Bool.and_eq_true] at h
  exact h.1.1.1

/-! ## Statements -/

theorem claim_eq_some {claimable processing : RecurringPaymentStatus} {r r' : RecurringPaymentRow} {updatedAt : Nat}
    {staleBefore : Option Int} (h : claim claimable processing r updatedAt staleBefore = some r') :
    (r.status = claimable ∨ r.status = processing ∧ staleBefore.any ((r.updatedAt : Int) ≤ ·)) ∧
      r'.status = processing := by
  unfold claim at h
  split at h
  · next hguard =>
    cases h
    exact ⟨hguard, rfl⟩
  · cases h

theorem updateLifecycle_eq_some {r r' : RecurringPaymentRow} {status expectedStatus : RecurringPaymentStatus}
    {updatedAt : Nat} (h : updateRecurringPaymentLifecycle r status expectedStatus updatedAt = some r') :
    r.status = expectedStatus ∧ r'.status = status := by
  unfold updateRecurringPaymentLifecycle at h
  split at h
  · next hguard =>
    cases h
    exact ⟨hguard, rfl⟩
  · cases h

theorem updateRecurringPayment_eq_some {r r' : RecurringPaymentRow} {input : UpdateInput}
    {expectedStatus : RecurringPaymentStatus} (hexpected : input.expectedStatus = some expectedStatus)
    (h : updateRecurringPayment r input = some r') :
    r.status = expectedStatus ∧ r'.status = input.status.getD r.status := by
  unfold updateRecurringPayment at h
  split at h
  · next hguard =>
    cases h
    have hstatus := hguard.1
    rw [hexpected] at hstatus
    exact ⟨of_decide_eq_true hstatus, rfl⟩
  · cases h

theorem updateActivation_status {r r' : RecurringPaymentRow} {input : UpdateActivationInput} (hnone : input.status = none)
    (h : updateRecurringPaymentActivation r input = some r') : r'.status = r.status := by
  simp only [updateRecurringPaymentActivation] at h
  split at h
  · cases h
    simp only [hnone, Option.getD_none]
  · cases h

theorem updateActivation_active (r : RecurringPaymentRow) (input : UpdateActivationInput)
    (hactive : input.status = some .active) :
    ∃ r', updateRecurringPaymentActivation r input = some r' ∧ r'.status = .active := by
  unfold updateRecurringPaymentActivation
  rw [if_pos (.inr hactive)]
  exact ⟨_, rfl, by rw [hactive]; rfl⟩

theorem reset_eq_some {r r' : RecurringPaymentRow} {updatedAt : Nat}
    (h : resetRecurringPaymentActivationIfNotActive r updatedAt = some r') :
    r.status = .activating ∧ r'.status = .pendingActivation := by
  unfold resetRecurringPaymentActivationIfNotActive at h
  split at h
  · next hguard =>
    cases h
    exact ⟨hguard, rfl⟩
  · cases h

theorem updateCollection_status {r r' : RecurringPaymentRow} {currentCollectionDueAt nextCollectionDueAt time : Nat}
    {account : String}
    (h : updateRecurringPaymentCollection r currentCollectionDueAt nextCollectionDueAt account time = some r') :
    r'.status = r.status := by
  unfold updateRecurringPaymentCollection at h
  split at h
  · cases h
    rfl
  · cases h

@[simp] theorem write_workers (s : System) (outcome : CallOutcome) (result : Option RecurringPaymentRow) :
    (s.write outcome result).workers = s.workers := by
  cases outcome <;> rfl

@[simp] theorem write_holder (s : System) (outcome : CallOutcome) (result : Option RecurringPaymentRow) :
    (s.write outcome result).holder = s.holder := by
  cases outcome <;> rfl

/-- A call that failed wrote nothing, and one whose answer was lost wrote its row. -/
theorem write_row (s : System) (outcome : CallOutcome) (result : Option RecurringPaymentRow) :
    (s.write outcome result).row = s.row ∨ result = some (s.write outcome result).row := by
  cases outcome with
  | failed => exact .inl rfl
  | answered =>
    cases result with
    | none => exact .inl rfl
    | some r => exact .inr rfl
  | lost =>
    cases result with
    | none => exact .inl rfl
    | some r => exact .inr rfl

/-! ## Activation runs -/

/-- The run has its claim and has not asked for the payment to be active yet. -/
def Worker.running : Worker → Bool
  | .claimed _ | .activating _ _ => true
  | _ => false

/-- The run is past its claim and may still write. -/
def Worker.inFlight : Worker → Bool
  | .claimed _ | .activating _ _ | .activated _ | .failing _ _ | .resetting _ => true
  | _ => false

theorem inFlight_of_running {W : Worker} (h : W.running = true) : W.inFlight = true := by
  cases W with
  | claimed _ => rfl
  | activating _ _ => rfl
  | _ => cases h

structure Inv (s : System) : Prop where
  holder : ∀ w, (s.workers w).inFlight = true → s.holder = some w
  running : ∀ w, (s.workers w).running = true → s.row.status = .activating
  claimed : ∀ w, (s.workers w).inFlight = true → s.row.status ≠ .pendingActivation

/-- A step of `w` that neither claims, finalizes nor resets an activation. -/
structure Quiet (s t : System) (w : Nat) (W : Worker) : Prop where
  workers : t.workers = Function.update s.workers w W
  holder : t.holder = s.holder
  status : t.row.status = s.row.status ∨ outerEdge s.row.status t.row.status = true
  running : W.running = true → (s.workers w).running = true
  inFlight : W.inFlight = true → (s.workers w).inFlight = true

inductive Effect (s : System) (l : Step) (t : System) : Prop
  | quiet (w : Nat) (W : Worker) (h : Quiet s t w W)
  | claims (w : Nat) (W : Worker) (hworkers : t.workers = Function.update s.workers w W) (hholder : t.holder = some w)
      (hstatus : t.row.status = .activating) (outcome : CallOutcome) (hl : l = .claimActivation w outcome)
      (nowIso : Nat) (hw : s.workers w = .activation nowIso)
      (hbefore : s.row.status = .pendingActivation ∨
        s.row.status = .activating ∧ isRecurringPaymentOperationStale s.row.updatedAt nowIso = true)
  | finalizes (w : Nat) (W : Worker) (hworkers : t.workers = Function.update s.workers w W) (hholder : t.holder = s.holder)
      (hW : W.running = false) (hw : (s.workers w).running = true) (hstatus : t.row.status = .active)
  | resets (w : Nat) (hworkers : t.workers = Function.update s.workers w .done) (hholder : t.holder = s.holder)
      (hw : (s.workers w).inFlight = true) (hbefore : s.row.status = .activating)
      (hstatus : t.row.status = .pendingActivation)

/-! ## Every step -/

section Step

variable {s t : System} {l : Step}

theorem effect_worker (w : Nat) {W : Worker} (hrunning : W.running = true → (s.workers w).running = true)
    (hinFlight : W.inFlight = true → (s.workers w).inFlight = true) : Effect s l (s.setWorker w W) :=
  .quiet w W ⟨rfl, rfl, .inl rfl, hrunning, hinFlight⟩

theorem effect_outside (w : Nat) {W : Worker} (h : W.inFlight = false) : Effect s l (s.setWorker w W) :=
  effect_worker w (fun hW => by rw [inFlight_of_running hW] at h; cases h) fun hW => by rw [hW] at h; cases h

theorem effect_write {w : Nat} {W : Worker} (outcome : CallOutcome) {result : Option RecurringPaymentRow}
    (hstatus : ∀ r, result = some r → r.status = s.row.status ∨ outerEdge s.row.status r.status = true)
    (hrunning : W.running = true → (s.workers w).running = true)
    (hinFlight : W.inFlight = true → (s.workers w).inFlight = true) :
    Effect s l ((s.write outcome result).setWorker w W) := by
  refine .quiet w W ⟨by simp [System.setWorker], by simp [System.setWorker], ?_, hrunning, hinFlight⟩
  rcases write_row s outcome result with hsame | hrow
  · exact .inl (congrArg RecurringPaymentRow.status hsame)
  · exact hstatus _ hrow

theorem effect_write_outside {w : Nat} {W : Worker} (outcome : CallOutcome) {result : Option RecurringPaymentRow}
    (hstatus : ∀ r, result = some r → r.status = s.row.status ∨ outerEdge s.row.status r.status = true)
    (h : W.inFlight = false) : Effect s l ((s.write outcome result).setWorker w W) :=
  effect_write outcome hstatus (fun hW => by rw [inFlight_of_running hW] at h; cases h)
    fun hW => by rw [hW] at h; cases h

theorem effect_write_only (outcome : CallOutcome) {result : Option RecurringPaymentRow}
    (hstatus : ∀ r, result = some r → r.status = s.row.status ∨ outerEdge s.row.status r.status = true) :
    Effect s l (s.write outcome result) := by
  refine .quiet 0 (s.workers 0) ⟨by rw [write_workers, Function.update_eq_self], by simp, ?_, fun h => h, fun h => h⟩
  rcases write_row s outcome result with hsame | hrow
  · exact .inl (congrArg RecurringPaymentRow.status hsame)
  · exact hstatus _ hrow

/-! ## Activation -/

theorem effect_claimActivation {w : Nat} {outcome : CallOutcome} (h : s.step (.claimActivation w outcome) = some t) :
    Effect s (.claimActivation w outcome) t := by
  unfold System.step at h
  dsimp only at h
  split at h
  · next nowIso hw =>
    -- A claim that wrote the row, whether the caller knows it or not.
    have hclaims (W : Worker) (r : RecurringPaymentRow) (hrow : claimRecurringPaymentActivation s.row nowIso
        (some (getRecurringPaymentOperationStaleBefore nowIso)) = some r) :
        Effect s (.claimActivation w outcome) ({ s with row := r, holder := some w }.setWorker w W) := by
      obtain ⟨hbefore, hstatus⟩ := claim_eq_some hrow
      exact .claims w W rfl rfl hstatus outcome rfl nowIso hw hbefore
    cases hrow : claimRecurringPaymentActivation s.row nowIso (some (getRecurringPaymentOperationStaleBefore nowIso)) with
    | none =>
      rw [hrow] at h
      cases outcome <;> cases h <;> exact effect_outside w rfl
    | some r =>
      rw [hrow] at h
      cases outcome with
      | failed =>
        cases h
        exact effect_outside w rfl
      | answered =>
        cases h
        exact hclaims _ r hrow
      | lost =>
        cases h
        exact hclaims _ r hrow
  · cases h

theorem effect_writeActivation {w time : Nat} {outcome : CallOutcome} {W : Worker}
    (hrunning : W.running = true → (s.workers w).running = true)
    (hinFlight : W.inFlight = true → (s.workers w).inFlight = true) :
    Effect s l ((s.write outcome (updateRecurringPaymentActivation s.row { updatedAt := time })).setWorker w W) :=
  effect_write outcome (fun _ hr => .inl (updateActivation_status rfl hr)) hrunning hinFlight

theorem effect_stage {w time : Nat} {stage : ActivationStage} {outcome : CallOutcome}
    (h : s.step (.writeActivation w stage time outcome) = some t) : Effect s l t := by
  unfold System.step at h
  dsimp only at h
  split at h
  · next nowIso current hw =>
    split at h
    · split at h
      · cases h
        exact effect_writeActivation (fun _ => by rw [hw]; rfl) fun _ => by rw [hw]; rfl
      · cases h
        exact effect_writeActivation nofun fun _ => by rw [hw]; rfl
    · cases h
  · cases h

theorem effect_finalizeActivation {w dueAt time : Nat} {outcome : CallOutcome}
    (h : s.step (.finalizeActivation w dueAt time outcome) = some t) : Effect s l t := by
  unfold System.step at h
  dsimp only at h
  split at h
  · next nowIso hw =>
    split at h
    · obtain ⟨r, hr, hactive⟩ := updateActivation_active s.row
        { status := some .active, nextCollectionDueAt := some (some dueAt), updatedAt := time } rfl
      rw [hr] at h
      have hrunning : (s.workers w).running = true := by
        rw [hw]
        rfl
      cases outcome with
      | failed =>
        cases h
        exact effect_worker w nofun fun _ => inFlight_of_running hrunning
      | answered =>
        cases h
        exact .finalizes w _ rfl rfl rfl hrunning hactive
      | lost =>
        cases h
        exact .finalizes w _ rfl rfl rfl hrunning hactive
    · cases h
  · cases h

theorem effect_fail {w : Nat} {transactionFailed : Bool} (h : s.step (.fail w transactionFailed) = some t) :
    Effect s l t := by
  unfold System.step at h
  dsimp only at h
  split at h
  · next nowIso hw =>
    cases h
    exact effect_worker w nofun fun _ => by rw [hw]; rfl
  · next nowIso stage hw =>
    cases h
    exact effect_worker w nofun fun _ => by rw [hw]; rfl
  · next nowIso hw =>
    cases h
    exact effect_worker w nofun fun _ => by rw [hw]; rfl
  · cases h

theorem effect_clearSignature {w time : Nat} {outcome : CallOutcome}
    (h : s.step (.clearSignature w time outcome) = some t) : Effect s l t := by
  unfold System.step at h
  dsimp only at h
  split at h
  · next nowIso hw =>
    split at h
    · split at h
      · cases h
        exact effect_writeActivation nofun fun _ => by rw [hw]; rfl
      · cases h
        exact effect_writeActivation nofun nofun
    · cases h
  · cases h

theorem effect_reset {w time : Nat} (outcome : CallOutcome) (hw : (s.workers w).inFlight = true) :
    Effect s l ((s.write outcome (resetRecurringPaymentActivationIfNotActive s.row time)).setWorker w .done) := by
  rcases write_row s outcome (resetRecurringPaymentActivationIfNotActive s.row time) with hsame | hrow
  · exact .quiet w .done ⟨by simp [System.setWorker], by simp [System.setWorker],
      .inl (congrArg RecurringPaymentRow.status hsame), nofun, nofun⟩
  · obtain ⟨hbefore, hstatus⟩ := reset_eq_some hrow
    exact .resets w (by simp [System.setWorker]) (by simp [System.setWorker]) hw hbefore hstatus

theorem effect_resetActivation {w time : Nat} {outcome : CallOutcome}
    (h : s.step (.resetActivation w time outcome) = some t) : Effect s l t := by
  unfold System.step at h
  dsimp only at h
  split at h
  · next nowIso hw =>
    split at h
    · cases h
      exact effect_reset outcome (by rw [hw]; rfl)
    · cases h
  · next nowIso hw =>
    split at h
    · cases h
      exact effect_reset outcome (by rw [hw]; rfl)
    · cases h
  · cases h

/-! ## The other operations -/

theorem claim_outer {claimable processing : RecurringPaymentStatus} (hedge : outerEdge claimable processing = true)
    {updatedAt : Nat} {staleBefore : Option Int} (r' : RecurringPaymentRow)
    (h : claim claimable processing s.row updatedAt staleBefore = some r') :
    r'.status = s.row.status ∨ outerEdge s.row.status r'.status = true := by
  obtain ⟨hbefore | ⟨hbefore, -⟩, hstatus⟩ := claim_eq_some h
  · rw [hbefore, hstatus]
    exact .inr hedge
  · exact .inl (hstatus.trans hbefore.symm)

theorem updateLifecycle_outer {status expectedStatus : RecurringPaymentStatus}
    (hedge : outerEdge expectedStatus status = true) {updatedAt : Nat} (r' : RecurringPaymentRow)
    (h : updateRecurringPaymentLifecycle s.row status expectedStatus updatedAt = some r') :
    r'.status = s.row.status ∨ outerEdge s.row.status r'.status = true := by
  obtain ⟨hbefore, hstatus⟩ := updateLifecycle_eq_some h
  rw [hbefore, hstatus]
  exact .inr hedge

theorem finalizeUpdate_outer {input : UpdateInput} (hexpected : input.expectedStatus = some .updating)
    (hactive : input.status = some .active) (r' : RecurringPaymentRow)
    (h : updateRecurringPayment s.row input = some r') :
    r'.status = s.row.status ∨ outerEdge s.row.status r'.status = true := by
  obtain ⟨hbefore, hstatus⟩ := updateRecurringPayment_eq_some hexpected h
  rw [hactive] at hstatus
  rw [hbefore, hstatus]
  exact .inr rfl

theorem effect_begin {w : Nat} {W : Worker} (hW : W.inFlight = false) {p : Prop} [Decidable p]
    (h : (if p then some (s.setWorker w W) else some (s.setWorker w .done)) = some t) : Effect s l t := by
  split at h
  · cases h
    exact effect_outside w hW
  · cases h
    exact effect_outside w rfl

theorem effect_recheck {w : Nat} {p : Prop} [Decidable p]
    (h : (if p then some s else some (s.setWorker w .done)) = some t) : Effect s l t := by
  split at h
  · cases h
    exact .quiet w (s.workers w) ⟨(Function.update_eq_self w s.workers).symm, rfl, .inl rfl, fun h => h, fun h => h⟩
  · cases h
    exact effect_outside w rfl

theorem effect_beginLifecycle {w : Nat} {operation : Operation} (h : s.step (.beginLifecycle w operation) = some t) :
    Effect s l t := by
  unfold System.step at h
  dsimp only at h
  split at h
  · split at h
    · cases h
      exact effect_outside w rfl
    · exact effect_begin rfl h
  · cases h

theorem effect_claimLifecycle {w time : Nat} {outcome : CallOutcome}
    (h : s.step (.claimLifecycle w time outcome) = some t) : Effect s l t := by
  unfold System.step at h
  dsimp only at h
  split at h
  · next operation nowIso hw =>
    have hedge : outerEdge operation.claimableStatus operation.processingStatus = true := by
      cases operation <;> rfl
    split at h
    · cases h
      exact effect_write_outside _ (claim_outer hedge) rfl
    · cases h
      exact effect_write_outside _ (claim_outer hedge) rfl
  · cases h

theorem effect_settleLifecycle {w time : Nat} {outcome : CallOutcome}
    (h : s.step (.resetLifecycle w time outcome) = some t ∨ s.step (.finalizeLifecycle w time outcome) = some t) :
    Effect s l t := by
  unfold System.step at h
  dsimp only at h
  rcases h with h | h
  · split at h
    · next operation hw =>
      cases h
      refine effect_write_outside outcome (updateLifecycle_outer ?_) rfl
      cases operation <;> rfl
    · cases h
  · split at h
    · next operation hw =>
      cases h
      refine effect_write_outside outcome (updateLifecycle_outer ?_) rfl
      cases operation <;> rfl
    · cases h

theorem effect_beginUpdate {w : Nat} (h : s.step (.beginUpdate w) = some t) : Effect s l t := by
  unfold System.step at h
  dsimp only at h
  split at h
  · split at h
    · split at h
      · cases h
        exact effect_outside w rfl
      · cases h
        exact effect_outside w rfl
    · cases h
      exact effect_outside w rfl
  · cases h

theorem effect_claimUpdate {w time : Nat} {outcome : CallOutcome} (h : s.step (.claimUpdate w time outcome) = some t) :
    Effect s l t := by
  unfold System.step at h
  dsimp only at h
  split at h
  · split at h
    · cases h
      exact effect_write_outside _ (claim_outer rfl) rfl
    · cases h
      exact effect_write_outside _ (claim_outer rfl) rfl
  · cases h

theorem effect_finalizeUpdate {w : Nat} {input : UpdateInput} {outcome : CallOutcome}
    (h : s.step (.finalizeUpdate w input outcome) = some t) : Effect s l t := by
  unfold System.step at h
  dsimp only at h
  split at h
  · split at h
    · cases h
      exact effect_write_outside _ (finalizeUpdate_outer rfl rfl) rfl
    · cases h
      exact effect_write_only _ (finalizeUpdate_outer rfl rfl)
  · cases h

theorem effect_of_step (h : s.step l = some t) : Effect s l t := by
  cases l with
  | elapse ms =>
    cases h
    exact .quiet 0 (s.workers 0) ⟨(Function.update_eq_self 0 s.workers).symm, rfl, .inl rfl, fun h => h, fun h => h⟩
  | read w =>
    unfold System.step at h
    dsimp only at h
    split at h
    · cases h
      exact effect_outside w rfl
    · cases h
  | beginActivation w =>
    unfold System.step at h
    dsimp only at h
    split at h
    · exact effect_begin rfl h
    · cases h
  | claimActivation w outcome => exact effect_claimActivation h
  | journalAttempt w =>
    unfold System.step at h
    dsimp only at h
    split at h
    · next nowIso hw =>
      cases h
      exact effect_worker w (fun _ => by rw [hw]; rfl) fun _ => by rw [hw]; rfl
    · cases h
  | writeActivation w stage time outcome => exact effect_stage h
  | finalizeActivation w dueAt time outcome => exact effect_finalizeActivation h
  | fail w transactionFailed => exact effect_fail h
  | clearSignature w time outcome => exact effect_clearSignature h
  | resetActivation w time outcome => exact effect_resetActivation h
  | beginLifecycle w operation => exact effect_beginLifecycle h
  | cancelPending w time outcome =>
    unfold System.step at h
    dsimp only at h
    split at h
    · cases h
      exact effect_write_outside outcome (updateLifecycle_outer rfl) rfl
    · cases h
  | recheckLifecycle w =>
    unfold System.step at h
    dsimp only at h
    split at h
    · exact effect_recheck h
    · cases h
  | claimLifecycle w time outcome => exact effect_claimLifecycle h
  | resetLifecycle w time outcome => exact effect_settleLifecycle (.inl h)
  | finalizeLifecycle w time outcome => exact effect_settleLifecycle (.inr h)
  | beginUpdate w => exact effect_beginUpdate h
  | updatePending w input outcome =>
    unfold System.step at h
    dsimp only at h
    split at h
    · cases h
      exact effect_write_outside outcome (fun r hr => .inl (updateRecurringPayment_eq_some rfl hr).2) rfl
    · cases h
  | recheckUpdate w =>
    unfold System.step at h
    dsimp only at h
    split at h
    · exact effect_recheck h
    · cases h
  | claimUpdate w time outcome => exact effect_claimUpdate h
  | resetUpdate w time outcome =>
    unfold System.step at h
    dsimp only at h
    split at h
    · cases h
      exact effect_write_outside outcome (finalizeUpdate_outer rfl rfl) rfl
    · cases h
  | finalizeUpdate w input outcome => exact effect_finalizeUpdate h
  | collect currentDueAt nextDueAt account time =>
    cases h
    exact effect_write_only _ fun r hr => .inl (updateCollection_status hr)
  | crash w =>
    cases h
    exact effect_outside w rfl

end Step

/-! ## Every run -/

/-- A stale claim is taken over only once the run that held it is over. -/
def takeoversWait (s : System) : Step → Prop
  | .claimActivation w _ => ∀ nowIso, s.workers w = .activation nowIso → s.row.status = .activating →
      isRecurringPaymentOperationStale s.row.updatedAt nowIso = true → ∀ w', (s.workers w').inFlight = false
  | _ => True

/-- All calls are still to come. -/
def Opening (s : System) : Prop := ∀ w, s.workers w = .idle

theorem inv_of_none {s : System} (h : ∀ w, (s.workers w).inFlight = false) : Inv s := by
  have hflight (w : Nat) : (s.workers w).inFlight ≠ true := by
    rw [h w]
    nofun
  exact ⟨fun w hw => absurd hw (hflight w), fun w hw => absurd (inFlight_of_running hw) (hflight w),
    fun w hw => absurd hw (hflight w)⟩

theorem inv_opening {s : System} (h : Opening s) : Inv s := by
  refine inv_of_none fun w => ?_
  rw [h w]
  rfl

theorem Inv.only {s : System} (h : Inv s) {w w' : Nat} (hw : (s.workers w).inFlight = true)
    (hw' : (s.workers w').inFlight = true) : w' = w :=
  Option.some.inj ((h.holder w' hw').symm.trans (h.holder w hw))

theorem Quiet.inv {s t : System} {w : Nat} {W : Worker} (hq : Quiet s t w W) (h : Inv s) : Inv t := by
  have hinFlight (w' : Nat) (hw' : (t.workers w').inFlight = true) : (s.workers w').inFlight = true := by
    rw [hq.workers] at hw'
    by_cases hww : w' = w
    · rw [hww, Function.update_self] at hw'
      rw [hww]
      exact hq.inFlight hw'
    · rwa [Function.update_of_ne hww] at hw'
  have hrunning (w' : Nat) (hw' : (t.workers w').running = true) : (s.workers w').running = true := by
    rw [hq.workers] at hw'
    by_cases hww : w' = w
    · rw [hww, Function.update_self] at hw'
      rw [hww]
      exact hq.running hw'
    · rwa [Function.update_of_ne hww] at hw'
  refine ⟨fun w' hw' => ?_, fun w' hw' => ?_, fun w' hw' => ?_⟩
  · rw [hq.holder]
    exact h.holder w' (hinFlight w' hw')
  · have hactivating := h.running w' (hrunning w' hw')
    rcases hq.status with hsame | houter
    · exact hsame.trans hactivating
    · rw [hactivating] at houter
      simp [outerEdge] at houter
  · have hclaimed := h.claimed w' (hinFlight w' hw')
    rcases hq.status with hsame | houter
    · rwa [hsame]
    · intro hpending
      rw [hpending] at houter
      simp [outerEdge] at houter

theorem inv_step {s t : System} {l : Step} (h : Inv s) (hok : takeoversWait s l) (hstep : s.step l = some t) : Inv t := by
  cases effect_of_step hstep with
  | quiet w W hq => exact hq.inv h
  | claims w W hworkers hholder hstatus outcome hl nowIso hw hbefore =>
    -- Nobody is in flight when the claim is made.
    have hnone (w' : Nat) : (s.workers w').inFlight = false := by
      rcases hbefore with hpending | ⟨hactivating, hstale⟩
      · by_contra hflight
        exact h.claimed w' (by simpa using hflight) hpending
      · rw [hl] at hok
        exact hok nowIso hw hactivating hstale w'
    have honly (w' : Nat) (hw' : (t.workers w').inFlight = true) : w' = w := by
      by_contra hww
      rw [hworkers, Function.update_of_ne hww, hnone] at hw'
      cases hw'
    refine ⟨fun w' hw' => by rw [hholder, honly w' hw'], fun w' _ => hstatus, fun w' _ => ?_⟩
    rw [hstatus]
    nofun
  | finalizes w W hworkers hholder hW hw hstatus =>
    have hflight := inFlight_of_running hw
    have honly (w' : Nat) (hw' : (t.workers w').inFlight = true) : w' = w := by
      by_contra hww
      rw [hworkers, Function.update_of_ne hww] at hw'
      exact hww (h.only hflight hw')
    refine ⟨fun w' hw' => ?_, fun w' hw' => ?_, fun w' _ => ?_⟩
    · rw [hholder, honly w' hw']
      exact h.holder w hflight
    · rw [honly w' (inFlight_of_running hw'), hworkers, Function.update_self, hW] at hw'
      cases hw'
    · rw [hstatus]
      nofun
  | resets w hworkers hholder hw hbefore hstatus =>
    refine inv_of_none fun w' => ?_
    rw [hworkers]
    by_cases hww : w' = w
    · rw [hww, Function.update_self]
      rfl
    · rw [Function.update_of_ne hww]
      by_contra hflight
      exact hww (h.only hw (by simpa using hflight))

theorem inv_reachable {s : System} (h : Reachable System.step Opening takeoversWait s) : Inv s :=
  h.invariant (fun _ => inv_opening) fun _ _ _ _ hinv hok hstep => inv_step hinv hok hstep

theorem running_of_finalize {s t : System} {w dueAt time : Nat} {outcome : CallOutcome}
    (h : s.step (.finalizeActivation w dueAt time outcome) = some t) : (s.workers w).running = true := by
  unfold System.step at h
  dsimp only at h
  split at h
  · next nowIso hw =>
    rw [hw]
    rfl
  · cases h

theorem inFlight_of_reset {s t : System} {w time : Nat} {outcome : CallOutcome}
    (h : s.step (.resetActivation w time outcome) = some t) : (s.workers w).inFlight = true := by
  unfold System.step at h
  dsimp only at h
  split at h
  · next nowIso hw =>
    rw [hw]
    rfl
  · next nowIso hw =>
    rw [hw]
    rfl
  · cases h

/-- Every step moves the status along the graph; a run makes the payment active only from `activating`, and it has
the last claim when it does so or gives its claim back. -/
theorem status_follows_graph {s t : System} {l : Step} (h : Reachable System.step Opening takeoversWait s)
    (hok : takeoversWait s l) (hstep : s.step l = some t) :
    (t.row.status = s.row.status ∨ edge s.row.status t.row.status = true) ∧
    (∀ w dueAt time outcome, l = .finalizeActivation w dueAt time outcome →
      s.row.status = .activating ∧ s.holder = some w) ∧
    ∀ w time outcome, l = .resetActivation w time outcome → s.holder = some w := by
  have hinv := inv_reachable h
  refine ⟨?_, ?_, ?_⟩
  · cases effect_of_step hstep with
    | quiet w W hq => exact hq.status.imp_right edge_of_outer
    | claims w W hworkers hholder hstatus outcome hl nowIso hw hbefore =>
      rcases hbefore with hpending | ⟨hactivating, -⟩
      · rw [hpending, hstatus]
        exact .inr rfl
      · exact .inl (hstatus.trans hactivating.symm)
    | finalizes w W hworkers hholder hW hw hstatus =>
      rw [hinv.running w hw, hstatus]
      exact .inr rfl
    | resets w hworkers hholder hw hbefore hstatus =>
      rw [hbefore, hstatus]
      exact .inr rfl
  · rintro w dueAt time outcome rfl
    have hrunning := running_of_finalize hstep
    exact ⟨hinv.running w hrunning, hinv.holder w (inFlight_of_running hrunning)⟩
  · rintro w time outcome rfl
    exact hinv.holder w (inFlight_of_reset hstep)

/-! A payment that is activated, and one whose first activation run comes back after it is canceled. -/

def draftPayment : System where
  now := 0
  row := ⟨"payment", "organization", "project", .pendingActivation, 24, none, none, 0, Recurring.day_positive⟩
  workers := fun _ => .idle
  holder := none

def writes (w time : Nat) : List Step :=
  [.writeActivation w .planSignature time .answered, .writeActivation w .planCreatedAt time .answered,
    .writeActivation w .subscription time .answered, .writeActivation w .authorizationSignature time .answered,
    .writeActivation w .finalize time .answered]

theorem draftPayment_activated : ∃ s t, run System.step draftPayment ([.read 0, .beginActivation 0] ++
      [.claimActivation 0 .answered] ++ .journalAttempt 0 :: writes 0 0) = some s ∧
    s.step (.finalizeActivation 0 0 0 .answered) = some t ∧
    (t.row.status = s.row.status ∨ edge s.row.status t.row.status = true) ∧
    (∀ w dueAt time outcome, Step.finalizeActivation 0 0 0 .answered = .finalizeActivation w dueAt time outcome →
      s.row.status = .activating ∧ s.holder = some w) ∧
    ∀ w time outcome, Step.finalizeActivation 0 0 0 .answered = .resetActivation w time outcome → s.holder = some w := by
  have hstart : Reachable System.step Opening takeoversWait draftPayment := .start fun _ => rfl
  have hread := hstart.run_of (by simp [takeoversWait])
    (by rfl : run System.step _ [.read 0, .beginActivation 0] = some _)
  have hclaimed := hread.step (l := .claimActivation 0 .answered) (by rintro nowIso - ⟨⟩) rfl
  have hwritten := hclaimed.run_of (by simp [writes, takeoversWait])
    (by rfl : run System.step _ (.journalAttempt 0 :: writes 0 0) = some _)
  exact ⟨_, _, rfl, rfl, status_follows_graph hwritten trivial rfl⟩

def activationComesBack : List Step :=
  [.read 0, .beginActivation 0, .claimActivation 0 .answered, .journalAttempt 0, .elapse 900000,
    .read 1, .beginActivation 1, .claimActivation 1 .answered, .journalAttempt 1] ++ writes 1 900000 ++
  [.finalizeActivation 1 0 900000 .answered, .read 2, .beginLifecycle 2 .cancel, .claimLifecycle 2 900000 .answered,
    .finalizeLifecycle 2 900000 .answered] ++ writes 0 900000

theorem canceled_payment_activated : ∃ s t, Reachable System.step Opening anyStep s ∧
    s.step (.finalizeActivation 0 0 900000 .answered) = some t ∧
    s.row.status = .canceled ∧ t.row.status = .active ∧ s.holder = some 1 := by
  refine ⟨_, _, .run (.start (s := draftPayment) fun _ => rfl)
    (by rfl : run System.step _ activationComesBack = some _), rfl, rfl, rfl, rfl⟩

end Sdp.Lifecycle
