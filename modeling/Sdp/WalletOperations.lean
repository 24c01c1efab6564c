import Sdp.Lib.Run
import Sdp.Code.WalletOperations

/-!
# Executions of a wallet operation

A claim needs an operation whose effect has not begun, and only a claim changes the attempt. So the
effect belongs to one attempt for good.
-/

namespace Sdp.Operations

open Payments (CallOutcome)

variable {db : OperationDatabase} {s t : System} {e : Event}

/-! ## The statements -/

namespace OperationDatabase

/-- The attempt that was claimed last and when its effect began. -/
def fence (db : OperationDatabase) : Option String × Option Nat :=
  (db.operation.bind (·.executionAttemptId), db.operation.bind (·.executionEffectStartedAt))

theorem fence_update {guard : WalletOperationRow → Bool} {set : WalletOperationRow → WalletOperationRow}
    (hattempt : ∀ row, (set row).executionAttemptId = row.executionAttemptId)
    (heffect : ∀ row, (set row).executionEffectStartedAt = row.executionEffectStartedAt) :
    (db.update guard set).fence = db.fence := by
  unfold fence update
  cases db.operation with
  | none => rfl
  | some row =>
    by_cases h : guard row
    · simp [h, hattempt, heffect]
    · simp [h]

theorem fence_updateApprovalRequestStatus (status : ApprovalRequestStatus) (operationStatus : WalletOperationStatus) :
    (db.updateApprovalRequestStatus status operationStatus).fence = db.fence := by
  unfold updateApprovalRequestStatus
  split
  · exact fence_update (fun _ => rfl) fun _ => rfl
  · rfl

theorem update_of_not_finds {guard : WalletOperationRow → Bool} {set : WalletOperationRow → WalletOperationRow}
    (h : db.finds guard = false) : db.update guard set = db := by
  obtain ⟨operation, request⟩ := db
  cases operation with
  | none => rfl
  | some row =>
    have : guard row = false := h
    simp [update, this]

theorem finds_iff {guard : WalletOperationRow → Bool} :
    db.finds guard = true ↔ ∃ row, db.operation = some row ∧ guard row = true := by
  unfold finds
  cases db.operation <;> simp

theorem leasedBy_iff {row : WalletOperationRow} {attempt : String} {now : Nat} :
    row.leasedBy attempt now = true ↔ row.status = .executing ∧ row.executionAttemptId = some attempt ∧
      ∃ lease, row.executionLeaseExpiresAt = some lease ∧ now < lease := by
  unfold WalletOperationRow.leasedBy
  cases row.executionLeaseExpiresAt <;> simp [and_assoc]

theorem fence_claim (db : OperationDatabase) (attempt : String) (now : Nat) :
    db.finds (db.claimable now) = true ∧ db.request = some .approved ∧ db.fence.2 = none ∧
        (db.claimWalletOperationExecution attempt now).fence = (some attempt, none) ∨
      db.finds (db.claimable now) = false ∧ db.claimWalletOperationExecution attempt now = db := by
  cases h : db.finds (db.claimable now) with
  | false => exact .inr ⟨rfl, update_of_not_finds h⟩
  | true =>
    obtain ⟨row, hrow, hclaimable⟩ := finds_iff.mp h
    have hguard := hclaimable
    simp only [claimable, Bool.and_eq_true, decide_eq_true_eq, Option.isNone_iff_eq_none] at hguard
    refine .inl ⟨rfl, hguard.2, ?_, ?_⟩
    · simp [fence, hrow, hguard.1.1.2]
    · simp [fence, claimWalletOperationExecution, update, hrow, hclaimable]

theorem fence_begin (db : OperationDatabase) (attempt : String) (now : Nat) :
    db.finds (·.leasedBy attempt now) = true ∧ db.fence.1 = some attempt ∧
        (∃ at', (db.beginWalletOperationExecutionEffect attempt now).fence = (some attempt, some at')) ∨
      db.finds (·.leasedBy attempt now) = false ∧ db.beginWalletOperationExecutionEffect attempt now = db := by
  cases h : db.finds (·.leasedBy attempt now) with
  | false => exact .inr ⟨rfl, update_of_not_finds h⟩
  | true =>
    obtain ⟨row, hrow, hleased⟩ := finds_iff.mp h
    obtain ⟨-, hattempt, -⟩ := leasedBy_iff.mp hleased
    refine .inl ⟨rfl, by simp [fence, hrow, hattempt], row.executionEffectStartedAt.getD now, ?_⟩
    simp [fence, beginWalletOperationExecutionEffect, update, hrow, hleased, hattempt]

end OperationDatabase

/-! ## Enforcement -/

/-- What the enforcement is about to write. -/
def Enforcement.WellFormed : Enforcement → Prop
  | .recording status requested | .updating status requested =>
    if requested then status = .pendingApproval else status = .evaluated ∨ status = .failed
  | _ => True

theorem walletOperationStatusForDecision_cases (decision : Policy.PolicyDecision) :
    walletOperationStatusForDecision decision = .pendingApproval ∨
      walletOperationStatusForDecision decision = .evaluated ∨ walletOperationStatusForDecision decision = .failed := by
  cases decision <;> simp [walletOperationStatusForDecision]

/-- Everything a step of the enforcement can do. -/
inductive EnforcementCase (db : OperationDatabase) :
    Enforcement → EnforcementStep → OperationDatabase → Enforcement → Prop
  | create (outcome : CallOutcome) :
      EnforcementCase db .idle (.createWalletOperation outcome) (afterCall outcome db db.createWalletOperation)
        (if outcome = .answered then .created else .returned)
  | evaluateFailed : EnforcementCase db .created (.evaluate none) db (.compensating false)
  | evaluate (decision : Policy.PolicyDecision) :
      EnforcementCase db .created (.evaluate (some decision)) db
        (if walletOperationStatusForDecision decision = .pendingApproval then .requesting
          else .recording (walletOperationStatusForDecision decision) false)
  | request (outcome : CallOutcome) :
      EnforcementCase db .requesting (.createApprovalRequest outcome) (afterCall outcome db db.createApprovalRequest.1)
        (if outcome = .answered ∧ db.createApprovalRequest.2 = .pending then .recording .pendingApproval true
          else .compensating false)
  | record (status : WalletOperationStatus) (requested ok : Bool) :
      EnforcementCase db (.recording status requested) (.recordPolicyEvaluation ok) db
        (if ok then .updating status requested else .compensating requested)
  | update (status : WalletOperationStatus) (requested : Bool) (outcome : CallOutcome) :
      EnforcementCase db (.updating status requested) (.updateWalletOperationStatus outcome)
        (afterCall outcome db (db.updateWalletOperationStatus status))
        (if outcome = .answered then .returned else .compensating requested)
  | compensate (requested : Bool) (outcome : CallOutcome) :
      EnforcementCase db (.compensating requested) (.compensate outcome)
        (afterCall outcome db (if requested then db.updateApprovalRequestStatus .failed .failed
          else db.updateWalletOperationStatus .failed)) .returned

theorem enforcementStep_cases {p : Enforcement} {e : EnforcementStep} {out : OperationDatabase × Enforcement}
    (h : enforcementStep db p e = some out) : EnforcementCase db p e out.1 out.2 := by
  unfold enforcementStep at h
  split at h <;> cases h
  case h_1 outcome => exact .create outcome
  case h_2 => exact .evaluateFailed
  case h_3 decision => exact .evaluate decision
  case h_4 outcome => exact .request outcome
  case h_5 status requested ok => exact .record status requested ok
  case h_6 status requested outcome => exact .update status requested outcome
  case h_7 requested outcome => exact .compensate requested outcome

theorem EnforcementCase.wellFormed {p p' : Enforcement} {e : EnforcementStep} {db' : OperationDatabase}
    (h : EnforcementCase db p e db' p') (hp : p.WellFormed) : p'.WellFormed := by
  cases h with
  | create outcome => cases outcome <;> trivial
  | evaluateFailed => trivial
  | evaluate decision =>
    split
    · trivial
    · next hne =>
      simp only [Enforcement.WellFormed, Bool.false_eq_true, if_false]
      exact (walletOperationStatusForDecision_cases decision).resolve_left hne
  | request outcome =>
    split
    · rfl
    · trivial
  | record status requested ok => cases ok <;> trivial
  | update status requested outcome => cases outcome <;> trivial
  | compensate => trivial

theorem fence_afterCall {outcome : CallOutcome} {db' : OperationDatabase} (h : db'.fence = db.fence) :
    (afterCall outcome db db').fence = db.fence := by
  unfold afterCall
  split
  · rfl
  · exact h

theorem EnforcementCase.fence {p p' : Enforcement} {e : EnforcementStep} {db' : OperationDatabase}
    (h : EnforcementCase db p e db' p') (hidle : p = .idle → db.operation = none) : db'.fence = db.fence := by
  cases h with
  | create outcome =>
    apply fence_afterCall
    simp [OperationDatabase.fence, OperationDatabase.createWalletOperation, hidle rfl, WalletOperationRow.fresh]
  | evaluateFailed | evaluate | record => rfl
  | request outcome => exact fence_afterCall rfl
  | update status requested outcome =>
    exact fence_afterCall (OperationDatabase.fence_update (fun _ => rfl) fun _ => rfl)
  | compensate requested outcome =>
    apply fence_afterCall
    split
    · exact OperationDatabase.fence_updateApprovalRequestStatus _ _
    · exact OperationDatabase.fence_update (fun _ => rfl) fun _ => rfl

/-! ## The effect of an approved operation -/

/-- The invariant behind the claims. -/
structure Inv (s : System) : Prop where
  idle : s.enforcement = .idle → s.db.operation = none
  wellFormed : s.enforcement.WellFormed
  holder : ∀ a, s.db.fence.1 = some a → .claimed a ∈ s.history
  issued : ∀ a, .claimed a ∈ s.history → a ∈ s.issued
  /-- The attempt that began the effect is still the last one. -/
  began : ∀ a, .began a ∈ s.history → s.db.fence.1 = some a ∧ s.db.fence.2.isSome
  last : s.history.Pairwise fun x y => ∀ a b, x = .began a → y ≠ .claimed b
  distinct : s.history.Pairwise fun x y => ∀ a, x = .claimed a → y ≠ .claimed a

theorem Inv.same (h : Inv s) (hidle : t.enforcement = .idle → t.db.operation = none)
    (hwf : t.enforcement.WellFormed) (hfence : t.db.fence = s.db.fence) (hissued : ∀ a ∈ s.issued, a ∈ t.issued)
    (hhistory : t.history = s.history) : Inv t where
  idle := hidle
  wellFormed := hwf
  holder := by
    rw [hfence, hhistory]
    exact h.holder
  issued a ha := by
    rw [hhistory] at ha
    exact hissued a (h.issued a ha)
  began := by
    rw [hfence, hhistory]
    exact h.began
  last := hhistory ▸ h.last
  distinct := hhistory ▸ h.distinct

theorem operation_update {guard : WalletOperationRow → Bool} {set : WalletOperationRow → WalletOperationRow}
    (h : db.operation = none) : (db.update guard set).operation = none := by
  simp [OperationDatabase.update, h]

theorem EnforcementCase.not_idle {p p' : Enforcement} {e : EnforcementStep} {db' : OperationDatabase}
    (h : EnforcementCase db p e db' p') : p' ≠ .idle := by
  cases h <;> (try split) <;> simp

theorem Inv.enforce {p : Enforcement} {e : EnforcementStep} {db' : OperationDatabase} (h : Inv s)
    (hstep : EnforcementCase s.db s.enforcement e db' p) : Inv { s with db := db', enforcement := p } := by
  refine h.same ?_ (hstep.wellFormed h.wellFormed) (hstep.fence h.idle) (fun a ha => ha) rfl
  intro hp
  exact absurd hp hstep.not_idle

theorem Inv.claim {attempt : String} {now : Nat} (h : Inv s) (hfresh : attempt ∉ s.issued)
    (ht : step s (.claim attempt now) = some t) : Inv t := by
  simp only [step, hfresh, if_false, Option.some.injEq] at ht
  have hissued : ∀ a ∈ s.issued, a ∈ attempt :: s.issued := fun a ha => List.mem_cons_of_mem _ ha
  rcases OperationDatabase.fence_claim s.db attempt now with ⟨hfinds, -, heffect, hfence⟩ | ⟨hfinds, hsame⟩
  · rw [hfinds] at ht
    subst ht
    have hnone : ∀ a, .began a ∉ s.history := by
      intro a ha
      obtain ⟨-, hsome⟩ := h.began a ha
      simp [heffect] at hsome
    refine ⟨fun hidle => operation_update (h.idle hidle), h.wellFormed, ?_, ?_, ?_, ?_, ?_⟩
    · intro a ha
      rw [hfence] at ha
      cases ha
      simp
    · intro a ha
      rcases List.mem_append.mp ha with ha | ha
      · exact hissued a (h.issued a ha)
      · obtain rfl : a = attempt := by simpa using ha
        exact List.mem_cons_self
    · intro a ha
      rcases List.mem_append.mp ha with ha | ha
      · exact absurd ha (hnone a)
      · simp at ha
    · refine List.pairwise_append.mpr ⟨h.last, List.pairwise_singleton _ _, ?_⟩
      rintro x hx y - a b rfl
      exact absurd hx (hnone a)
    · refine List.pairwise_append.mpr ⟨h.distinct, List.pairwise_singleton _ _, ?_⟩
      rintro x hx y hy a rfl hclaimed
      obtain rfl : y = .claimed attempt := by simpa using hy
      cases hclaimed
      exact hfresh (h.issued _ hx)
  · rw [hfinds, hsame] at ht
    subst ht
    exact h.same h.idle h.wellFormed rfl hissued (by simp)

theorem Inv.begin {attempt : String} {now : Nat} (h : Inv s) (ht : step s (.begin attempt now) = some t) : Inv t := by
  simp only [step, Option.some.injEq] at ht
  rcases OperationDatabase.fence_begin s.db attempt now with ⟨hfinds, hholder, at', hfence⟩ | ⟨hfinds, hsame⟩
  · rw [hfinds] at ht
    subst ht
    refine ⟨fun hidle => operation_update (h.idle hidle), h.wellFormed, ?_, ?_, ?_, ?_, ?_⟩
    · intro a ha
      rw [hfence] at ha
      cases ha
      exact List.mem_append_left _ (h.holder _ hholder)
    · intro a ha
      exact h.issued a (by simpa using ha)
    · intro a ha
      rw [hfence]
      rcases List.mem_append.mp ha with ha | ha
      · rw [← (h.began a ha).1, hholder]
        exact ⟨rfl, rfl⟩
      · obtain rfl : a = attempt := by simpa using ha
        exact ⟨rfl, rfl⟩
    · refine List.pairwise_append.mpr ⟨h.last, List.pairwise_singleton _ _, ?_⟩
      rintro x - y hy a b -
      obtain rfl : y = .began attempt := by simpa using hy
      exact nofun
    · refine List.pairwise_append.mpr ⟨h.distinct, List.pairwise_singleton _ _, ?_⟩
      rintro x - y hy a -
      obtain rfl : y = .began attempt := by simpa using hy
      exact nofun
  · rw [hfinds, hsame] at ht
    subst ht
    exact h.same h.idle h.wellFormed rfl (fun a ha => ha) (by simp)

theorem Inv.step (h : Inv s) (ht : step s e = some t) : Inv t := by
  -- What the other statements set leaves the fence alone.
  have hother {guard : WalletOperationRow → Bool} {set : WalletOperationRow → WalletOperationRow}
      (hattempt : ∀ row, (set row).executionAttemptId = row.executionAttemptId)
      (heffect : ∀ row, (set row).executionEffectStartedAt = row.executionEffectStartedAt) :
      Inv { s with db := s.db.update guard set } :=
    h.same (fun hidle => operation_update (h.idle hidle)) h.wellFormed
      (OperationDatabase.fence_update hattempt heffect) (fun a ha => ha) rfl
  cases e with
  | enforce e =>
    obtain ⟨⟨db', p⟩, hstep, rfl⟩ := Option.map_eq_some_iff.mp ht
    exact h.enforce (enforcementStep_cases hstep)
  | resolve r =>
    simp only [Operations.step, Option.ite_none_right_eq_some, Option.some.injEq] at ht
    obtain ⟨-, rfl⟩ := ht
    refine h.same ?_ h.wellFormed (OperationDatabase.fence_updateApprovalRequestStatus _ _) (fun a ha => ha) rfl
    intro hidle
    have hnone : s.db.operation = none := h.idle hidle
    dsimp only [OperationDatabase.updateApprovalRequestStatus]
    split
    · exact operation_update hnone
    · exact hnone
  | claim attempt now =>
    have hfresh : attempt ∉ s.issued := by
      intro hmem
      simp [Operations.step, hmem] at ht
    exact h.claim hfresh ht
  | renew attempt now =>
    cases ht
    exact hother (fun _ => rfl) fun _ => rfl
  | begin attempt now => exact h.begin ht
  | complete input now =>
    cases ht
    exact hother (fun _ => rfl) fun _ => rfl
  | failInterrupted now =>
    cases ht
    exact hother (fun _ => rfl) fun _ => rfl

/-- A run of the system under a condition on its steps. -/
abbrev Reached (ok : System → Event → Prop) (s : System) : Prop := Lib.Reachable step (· = .start) ok s

theorem Reached.inv {ok : System → Event → Prop} (h : Reached ok s) : Inv s :=
  Lib.Reachable.invariant
    (fun _ hstart => by
      subst hstart
      exact ⟨fun _ => rfl, trivial, nofun, nofun, nofun, .nil, .nil⟩)
    (fun _ _ _ _ hinv _ hstep => hinv.step hstep) h

def OperationDatabase.status (db : OperationDatabase) : Option WalletOperationStatus := db.operation.map (·.status)

namespace OperationDatabase

theorem status_update_cases (db : OperationDatabase) (guard : WalletOperationRow → Bool)
    (set : WalletOperationRow → WalletOperationRow) :
    (db.update guard set).status = db.status ∨
      ∃ row, db.operation = some row ∧ guard row = true ∧ (db.update guard set).status = some (set row).status := by
  unfold OperationDatabase.status update
  cases db.operation with
  | none => exact .inl rfl
  | some row => by_cases hguard : guard row <;> simp [hguard]

theorem status_update {guard : WalletOperationRow → Bool} {set : WalletOperationRow → WalletOperationRow}
    {status : WalletOperationStatus} (h : (db.update guard set).status = some status) :
    db.status = some status ∨ ∃ row, db.operation = some row ∧ guard row = true ∧ (set row).status = status := by
  rcases status_update_cases db guard set with hsame | ⟨row, hrow, hguard, hset⟩
  · exact .inl (hsame.symm.trans h)
  · exact .inr ⟨row, hrow, hguard, Option.some.inj (hset.symm.trans h)⟩

theorem status_update_same {guard : WalletOperationRow → Bool} {set : WalletOperationRow → WalletOperationRow}
    (hset : ∀ row, (set row).status = row.status) : (db.update guard set).status = db.status := by
  unfold OperationDatabase.status update
  cases db.operation with
  | none => rfl
  | some row => by_cases hguard : guard row <;> simp [hguard, hset]

theorem status_update_ne {guard : WalletOperationRow → Bool} {set : WalletOperationRow → WalletOperationRow}
    {status : WalletOperationStatus} (hset : ∀ row, guard row = true → (set row).status ≠ status)
    (h : db.status ≠ some status) : (db.update guard set).status ≠ some status := by
  intro hstatus
  rcases status_update hstatus with hsame | ⟨row, -, hguard, hrow⟩
  · exact h hsame
  · exact hset row hguard hrow

theorem status_updateApprovalRequestStatus_ne {status : ApprovalRequestStatus}
    {operationStatus other : WalletOperationStatus} (hne : operationStatus ≠ other) (h : db.status ≠ some other) :
    (db.updateApprovalRequestStatus status operationStatus).status ≠ some other := by
  unfold updateApprovalRequestStatus
  split
  · exact status_update_ne (fun _ _ => hne) h
  · exact h

end OperationDatabase

theorem EnforcementCase.not_completed {p p' : Enforcement} {e : EnforcementStep} {db' : OperationDatabase}
    (h : EnforcementCase db p e db' p') (hp : p.WellFormed) (hdb : db.status ≠ some .completed) :
    db'.status ≠ some .completed := by
  have hcall {outcome : CallOutcome} {db' : OperationDatabase} (h : db'.status ≠ some .completed) :
      (afterCall outcome db db').status ≠ some .completed := by
    unfold afterCall
    split
    · exact hdb
    · exact h
  cases h with
  | create outcome => exact hcall (by simp [OperationDatabase.status, OperationDatabase.createWalletOperation,
      WalletOperationRow.fresh])
  | evaluateFailed | evaluate | record => exact hdb
  | request outcome => exact hcall hdb
  | update status requested outcome =>
    apply hcall
    have hstatus : status ≠ .completed := by
      rintro rfl
      cases requested <;> simp [Enforcement.WellFormed] at hp
    exact OperationDatabase.status_update_ne (fun _ _ => hstatus) hdb
  | compensate requested outcome =>
    apply hcall
    split
    · exact OperationDatabase.status_updateApprovalRequestStatus_ne nofun hdb
    · exact OperationDatabase.status_update_ne (fun _ _ => nofun) hdb

/-- Only the attempt that holds the lease completes the operation. -/
theorem Inv.completed_by (h : Inv s) (ht : Operations.step s e = some t) (hs : s.db.status ≠ some .completed)
    (hcompleted : t.db.status = some .completed) :
    ∃ input now row, e = .complete input now ∧ input.completed = true ∧ s.db.operation = some row ∧
      row.leasedBy input.attempt now = true ∧ .claimed input.attempt ∈ s.history := by
  have hother {guard : WalletOperationRow → Bool} {set : WalletOperationRow → WalletOperationRow}
      (hset : ∀ row, (set row).status = row.status) : (s.db.update guard set).status ≠ some .completed := by
    rw [OperationDatabase.status_update_same hset]
    exact hs
  cases e with
  | enforce e =>
    obtain ⟨⟨db', p⟩, hstep, rfl⟩ := Option.map_eq_some_iff.mp ht
    exact absurd hcompleted ((enforcementStep_cases hstep).not_completed h.wellFormed hs)
  | resolve r =>
    simp only [Operations.step, Option.ite_none_right_eq_some, Option.some.injEq] at ht
    obtain ⟨-, rfl⟩ := ht
    refine absurd hcompleted (OperationDatabase.status_updateApprovalRequestStatus_ne ?_ hs)
    cases r <;> nofun
  | claim attempt now =>
    simp only [Operations.step, Option.ite_none_left_eq_some, Option.some.injEq] at ht
    obtain ⟨-, rfl⟩ := ht
    exact absurd hcompleted (hother fun _ => rfl)
  | renew attempt now =>
    cases ht
    exact absurd hcompleted (hother fun _ => rfl)
  | begin attempt now =>
    cases ht
    exact absurd hcompleted (hother fun _ => rfl)
  | failInterrupted now =>
    cases ht
    exact absurd hcompleted (OperationDatabase.status_update_ne (fun _ _ => nofun) hs)
  | complete input now =>
    cases ht
    rcases OperationDatabase.status_update hcompleted with hsame | ⟨row, hrow, hguard, hset⟩
    · exact absurd hsame hs
    · obtain ⟨hleased, -⟩ := Bool.and_eq_true_iff.mp hguard
      obtain ⟨-, hattempt, -⟩ := OperationDatabase.leasedBy_iff.mp hleased
      refine ⟨input, now, row, rfl, ?_, hrow, hleased, h.holder _ (by simp [OperationDatabase.fence, hrow, hattempt])⟩
      cases hc : input.completed with
      | true => rfl
      | false => simp [hc] at hset

/-- The history of the executions of one operation. -/
structure EffectOnce (history : List ExecutionEvent) : Prop where
  /-- One attempt at most begins the effect. -/
  one : ∀ a b, .began a ∈ history → .began b ∈ history → a = b
  /-- No attempt is claimed after that. -/
  last : history.Pairwise fun x y => ∀ a b, x = .began a → y ≠ .claimed b
  /-- An id stands for one claim, and what begins was claimed. -/
  distinct : history.Pairwise fun x y => ∀ a, x = .claimed a → y ≠ .claimed a
  claimed : ∀ a, .began a ∈ history → .claimed a ∈ history

/-- In every run the effect begins at most once. Only the holder of the lease completes the operation, and only an
approved operation is claimed. -/
theorem effect_begins_once (s : System) (hs : Reached Lib.anyStep s) :
    EffectOnce s.history ∧
      (∀ e t, Operations.step s e = some t → s.db.status ≠ some .completed → t.db.status = some .completed →
        ∃ input now row, e = .complete input now ∧ input.completed = true ∧ s.db.operation = some row ∧
          row.leasedBy input.attempt now = true ∧ .claimed input.attempt ∈ s.history) ∧
      ∀ attempt now t, Operations.step s (.claim attempt now) = some t → .claimed attempt ∈ t.history →
        s.db.request = some .approved := by
  have hinv := hs.inv
  refine ⟨⟨?_, hinv.last, hinv.distinct, ?_⟩, fun e t ht hs hc => hinv.completed_by ht hs hc, ?_⟩
  · intro a b ha hb
    exact Option.some.inj ((hinv.began a ha).1.symm.trans (hinv.began b hb).1)
  · intro a ha
    exact hinv.holder a (hinv.began a ha).1
  · intro attempt now t ht hclaimed
    simp only [Operations.step, Option.ite_none_left_eq_some, Option.some.injEq] at ht
    obtain ⟨hfresh, rfl⟩ := ht
    rcases List.mem_append.mp hclaimed with hold | hnew
    · exact absurd (hinv.issued attempt hold) hfresh
    · rcases OperationDatabase.fence_claim s.db attempt now with ⟨-, hrequest, -⟩ | ⟨hfinds, -⟩
      · exact hrequest
      · simp [hfinds] at hnew

/-- The enforcement asks for an approval. -/
def askForApproval : List Event :=
  [.enforce (.createWalletOperation .answered), .enforce (.evaluate (some .approvalRequired)),
    .enforce (.createApprovalRequest .answered)]

/-- It is approved, and two executors take it one after the other. -/
def approveAndExecute : List Event :=
  [.enforce (.recordPolicyEvaluation true), .enforce (.updateWalletOperationStatus .answered), .resolve .approve,
    .claim "att_1" 0, .claim "att_2" 600000, .begin "att_1" 600001, .begin "att_2" 600001]

def executedSystem : System := (Lib.run step .start (askForApproval ++ approveAndExecute)).getD .start

theorem executedSystem_begins_once :
    executedSystem.history = [.claimed "att_1", .claimed "att_2", .began "att_2"] ∧
      EffectOnce executedSystem.history := by
  have hreach : Reached Lib.anyStep executedSystem :=
    Lib.Reachable.run (.start rfl) (by rfl : Lib.run _ _ (askForApproval ++ approveAndExecute) = _)
  exact ⟨by decide, (effect_begins_once executedSystem hreach).1⟩

end Sdp.Operations
