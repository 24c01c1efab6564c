import Sdp.WalletOperations

/-!
# Approval requests and their operations

The request and the operation agree once the enforcement has returned, unless the request was
resolved before the operation was `pending_approval`, or a write of the enforcement got lost.
-/

namespace Sdp.Operations

open Payments (CallOutcome)

variable {db : OperationDatabase} {s t : System} {e : Event}

/-- No code sets a request to `expired`. -/
def Agree : ApprovalRequestStatus → WalletOperationStatus → Prop
  | .pending, status => status = .pendingApproval
  | .approved, status => status = .executing ∨ status = .completed ∨ status = .failed
  | .rejected, status | .canceled, status => status = .canceled
  | .failed, status => status = .failed
  | .expired, _ => False

/-- A request that is there agrees with its operation. -/
def Agrees (db : OperationDatabase) : Prop :=
  ∀ request, db.request = some request → ∃ status, db.status = some status ∧ Agree request status

/-- The request is resolved only once the operation is `pending_approval`, the answer to its insert is not lost, and
the compensation of the two rows takes effect. -/
def InOrder (s : System) : Event → Prop
  | .resolve _ => s.db.request = some .pending → s.db.status = some .pendingApproval
  | .enforce (.createApprovalRequest outcome) => outcome ≠ .lost
  | .enforce (.compensate outcome) =>
    outcome = .failed → ¬ (s.db.request = some .pending ∧ s.db.status = some .created)
  | _ => True

/-- The rows while the enforcement is under way. -/
def Ordered (db : OperationDatabase) : Enforcement → Prop
  | .idle => db.request = none
  | .created | .requesting => db.status = some .created ∧ db.request = none
  | .recording _ requested | .updating _ requested =>
    db.status = some .created ∧ db.request = if requested then some .pending else none
  | .compensating false => db.request = none
  | .compensating true => db.request = some .pending ∧ db.status = some .created ∨ Agrees db
  | .returned => Agrees db

theorem agrees_of_none (h : db.request = none) : Agrees db := by
  intro request hrequest
  rw [h] at hrequest
  cases hrequest

theorem agrees_of_pair {request : ApprovalRequestStatus} {status : WalletOperationStatus}
    (hrequest : db.request = some request) (hstatus : db.status = some status) (h : Agree request status) :
    Agrees db := by
  intro request' hrequest'
  obtain rfl : request = request' := Option.some.inj (hrequest.symm.trans hrequest')
  exact ⟨status, hstatus, h⟩

namespace OperationDatabase

@[simp] theorem request_update (guard : WalletOperationRow → Bool) (set : WalletOperationRow → WalletOperationRow) :
    (db.update guard set).request = db.request := rfl

theorem status_update_of {guard : WalletOperationRow → Bool} {set : WalletOperationRow → WalletOperationRow}
    {status : WalletOperationStatus} {operation : WalletOperationRow} (hrow : db.operation = some operation)
    (hguard : guard operation = true) (hset : (set operation).status = status) :
    (db.update guard set).status = some status := by
  simp [OperationDatabase.status, update, hrow, hguard, hset]

theorem updateApprovalRequestStatus_pending (status : ApprovalRequestStatus) (to' : WalletOperationStatus)
    {current : WalletOperationStatus} (hrequest : db.request = some .pending) (hstatus : db.status = some current)
    (hcurrent : current = .pendingApproval ∨ to' = .failed ∧ current = .created) :
    (db.updateApprovalRequestStatus status to').request = some status ∧
      (db.updateApprovalRequestStatus status to').status = some to' := by
  obtain ⟨row, hrow, rfl⟩ := Option.map_eq_some_iff.mp hstatus
  simp only [updateApprovalRequestStatus, hrequest, if_true]
  refine ⟨rfl, status_update_of hrow ?_ rfl⟩
  rcases hcurrent with h | ⟨rfl, h⟩
  · split <;> simp [h]
  · simp [h]

theorem updateApprovalRequestStatus_resolved (status : ApprovalRequestStatus) (to' : WalletOperationStatus)
    (hrequest : db.request ≠ some .pending) : db.updateApprovalRequestStatus status to' = db := by
  simp [updateApprovalRequestStatus, hrequest]

end OperationDatabase

theorem EnforcementCase.ordered {p p' : Enforcement} {e : EnforcementStep} {db' : OperationDatabase}
    (h : EnforcementCase s.db p e db' p') (hok : InOrder s (.enforce e)) (hp : p.WellFormed)
    (hordered : Ordered s.db p) : Ordered db' p' := by
  cases h with
  | create outcome =>
    cases outcome with
    | answered => exact ⟨rfl, hordered⟩
    | failed => exact agrees_of_none hordered
    | lost => exact agrees_of_none hordered
  | evaluateFailed => exact hordered.2
  | evaluate decision =>
    split
    · exact hordered
    · exact hordered
  | request outcome =>
    obtain ⟨hstatus, hnone⟩ := hordered
    cases outcome with
    | lost => exact absurd rfl hok
    | failed => simpa [Ordered, afterCall] using hnone
    | answered =>
      simp only [afterCall, OperationDatabase.createApprovalRequest, hnone]
      exact ⟨hstatus, rfl⟩
  | record status requested ok =>
    cases ok with
    | true => exact hordered
    | false =>
      cases requested with
      | true => exact .inl ⟨hordered.2, hordered.1⟩
      | false => exact hordered.2
  | update status requested outcome =>
    obtain ⟨hstatus, hrequest⟩ := hordered
    obtain ⟨row, hrow, -⟩ := Option.map_eq_some_iff.mp hstatus
    have hset : (s.db.updateWalletOperationStatus status).status = some status :=
      OperationDatabase.status_update_of hrow rfl rfl
    cases requested with
    | true =>
      obtain rfl : status = .pendingApproval := by simpa [Enforcement.WellFormed] using hp
      have hagrees : Agrees (s.db.updateWalletOperationStatus .pendingApproval) := agrees_of_pair hrequest hset rfl
      cases outcome with
      | answered => exact hagrees
      | failed => exact .inl ⟨hrequest, hstatus⟩
      | lost => exact .inr hagrees
    | false =>
      cases outcome with
      | answered => exact agrees_of_none hrequest
      | failed => exact hrequest
      | lost => exact hrequest
  | compensate requested outcome =>
    cases requested with
    | false =>
      have hnone : s.db.request = none := hordered
      cases outcome <;> exact agrees_of_none hnone
    | true =>
      by_cases hresolved : s.db.request = some .pending
      · cases outcome with
        | failed => exact hordered.resolve_left (hok rfl)
        | answered | lost =>
          have hstatus : s.db.status = some .created ∨ s.db.status = some .pendingApproval := by
            rcases hordered with h | h
            · exact .inl h.2
            · obtain ⟨status, hstatus, rfl⟩ := h _ hresolved
              exact .inr hstatus
          obtain ⟨hrequest, hfailed⟩ : _ ∧ (s.db.updateApprovalRequestStatus .failed .failed).status = some .failed := by
            rcases hstatus with h | h
            · exact OperationDatabase.updateApprovalRequestStatus_pending _ _ hresolved h (.inr ⟨rfl, rfl⟩)
            · exact OperationDatabase.updateApprovalRequestStatus_pending _ _ hresolved h (.inl rfl)
          exact agrees_of_pair hrequest hfailed rfl
      · have hagrees : Agrees s.db := hordered.resolve_left fun h => hresolved h.1
        have hsame := OperationDatabase.updateApprovalRequestStatus_resolved .failed .failed hresolved
        have hafter : Agrees (s.db.updateApprovalRequestStatus .failed .failed) := by rwa [hsame]
        cases outcome with
        | failed => exact hagrees
        | answered | lost => exact hafter

theorem Ordered.execution {p : Enforcement} {db' : OperationDatabase} (h : Ordered db p)
    (hrequest : db'.request = db.request)
    (hstatus : db'.status = db.status ∨
      db.status = some .executing ∧ (db'.status = some .completed ∨ db'.status = some .failed)) : Ordered db' p := by
  have hcreated (h : db.status = some .created) : db'.status = some .created := by
    rcases hstatus with hsame | ⟨hexecuting, -⟩
    · rw [hsame, h]
    · rw [h] at hexecuting
      cases hexecuting
  have hagrees (h : Agrees db) : Agrees db' := by
    intro request hr
    rw [hrequest] at hr
    obtain ⟨status, hst, hagree⟩ := h request hr
    rcases hstatus with hsame | ⟨hexecuting, hended⟩
    · exact ⟨status, hsame.trans hst, hagree⟩
    · obtain rfl : WalletOperationStatus.executing = status := Option.some.inj (hexecuting.symm.trans hst)
      have happroved : request = .approved := by
        cases request <;> simp [Agree] at hagree ⊢
      subst happroved
      rcases hended with hended | hended
      · exact ⟨_, hended, .inr (.inl rfl)⟩
      · exact ⟨_, hended, .inr (.inr rfl)⟩
  cases p with
  | idle => exact hrequest.trans h
  | created | requesting => exact ⟨hcreated h.1, hrequest.trans h.2⟩
  | recording status requested | updating status requested => exact ⟨hcreated h.1, hrequest.trans h.2⟩
  | compensating requested =>
    cases requested with
    | false => exact hrequest.trans h
    | true => exact h.imp (fun h => ⟨hrequest.trans h.1, hcreated h.2⟩) hagrees
  | returned => exact hagrees h

theorem Ordered.resolve {p : Enforcement} (h : Ordered db p) (r : Resolution)
    (hok : db.request = some .pending → db.status = some .pendingApproval) :
    Ordered (db.updateApprovalRequestStatus r.requestStatus r.operationStatus) p := by
  by_cases hpending : db.request = some .pending
  · have hstatus := hok hpending
    obtain ⟨hrequest, hoperation⟩ := OperationDatabase.updateApprovalRequestStatus_pending
      r.requestStatus r.operationStatus hpending hstatus (.inl rfl)
    have hagrees : Agrees (db.updateApprovalRequestStatus r.requestStatus r.operationStatus) := by
      refine agrees_of_pair hrequest hoperation ?_
      cases r <;> simp [Agree, Resolution.requestStatus, Resolution.operationStatus]
    cases p with
    | idle => simp [Ordered, hpending] at h
    | created | requesting => simp [Ordered, hpending] at h
    | recording status requested | updating status requested => simp [Ordered, hstatus] at h
    | compensating requested =>
      cases requested with
      | false => simp [Ordered, hpending] at h
      | true => exact .inr hagrees
    | returned => exact hagrees
  · rw [OperationDatabase.updateApprovalRequestStatus_resolved _ _ hpending]
    exact h

theorem Ordered.step (h : Ordered s.db s.enforcement) (hwf : s.enforcement.WellFormed) (hok : InOrder s e)
    (ht : Operations.step s e = some t) : Ordered t.db t.enforcement := by
  cases e with
  | enforce e =>
    obtain ⟨⟨db', p⟩, hstep, rfl⟩ := Option.map_eq_some_iff.mp ht
    exact (enforcementStep_cases hstep).ordered hok hwf h
  | resolve r =>
    simp only [Operations.step, Option.ite_none_right_eq_some, Option.some.injEq] at ht
    obtain ⟨-, rfl⟩ := ht
    exact h.resolve r hok
  | claim attempt now =>
    simp only [Operations.step, Option.ite_none_left_eq_some, Option.some.injEq] at ht
    obtain ⟨-, rfl⟩ := ht
    exact h.execution rfl (.inl (OperationDatabase.status_update_same fun _ => rfl))
  | renew attempt now =>
    cases ht
    exact h.execution rfl (.inl (OperationDatabase.status_update_same fun _ => rfl))
  | begin attempt now =>
    cases ht
    exact h.execution rfl (.inl (OperationDatabase.status_update_same fun _ => rfl))
  | complete input now =>
    cases ht
    refine h.execution rfl ?_
    rcases OperationDatabase.status_update_cases s.db (OperationDatabase.completable input.attempt now) _ with
      hsame | ⟨row, hrow, hguard, hset⟩
    · exact .inl hsame
    · obtain ⟨hleased, -⟩ := Bool.and_eq_true_iff.mp hguard
      obtain ⟨hexecuting, -, -⟩ := OperationDatabase.leasedBy_iff.mp hleased
      refine .inr ⟨by simp [OperationDatabase.status, hrow, hexecuting], ?_⟩
      unfold OperationDatabase.completeWalletOperationExecution
      rw [hset]
      cases input.completed <;> simp
  | failInterrupted now =>
    cases ht
    refine h.execution rfl ?_
    unfold OperationDatabase.failInterrupted
    rcases OperationDatabase.status_update_cases s.db _ _ with hsame | ⟨row, hrow, hguard, hset⟩
    · exact .inl hsame
    · have hexecuting : row.status = .executing := by
        simp only [Bool.and_eq_true, decide_eq_true_eq] at hguard
        exact hguard.1.1.1
      exact .inr ⟨by simp [OperationDatabase.status, hrow, hexecuting], .inr hset⟩

/-- In every run that is in order, the request and the operation agree once the enforcement has returned. -/
theorem approval_agrees_in_order {s : System} (hs : Reached InOrder s) (hreturned : s.enforcement = .returned) :
    ∀ request, s.db.request = some request → ∃ status, s.db.status = some status ∧ Agree request status := by
  have hordered : Ordered s.db s.enforcement :=
    Lib.Reachable.invariant (P := fun s => Ordered s.db s.enforcement)
      (fun _ hstart => by
        subst hstart
        rfl)
      (fun _ _ _ hs hordered hok hstep => hordered.step (Reached.inv hs).wellFormed hok hstep) hs
  rw [hreturned] at hordered
  exact hordered

/-- The request is approved once the operation is `pending_approval`. -/
def approvedSystem : System := (Lib.run step .start (askForApproval ++ approveAndExecute.take 3)).getD .start

theorem approvedSystem_agrees :
    approvedSystem.db.request = some .approved ∧
      ∃ status, approvedSystem.db.status = some status ∧ Agree .approved status := by
  have hpending : Reached InOrder ((Lib.run step .start (askForApproval ++ approveAndExecute.take 2)).getD .start) := by
    refine Lib.Reachable.run_of (.start rfl) (fun u e he => ?_)
      (by rfl : Lib.run _ _ (askForApproval ++ approveAndExecute.take 2) = _)
    simp only [askForApproval, approveAndExecute, List.take, List.cons_append, List.nil_append, List.mem_cons,
      List.not_mem_nil, or_false] at he
    rcases he with rfl | rfl | rfl | rfl | rfl
    · trivial
    · trivial
    · exact nofun
    · trivial
    · trivial
  have happroved : Reached InOrder approvedSystem :=
    hpending.step (l := .resolve .approve) (fun _ => rfl) rfl
  exact ⟨rfl, approval_agrees_in_order happroved rfl .approved rfl⟩

/-- The request is approved as soon as it is there. -/
def approvedEarly : List Event :=
  askForApproval ++ [.resolve .approve, .enforce (.recordPolicyEvaluation true),
    .enforce (.updateWalletOperationStatus .answered)]

/-- The operation of the approved request stays `pending_approval`. -/
theorem approved_operation_left_pending :
    ¬ ∀ s : System, Reached Lib.anyStep s → s.enforcement = .returned →
      ∀ request, s.db.request = some request → ∃ status, s.db.status = some status ∧ Agree request status := by
  intro h
  have hreach : Reached Lib.anyStep ((Lib.run step .start approvedEarly).getD .start) :=
    Lib.Reachable.run (.start rfl) (by rfl : Lib.run _ _ approvedEarly = _)
  obtain ⟨status, hstatus, hagree⟩ := h _ hreach rfl .approved rfl
  obtain rfl : WalletOperationStatus.pendingApproval = status := Option.some.inj hstatus
  simp [Agree] at hagree

end Sdp.Operations
