import Sdp.Code.IssuanceExecution

/-!
# Operations that are declared failed

A throw of the submission is taken for a failure. That is wrong for a transaction that left the server
and lands, when the wait for it ends before it is seen confirmed.
-/

namespace Sdp.Issuance

/-! ## The wait -/

/-- The poll ends the wait. -/
def Poll.ends (commitment : Commitment) : Poll → Bool
  | .error => true
  | .transient | .status none => false
  | .status (some s) => s.reaches commitment || s.err

def Poll.succeeds : Poll → Bool
  | .status (some s) => !s.err
  | _ => false

theorem confirmSubmitted_isSome (commitment : Commitment) (polls : List Poll) :
    (confirmSubmitted commitment polls).isSome = (polls.find? (Poll.ends commitment)).any Poll.succeeds := by
  unfold confirmSubmitted
  induction polls with
  | nil => rfl
  | cons poll polls ih =>
    cases poll with
    | error => rfl
    | transient => exact ih
    | status value =>
      cases value with
      | none => exact ih
      | some status =>
        unfold confirmTransaction
        by_cases hends : (status.reaches commitment || status.err) = true
        · rw [if_pos hends, List.find?_cons_of_pos (by exact hends)]
          cases herr : status.err <;> simp [Poll.succeeds, herr]
        · rw [if_neg hends, List.find?_cons_of_neg (by exact hends)]
          exact ih

/-- The transaction left the server, and the poll that ends the wait, if one does, is no success. -/
def Submission.leftOpen (t : Submission) : Bool :=
  t.send = .lost || t.send = .accepted && !(t.polls.find? (Poll.ends t.commitment)).any Poll.succeeds

theorem signAndSubmit_eq_none {t : Submission} (hlands : t.lands = true) :
    t.signAndSubmit = none ↔ t.leftOpen = true := by
  obtain ⟨hbuilt, hsend⟩ := t.sent hlands
  unfold Submission.signAndSubmit Submission.leftOpen
  rw [if_pos hbuilt, ← confirmSubmitted_isSome]
  cases h : t.send with
  | accepted => simp
  | rejected => exact absurd h hsend
  | lost => simp

/-! ## The handlers -/

/-- What the handler does after the submission has thrown. -/
def Operation.recordsFailure (op : Operation) (o : Steps) : Bool :=
  match op with
  | .burn | .forceBurn | .freeze => o.beginCritical && o.fail.changesRow
  | .unfreeze | .pause | .unpause => o.admitted && (o.beginCritical && o.fail.changesRow)
  | .deploy => o.admitted && (o.beginCritical && o.releaseTokenDeploy)

/-- The transaction lands although the wait has not seen it, and the failure gets written. -/
def Operation.misjudges (op : Operation) (o : Steps) : Bool :=
  o.submission.lands && o.submission.leftOpen && op.recordsFailure o

theorem rowAfter_confirmed_ne_failed (write : RowWrite) : rowAfter write .confirmed ≠ .failed := by
  cases write <;> decide

theorem rowAfter_failed_eq_failed (write : RowWrite) : rowAfter write .failed = .failed ↔ write.changesRow = true := by
  cases write <;> decide

theorem executeCritical_failed_and_effect (o : Steps) :
    ((executeCritical o).declaredFailed = true ∧ (executeCritical o).effect = true) ↔
      o.submission.lands = true ∧ o.submission.leftOpen = true ∧
        (o.beginCritical && o.fail.changesRow) = true := by
  unfold executeCritical Attempt.declaredFailed
  cases hlands : o.submission.lands with
  | false =>
    simp only [Bool.false_eq_true, false_and, iff_false, not_and]
    intro _
    split
    · split <;> simp
    · simp
  | true =>
    have hnone := signAndSubmit_eq_none hlands
    cases o.beginCritical with
    | false => simp
    | true =>
      cases hsubmit : o.submission.signAndSubmit with
      | some slot =>
        have hopen : o.submission.leftOpen ≠ true := fun h => by simp [hnone.mpr h] at hsubmit
        simp [rowAfter_confirmed_ne_failed, hopen]
      | none =>
        have hopen := hnone.mp hsubmit
        simp [hopen, rowAfter_failed_eq_failed]

theorem deployToken_failed_and_effect (o : Steps) :
    ((deployToken o).declaredFailed = true ∧ (deployToken o).effect = true) ↔
      o.submission.lands = true ∧ o.submission.leftOpen = true ∧
        (o.admitted && (o.beginCritical && o.releaseTokenDeploy)) = true := by
  unfold deployToken abandonDeploy Attempt.declaredFailed
  cases o.admitted with
  | false => simp
  | true =>
    cases o.beginCritical with
    | false => cases o.releaseTokenDeploy <;> simp
    | true =>
      cases hlands : o.submission.lands with
      | false =>
        cases o.submission.signAndSubmit with
        | some slot => by_cases hmetadata : o.updateMetadata = some false <;> simp [hmetadata]
        | none => cases o.releaseTokenDeploy <;> simp
      | true =>
        have hnone := signAndSubmit_eq_none hlands
        cases hsubmit : o.submission.signAndSubmit with
        | some slot =>
          have hopen : o.submission.leftOpen ≠ true := fun h => by simp [hnone.mpr h] at hsubmit
          by_cases hmetadata : o.updateMetadata = some false <;>
            simp [hmetadata, rowAfter_confirmed_ne_failed, hopen]
        | none =>
          have hopen := hnone.mp hsubmit
          cases o.releaseTokenDeploy <;> simp [hopen]

theorem failed_and_effect_iff (op : Operation) (o : Steps) :
    ((op.execute o).declaredFailed = true ∧ (op.execute o).effect = true) ↔ op.misjudges o = true := by
  have hmisjudges : op.misjudges o = true ↔
      o.submission.lands = true ∧ o.submission.leftOpen = true ∧ op.recordsFailure o = true := by
    simp [Operation.misjudges, and_assoc]
  rw [hmisjudges]
  -- The checks before the audit intent send nothing.
  have hadmitted : ∀ refused : Attempt, refused.effect = false →
      (((if o.admitted then executeCritical o else refused).declaredFailed = true ∧
        (if o.admitted then executeCritical o else refused).effect = true) ↔
      o.submission.lands = true ∧ o.submission.leftOpen = true ∧
        (o.admitted && (o.beginCritical && o.fail.changesRow)) = true) := by
    intro refused hrefused
    cases o.admitted with
    | true => exact executeCritical_failed_and_effect o
    | false => simp [hrefused]
  cases op with
  | burn | forceBurn | freeze => exact executeCritical_failed_and_effect o
  | unfreeze => exact hadmitted _ rfl
  | pause | unpause => exact hadmitted _ rfl
  | deploy => exact deployToken_failed_and_effect o

/-! ## Retries -/

theorem effects_le_one (op : Operation) (os : List Steps) (h : ∀ o ∈ os, op.misjudges o = false) :
    op.effects os ≤ 1 := by
  induction os with
  | nil => exact Nat.zero_le _
  | cons o os ih =>
    have hrest := ih fun o' ho' => h o' (List.mem_cons_of_mem _ ho')
    have hnot : ¬ ((op.execute o).declaredFailed = true ∧ (op.execute o).effect = true) := by
      rw [failed_and_effect_iff, h o List.mem_cons_self]
      decide
    unfold Operation.effects
    by_cases hfailed : (op.execute o).declaredFailed = true
    · rw [if_pos hfailed, if_neg fun heffect => hnot ⟨hfailed, heffect⟩]
      omega
    · rw [if_neg hfailed]
      split <;> omega

/-- An operation that is declared failed has no effect exactly when it is not misjudged, and a caller that retries
only such operations brings about one effect at most. -/
theorem declared_failed_iff (op : Operation) :
    (∀ o, ((op.execute o).declaredFailed = true → (op.execute o).effect = false) ↔ op.misjudges o = false) ∧
      ∀ os, (∀ o ∈ os, op.misjudges o = false) → op.effects os ≤ 1 := by
  refine ⟨fun o => ?_, effects_le_one op⟩
  have hiff := failed_and_effect_iff op o
  rw [← Bool.not_eq_true (op.misjudges o), ← hiff, not_and, Bool.not_eq_true]

/-- Every step of the handler succeeds that is not a step of the submission. -/
def smooth (submission : Submission) : Steps :=
  { admitted := true
    refuse := .done
    beginCritical := true
    submission
    updateMetadata := none
    settle := .done
    recover := .done
    releaseTokenDeploy := true
    fail := .done }

/-- The preflight rejects it. -/
def rejectedSubmission : Submission :=
  { built := true, send := .rejected, commitment := .confirmed, polls := [], lands := false
    sent := by simp, final := by simp }

def confirmedSubmission : Submission :=
  { built := true, send := .accepted, commitment := .confirmed
    polls := [.status none, .transient, .status (some ⟨7, some .confirmed, false⟩)], lands := true
    sent := by simp, final := by simp }

/-- The cluster takes it, and it lands after the wait. -/
def timedOutSubmission : Submission :=
  { built := true, send := .accepted, commitment := .confirmed
    polls := [.status none, .status (some ⟨7, some .processed, false⟩)], lands := true
    sent := by simp, final := by simp [SignatureStatus.reaches, Commitment.rank] }

/-- A rejected burn is retried and burns once. -/
theorem retry_after_rejection :
    (Operation.burn.execute (smooth rejectedSubmission)).declaredFailed = true ∧
      Operation.burn.effects [smooth rejectedSubmission, smooth confirmedSubmission] ≤ 1 :=
  ⟨rfl, (declared_failed_iff .burn).2 _ (by decide)⟩

/-- An operation whose wait times out is declared failed. It lands, and so does the retry: two burns, two mints. -/
theorem timed_out_operations_land_twice :
    ([.burn, .forceBurn, .freeze, .unfreeze, .pause, .unpause, .deploy] : List Operation).all (fun op =>
      (op.execute (smooth timedOutSubmission)).declaredFailed && (op.execute (smooth timedOutSubmission)).effect &&
        op.effects [smooth timedOutSubmission, smooth confirmedSubmission] = 2) = true := by
  decide

end Sdp.Issuance
