import Sdp.Code.WorkflowExecutions

/-!
# Steps of the workflow engine

What one step can do to the executions, to the workers on them, to who holds them and to the log.
-/

open Sdp.Lib

namespace Sdp.Workflows

/-! ## What never changes of an execution -/

/-- The columns that no statement writes. -/
def WorkflowExecutionRow.identity (row : WorkflowExecutionRow) : WorkflowExecutionRow :=
  { row with
    status := .pending, result := "", attemptCount := 0, nextAttemptAt := none, lockedAt := none, error := none
    decidedBy := none, decidedAt := none, updatedAt := 0 }

def SameExecution (row row' : WorkflowExecutionRow) : Prop := row'.identity = row.identity

namespace SameExecution

instance : Std.Refl SameExecution := ⟨fun _ => rfl⟩

instance : IsTrans WorkflowExecutionRow SameExecution := ⟨fun _ _ _ h h' => h'.trans h⟩

variable {row row' : WorkflowExecutionRow}

theorem column {α : Type} (h : SameExecution row row') (f : WorkflowExecutionRow → α)
    (hf : ∀ row, f row.identity = f row) : f row' = f row := by
  rw [← hf row', ← hf row, h]

theorem actionType (h : SameExecution row row') : row'.actionType = row.actionType := h.column _ fun _ => rfl

theorem maxAttempts (h : SameExecution row row') : row'.maxAttempts = row.maxAttempts := h.column _ fun _ => rfl

theorem event (h : SameExecution row row') : row'.event = row.event := h.column _ fun _ => rfl

end SameExecution

theorem Verdict.same (now : Nat) (row : WorkflowExecutionRow) (verdict : Verdict) :
    SameExecution row (verdict.set now row) := by
  cases verdict <;> rfl

/-! ## Verdicts -/

/-- Only a run that may be tried again without a human is rescheduled. -/
def Verdict.permitted (claimed : WorkflowExecutionRow) : Verdict → Bool
  | .reschedule _ _ => !claimed.actionType.gated && !claimed.exhausted
  | _ => true

theorem permitted_verdictOn (claimed : WorkflowExecutionRow) (nextAttemptAt : Nat) (outcome : ActionExecutionResult) :
    (verdictOn claimed nextAttemptAt outcome).permitted claimed = true := by
  unfold verdictOn
  split
  · rfl
  · split
    · rfl
    · next h =>
      simp only [Bool.or_eq_true, not_or, Bool.not_eq_true] at h
      simp [Verdict.permitted, h.1.1, h.2]

theorem permitted_verdictOnThrow (claimed : WorkflowExecutionRow) (nextAttemptAt : Nat) (message : String) :
    (verdictOnThrow claimed nextAttemptAt message).permitted claimed = true := by
  unfold verdictOnThrow
  split
  · rfl
  · next h =>
    simp only [Bool.or_eq_true, not_or, Bool.not_eq_true] at h
    simp [Verdict.permitted, h.1, h.2]

namespace Stage

/-- The action has not been called yet. -/
def fresh : Stage → Bool
  | .claimed | .ruleChecked _ | .guarded _ => true
  | _ => false

/-- A verdict that waits to be written is a permitted one. -/
def ok (claimed : WorkflowExecutionRow) : Stage → Bool
  | .deciding _ verdict => verdict.permitted claimed
  | _ => true

end Stage

theorem ok_afterGuard {α : Type} {next : α → Stage} {claimed : WorkflowExecutionRow}
    (hnext : ∀ a, (next a).ok claimed = true) (result : Except String α) :
    (Engine.afterGuard next result).ok claimed = true := by
  cases result with
  | ok a => exact hnext a
  | error message => rfl

/-! ## Moves -/

/-- The row is being processed. -/
def Engine.processing (s : Engine) (id : Id) : Bool := s.executions.matches? id (·.status = .processing)

/-- What a step can do. The label tells only how an execution is taken from whoever processes it. -/
inductive Move (s : Engine) (l : Step) (t : Engine) : Prop
  | quiet (hexecutions : t.executions = s.executions) (hworkers : t.workers = s.workers) (hholder : t.holder = s.holder)
      (hlog : t.log = s.log)
  | create (row : WorkflowExecutionRow) (hid : s.executions.find? row.id = none)
      (hevent : ∀ id r, s.executions.find? id = some r → r.event ≠ row.event)
      (hstatus : row.status = .awaitingReview ∨ row.status = .pending ∧ row.actionType.gated = false)
      (hattempts : row.attemptCount = 0) (hmax : 0 < row.maxAttempts)
      (hexecutions : t.executions = s.executions.insertNew row) (hworkers : t.workers = s.workers)
      (hholder : t.holder = s.holder) (hlog : t.log = s.log)
  | decide (decision : Decision) (decider : Decider) (row : WorkflowExecutionRow) (now : Nat)
      (hrow : s.executions.find? row.id = some row) (hstatus : row.status = decision.source)
      (hpermitted : assertWorkflowActionPermitted decider row.actionType = true)
      (hexecutions : t.executions = s.executions.update row.id (·.status = decision.source)
        (·.decide decision.target decider.id now) (·.id_decide decision.target decider.id now))
      (hworkers : t.workers = s.workers) (hholder : t.holder = s.holder)
      (hlog : t.log = .decided row.id decision decider :: s.log)
  | withdraw (workflowId organizationId projectId : Id) (now : Nat)
      (hexecutions : t.executions =
        s.executions.updateAll (·.openFor workflowId organizationId projectId) (·.withdraw now) (·.id_withdraw now))
      (hworkers : t.workers = s.workers) (hholder : t.holder = s.holder) (hlog : t.log = s.log)
  | claim (row : WorkflowExecutionRow) (n tick now : Nat) (stage : Stage) (hrow : s.executions.find? row.id = some row)
      (hstatus : row.status = .pending) (hn : s.workers.find? n = none) (hstage : stage = .claimed ∨ stage = .done)
      (hexecutions : t.executions = claimExecution s.executions row.id now)
      (hworkers : t.workers = s.workers.insertNew ⟨n, tick, row.claim now, stage⟩)
      (hholder : t.holder = Function.update s.holder row.id (some n)) (hlog : t.log = .claimed row.id n :: s.log)
  | advance (n : Nat) (stage : Stage)
      (hstage : stage = .done ∨ ∃ worker, s.workers.find? n = some worker ∧ worker.live = true ∧
        stage.ok worker.claimed = true ∧ (stage.fresh = true → worker.stage.fresh = true))
      (hexecutions : t.executions = s.executions) (hworkers : t.workers = (s.setStage n stage).workers)
      (hholder : t.holder = s.holder) (hlog : t.log = s.log)
  | dispatch (worker : Worker) (guard : Guard) (minutes : Nat) (hworker : s.workers.find? worker.claim = some worker)
      (hstage : worker.stage = .guarded guard) (hexecutions : t.executions = s.executions)
      (hworkers : t.workers = (s.setStage worker.claim (.dispatched minutes)).workers) (hholder : t.holder = s.holder)
      (hlog : t.log = .dispatched worker.tick worker.claim worker.claimed.id worker.claimed.workflowId :: s.log)
  | write (worker : Worker) (now : Nat) (verdict : Verdict) (stage : Stage) (lost : Bool)
      (hworker : s.workers.find? worker.claim = some worker) (hlive : worker.live = true)
      (hstale : worker.stage.fresh = false) (hpermitted : verdict.permitted worker.claimed = true)
      (hstage : stage = .done ∧ lost = false ∨
        stage.fresh = false ∧ stage ≠ .done ∧ stage.ok worker.claimed = true ∧ lost = true)
      (hexecutions : t.executions = verdict.write s.executions worker.claimed.id now)
      (hworkers : t.workers = (s.setStage worker.claim stage).workers)
      (hholder : t.holder =
        if s.processing worker.claimed.id then Function.update s.holder worker.claimed.id none else s.holder)
      (hlog : t.log = (if lost then [.disturbed worker.claimed.id] else []) ++ s.log)
      (hlabel : lost = true → ∃ n message, l = .write n now .lost message)
  | take (rows : List WorkflowExecutionRow) (set : WorkflowExecutionRow → WorkflowExecutionRow)
      (hset : ∀ row, (set row).id = row.id) (refunds : Bool) (hrows : ∀ row ∈ rows, s.executions.find? row.id = some row)
      (hnodup : (rows.map (·.id)).Nodup) (hstatus : ∀ row ∈ rows, row.status = .processing)
      (hgated : ∀ row ∈ rows, row.actionType.gated = !refunds)
      (heffect : ∀ row, SameExecution row (set row) ∧
        if refunds then (set row).status = .pending ∧ (set row).attemptCount = row.attemptCount - 1
        else (set row).status = .failed ∧ (set row).attemptCount = row.attemptCount)
      (hexecutions : t.executions = s.executions.updateAll (fun row => row ∈ rows) set hset)
      (hworkers : t.workers = s.workers) (hholder : t.holder = (s.takeFrom (rows.map (·.id))).holder)
      (hlog : t.log = (if refunds then (rows.map (·.id)).map LogEntry.refunded else []) ++
        (s.takeFrom (rows.map (·.id))).log)
      (hlabel : ∃ no now, l = .park no now rows ∨ l = .recover no now rows)

/-! ## What each operation does -/

/-- The verdicts that wait to be written are permitted ones. -/
def StagesOk (s : Engine) : Prop := ∀ n worker, s.workers.find? n = some worker → worker.stage.ok worker.claimed = true

variable {s t : Engine} {l : Step}

theorem firstRows_spec {ρ : Type} [DecidableEq ρ] {limit : Nat} {at_ : ρ → Nat} {candidates rows : List ρ}
    (h : firstRows limit at_ candidates rows = true) : rows.Nodup ∧ ∀ row ∈ rows, row ∈ candidates := by
  simp only [firstRows, Bool.and_eq_true, decide_eq_true_eq, List.all_eq_true] at h
  exact ⟨h.1.1.1.1, h.1.1.1.2⟩

theorem maxAttempts_newExecution_pos (rule : AssetWorkflowRow) (event : WorkflowEvent) (id : Id) (now : Nat) :
    0 < (newExecution rule event id now).maxAttempts := by
  simp only [newExecution]
  cases rule.definition.retryPolicy with
  | none => exact Nat.succ_pos 4
  | some policy => exact policy.pos

theorem status_newExecution (rule : AssetWorkflowRow) (event : WorkflowEvent) (id : Id) (now : Nat) :
    (newExecution rule event id now).status = .awaitingReview ∨
      (newExecution rule event id now).status = .pending ∧ (newExecution rule event id now).actionType.gated = false := by
  simp only [newExecution, initialStatus]
  split
  · exact .inl rfl
  · next h =>
    rw [not_or, Bool.not_eq_true] at h
    exact .inr ⟨rfl, h.2⟩

theorem move_enqueue {evaluateCondition : Option String → String → Bool} {no now : Nat} {id : Id}
    (h : s.enqueue? evaluateCondition no id now = some t) : Move s l t := by
  unfold Engine.enqueue? at h
  split at h
  · next event rule rules enqueued hdelivery =>
    dsimp only at h
    split at h
    · cases h
      exact .quiet rfl rfl rfl rfl
    · split at h
      · next hid =>
        cases h
        by_cases hany : (s.executions.rows.any (·.event = (newExecution rule event id now).event)) = true
        · exact .quiet (if_pos hany) rfl rfl rfl
        · refine .create (newExecution rule event id now) hid (fun id' r hr hevent => hany ?_) (status_newExecution ..) rfl
            (maxAttempts_newExecution_pos ..) (if_neg hany) rfl rfl rfl
          exact List.any_eq_true.mpr ⟨r, (Table.find?_eq_some_iff.mp hr).1, decide_eq_true hevent⟩
      · cases h
  · cases h

theorem move_decide {decision : Decision} {decider : Decider} {id organizationId projectId tokenId : Id} {now : Nat}
    (h : s.decide? decision decider id organizationId projectId tokenId now = some t) : Move s l t := by
  unfold Engine.decide? at h
  split at h
  · cases h
  · next row hrow =>
    split at h
    · next hguard =>
      cases h
      obtain rfl := Table.key_of_find? hrow
      exact .decide decision decider row now hrow hguard.2.2.2.2 hguard.2.2.2.1 rfl rfl rfl rfl
    · cases h

theorem staleRows {staleBefore : Nat} (gated : WorkflowExecutionRow → Bool) {rows : List WorkflowExecutionRow}
    (h : firstRows batchSize (·.lockedAt.getD 0)
      (s.executions.rows.filter fun row => row.stale staleBefore && gated row) rows = true) :
    (rows.map (·.id)).Nodup ∧ ∀ row ∈ rows,
      s.executions.find? row.id = some row ∧ row.status = .processing ∧ gated row = true := by
  obtain ⟨hnodup, hmem⟩ := firstRows_spec h
  have hrow : ∀ row ∈ rows, s.executions.find? row.id = some row ∧ row.status = .processing ∧ gated row = true := by
    intro row hr
    obtain ⟨htable, hguard⟩ := List.mem_filter.mp (hmem row hr)
    simp only [WorkflowExecutionRow.stale, Bool.and_eq_true, decide_eq_true_eq] at hguard
    exact ⟨Table.mem_rows_iff.mp htable, hguard.1.1, hguard.2⟩
  refine ⟨hnodup.map_on fun a ha b hb heq => ?_, hrow⟩
  exact Option.some.inj ((hrow a ha).1.symm.trans ((congrArg _ heq).trans (hrow b hb).1))

theorem move_park {no now : Nat} {rows : List WorkflowExecutionRow} (h : s.park? no now rows = some t) :
    Move s (.park no now rows) t := by
  unfold Engine.park? at h
  split at h
  · dsimp only at h
    split at h
    · next hguard =>
      cases h
      obtain ⟨hnodup, hrows⟩ := staleRows (fun row => row.actionType.gated) hguard.2
      exact .take rows (·.park now) (·.id_park now) false (fun row hr => (hrows row hr).1) hnodup
        (fun row hr => (hrows row hr).2.1) (fun row hr => (hrows row hr).2.2) (fun _ => ⟨rfl, rfl, rfl⟩) rfl rfl rfl rfl
        ⟨no, now, .inl rfl⟩
    · cases h
  · cases h

theorem move_recover {no now : Nat} {rows : List WorkflowExecutionRow} (h : s.recover? no now rows = some t) :
    Move s (.recover no now rows) t := by
  unfold Engine.recover? at h
  split at h
  · dsimp only at h
    split at h
    · next hguard =>
      cases h
      obtain ⟨hnodup, hrows⟩ := staleRows (fun row => !row.actionType.gated) hguard.2
      exact .take rows (·.recover now) (·.id_recover now) true (fun row hr => (hrows row hr).1) hnodup
        (fun row hr => (hrows row hr).2.1) (fun row hr => by simpa using (hrows row hr).2.2)
        (fun _ => ⟨rfl, rfl, rfl⟩) rfl rfl rfl rfl ⟨no, now, .inr rfl⟩
    · cases h
  · cases h

theorem move_claim {no n now : Nat} {row : WorkflowExecutionRow} {outcome : CallOutcome}
    (h : s.claim? no row n now outcome = some t) : Move s l t := by
  unfold Engine.claim? at h
  split at h
  · split at h
    · next hguard =>
      dsimp only at h
      split at h
      · cases h
        exact .quiet rfl rfl rfl rfl
      · cases h
        exact .quiet rfl rfl rfl rfl
      · cases h
        exact .quiet rfl rfl rfl rfl
      · next claimed hclaimed =>
        cases h
        obtain ⟨row₀, hrow₀, hstatus, rfl⟩ := Table.returning_eq_some.mp hclaimed
        have hid : row₀.id = row.id := Table.key_of_find? hrow₀
        rw [← hid] at hrow₀ ⊢
        refine .claim row₀ n no now _ hrow₀ (of_decide_eq_true hstatus) hguard.2.2 ?_ rfl rfl rfl rfl
        split
        · exact .inl rfl
        · exact .inr rfl
    · cases h
  · cases h

theorem move_loadRule {n : Nat} (h : s.loadRule? n = some t) : Move s l t := by
  unfold Engine.loadRule? at h
  split at h
  · next claim no claimed hworker =>
    split at h
    · dsimp only at h
      split at h
      all_goals
        cases h
        refine .advance n _ (.inr ⟨_, hworker, rfl, ok_afterGuard (fun _ => rfl) _, fun _ => rfl⟩) rfl rfl rfl rfl
    · cases h
  · cases h

theorem move_loadGate {n : Nat} (h : s.loadGate? n = some t) : Move s l t := by
  unfold Engine.loadGate? at h
  split at h
  · next claim no claimed rule hworker =>
    split at h
    · dsimp only at h
      split at h
      all_goals
        cases h
        refine .advance n _ (.inr ⟨_, hworker, rfl, ok_afterGuard (fun _ => rfl) _, fun _ => rfl⟩) rfl rfl rfl rfl
    · cases h
  · cases h

theorem claim_of_find? {n : Nat} {worker : Worker} (h : s.workers.find? n = some worker) : worker.claim = n :=
  Table.key_of_find? h

theorem move_dispatch {n : Nat} (h : s.dispatch? n = some t) : Move s l t := by
  unfold Engine.dispatch? at h
  split at h
  · next claim tick claimed guard hworker =>
    cases h
    obtain rfl := claim_of_find? hworker
    exact .dispatch _ guard guard.retryAfterMinutes hworker rfl rfl rfl rfl rfl
  · cases h

theorem move_finish {n nextAttemptAt : Nat} {outcome : ActionExecutionResult}
    (h : s.finish? n outcome nextAttemptAt = some t) : Move s l t := by
  unfold Engine.finish? at h
  split at h
  · next claim no claimed minutes hworker =>
    split at h
    · split at h
      · cases h
        exact .advance n (.deciding minutes _) (.inr ⟨_, hworker, rfl, permitted_verdictOn .., nofun⟩) rfl rfl rfl rfl
      · cases h
    · cases h
  · cases h

theorem move_throw {n : Nat} {message : String} (h : s.throw? n message = some t) : Move s l t := by
  unfold Engine.throw? at h
  split at h
  · next hworker =>
    cases h
    exact .advance n (.rescuing defaultRetryAfterMinutes message) (.inr ⟨_, hworker, rfl, rfl, nofun⟩) rfl rfl rfl rfl
  · next hworker =>
    cases h
    exact .advance n (.rescuing defaultRetryAfterMinutes message) (.inr ⟨_, hworker, rfl, rfl, nofun⟩) rfl rfl rfl rfl
  · next minutes hworker =>
    cases h
    exact .advance n (.rescuing minutes message) (.inr ⟨_, hworker, rfl, rfl, nofun⟩) rfl rfl rfl rfl
  · cases h

theorem move_write (hok : StagesOk s) {n now : Nat} {outcome : CallOutcome} {message : String}
    (h : s.write? n now outcome message = some t) : Move s (.write n now outcome message) t := by
  unfold Engine.write? at h
  split at h
  · next claim tick claimed minutes verdict hworker =>
    have hpermitted := hok _ _ hworker
    cases outcome with
    | answered =>
      cases h
      obtain rfl := claim_of_find? hworker
      exact .write _ now verdict .done false hworker rfl rfl hpermitted (.inl ⟨rfl, rfl⟩) rfl rfl rfl rfl nofun
    | failed =>
      cases h
      exact .advance n (.rescuing minutes message) (.inr ⟨_, hworker, rfl, rfl, nofun⟩) rfl rfl rfl rfl
    | lost =>
      cases h
      obtain rfl := claim_of_find? hworker
      exact .write _ now verdict (.rescuing minutes message) true hworker rfl rfl hpermitted
        (.inr ⟨rfl, nofun, rfl, rfl⟩) rfl rfl rfl rfl fun _ => ⟨_, message, rfl⟩
  · cases h

theorem move_rescue {n now nextAttemptAt : Nat} {outcome : CallOutcome}
    (h : s.rescue? n now outcome nextAttemptAt = some t) : Move s l t := by
  unfold Engine.rescue? at h
  split at h
  · next claim no claimed minutes message hworker =>
    have hpermitted := permitted_verdictOnThrow claimed nextAttemptAt message
    split at h
    · split at h
      · obtain rfl := claim_of_find? hworker
        cases outcome with
        | answered | lost =>
          cases h
          exact .write _ now _ .done false hworker rfl rfl hpermitted (.inl ⟨rfl, rfl⟩) rfl rfl rfl rfl nofun
        | failed =>
          cases h
          exact .advance _ _ (.inl rfl) rfl rfl rfl rfl
      · cases h
    · cases h
  · cases h

theorem step_move {evaluateCondition : Option String → String → Bool} (hok : StagesOk s)
    (h : step evaluateCondition s l = some t) : Move s l t := by
  cases l with
  | enqueue no id now => exact move_enqueue h
  | decide decision decider id organizationId projectId tokenId now => exact move_decide h
  | cancelOpen workflowId organizationId projectId now =>
    cases h
    exact .withdraw workflowId organizationId projectId now rfl rfl rfl rfl
  | park no now rows => exact move_park h
  | recover no now rows => exact move_recover h
  | claim no row n now outcome => exact move_claim h
  | loadRule n => exact move_loadRule h
  | loadGate n => exact move_loadGate h
  | dispatch n => exact move_dispatch h
  | finish n outcome nextAttemptAt => exact move_finish h
  | throw n message => exact move_throw h
  | write n now outcome message => exact move_write hok h
  | rescue n now outcome nextAttemptAt => exact move_rescue h
  | die n =>
    cases h
    exact .advance n .done (.inl rfl) rfl rfl rfl rfl
  | updateWorkflow | deleteWorkflow | setGates | stop =>
    cases h
    exact .quiet rfl rfl rfl rfl
  | createWorkflow rule =>
    change s.createWorkflow? rule = some t at h
    unfold Engine.createWorkflow? at h
    split at h <;> cases h
    exact .quiet rfl rfl rfl rfl
  | deliver no event rules =>
    change s.deliver? no event rules = some t at h
    unfold Engine.deliver? at h
    split at h <;> cases h
    exact .quiet rfl rfl rfl rfl
  | startTick no now =>
    change s.startTick? no now = some t at h
    unfold Engine.startTick? at h
    split at h <;> cases h
    exact .quiet rfl rfl rfl rfl
  | list no rows =>
    change s.list? no rows = some t at h
    unfold Engine.list? at h
    split at h
    · split at h <;> cases h
      exact .quiet rfl rfl rfl rfl
    · cases h
  | shift no =>
    change s.shift? no = some t at h
    unfold Engine.shift? at h
    split at h
    · split at h
      · split at h <;> cases h
        exact .quiet rfl rfl rfl rfl
      · cases h
    · cases h

/-! ## Rows and workers after a move -/

theorem find?_setStage {n n' : Nat} {stage : Stage} {worker : Worker}
    (h : (s.setStage n stage).workers.find? n' = some worker) : ∃ worker₀, s.workers.find? n' = some worker₀ ∧
      (worker = worker₀ ∨ n' = n ∧ worker = worker₀.enter stage) := by
  obtain ⟨worker₀, h₀, rfl | ⟨hn, -, rfl⟩⟩ := Table.row_of_update (Worker.claim_enter stage) h
  · exact ⟨worker, h₀, .inl rfl⟩
  · exact ⟨worker₀, h₀, .inr ⟨hn, rfl⟩⟩

theorem Move.worker (h : Move s l t) {n : Nat} {worker : Worker} (hworker : t.workers.find? n = some worker) :
    (∃ row now stage, s.executions.find? row.id = some row ∧ row.status = .pending ∧ s.workers.find? n = none ∧
      worker.claimed = row.claim now ∧ (stage = .claimed ∨ stage = .done) ∧ worker.stage = stage ∧
      t.executions = claimExecution s.executions row.id now) ∨
    ∃ worker₀, s.workers.find? n = some worker₀ ∧ worker.claimed = worker₀.claimed ∧
      (worker.stage = worker₀.stage ∨ worker.stage.ok worker.claimed = true) := by
  have hsame (heq : t.workers = s.workers) : ∃ worker₀, s.workers.find? n = some worker₀ ∧
      worker.claimed = worker₀.claimed ∧ (worker.stage = worker₀.stage ∨ worker.stage.ok worker.claimed = true) :=
    ⟨worker, heq ▸ hworker, rfl, .inl rfl⟩
  have hset {n' : Nat} {stage : Stage} (heq : t.workers = (s.setStage n' stage).workers)
      (hok : ∀ worker₀, s.workers.find? n' = some worker₀ → stage.ok worker₀.claimed = true) :
      ∃ worker₀, s.workers.find? n = some worker₀ ∧
        worker.claimed = worker₀.claimed ∧ (worker.stage = worker₀.stage ∨ worker.stage.ok worker.claimed = true) := by
    obtain ⟨worker₀, h₀, rfl | ⟨rfl, rfl⟩⟩ := find?_setStage (heq ▸ hworker)
    · exact ⟨worker, h₀, rfl, .inl rfl⟩
    · exact ⟨worker₀, h₀, rfl, .inr (hok worker₀ h₀)⟩
  cases h with
  | quiet hexecutions hworkers | create row hid hevent hstatus hattempts hmax hexecutions hworkers
    | decide decision decider row now hrow hstatus hpermitted hexecutions hworkers
    | withdraw workflowId organizationId projectId now hexecutions hworkers
    | take rows set hset refunds hrows hnodup hstatus hgated heffect hexecutions hworkers => exact .inr (hsame hworkers)
  | claim row n' tick now stage hrow hstatus hn hstage hexecutions hworkers hholder hlog =>
    rw [hworkers, Table.find?_insertNew] at hworker
    split at hworker
    · next heq =>
      rw [heq, hn] at hworker
      cases hworker
      exact .inl ⟨row, now, stage, hrow, hstatus, heq ▸ hn, rfl, hstage, rfl, hexecutions⟩
    · exact .inr ⟨worker, hworker, rfl, .inl rfl⟩
  | advance n' stage hstage hexecutions hworkers hholder hlog =>
    refine .inr (hset hworkers fun worker₀ h₀ => ?_)
    rcases hstage with rfl | ⟨worker', h', -, hok, -⟩
    · rfl
    · exact Option.some.inj (h₀.symm.trans h') ▸ hok
  | dispatch worker' guard minutes h' hstage hexecutions hworkers hholder hlog =>
    exact .inr (hset hworkers fun _ _ => rfl)
  | write worker' now verdict stage lost h' hlive hstale hpermitted hstage hexecutions hworkers hholder hlog =>
    refine .inr (hset hworkers fun worker₀ h₀ => ?_)
    rcases hstage with ⟨rfl, -⟩ | ⟨-, -, hok, -⟩
    · rfl
    · exact Option.some.inj (h₀.symm.trans h') ▸ hok

theorem Move.stagesOk (h : Move s l t) (hok : StagesOk s) : StagesOk t := by
  intro n worker hworker
  rcases h.worker hworker with ⟨row, now, stage, -, -, -, -, hstage, hworker, -⟩ | ⟨worker₀, h₀, hclaimed, hstage⟩
  · rw [hworker]
    rcases hstage with rfl | rfl <;> rfl
  · rcases hstage with hstage | hstage
    · rw [hstage, hclaimed]
      exact hok n worker₀ h₀
    · exact hstage

theorem Move.evolves (h : Move s l t) : Table.Evolves SameExecution s.executions t.executions := by
  cases h with
  | quiet hexecutions | advance n stage hstage hexecutions | dispatch worker guard minutes hworker hstage hexecutions =>
    rw [hexecutions]
    exact Table.Evolves.refl
  | create row hid hevent hstatus hattempts hmax hexecutions =>
    rw [hexecutions]
    exact Table.evolves_insertNew row
  | decide decision decider row now hrow hstatus hpermitted hexecutions
    | claim row n tick now stage hrow hstatus hn hstage hexecutions =>
    rw [hexecutions]
    exact Table.evolves_update _ fun _ _ _ => rfl
  | write worker now verdict stage lost hworker hlive hstale hpermitted hstage hexecutions =>
    rw [hexecutions]
    exact Table.evolves_update _ fun row _ _ => verdict.same now row
  | withdraw workflowId organizationId projectId now hexecutions =>
    rw [hexecutions]
    exact Table.evolves_updateAll _ fun _ => rfl
  | take rows set hset refunds hrows hnodup hstatus hgated heffect hexecutions =>
    rw [hexecutions]
    exact Table.evolves_updateAll _ fun row => (heffect row).1

end Sdp.Workflows
