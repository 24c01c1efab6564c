import Sdp.WorkflowSteps

/-!
# Executions of approval-gated actions

Such an execution is dispatched at most once for each time that somebody with the permission let it run, and an event
that is delivered again makes no second execution of a rule.
-/

open Sdp.Lib

namespace Sdp.Workflows

/-! ## What the log counts -/

namespace LogEntry

def claims (id : Id) : LogEntry → Bool
  | .claimed execution _ => execution = id
  | _ => false

def dispatches (id : Id) : LogEntry → Bool
  | .dispatched _ _ execution _ => execution = id
  | _ => false

/-- Somebody who may administer tokens approved or retried the execution. -/
def releases (id : Id) : LogEntry → Bool
  | .decided execution decision decider =>
    execution = id && decision ≠ .cancel &&
      (decider.permissions.contains "*" || decider.permissions.contains "tokens:admin")
  | _ => false

end LogEntry

namespace Engine

def claims (s : Engine) (id : Id) : Nat := s.log.countP (·.claims id)

def dispatches (s : Engine) (id : Id) : Nat := s.log.countP (·.dispatches id)

def releases (s : Engine) (id : Id) : Nat := s.log.countP (·.releases id)

end Engine

/-- What a worker that has not called its action yet counts for. -/
def Worker.freshOn (id : Id) (worker : Worker) : Nat := if worker.claimed.id = id ∧ worker.stage.fresh = true then 1 else 0

/-! ## The invariant -/

/-- What an execution may still do without another decision. -/
def WorkflowExecutionRow.ready (row : WorkflowExecutionRow) : Nat := if row.status = .pending then 1 else 0

structure Released (s : Engine) : Prop where
  stages : StagesOk s
  seen : ∀ n worker, s.workers.find? n = some worker → s.executions.Seen SameExecution worker.claimed
  events : ∀ id id' r r', s.executions.find? id = some r → s.executions.find? id' = some r' → r.event = r'.event → id = id'
  unknown : ∀ id, s.executions.find? id = none → s.claims id = 0
  released : ∀ id row, s.executions.find? id = some row → row.actionType.gated = true →
    s.claims id + row.ready ≤ s.releases id
  dispatched : ∀ id, s.dispatches id + s.workers.sum (Worker.freshOn id) ≤ s.claims id

theorem released_init : Released Engine.init := by
  refine ⟨fun _ _ h => ?_, fun _ _ h => ?_, fun _ _ _ _ h => ?_, fun _ _ => rfl, fun _ _ h => ?_, fun _ => Nat.le_refl 0⟩
  all_goals cases h

variable {s t : Engine} {l : Step}

/-! ## The row of an id after a move -/

theorem sameRow (h : t.executions = s.executions) {id : Id} {row : WorkflowExecutionRow}
    (hrow : t.executions.find? id = some row) : s.executions.find? id = some row := h ▸ hrow

theorem Move.events (h : Move s l t)
    (hs : ∀ id id' r r', s.executions.find? id = some r → s.executions.find? id' = some r' → r.event = r'.event → id = id') :
    ∀ id id' r r', t.executions.find? id = some r → t.executions.find? id' = some r' → r.event = r'.event → id = id' := by
  -- A row of before keeps its event, and a new one has an event of its own.
  have hold (hback : ∀ id r, t.executions.find? id = some r → ∃ r₀, s.executions.find? id = some r₀ ∧ SameExecution r₀ r) :
      ∀ id id' r r', t.executions.find? id = some r → t.executions.find? id' = some r' → r.event = r'.event → id = id' := by
    intro id id' r r' hr hr' heq
    obtain ⟨r₀, h₀, hsame⟩ := hback id r hr
    obtain ⟨r₀', h₀', hsame'⟩ := hback id' r' hr'
    exact hs id id' r₀ r₀' h₀ h₀' (by rw [← hsame.event, ← hsame'.event, heq])
  cases h with
  | quiet hexecutions | advance n stage hstage hexecutions | dispatch worker guard minutes hworker hstage hexecutions =>
    exact hold fun id r hr => ⟨r, sameRow hexecutions hr, rfl⟩
  | create row hid hevent hstatus hattempts hmax hexecutions =>
    intro id id' r r' hr hr' heq
    rw [hexecutions, Table.find?_insertNew] at hr hr'
    split at hr <;> split at hr'
    · next h h' => rw [h, h']
    · next h h' =>
      rw [h, hid] at hr
      cases hr
      exact absurd heq.symm (hevent id' r' hr')
    · next h h' =>
      rw [h', hid] at hr'
      cases hr'
      exact absurd heq (hevent id r hr)
    · exact hs id id' r r' hr hr' heq
  | decide decision decider row now hrow hstatus hpermitted hexecutions
    | claim row n tick now stage hrow hstatus hn hstage hexecutions =>
    refine hold fun id r hr => ?_
    rw [hexecutions] at hr
    obtain ⟨r₀, h₀, rfl | ⟨-, -, rfl⟩⟩ := Table.row_of_update _ hr
    · exact ⟨_, h₀, rfl⟩
    · exact ⟨r₀, h₀, rfl⟩
  | write worker now verdict stage lost hworker hlive hstale hpermitted hstage hexecutions =>
    refine hold fun id r hr => ?_
    rw [hexecutions] at hr
    obtain ⟨r₀, h₀, rfl | ⟨-, -, rfl⟩⟩ := Table.row_of_update _ hr
    · exact ⟨_, h₀, rfl⟩
    · exact ⟨r₀, h₀, verdict.same now r₀⟩
  | withdraw workflowId organizationId projectId now hexecutions =>
    refine hold fun id r hr => ?_
    rw [hexecutions] at hr
    obtain ⟨r₀, h₀, ⟨-, rfl⟩ | ⟨-, rfl⟩⟩ := Table.row_of_updateAll _ hr
    · exact ⟨_, h₀, rfl⟩
    · exact ⟨r₀, h₀, rfl⟩
  | take rows set hset refunds hrows hnodup hstatus hgated heffect hexecutions =>
    refine hold fun id r hr => ?_
    rw [hexecutions] at hr
    obtain ⟨r₀, h₀, ⟨-, rfl⟩ | ⟨-, rfl⟩⟩ := Table.row_of_updateAll _ hr
    · exact ⟨_, h₀, rfl⟩
    · exact ⟨r₀, h₀, (heffect r₀).1⟩

/-! ## What a move adds to the log -/

theorem count_same (p : LogEntry → Bool) (h : t.log = s.log) : t.log.countP p = s.log.countP p := by rw [h]

theorem count_cons (p : LogEntry → Bool) {entry : LogEntry} (h : t.log = entry :: s.log) :
    t.log.countP p = s.log.countP p + (p entry).toNat := by
  rw [h, List.countP_cons]
  cases p entry <;> rfl

theorem count_aside (p : LogEntry → Bool) (hrefunded : ∀ id, p (.refunded id) = false)
    (hdisturbed : ∀ id, p (.disturbed id) = false) {refunded disturbed : List Id}
    (h : t.log = refunded.map LogEntry.refunded ++ (disturbed.map LogEntry.disturbed ++ s.log)) :
    t.log.countP p = s.log.countP p := by
  have hnone (ids : List Id) (f : Id → LogEntry) (hf : ∀ id', p (f id') = false) : (ids.map f).countP p = 0 := by
    rw [List.countP_eq_zero]
    intro entry hentry
    obtain ⟨id', -, rfl⟩ := List.mem_map.mp hentry
    simp [hf id']
  rw [h, List.countP_append, List.countP_append, hnone _ _ hrefunded, hnone _ _ hdisturbed, Nat.zero_add, Nat.zero_add]

theorem log_take {refunds : Bool} {ids : List Id}
    (h : t.log = (if refunds then ids.map LogEntry.refunded else []) ++ (s.takeFrom ids).log) :
    t.log = (if refunds then ids else []).map LogEntry.refunded ++ ((ids.filter s.held).map LogEntry.disturbed ++ s.log) := by
  rw [h]
  cases refunds <;> rfl

theorem log_write {lost : Bool} {id : Id} (h : t.log = (if lost then [.disturbed id] else []) ++ s.log) :
    t.log = ([] : List Id).map LogEntry.refunded ++ ((if lost then [id] else []).map LogEntry.disturbed ++ s.log) := by
  rw [h]
  cases lost <;> rfl

theorem Move.claims (h : Move s l t) (id : Id) : t.claims id = s.claims id ∨
    t.claims id = s.claims id + 1 ∧ ∃ row, s.executions.find? id = some row ∧ row.status = .pending ∧
      ∃ now, t.executions = claimExecution s.executions id now := by
  cases h with
  | quiet _ _ _ hlog | create _ _ _ _ _ _ _ _ _ hlog | withdraw _ _ _ _ _ _ _ hlog | advance _ _ _ _ _ _ hlog =>
    exact .inl (count_same _ hlog)
  | decide _ _ _ _ _ _ _ _ _ _ hlog | dispatch _ _ _ _ _ _ _ _ hlog => exact .inl (count_cons _ hlog)
  | claim row n tick now stage hrow hstatus hn hstage hexecutions hworkers hholder hlog =>
    have hcount : t.claims id = s.claims id + (Decidable.decide (row.id = id)).toNat := count_cons (·.claims id) hlog
    by_cases hid : row.id = id
    · subst hid
      exact .inr ⟨by simpa using hcount, row, hrow, hstatus, now, hexecutions⟩
    · exact .inl (by simpa [hid] using hcount)
  | write _ _ _ _ lost _ _ _ _ _ _ _ _ hlog =>
    exact .inl (count_aside _ (fun _ => rfl) (fun _ => rfl) (log_write hlog))
  | take _ _ _ _ _ _ _ _ _ _ _ _ hlog => exact .inl (count_aside _ (fun _ => rfl) (fun _ => rfl) (log_take hlog))

theorem Move.releases_le (h : Move s l t) (id : Id) : s.releases id ≤ t.releases id := by
  cases h with
  | quiet _ _ _ hlog | create _ _ _ _ _ _ _ _ _ hlog | withdraw _ _ _ _ _ _ _ hlog | advance _ _ _ _ _ _ hlog =>
    exact Nat.le_of_eq (count_same _ hlog).symm
  | decide _ _ _ _ _ _ _ _ _ _ hlog | dispatch _ _ _ _ _ _ _ _ hlog | claim _ _ _ _ _ _ _ _ _ _ _ _ hlog =>
    exact (Nat.le_add_right ..).trans_eq (count_cons _ hlog).symm
  | write _ _ _ _ _ _ _ _ _ _ _ _ _ hlog =>
    exact Nat.le_of_eq (count_aside _ (fun _ => rfl) (fun _ => rfl) (log_write hlog)).symm
  | take _ _ _ _ _ _ _ _ _ _ _ _ hlog =>
    exact Nat.le_of_eq (count_aside _ (fun _ => rfl) (fun _ => rfl) (log_take hlog)).symm

theorem Move.ready (h : Move s l t) (hs : Released s) {id : Id} {row' : WorkflowExecutionRow}
    (hrow' : t.executions.find? id = some row') (hgated : row'.actionType.gated = true) :
    s.executions.find? id = none ∧ row'.ready = 0 ∨
      ∃ row, s.executions.find? id = some row ∧ row.actionType.gated = true ∧
        (row'.ready ≤ row.ready ∨ s.releases id + 1 ≤ t.releases id) := by
  cases h with
  | quiet hexecutions | advance n stage hstage hexecutions | dispatch worker guard minutes hworker hstage hexecutions =>
    exact .inr ⟨row', sameRow hexecutions hrow', hgated, .inl (Nat.le_refl _)⟩
  | create row hid hevent hstatus hattempts hmax hexecutions =>
    rw [hexecutions, Table.find?_insertNew] at hrow'
    split at hrow'
    · next h =>
      subst h
      rw [hid] at hrow'
      cases hrow'
      refine .inl ⟨hid, ?_⟩
      rcases hstatus with hstatus | ⟨-, hauto⟩
      · rw [WorkflowExecutionRow.ready, hstatus]
        rfl
      · rw [hgated] at hauto
        cases hauto
    · exact .inr ⟨row', hrow', hgated, .inl (Nat.le_refl _)⟩
  | decide decision decider row now hrow hstatus hpermitted hexecutions hworkers hholder hlog =>
    rw [hexecutions] at hrow'
    obtain ⟨row₀, h₀, rfl | ⟨rfl, -, rfl⟩⟩ := Table.row_of_update _ hrow'
    · exact .inr ⟨_, h₀, hgated, .inl (Nat.le_refl _)⟩
    · obtain rfl : row₀ = row := Option.some.inj (h₀.symm.trans hrow)
      refine .inr ⟨row₀, h₀, hgated, ?_⟩
      have hadmin : permissionForWorkflowAction row₀.actionType = "tokens:admin" := by
        have htier : (resolveWorkflowAction row₀.actionType).execution = .requiresApproval := of_decide_eq_true hgated
        rw [permissionForWorkflowAction, htier]
        rfl
      rw [assertWorkflowActionPermitted, hadmin] at hpermitted
      cases decision with
      | cancel => exact .inl (Nat.zero_le _)
      | approve | retry =>
        have hcount := count_cons (·.releases row₀.id) hlog
        rw [show LogEntry.releases row₀.id (.decided row₀.id _ decider) = true by simpa [LogEntry.releases] using hpermitted]
          at hcount
        exact .inr (Nat.le_of_eq hcount.symm)
  | withdraw workflowId organizationId projectId now hexecutions =>
    rw [hexecutions] at hrow'
    obtain ⟨row₀, h₀, ⟨-, rfl⟩ | ⟨-, rfl⟩⟩ := Table.row_of_updateAll _ hrow'
    · exact .inr ⟨_, h₀, hgated, .inl (Nat.le_refl _)⟩
    · exact .inr ⟨row₀, h₀, hgated, .inl (Nat.zero_le _)⟩
  | claim row n tick now stage hrow hstatus hn hstage hexecutions =>
    rw [hexecutions] at hrow'
    obtain ⟨row₀, h₀, rfl | ⟨-, -, rfl⟩⟩ := Table.row_of_update _ hrow'
    · exact .inr ⟨_, h₀, hgated, .inl (Nat.le_refl _)⟩
    · exact .inr ⟨row₀, h₀, hgated, .inl (Nat.zero_le _)⟩
  | write worker now verdict stage lost hworker hlive hstale hpermitted hstage hexecutions =>
    rw [hexecutions] at hrow'
    obtain ⟨row₀, h₀, rfl | ⟨rfl, -, rfl⟩⟩ := Table.row_of_update _ hrow'
    · exact .inr ⟨_, h₀, hgated, .inl (Nat.le_refl _)⟩
    · rw [(verdict.same now row₀).actionType] at hgated
      refine .inr ⟨row₀, h₀, hgated, .inl ?_⟩
      cases verdict with
      | complete | fail => exact Nat.zero_le _
      | reschedule error nextAttemptAt =>
        obtain ⟨row₁, h₁, hsame⟩ := hs.seen _ worker hworker
        obtain rfl : row₀ = row₁ := Option.some.inj (h₀.symm.trans h₁)
        rw [Verdict.permitted, ← hsame.actionType, hgated] at hpermitted
        cases hpermitted
  | take rows set hset refunds hrows hnodup hstatus hgated' heffect hexecutions =>
    rw [hexecutions] at hrow'
    obtain ⟨row₀, h₀, ⟨-, rfl⟩ | ⟨hmem, rfl⟩⟩ := Table.row_of_updateAll _ hrow'
    · exact .inr ⟨_, h₀, hgated, .inl (Nat.le_refl _)⟩
    · obtain ⟨hsame, hset'⟩ := heffect row₀
      rw [hsame.actionType] at hgated
      rw [hgated' row₀ (of_decide_eq_true hmem)] at hgated
      cases refunds with
      | true => cases hgated
      | false =>
        refine .inr ⟨row₀, h₀, by rw [hgated' row₀ (of_decide_eq_true hmem)]; rfl, .inl ?_⟩
        rw [WorkflowExecutionRow.ready, if_neg (by simp [hset'.1])]
        exact Nat.zero_le _

theorem Move.released (h : Move s l t) (hs : Released s) {id : Id} {row' : WorkflowExecutionRow}
    (hrow' : t.executions.find? id = some row') (hgated : row'.actionType.gated = true) :
    t.claims id + row'.ready ≤ t.releases id := by
  have hle := h.releases_le id
  rcases h.claims id with hclaims | ⟨hclaims, row, hrow, hpending, now, hexecutions⟩
  · rcases h.ready hs hrow' hgated with ⟨hnone, hready⟩ | ⟨row, hrow, hgated, hready⟩
    · rw [hclaims, hs.unknown id hnone, hready]
      exact Nat.zero_le _
    · have hbefore := hs.released id row hrow hgated
      have hone : row'.ready ≤ 1 := by
        unfold WorkflowExecutionRow.ready
        split <;> decide
      omega
  · rw [hexecutions] at hrow'
    have hclaimed : (claimExecution s.executions id now).find? id = some (row.claim now) := by
      unfold claimExecution
      rw [Table.find?_update, if_pos rfl, hrow, Option.map_some, if_pos (decide_eq_true hpending)]
    obtain rfl : row.claim now = row' := Option.some.inj (hclaimed.symm.trans hrow')
    have hbefore := hs.released id row hrow hgated
    rw [WorkflowExecutionRow.ready, if_pos hpending] at hbefore
    rw [hclaims, WorkflowExecutionRow.ready, if_neg nofun]
    omega

/-! ## Dispatches -/

theorem freshOn_enter (id : Id) (worker : Worker) (stage : Stage) :
    (worker.enter stage).freshOn id = if worker.claimed.id = id ∧ stage.fresh = true then 1 else 0 := rfl

theorem sum_setStage {n : Nat} {worker : Worker} (h : s.workers.find? n = some worker) (stage : Stage) (f : Worker → Nat) :
    (s.setStage n stage).workers.sum f + f worker = s.workers.sum f + f (worker.enter stage) :=
  Table.sum_set h (·.enter stage) (·.claim_enter stage) f

theorem freshOn_setStage_le {n : Nat} {stage : Stage}
    (h : stage.fresh = true → ∃ worker, s.workers.find? n = some worker ∧ worker.stage.fresh = true) (id : Id) :
    (s.setStage n stage).workers.sum (Worker.freshOn id) ≤ s.workers.sum (Worker.freshOn id) := by
  cases hworker : s.workers.find? n with
  | none =>
    have hsame : (s.setStage n stage).workers = s.workers :=
      Table.update_eq_self (Worker.claim_enter stage) fun _ h' => by rw [hworker] at h'; cases h'
    rw [hsame]
  | some worker =>
    have hsum := sum_setStage hworker stage (Worker.freshOn id)
    have hle : (worker.enter stage).freshOn id ≤ worker.freshOn id := by
      rw [freshOn_enter]
      split
      · next hfresh =>
        obtain ⟨worker', hworker', hstage⟩ := h hfresh.2
        obtain rfl := Option.some.inj (hworker.symm.trans hworker')
        rw [Worker.freshOn, if_pos ⟨hfresh.1, hstage⟩]
      · exact Nat.zero_le _
    omega

/-- A move calls an action at most for one worker, which had not called it yet. -/
theorem Move.dispatched (h : Move s l t) (id : Id) (hs : s.dispatches id + s.workers.sum (Worker.freshOn id) ≤ s.claims id) :
    t.dispatches id + t.workers.sum (Worker.freshOn id) ≤ t.claims id := by
  -- Most moves add no dispatch and no claim.
  have hquiet (hdispatches : t.dispatches id = s.dispatches id) (hclaims : t.claims id = s.claims id)
      (hworkers : t.workers.sum (Worker.freshOn id) ≤ s.workers.sum (Worker.freshOn id)) :
      t.dispatches id + t.workers.sum (Worker.freshOn id) ≤ t.claims id := by omega
  cases h with
  | quiet _ hworkers _ hlog | create _ _ _ _ _ _ _ hworkers _ hlog | withdraw _ _ _ _ _ hworkers _ hlog =>
    exact hquiet (count_same _ hlog) (count_same _ hlog) (Nat.le_of_eq (by rw [hworkers]))
  | decide _ _ _ _ _ _ _ _ hworkers _ hlog =>
    exact hquiet (count_cons _ hlog) (count_cons _ hlog) (Nat.le_of_eq (by rw [hworkers]))
  | take _ _ _ _ _ _ _ _ _ _ hworkers _ hlog =>
    exact hquiet (count_aside _ (fun _ => rfl) (fun _ => rfl) (log_take hlog))
      (count_aside _ (fun _ => rfl) (fun _ => rfl) (log_take hlog)) (Nat.le_of_eq (by rw [hworkers]))
  | advance n stage hstage hexecutions hworkers hholder hlog =>
    refine hquiet (count_same _ hlog) (count_same _ hlog) ?_
    rw [hworkers]
    refine freshOn_setStage_le (fun hfresh => ?_) id
    rcases hstage with rfl | ⟨worker, hworker, -, -, hstage⟩
    · cases hfresh
    · exact ⟨worker, hworker, hstage hfresh⟩
  | write worker now verdict stage lost hworker hlive hstale hpermitted hstage hexecutions hworkers hholder hlog =>
    refine hquiet (count_aside _ (fun _ => rfl) (fun _ => rfl) (log_write hlog))
      (count_aside _ (fun _ => rfl) (fun _ => rfl) (log_write hlog)) ?_
    rw [hworkers]
    refine freshOn_setStage_le (fun hfresh => ?_) id
    rcases hstage with ⟨rfl, -⟩ | ⟨hfalse, -⟩
    · cases hfresh
    · rw [hfalse] at hfresh
      cases hfresh
  | claim row n tick now stage hrow hstatus hn hstage hexecutions hworkers hholder hlog =>
    have hclaims : t.claims id = s.claims id + (Decidable.decide (row.id = id)).toNat := count_cons (·.claims id) hlog
    have hdispatches : t.dispatches id = s.dispatches id := count_cons _ hlog
    have hnew : Worker.freshOn id ⟨n, tick, row.claim now, stage⟩ ≤ (Decidable.decide (row.id = id)).toNat := by
      unfold Worker.freshOn
      split
      · next h =>
        have hid : row.id = id := h.1
        simp [hid]
      · exact Nat.zero_le _
    rw [hworkers, Table.sum_insertNew hn]
    omega
  | dispatch worker guard minutes hworker hstage hexecutions hworkers hholder hlog =>
    have hclaims : t.claims id = s.claims id := count_cons _ hlog
    have hdispatches : t.dispatches id = s.dispatches id + (Decidable.decide (worker.claimed.id = id)).toNat :=
      count_cons (·.dispatches id) hlog
    have hsum := sum_setStage hworker (.dispatched minutes) (Worker.freshOn id)
    have hzero : (worker.enter (.dispatched minutes)).freshOn id = 0 := if_neg fun h => Bool.noConfusion h.2
    have hone : worker.freshOn id = (Decidable.decide (worker.claimed.id = id)).toNat := by
      unfold Worker.freshOn
      by_cases hid : worker.claimed.id = id <;> simp [hid, hstage, Stage.fresh]
    rw [hworkers]
    omega

/-! ## Every run -/

theorem Move.released_move (h : Move s l t) (hs : Released s) : Released t := by
  refine ⟨h.stagesOk hs.stages, fun n worker hworker => ?_, h.events hs.events, fun id hnone => ?_,
    fun id row hrow hgated => h.released hs hrow hgated, fun id => h.dispatched id (hs.dispatched id)⟩
  · rcases h.worker hworker with ⟨row, now, stage, hrow, -, -, hclaimed, -, -, -⟩ | ⟨worker₀, h₀, hclaimed, -⟩
    · rw [hclaimed]
      have hseen : s.executions.Seen SameExecution (row.claim now) := ⟨row, hrow, rfl⟩
      exact hseen.evolves h.evolves
    · rw [hclaimed]
      exact (hs.seen n worker₀ h₀).evolves h.evolves
  · have hbefore : s.executions.find? id = none := by
      cases hrow : s.executions.find? id with
      | none => rfl
      | some row =>
        obtain ⟨row', hrow', -⟩ := h.evolves id row hrow
        rw [hnone] at hrow'
        cases hrow'
    rcases h.claims id with hclaims | ⟨-, row, hrow, -⟩
    · rw [hclaims, hs.unknown id hbefore]
    · rw [hbefore] at hrow
      cases hrow

variable {evaluateCondition : Option String → String → Bool}

theorem released_reachable (h : Reachable (step evaluateCondition) (· = Engine.init) anyStep s) : Released s :=
  h.invariant (fun _ hstart => hstart ▸ released_init) fun _ _ _ _ hs _ hstep =>
    (step_move hs.stages hstep).released_move hs

/-- Whatever is delivered, claimed, reported late, recovered, withdrawn and decided in whatever order: an execution of an
approval-gated action is dispatched at most as often as somebody who may administer tokens approved or retried it, and
one event makes at most one execution of a rule. -/
theorem gated_dispatches_le_releases (h : Reachable (step evaluateCondition) (· = Engine.init) anyStep s) :
    (∀ id row, s.executions.find? id = some row → row.actionType.gated = true → s.dispatches id ≤ s.releases id) ∧
    ∀ row ∈ s.executions.rows, ∀ row' ∈ s.executions.rows, row.event = row'.event → row = row' := by
  have hs := released_reachable h
  refine ⟨fun id row hrow hgated => ?_, fun row hrow row' hrow' hevent => ?_⟩
  · have hdispatched := hs.dispatched id
    have hreleased := hs.released id row hrow hgated
    omega
  · rw [Table.mem_rows_iff] at hrow hrow'
    have hid := hs.events _ _ _ _ hrow hrow' hevent
    exact Option.some.inj (hrow.symm.trans ((congrArg _ hid).trans hrow'))

/-! A settled payment mints, once an administrator approves. -/

def admin : Decider := ⟨"usr_1", ["tokens:admin"]⟩

def mintRule : AssetWorkflowRow where
  id := ⟨"wf_1", by simp⟩
  organizationId := ⟨"org_1", by simp⟩
  projectId := ⟨"prj_1", by simp⟩
  tokenId := ⟨"tok_1", by simp⟩
  triggerType := .onrampSettled
  actionType := .mint
  definition := ⟨none, "{}", none⟩
  enabled := true
  reviewMode := .manual
  createdAt := 1
  deletedAt := none

def settled : WorkflowEvent :=
  ⟨.onrampSettled, mintRule.organizationId, mintRule.projectId, "payment_1", none, "{}"⟩

def heldMint : WorkflowExecutionRow := newExecution mintRule settled ⟨"wfe_1", by simp⟩ 10

def approvedMint : WorkflowExecutionRow := heldMint.decide .pending admin.id 20

/-- The event is delivered twice, and the tick claims and dispatches the execution. -/
def approvedRun : List Step :=
  [.createWorkflow mintRule, .setGates fun _ _ _ => some ⟨[], false, true⟩, .deliver 0 settled [mintRule],
    .enqueue 0 heldMint.id 10, .deliver 1 settled [mintRule], .enqueue 1 ⟨"wfe_2", by simp⟩ 11,
    .decide .approve admin heldMint.id settled.organizationId settled.projectId mintRule.tokenId 20, .startTick 0 1000,
    .park 0 1000 [], .recover 0 1000 [], .list 0 [approvedMint], .shift 0, .claim 0 approvedMint 7 1000 .answered,
    .loadRule 7, .loadGate 7, .dispatch 7]

theorem approved_mint_is_dispatched_once : ∃ s row, run (step fun _ _ => true) Engine.init approvedRun = some s ∧
    s.executions.find? heldMint.id = some row ∧ row.status = .processing ∧
    s.executions.rows.map (·.id) = [heldMint.id] ∧ s.dispatches heldMint.id = 1 ∧
    s.dispatches heldMint.id ≤ s.releases heldMint.id := by
  refine ⟨_, _, rfl, rfl, rfl, rfl, rfl, ?_⟩
  exact (@gated_dispatches_le_releases _ (fun _ _ => true)
    (.run (.start rfl) (by rfl : run _ Engine.init approvedRun = some _))).1 heldMint.id _ rfl rfl

end Sdp.Workflows
