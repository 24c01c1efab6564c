import Sdp.WorkflowExecutions

/-!
# Attempts of an execution

A claim carries no token, so a worker whose claim is no longer the current one may still write its verdict. However
such workers interfere, the attempts since the last decision are bounded by the limit of the execution, by the stale
recoveries since then, and by how often its processing was disturbed at all. Where nothing is disturbed, a worker has
the row that it claimed to itself, and a pending execution always has an attempt left.
-/

open Sdp.Lib

namespace Sdp.Workflows

/-! ## What the log counts since the last decision -/

namespace LogEntry

def decides (id : Id) : LogEntry → Bool
  | .decided execution _ _ => execution = id
  | _ => false

def refunds (id : Id) : LogEntry → Bool
  | .refunded execution => execution = id
  | _ => false

def disturbs (id : Id) : LogEntry → Bool
  | .disturbed execution => execution = id
  | _ => false

end LogEntry

namespace Engine

variable (s : Engine) (id : Id)

def sinceDecision : List LogEntry := s.log.takeWhile fun entry => !entry.decides id

def attempts : Nat := (s.sinceDecision id).countP (·.claims id)

def refunds : Nat := (s.sinceDecision id).countP (·.refunds id)

def disturbances : Nat := s.log.countP (·.disturbs id)

/-- The worker has a claim on the execution that is not the current one. -/
def late (worker : Worker) : Bool :=
  worker.claimed.id = id && worker.live && s.holder id ≠ some worker.claim

/-- The late workers whose claims meet a condition. -/
def lateCount (q : WorkflowExecutionRow → Bool) : Nat :=
  s.workers.sum fun worker => (s.late id worker && q worker.claimed).toNat

/-- All late workers. -/
def late₀ : Nat := s.lateCount id fun _ => true

/-- The late workers that may still reschedule the execution. -/
def late₁ : Nat := s.lateCount id fun claimed => !claimed.exhausted

end Engine

variable {s t : Engine} {l : Step} {id : Id}

/-! ## Who is late -/

/-- The worker under whose claim the execution is being processed has the row as it is. -/
def Holds (s : Engine) : Prop :=
  ∀ id n, s.holder id = some n → ∃ worker, s.workers.find? n = some worker ∧ worker.claimed.id = id ∧
    worker.claimed.status = .processing ∧ s.executions.find? id = some worker.claimed

theorem late_le_late (q : WorkflowExecutionRow → Bool) {worker : Worker} {stage : Stage}
    (h : stage ≠ .done → worker.live = true) :
    (s.late id (worker.enter stage) && q worker.claimed).toNat ≤ (s.late id worker && q worker.claimed).toNat := by
  by_cases hdone : stage = .done
  · subst hdone
    have hnot : s.late id (worker.enter .done) = false := by simp [Engine.late, Worker.live, Worker.enter]
    rw [hnot]
    exact Nat.zero_le _
  · have hsame : s.late id (worker.enter stage) = s.late id worker := by
      have hlive : (worker.enter stage).live = worker.live := by
        rw [h hdone]
        exact decide_eq_true hdone
      unfold Engine.late
      rw [hlive]
      rfl
    rw [hsame]

theorem lateCount_congr (q : WorkflowExecutionRow → Bool) (hworkers : t.workers = s.workers)
    (hholder : t.holder id = s.holder id) : t.lateCount id q = s.lateCount id q := by
  unfold Engine.lateCount Engine.late
  rw [hworkers, hholder]

theorem lateCount_setStage (q : WorkflowExecutionRow → Bool) {n : Nat} {stage : Stage} {worker : Worker}
    (hworker : s.workers.find? n = some worker) (hworkers : t.workers = (s.setStage n stage).workers)
    (hholder : t.holder id = s.holder id) : t.lateCount id q + (s.late id worker && q worker.claimed).toNat =
      s.lateCount id q + (s.late id (worker.enter stage) && q worker.claimed).toNat := by
  have hsum := sum_setStage hworker stage fun worker => (s.late id worker && q worker.claimed).toNat
  unfold Engine.lateCount
  rw [hworkers]
  have hlate : ∀ worker, t.late id worker = s.late id worker := fun worker => by
    unfold Engine.late
    rw [hholder]
  simp only [hlate]
  exact hsum

theorem lateCount_setStage_le (q : WorkflowExecutionRow → Bool) {n : Nat} {stage : Stage}
    (hlive : stage ≠ .done → ∃ worker, s.workers.find? n = some worker ∧ worker.live = true)
    (hworkers : t.workers = (s.setStage n stage).workers) (hholder : t.holder id = s.holder id) :
    t.lateCount id q ≤ s.lateCount id q := by
  cases hworker : s.workers.find? n with
  | none =>
    refine Nat.le_of_eq (lateCount_congr q ?_ hholder)
    rw [hworkers]
    exact Table.update_eq_self (Worker.claim_enter stage) fun _ h' => by rw [hworker] at h'; cases h'
  | some worker =>
    have hsum := lateCount_setStage q hworker hworkers hholder
    have hle := @late_le_late s id q worker stage fun hdone => by
      obtain ⟨worker', hworker', hlive⟩ := hlive hdone
      exact Option.some.inj (hworker'.symm.trans hworker) ▸ hlive
    omega

theorem lateCount_release (q : WorkflowExecutionRow → Bool) (hs : Holds s) {row : WorkflowExecutionRow}
    (hrow : s.executions.find? id = some row) (hworkers : t.workers = s.workers) (hholder : t.holder id = none) :
    t.lateCount id q = s.lateCount id q + (s.held id && q row).toNat := by
  have hlate : ∀ worker, t.late id worker = (Decidable.decide (worker.claimed.id = id) && worker.live) := fun worker => by
    simp [Engine.late, hholder]
  unfold Engine.lateCount
  rw [hworkers]
  simp only [hlate]
  cases hn : s.holder id with
  | none =>
    have hheld : s.held id = false := by rw [Engine.held, hn]; rfl
    rw [hheld]
    refine Table.sum_congr fun _ worker _ => ?_
    simp [Engine.late, hn]
  | some n =>
    obtain ⟨worker, hworker, hid, -, hrow'⟩ := hs id n hn
    obtain rfl := Option.some.inj (hrow.symm.trans hrow')
    have hheld : s.held id = worker.live := by rw [Engine.held, hn, Option.any_some, hworker, Option.any_some]
    have hchange := Table.sum_change s.workers s.workers (fun worker => (s.late id worker && q worker.claimed).toNat)
      (fun worker => (Decidable.decide (worker.claimed.id = id) && worker.live && q worker.claimed).toNat) n fun k hk => by
        unfold Table.valueAt
        cases hk' : s.workers.find? k with
        | none => rfl
        | some worker' =>
          have hne : n ≠ worker'.claim := fun heq => hk (heq.trans (claim_of_find? hk')).symm
          simp [Engine.late, hn, hne]
    simp only [Table.valueAt, hworker, Option.elim_some] at hchange
    have hnot : s.late id worker = false := by simp [Engine.late, hn, claim_of_find? hworker]
    rw [hnot, hid] at hchange
    rw [hheld]
    simpa using hchange

theorem lateCount_claim (q : WorkflowExecutionRow → Bool) {worker : Worker}
    (hworkers : t.workers = s.workers.insertNew worker) (hn : s.workers.find? worker.claim = none)
    (hholder : t.holder = Function.update s.holder worker.claimed.id (some worker.claim))
    (hfree : s.holder worker.claimed.id = none) : t.lateCount id q = s.lateCount id q := by
  have hnew : t.late id worker = false := by
    unfold Engine.late
    by_cases hid : worker.claimed.id = id
    · simp [← hid, hholder]
    · simp [hid]
  unfold Engine.lateCount
  rw [hworkers, Table.sum_insertNew hn, hnew]
  refine Table.sum_congr fun n worker' hworker' => ?_
  have hne : worker.claim ≠ worker'.claim := fun heq => by
    rw [heq, claim_of_find? hworker', hworker'] at hn
    cases hn
  have hlate : t.late id worker' = s.late id worker' := by
    unfold Engine.late
    by_cases hid : worker.claimed.id = id
    · subst hid
      simp [hholder, hfree, hne]
    · rw [hholder, Function.update_of_ne (Ne.symm hid)]
  rw [hlate]

/-! ## What a move does to one execution -/

/-- A move as one execution sees it. -/
inductive Turn (s t : Engine) (id : Id) : Prop
  | rest (extra : Nat) (hrow : t.executions.find? id = s.executions.find? id) (hattempts : t.attempts id = s.attempts id)
      (hrefunds : t.refunds id = s.refunds id) (hdisturbances : t.disturbances id = s.disturbances id + extra)
      (hlate₀ : t.late₀ id ≤ s.late₀ id + extra) (hlate₁ : t.late₁ id ≤ s.late₁ id + extra)
  | start (row : WorkflowExecutionRow) (hnone : s.executions.find? id = none) (hrow : t.executions.find? id = some row)
      (hstatus : row.status = .awaitingReview ∨ row.status = .pending) (hcount : row.attemptCount = 0)
      (hmax : 0 < row.maxAttempts) (hattempts : t.attempts id = s.attempts id) (hrefunds : t.refunds id = s.refunds id)
      (hdisturbances : t.disturbances id = s.disturbances id) (hlate₀ : t.late₀ id = s.late₀ id)
      (hlate₁ : t.late₁ id = s.late₁ id)
  | decided (row row' : WorkflowExecutionRow) (hrow : s.executions.find? id = some row)
      (hrow' : t.executions.find? id = some row') (hsame : SameExecution row row')
      (hstatus : row'.status = .pending ∨ row'.status = .cancelled) (hcount : row'.attemptCount = 0)
      (hattempts : t.attempts id = 0) (hrefunds : t.refunds id = 0)
      (hdisturbances : t.disturbances id = s.disturbances id) (hlate₀ : t.late₀ id = s.late₀ id)
      (hlate₁ : t.late₁ id = s.late₁ id)
  | withdrawn (row row' : WorkflowExecutionRow) (hrow : s.executions.find? id = some row)
      (hrow' : t.executions.find? id = some row') (hsame : SameExecution row row') (hstatus : row'.status = .cancelled)
      (hcount : row'.attemptCount = row.attemptCount) (hattempts : t.attempts id = s.attempts id)
      (hrefunds : t.refunds id = s.refunds id) (hdisturbances : t.disturbances id = s.disturbances id)
      (hlate₀ : t.late₀ id = s.late₀ id) (hlate₁ : t.late₁ id = s.late₁ id)
  | claimed (row : WorkflowExecutionRow) (now : Nat) (hrow : s.executions.find? id = some row)
      (hrow' : t.executions.find? id = some (row.claim now)) (hstatus : row.status = .pending)
      (hattempts : t.attempts id = s.attempts id + 1) (hrefunds : t.refunds id = s.refunds id)
      (hdisturbances : t.disturbances id = s.disturbances id) (hlate₀ : t.late₀ id = s.late₀ id)
      (hlate₁ : t.late₁ id = s.late₁ id)
  /-- A verdict is written. `late` is the worker that loses the execution, `claimed` what the writer had claimed. -/
  | settled (row claimed : WorkflowExecutionRow) (now : Nat) (verdict : Verdict) (late lost : Nat)
      (hrow : s.executions.find? id = some row) (hrow' : t.executions.find? id = some (verdict.set now row))
      (hstatus : row.status = .processing) (hclaimed : claimed.maxAttempts = row.maxAttempts)
      (hpermitted : verdict.permitted claimed = true) (hlate : late ≤ 1) (hlost : lost ≤ 1)
      (hattempts : t.attempts id = s.attempts id) (hrefunds : t.refunds id = s.refunds id)
      (hdisturbances : t.disturbances id = s.disturbances id + lost) (hlate₀ : t.late₀ id + 1 = s.late₀ id + late + lost)
      (hlate₁ : t.late₁ id + (!claimed.exhausted).toNat =
        s.late₁ id + late * (!row.exhausted).toNat + lost * (!claimed.exhausted).toNat)
  /-- Stale recovery takes the execution. -/
  | taken (row row' : WorkflowExecutionRow) (refund late : Nat) (hrow : s.executions.find? id = some row)
      (hrow' : t.executions.find? id = some row') (hsame : SameExecution row row') (hstatus : row.status = .processing)
      (hstatus' : row'.status = .pending ∧ refund = 1 ∨ row'.status = .failed ∧ refund = 0)
      (hcount : row'.attemptCount = row.attemptCount - refund) (hattempts : t.attempts id = s.attempts id)
      (hrefunds : t.refunds id = s.refunds id + refund) (hdisturbances : t.disturbances id = s.disturbances id + late)
      (hlate₀ : t.late₀ id = s.late₀ id + late) (hlate₁ : t.late₁ id = s.late₁ id + late * (!row.exhausted).toNat)

/-! ## The log since the last decision -/

theorem sinceDecision_cons {entry : LogEntry} (h : t.log = entry :: s.log) :
    t.sinceDecision id = if entry.decides id then [] else entry :: s.sinceDecision id := by
  unfold Engine.sinceDecision
  rw [h, List.takeWhile_cons]
  cases entry.decides id <;> rfl

theorem sinceDecision_append {entries : List LogEntry} (h : t.log = entries ++ s.log)
    (hentries : ∀ entry ∈ entries, entry.decides id = false) : t.sinceDecision id = entries ++ s.sinceDecision id := by
  unfold Engine.sinceDecision
  rw [h, List.takeWhile_append_of_pos fun entry hentry => by rw [hentries entry hentry]; rfl]

theorem counts_cons (id : Id) {entry : LogEntry} (h : t.log = entry :: s.log) (hdecides : entry.decides id = false) :
    t.attempts id = s.attempts id + (entry.claims id).toNat ∧ t.refunds id = s.refunds id + (entry.refunds id).toNat ∧
      t.disturbances id = s.disturbances id + (entry.disturbs id).toNat := by
  have hsince : t.sinceDecision id = entry :: s.sinceDecision id := by rw [sinceDecision_cons h, hdecides]; rfl
  refine ⟨?_, ?_, count_cons (·.disturbs id) h⟩
  · unfold Engine.attempts
    rw [hsince, List.countP_cons]
    cases entry.claims id <;> rfl
  · unfold Engine.refunds
    rw [hsince, List.countP_cons]
    cases entry.refunds id <;> rfl

theorem counts_decided {entry : LogEntry} (h : t.log = entry :: s.log) (hdecides : entry.decides id = true) :
    t.attempts id = 0 ∧ t.refunds id = 0 := by
  have hsince : t.sinceDecision id = [] := by rw [sinceDecision_cons h, hdecides]; rfl
  exact ⟨by rw [Engine.attempts, hsince]; rfl, by rw [Engine.refunds, hsince]; rfl⟩

theorem counts_aside (id : Id) {refunded disturbed : List Id}
    (h : t.log = refunded.map LogEntry.refunded ++ (disturbed.map LogEntry.disturbed ++ s.log)) :
    t.attempts id = s.attempts id ∧ t.refunds id = s.refunds id + refunded.count id ∧
      t.disturbances id = s.disturbances id + disturbed.count id := by
  have hcount (ids : List Id) (f : Id → LogEntry) (p : LogEntry → Bool) (hp : ∀ id', p (f id') = decide (id' = id)) :
      (ids.map f).countP p = ids.count id := by
    rw [List.countP_map, List.count]
    exact List.countP_congr fun id' _ => by rw [Function.comp_apply, hp, decide_eq_true_eq, beq_iff_eq]
  have hzero (ids : List Id) (f : Id → LogEntry) (p : LogEntry → Bool) (hp : ∀ id', p (f id') = false) :
      (ids.map f).countP p = 0 := by
    rw [List.countP_map, List.countP_eq_zero]
    exact fun id' _ => by simp [hp]
  have hsince : t.sinceDecision id =
      refunded.map LogEntry.refunded ++ (disturbed.map LogEntry.disturbed ++ s.sinceDecision id) := by
    rw [← List.append_assoc] at h ⊢
    refine sinceDecision_append h fun entry hentry => ?_
    rcases List.mem_append.mp hentry with hentry | hentry
    all_goals
      obtain ⟨id', -, rfl⟩ := List.mem_map.mp hentry
      rfl
  refine ⟨?_, ?_, ?_⟩
  · unfold Engine.attempts
    rw [hsince, List.countP_append, List.countP_append, hzero _ _ _ fun _ => rfl, hzero _ _ _ fun _ => rfl, Nat.zero_add,
      Nat.zero_add]
  · unfold Engine.refunds
    rw [hsince, List.countP_append, List.countP_append, hcount _ _ _ fun _ => rfl, hzero _ _ _ fun _ => rfl, Nat.zero_add,
      Nat.add_comm]
  · unfold Engine.disturbances
    rw [h, List.countP_append, List.countP_append, hzero _ _ _ fun _ => rfl, hcount _ _ _ fun _ => rfl, Nat.zero_add,
      Nat.add_comm]

theorem counts_same (id : Id) (h : t.log = s.log) :
    t.attempts id = s.attempts id ∧ t.refunds id = s.refunds id ∧ t.disturbances id = s.disturbances id := by
  unfold Engine.attempts Engine.refunds Engine.disturbances Engine.sinceDecision
  rw [h]
  exact ⟨rfl, rfl, rfl⟩

/-! ## Every move is a turn -/

theorem Turn.still (hrow : t.executions.find? id = s.executions.find? id)
    (hcounts : t.attempts id = s.attempts id ∧ t.refunds id = s.refunds id ∧ t.disturbances id = s.disturbances id)
    (hlate : ∀ q, t.lateCount id q ≤ s.lateCount id q) : Turn s t id :=
  .rest 0 hrow hcounts.1 hcounts.2.1 hcounts.2.2 (hlate _) (hlate _)

/-- The invariant that turns need. -/
structure Claims (s : Engine) : Prop where
  released : Released s
  holds : Holds s

theorem Claims.holder_none (hs : Claims s) {row : WorkflowExecutionRow} (hrow : s.executions.find? id = some row)
    (hstatus : row.status ≠ .processing) : s.holder id = none := by
  cases hn : s.holder id with
  | none => rfl
  | some n =>
    obtain ⟨worker, -, -, hprocessing, hrow'⟩ := hs.holds id n hn
    obtain rfl := Option.some.inj (hrow.symm.trans hrow')
    exact absurd hprocessing hstatus

theorem turn_create {row : WorkflowExecutionRow} (hid : s.executions.find? row.id = none)
    (hstatus : row.status = .awaitingReview ∨ row.status = .pending ∧ row.actionType.gated = false)
    (hattempts : row.attemptCount = 0) (hmax : 0 < row.maxAttempts)
    (hexecutions : t.executions = s.executions.insertNew row) (hworkers : t.workers = s.workers)
    (hholder : t.holder = s.holder) (hlog : t.log = s.log) : Turn s t id := by
  obtain ⟨hcounts₁, hcounts₂, hcounts₃⟩ := counts_same id hlog
  have hlate (q : WorkflowExecutionRow → Bool) : t.lateCount id q = s.lateCount id q :=
    lateCount_congr q hworkers (by rw [hholder])
  have hrow : t.executions.find? id =
      if id = row.id then (s.executions.find? id).or (some row) else s.executions.find? id := by
    rw [hexecutions, Table.find?_insertNew]
  split at hrow
  · next h =>
    subst h
    rw [hid] at hrow
    exact .start row hid hrow (hstatus.imp_right And.left) hattempts hmax hcounts₁ hcounts₂ hcounts₃ (hlate _) (hlate _)
  · exact .still hrow ⟨hcounts₁, hcounts₂, hcounts₃⟩ fun q => Nat.le_of_eq (hlate q)

theorem turn_decide {decision : Decision} {decider : Decider} {row : WorkflowExecutionRow} {now : Nat}
    (hrow : s.executions.find? row.id = some row) (hstatus : row.status = decision.source)
    (hexecutions : t.executions = s.executions.update row.id (·.status = decision.source)
      (·.decide decision.target decider.id now) (·.id_decide decision.target decider.id now))
    (hworkers : t.workers = s.workers) (hholder : t.holder = s.holder)
    (hlog : t.log = .decided row.id decision decider :: s.log) : Turn s t id := by
  have hlate (q : WorkflowExecutionRow → Bool) : t.lateCount id q = s.lateCount id q :=
    lateCount_congr q hworkers (by rw [hholder])
  by_cases hid : id = row.id
  · subst hid
    have hrow' : t.executions.find? row.id = some (row.decide decision.target decider.id now) := by
      rw [hexecutions, Table.find?_update, if_pos rfl, hrow, Option.map_some, if_pos (decide_eq_true hstatus)]
    have hdecides : (LogEntry.decided row.id decision decider).decides row.id = true := decide_eq_true rfl
    obtain ⟨hattempts, hrefunds⟩ := counts_decided hlog hdecides
    refine .decided row _ hrow hrow' rfl ?_ rfl hattempts hrefunds (count_cons (·.disturbs row.id) hlog) (hlate _) (hlate _)
    cases decision with
    | approve | retry => exact .inl rfl
    | cancel => exact .inr rfl
  · refine .still ?_ ?_ fun q => Nat.le_of_eq (hlate q)
    · rw [hexecutions, Table.find?_update, if_neg hid]
    · exact counts_cons _ hlog (decide_eq_false (Ne.symm hid))

theorem turn_withdraw {workflowId organizationId projectId : Id} {now : Nat}
    (hexecutions : t.executions = s.executions.updateAll (·.openFor workflowId organizationId projectId) (·.withdraw now)
      (·.id_withdraw now))
    (hworkers : t.workers = s.workers) (hholder : t.holder = s.holder) (hlog : t.log = s.log) : Turn s t id := by
  obtain ⟨hcounts₁, hcounts₂, hcounts₃⟩ := counts_same id hlog
  have hlate (q : WorkflowExecutionRow → Bool) : t.lateCount id q = s.lateCount id q :=
    lateCount_congr q hworkers (by rw [hholder])
  have hfind : t.executions.find? id = (s.executions.find? id).map fun row =>
      if row.openFor workflowId organizationId projectId then row.withdraw now else row := by
    rw [hexecutions, Table.find?_updateAll]
  cases hrow : s.executions.find? id with
  | none =>
    rw [hrow] at hfind
    exact .still (hfind.trans hrow.symm) ⟨hcounts₁, hcounts₂, hcounts₃⟩ fun q => Nat.le_of_eq (hlate q)
  | some row =>
    rw [hrow, Option.map_some] at hfind
    split at hfind
    · exact .withdrawn row _ hrow hfind rfl rfl rfl hcounts₁ hcounts₂ hcounts₃ (hlate _) (hlate _)
    · exact .still (hfind.trans hrow.symm) ⟨hcounts₁, hcounts₂, hcounts₃⟩ fun q => Nat.le_of_eq (hlate q)

theorem turn_claim (hs : Claims s) {row : WorkflowExecutionRow} {n tick now : Nat} {stage : Stage}
    (hrow : s.executions.find? row.id = some row) (hstatus : row.status = .pending) (hn : s.workers.find? n = none)
    (hexecutions : t.executions = claimExecution s.executions row.id now)
    (hworkers : t.workers = s.workers.insertNew ⟨n, tick, row.claim now, stage⟩)
    (hholder : t.holder = Function.update s.holder row.id (some n)) (hlog : t.log = .claimed row.id n :: s.log) :
    Turn s t id := by
  have hfree : s.holder row.id = none := hs.holder_none hrow (by rw [hstatus]; nofun)
  have hlate (q : WorkflowExecutionRow → Bool) : t.lateCount id q = s.lateCount id q :=
    lateCount_claim q hworkers hn hholder hfree
  obtain ⟨hattempts, hrefunds, hdisturbances⟩ := counts_cons id hlog rfl
  unfold claimExecution at hexecutions
  by_cases hid : id = row.id
  · subst hid
    have hrow' : t.executions.find? row.id = some (row.claim now) := by
      rw [hexecutions, Table.find?_update, if_pos rfl, hrow, Option.map_some, if_pos (decide_eq_true hstatus)]
    have hone : (LogEntry.claimed row.id n).claims row.id = true := decide_eq_true rfl
    rw [hone] at hattempts
    exact .claimed row now hrow hrow' hstatus hattempts hrefunds hdisturbances (hlate _) (hlate _)
  · have hzero : (LogEntry.claimed row.id n).claims id = false := decide_eq_false (Ne.symm hid)
    rw [hzero] at hattempts
    refine .still ?_ ⟨hattempts, hrefunds, hdisturbances⟩ fun q => Nat.le_of_eq (hlate q)
    rw [hexecutions, Table.find?_update, if_neg hid]

theorem turn_write (hs : Claims s) {worker : Worker} {now : Nat} {verdict : Verdict} {stage : Stage} {lost : Bool}
    (hworker : s.workers.find? worker.claim = some worker) (hlive : worker.live = true)
    (hpermitted : verdict.permitted worker.claimed = true)
    (hstage : stage = .done ∧ lost = false ∨
      stage.fresh = false ∧ stage ≠ .done ∧ stage.ok worker.claimed = true ∧ lost = true)
    (hexecutions : t.executions = verdict.write s.executions worker.claimed.id now)
    (hworkers : t.workers = (s.setStage worker.claim stage).workers)
    (hholder : t.holder =
      if s.processing worker.claimed.id then Function.update s.holder worker.claimed.id none else s.holder)
    (hlog : t.log = (if lost then [.disturbed worker.claimed.id] else []) ++ s.log) : Turn s t id := by
  obtain ⟨hattempts, hrefunds, hdisturbances⟩ := counts_aside id (log_write hlog)
  have hfind := Table.find?_update s.executions worker.claimed.id (·.status = .processing) (fun row => verdict.set now row)
    (fun row => verdict.id_set now row) id
  have hstill (hrow : t.executions.find? id = s.executions.find? id) (hsame : t.holder id = s.holder id) : Turn s t id := by
    have hlate (q : WorkflowExecutionRow → Bool) : t.lateCount id q ≤ s.lateCount id q :=
      lateCount_setStage_le q (fun _ => ⟨worker, hworker, hlive⟩) hworkers hsame
    exact .rest _ hrow hattempts hrefunds hdisturbances ((hlate _).trans (Nat.le_add_right ..))
      ((hlate _).trans (Nat.le_add_right ..))
  by_cases hid : id = worker.claimed.id
  · cases hprocessing : s.processing worker.claimed.id with
    | false =>
      rw [hprocessing] at hholder
      have hmiss : t.executions = s.executions := by
        rw [hexecutions]
        refine Table.update_eq_self _ fun row hrow => ?_
        by_contra hnot
        have hmatch : s.processing worker.claimed.id = true :=
          Table.matches?_iff.mpr ⟨row, hrow, Bool.not_eq_false _ ▸ hnot⟩
        rw [hprocessing] at hmatch
        cases hmatch
      exact hstill (by rw [hmiss]) (by rw [hholder]; rfl)
    | true =>
      rw [hprocessing, if_pos rfl] at hholder
      obtain ⟨row, hrow, hstatus⟩ := Table.matches?_iff.mp hprocessing
      obtain ⟨row₁, hrow₁, hsame⟩ := hs.released.seen _ worker hworker
      obtain rfl := Option.some.inj (hrow.symm.trans hrow₁)
      subst hid
      rw [if_pos rfl, hrow, Option.map_some, if_pos hstatus] at hfind
      -- First the execution is let go, then the worker goes on.
      let u : Engine := { s with holder := Function.update s.holder worker.claimed.id none }
      have hrelease (q : WorkflowExecutionRow → Bool) :
          u.lateCount worker.claimed.id q = s.lateCount worker.claimed.id q + (s.held worker.claimed.id && q row).toNat :=
        lateCount_release q hs.holds hrow rfl (Function.update_self ..)
      have hset (q : WorkflowExecutionRow → Bool) := @lateCount_setStage u t worker.claimed.id q _ _ _ hworker hworkers
        (by rw [hholder])
      have hlate : u.late worker.claimed.id worker = true := by simp [Engine.late, u, hlive]
      have hlate' : u.late worker.claimed.id (worker.enter stage) = lost := by
        rcases hstage with ⟨rfl, rfl⟩ | ⟨-, hne, -, rfl⟩
        · simp [Engine.late, Worker.live, Worker.enter]
        · simp [Engine.late, u, Worker.live, Worker.enter, hne]
      have h₀ := hset fun _ => true
      have h₁ := hset fun claimed => !claimed.exhausted
      rw [hlate, hlate', hrelease, Bool.true_and] at h₀ h₁
      have hcount : (if lost then [worker.claimed.id] else []).count worker.claimed.id = lost.toNat := by
        cases lost
        · rfl
        · simp
      rw [hcount] at hdisturbances
      refine .settled row worker.claimed now verdict (s.held worker.claimed.id).toNat lost.toNat hrow ?_
        (of_decide_eq_true hstatus) hsame.maxAttempts.symm hpermitted (Bool.toNat_le _) (Bool.toNat_le _) hattempts hrefunds
        hdisturbances ?_ ?_
      · rw [hexecutions]
        exact hfind
      · simpa [Engine.late₀] using h₀
      · cases hheld : s.held worker.claimed.id <;> cases lost <;> simpa [Engine.late₁, hheld] using h₁
  · rw [if_neg hid] at hfind
    refine hstill (hexecutions ▸ hfind) ?_
    rw [hholder]
    split
    · exact Function.update_of_ne hid ..
    · rfl

theorem turn_take (hs : Claims s) {rows : List WorkflowExecutionRow} {set : WorkflowExecutionRow → WorkflowExecutionRow}
    (hset : ∀ row, (set row).id = row.id) {refunds : Bool} (hrows : ∀ row ∈ rows, s.executions.find? row.id = some row)
    (hnodup : (rows.map (·.id)).Nodup) (hstatus : ∀ row ∈ rows, row.status = .processing)
    (heffect : ∀ row, SameExecution row (set row) ∧
      if refunds then (set row).status = .pending ∧ (set row).attemptCount = row.attemptCount - 1
      else (set row).status = .failed ∧ (set row).attemptCount = row.attemptCount)
    (hexecutions : t.executions = s.executions.updateAll (fun row => row ∈ rows) set hset)
    (hworkers : t.workers = s.workers) (hholder : t.holder = (s.takeFrom (rows.map (·.id))).holder)
    (hlog : t.log = (if refunds then (rows.map (·.id)).map LogEntry.refunded else []) ++
      (s.takeFrom (rows.map (·.id))).log) : Turn s t id := by
  obtain ⟨hattempts, hrefunds, hdisturbances⟩ := counts_aside id (log_take hlog)
  have hfind := Table.find?_updateAll s.executions (fun row => decide (row ∈ rows)) set hset id
  rw [← hexecutions] at hfind
  by_cases hid : id ∈ rows.map (·.id)
  · obtain ⟨row, hmem, rfl⟩ := List.mem_map.mp hid
    have hrow := hrows row hmem
    rw [hrow, Option.map_some, if_pos (decide_eq_true hmem)] at hfind
    have hfree : t.holder row.id = none := by rw [hholder]; exact if_pos hid
    have hrelease (q : WorkflowExecutionRow → Bool) := lateCount_release q hs.holds hrow hworkers hfree
    obtain ⟨hsame, heffect⟩ := heffect row
    have hdisturbed : ((rows.map (·.id)).filter s.held).count row.id = (s.held row.id).toNat := by
      cases hheld : s.held row.id with
      | true => rw [List.count_filter hheld, List.count_eq_one_of_mem hnodup hid]; rfl
      | false => exact List.count_eq_zero.mpr fun h => by simp [hheld] at h
    rw [hdisturbed] at hdisturbances
    have hone : (rows.map (·.id)).count row.id = 1 := List.count_eq_one_of_mem hnodup hid
    have h₀ := hrelease fun _ => true
    have h₁ := hrelease fun claimed => !claimed.exhausted
    have hlate₁ : t.late₁ row.id = s.late₁ row.id + (s.held row.id).toNat * (!row.exhausted).toNat := by
      cases hheld : s.held row.id <;> simpa [Engine.late₁, hheld] using h₁
    have hlate₀ : t.late₀ row.id = s.late₀ row.id + (s.held row.id).toNat := by simpa [Engine.late₀] using h₀
    cases refunds with
    | true =>
      rw [if_pos rfl, hone] at hrefunds
      exact .taken row (set row) 1 _ hrow hfind hsame (hstatus row hmem) (.inl ⟨heffect.1, rfl⟩) heffect.2 hattempts hrefunds
        hdisturbances hlate₀ hlate₁
    | false =>
      exact .taken row (set row) 0 _ hrow hfind hsame (hstatus row hmem) (.inr ⟨heffect.1, rfl⟩) heffect.2 hattempts hrefunds
        hdisturbances hlate₀ hlate₁
  · have hlate (q : WorkflowExecutionRow → Bool) : t.lateCount id q = s.lateCount id q :=
      lateCount_congr q hworkers (by rw [hholder]; exact if_neg hid)
    have hrow : t.executions.find? id = s.executions.find? id := by
      rw [hfind]
      cases hrow : s.executions.find? id with
      | none => rfl
      | some row =>
        have hnot : ¬ row ∈ rows := fun hmem => hid (List.mem_map.mpr ⟨row, hmem, Table.key_of_find? hrow⟩)
        rw [Option.map_some, if_neg (by simpa using hnot)]
    have hdisturbed : ((rows.map (·.id)).filter s.held).count id = 0 :=
      List.count_eq_zero.mpr fun h => hid (List.mem_filter.mp h).1
    have hrefunded : (if refunds then rows.map (·.id) else []).count id = 0 := by
      cases refunds
      · rfl
      · exact List.count_eq_zero.mpr hid
    rw [hdisturbed] at hdisturbances
    rw [hrefunded] at hrefunds
    exact .still hrow ⟨hattempts, hrefunds, hdisturbances⟩ fun q => Nat.le_of_eq (hlate q)

theorem Move.turn (h : Move s l t) (hs : Claims s) (id : Id) : Turn s t id := by
  cases h with
  | quiet hexecutions hworkers hholder hlog =>
    exact .still (by rw [hexecutions]) (counts_same _ hlog) fun q =>
      Nat.le_of_eq (lateCount_congr q hworkers (by rw [hholder]))
  | create row hid hevent hstatus hattempts hmax hexecutions hworkers hholder hlog =>
    exact turn_create hid hstatus hattempts hmax hexecutions hworkers hholder hlog
  | decide decision decider row now hrow hstatus hpermitted hexecutions hworkers hholder hlog =>
    exact turn_decide hrow hstatus hexecutions hworkers hholder hlog
  | withdraw workflowId organizationId projectId now hexecutions hworkers hholder hlog =>
    exact turn_withdraw hexecutions hworkers hholder hlog
  | claim row n tick now stage hrow hstatus hn hstage hexecutions hworkers hholder hlog =>
    exact turn_claim hs hrow hstatus hn hexecutions hworkers hholder hlog
  | advance n stage hstage hexecutions hworkers hholder hlog =>
    refine .still (by rw [hexecutions]) (counts_same _ hlog) fun q =>
      lateCount_setStage_le q (fun hne => ?_) hworkers (by rw [hholder])
    rcases hstage with hdone | ⟨worker, hworker, hlive, -⟩
    · exact absurd hdone hne
    · exact ⟨worker, hworker, hlive⟩
  | dispatch worker guard minutes hworker hstage hexecutions hworkers hholder hlog =>
    refine .still (by rw [hexecutions]) (counts_cons _ hlog rfl) fun q =>
      lateCount_setStage_le q (fun _ => ⟨worker, hworker, ?_⟩) hworkers (by rw [hholder])
    refine decide_eq_true fun hdone => ?_
    rw [hdone] at hstage
    cases hstage
  | write worker now verdict stage lost hworker hlive hstale hpermitted hstage hexecutions hworkers hholder hlog =>
    exact turn_write hs hworker hlive hpermitted hstage hexecutions hworkers hholder hlog
  | take rows set hset refunds hrows hnodup hstatus hgated heffect hexecutions hworkers hholder hlog =>
    exact turn_take hs hset hrows hnodup hstatus heffect hexecutions hworkers hholder hlog

/-! ## The holder of an execution -/

theorem Move.keeps_worker (h : Move s l t) {n : Nat} {worker : Worker} (hworker : s.workers.find? n = some worker) :
    ∃ worker', t.workers.find? n = some worker' ∧ worker'.claimed = worker.claimed := by
  have hset {n' : Nat} {stage : Stage} (hworkers : t.workers = (s.setStage n' stage).workers) :
      ∃ worker', t.workers.find? n = some worker' ∧ worker'.claimed = worker.claimed := by
    obtain ⟨worker', hworker', rfl | ⟨-, -, rfl⟩⟩ := Table.row_update n' (fun _ => true) (Worker.claim_enter stage) hworker
    · exact ⟨_, by rw [hworkers]; exact hworker', rfl⟩
    · exact ⟨worker.enter stage, by rw [hworkers]; exact hworker', rfl⟩
  cases h with
  | quiet _ hworkers _ _ | create _ _ _ _ _ _ _ hworkers _ _ | withdraw _ _ _ _ _ hworkers _ _
    | decide _ _ _ _ _ _ _ _ hworkers _ _ | take _ _ _ _ _ _ _ _ _ _ hworkers _ _ =>
    exact ⟨worker, hworkers ▸ hworker, rfl⟩
  | claim row n' tick now stage hrow hstatus hn hstage hexecutions hworkers hholder hlog =>
    refine ⟨worker, ?_, rfl⟩
    rw [hworkers, Table.find?_insertNew, hworker]
    simp
  | advance _ _ _ _ hworkers _ _ | dispatch _ _ _ _ _ _ hworkers _ _ | write _ _ _ _ _ _ _ _ _ _ _ hworkers _ _ =>
    exact hset hworkers

theorem Move.keeps_row (h : Move s l t) {id : Id} {row : WorkflowExecutionRow} (hrow : s.executions.find? id = some row)
    (hstatus : row.status = .processing) (hholder : t.holder id = s.holder id) (hheld : s.holder id ≠ none) :
    t.executions.find? id = some row := by
  have hguard (status : WorkflowExecutionStatus) (hne : status ≠ .processing)
      (set : WorkflowExecutionRow → WorkflowExecutionRow) (hset : ∀ row, (set row).id = row.id) (id' : Id) :
      (s.executions.update id' (·.status = status) set hset).find? id = some row := by
    obtain ⟨row', hrow', rfl | ⟨-, hmatch, -⟩⟩ := Table.row_update id' (·.status = status) hset hrow
    · exact hrow'
    · rw [decide_eq_true_eq, hstatus] at hmatch
      exact absurd hmatch.symm hne
  cases h with
  | quiet hexecutions | advance n stage hstage hexecutions | dispatch worker guard minutes hworker hstage hexecutions =>
    rw [hexecutions, hrow]
  | create row' hid hevent hstatus' hattempts hmax hexecutions =>
    rw [hexecutions, Table.find?_insertNew, hrow]
    simp
  | decide decision decider row' now hrow' hstatus' hpermitted hexecutions =>
    rw [hexecutions]
    exact hguard _ (by cases decision <;> nofun) _ _ _
  | withdraw workflowId organizationId projectId now hexecutions =>
    rw [hexecutions, Table.find?_updateAll, hrow, Option.map_some, if_neg]
    simp [WorkflowExecutionRow.openFor, hstatus]
  | claim row' n tick now stage hrow' hstatus' hn hstage hexecutions =>
    rw [hexecutions, claimExecution]
    exact hguard .pending nofun _ _ _
  | write worker now verdict stage lost hworker hlive hstale hpermitted hstage hexecutions hworkers hholder' =>
    by_cases hid : id = worker.claimed.id
    · subst hid
      have hprocessing : s.processing worker.claimed.id = true :=
        Table.matches?_iff.mpr ⟨row, hrow, decide_eq_true hstatus⟩
      rw [hholder', hprocessing, if_pos rfl, Function.update_self] at hholder
      exact absurd hholder.symm hheld
    · rw [hexecutions, Verdict.write, Table.find?_update, if_neg hid, hrow]
  | take rows set hset refunds hrows hnodup hstatus' hgated heffect hexecutions hworkers hholder' =>
    have hnot : ¬ row ∈ rows := fun hmem => by
      have hid : id ∈ rows.map (·.id) := List.mem_map.mpr ⟨row, hmem, Table.key_of_find? hrow⟩
      have hnone : (s.takeFrom (rows.map (·.id))).holder id = none := if_pos hid
      rw [hholder', hnone] at hholder
      exact hheld hholder.symm
    rw [hexecutions, Table.find?_updateAll, hrow, Option.map_some, if_neg (by simpa using hnot)]

theorem Move.holder (h : Move s l t) (id : Id) : t.holder id = s.holder id ∨ t.holder id = none ∨
    ∃ row n tick now stage, row.id = id ∧ s.executions.find? id = some row ∧ row.status = .pending ∧ t.holder id = some n ∧
      s.workers.find? n = none ∧ t.workers = s.workers.insertNew ⟨n, tick, row.claim now, stage⟩ ∧
      t.executions = claimExecution s.executions id now := by
  cases h with
  | quiet _ _ hholder _ | create _ _ _ _ _ _ _ _ hholder _ | withdraw _ _ _ _ _ _ hholder _
    | decide _ _ _ _ _ _ _ _ _ hholder _ | advance _ _ _ _ _ hholder _ | dispatch _ _ _ _ _ _ _ hholder _ =>
    exact .inl (by rw [hholder])
  | claim row n tick now stage hrow hstatus hn hstage hexecutions hworkers hholder hlog =>
    rw [hholder]
    by_cases hid : id = row.id
    · subst hid
      exact .inr (.inr ⟨row, n, tick, now, stage, rfl, hrow, hstatus, Function.update_self .., hn, hworkers, hexecutions⟩)
    · exact .inl (Function.update_of_ne hid ..)
  | write worker now verdict stage lost hworker hlive hstale hpermitted hstage hexecutions hworkers hholder hlog =>
    rw [hholder]
    split
    · by_cases hid : id = worker.claimed.id
      · exact .inr (.inl (hid ▸ Function.update_self ..))
      · exact .inl (Function.update_of_ne hid ..)
    · exact .inl rfl
  | take rows set hset refunds hrows hnodup hstatus hgated heffect hexecutions hworkers hholder hlog =>
    rw [hholder]
    by_cases hid : id ∈ rows.map (·.id)
    · exact .inr (.inl (if_pos hid))
    · exact .inl (if_neg hid)

theorem Move.claims_move (h : Move s l t) (hs : Claims s) : Claims t := by
  refine ⟨h.released_move hs.released, fun id n hn => ?_⟩
  rcases h.holder id with hholder | hnone | ⟨row, n', tick, now, stage, rfl, hrow, hstatus, hn', hfree, hworkers, hexecutions⟩
  · rw [hholder] at hn
    obtain ⟨worker, hworker, hid, hstatus, hrow⟩ := hs.holds id n hn
    obtain ⟨worker', hworker', hclaimed⟩ := h.keeps_worker hworker
    rw [← hclaimed] at hid hstatus hrow
    exact ⟨worker', hworker', hid, hstatus, h.keeps_row hrow hstatus hholder (by rw [hn]; nofun)⟩
  · rw [hnone] at hn
    cases hn
  · obtain rfl := Option.some.inj (hn'.symm.trans hn)
    refine ⟨⟨n', tick, row.claim now, stage⟩, ?_, rfl, rfl, ?_⟩
    · rw [hworkers, Table.find?_insertNew, if_pos rfl, hfree]
      rfl
    · rw [hexecutions, claimExecution, Table.find?_update, if_pos rfl, hrow, Option.map_some, if_pos (decide_eq_true hstatus)]

/-! ## The bound -/

/-- What the account of an execution says, whatever its status. -/
structure Accounts (s : Engine) (row : WorkflowExecutionRow) : Prop where
  max : 0 < row.maxAttempts
  balance : row.attemptCount + s.refunds row.id = s.attempts row.id
  attempted : row.status = .processing → 1 ≤ row.attemptCount
  pending : row.status = .pending →
    row.attemptCount + s.late₁ row.id < row.maxAttempts + s.disturbances row.id
  processing : row.status = .processing →
    row.attemptCount + s.late₁ row.id ≤ row.maxAttempts + s.disturbances row.id
  bound : row.attemptCount ≤ row.maxAttempts + s.disturbances row.id

structure Bounded (s : Engine) : Prop where
  claims : Claims s
  unknown : ∀ id, s.executions.find? id = none → s.refunds id = 0
  late : ∀ id, s.late₀ id ≤ s.disturbances id
  accounts : ∀ id row, s.executions.find? id = some row → Accounts s row

theorem late₁_le (s : Engine) (id : Id) : s.late₁ id ≤ s.late₀ id := by
  refine Table.sum_le fun _ worker _ => ?_
  cases s.late id worker with
  | false => exact Nat.le_refl 0
  | true => exact Bool.toNat_le _

theorem Accounts.of_rest {row : WorkflowExecutionRow} (h : Accounts s row) {extra : Nat}
    (hattempts : t.attempts row.id = s.attempts row.id) (hrefunds : t.refunds row.id = s.refunds row.id)
    (hdisturbances : t.disturbances row.id = s.disturbances row.id + extra)
    (hlate₁ : t.late₁ row.id ≤ s.late₁ row.id + extra) : Accounts t row := by
  refine ⟨h.max, by rw [hattempts, hrefunds, h.balance], h.attempted, fun hstatus => ?_, fun hstatus => ?_, ?_⟩
  · have := h.pending hstatus
    omega
  · have := h.processing hstatus
    omega
  · have := h.bound
    omega

theorem not_exhausted {row : WorkflowExecutionRow} :
    (!row.exhausted).toNat = if row.attemptCount < row.maxAttempts then 1 else 0 := by
  unfold WorkflowExecutionRow.exhausted
  by_cases h : row.attemptCount < row.maxAttempts
  · simp [h]
  · simp [h, Nat.le_of_not_lt h]

theorem accounts_turn (hs : Bounded s) (h : Turn s t id) {row' : WorkflowExecutionRow}
    (hrow' : t.executions.find? id = some row') : Accounts t row' := by
  have hid' : row'.id = id := Table.key_of_find? hrow'
  have hlate := hs.late id
  have hle := late₁_le s id
  cases h with
  | rest extra hrow hattempts hrefunds hdisturbances hlate₀ hlate₁ =>
    rw [hrow] at hrow'
    subst hid'
    exact (hs.accounts _ row' hrow').of_rest hattempts hrefunds hdisturbances hlate₁
  | start row hnone hrow hstatus hcount hmax hattempts hrefunds hdisturbances hlate₀ hlate₁ =>
    obtain rfl := Option.some.inj (hrow.symm.trans hrow')
    subst hid'
    have hclaims : s.attempts row.id = 0 := by
      have hsub : (s.sinceDecision row.id).countP (·.claims row.id) ≤ s.log.countP (·.claims row.id) :=
        (List.takeWhile_sublist _).countP_le
      exact Nat.le_zero.mp (hsub.trans_eq (hs.claims.released.unknown _ hnone))
    refine ⟨hmax, by rw [hcount, hrefunds, hs.unknown _ hnone, hattempts, hclaims], fun hp => ?_, fun _ => ?_,
      fun hp => ?_, ?_⟩
    · rcases hstatus with hstatus | hstatus <;> rw [hstatus] at hp <;> cases hp
    · omega
    · rcases hstatus with hstatus | hstatus <;> rw [hstatus] at hp <;> cases hp
    · omega
  | decided row row₁ hrow hrow₁ hsame hstatus hcount hattempts hrefunds hdisturbances hlate₀ hlate₁ =>
    obtain rfl := Option.some.inj (hrow₁.symm.trans hrow')
    have hmax := (hs.accounts _ row hrow).max
    subst hid'
    rw [← hsame.maxAttempts] at hmax
    refine ⟨hmax, by rw [hcount, hrefunds, hattempts], fun hp => ?_, fun _ => ?_, fun hp => ?_, ?_⟩
    · rcases hstatus with hstatus | hstatus <;> rw [hstatus] at hp <;> cases hp
    · omega
    · rcases hstatus with hstatus | hstatus <;> rw [hstatus] at hp <;> cases hp
    · omega
  | withdrawn row row₁ hrow hrow₁ hsame hstatus hcount hattempts hrefunds hdisturbances hlate₀ hlate₁ =>
    obtain rfl := Option.some.inj (hrow₁.symm.trans hrow')
    have hbefore := hs.accounts _ row hrow
    have hid : row.id = id := Table.key_of_find? hrow
    have hbalance := hbefore.balance
    have hbound := hbefore.bound
    have hmax := hbefore.max
    rw [hid] at hbalance hbound
    rw [← hsame.maxAttempts] at hmax hbound
    refine ⟨hmax, ?_, fun hp => ?_, fun hp => ?_, fun hp => ?_, ?_⟩
    · rw [hid']
      omega
    · rw [hstatus] at hp
      cases hp
    · rw [hstatus] at hp
      cases hp
    · rw [hstatus] at hp
      cases hp
    · rw [hid']
      omega
  | claimed row now hrow hrow₁ hstatus hattempts hrefunds hdisturbances hlate₀ hlate₁ =>
    obtain rfl := Option.some.inj (hrow₁.symm.trans hrow')
    obtain rfl : row.id = id := Table.key_of_find? hrow
    have hbefore := hs.accounts _ row hrow
    have hpending := hbefore.pending hstatus
    have hbalance := hbefore.balance
    refine ⟨hbefore.max, ?_, fun _ => Nat.succ_pos _, nofun, fun _ => ?_, ?_⟩
    · show row.attemptCount + 1 + t.refunds row.id = t.attempts row.id
      omega
    · show row.attemptCount + 1 + t.late₁ row.id ≤ row.maxAttempts + t.disturbances row.id
      omega
    · show row.attemptCount + 1 ≤ row.maxAttempts + t.disturbances row.id
      omega
  | settled row claimed now verdict late lost hrow hrow₁ hstatus hclaimed hpermitted hlate' hlost hattempts hrefunds
      hdisturbances hlate₀ hlate₁ =>
    obtain rfl := Option.some.inj (hrow₁.symm.trans hrow')
    obtain rfl : row.id = id := Table.key_of_find? hrow
    have hbefore := hs.accounts _ row hrow
    have hprocessing := hbefore.processing hstatus
    have hbalance := hbefore.balance
    have hbound := hbefore.bound
    have hcount : (verdict.set now row).attemptCount = row.attemptCount := by cases verdict <;> rfl
    have hmax : (verdict.set now row).maxAttempts = row.maxAttempts := (verdict.same now row).maxAttempts
    have hnot : (verdict.set now row).status ≠ .processing := by cases verdict <;> nofun
    refine ⟨by rw [hmax]; exact hbefore.max, ?_, fun hp => absurd hp hnot, fun hp => ?_, fun hp => absurd hp hnot, ?_⟩
    · rw [hcount, hid']
      omega
    · -- Only a reschedule leaves the execution pending, and its writer had an attempt left.
      have hleft : claimed.attemptCount < claimed.maxAttempts := by
        cases verdict with
        | complete | fail => cases hp
        | reschedule error nextAttemptAt =>
          simp only [Verdict.permitted, WorkflowExecutionRow.exhausted, Bool.and_eq_true, Bool.not_eq_true',
            decide_eq_false_iff_not, Nat.not_le] at hpermitted
          exact hpermitted.2
      rw [not_exhausted, not_exhausted, if_pos hleft] at hlate₁
      rw [hcount, hmax, hid']
      by_cases hroom : row.attemptCount < row.maxAttempts
      · rw [if_pos hroom] at hlate₁
        omega
      · rw [if_neg hroom] at hlate₁
        omega
    · rw [hcount, hmax, hid']
      omega
  | taken row row₁ refund late hrow hrow₁ hsame hstatus hstatus' hcount hattempts hrefunds hdisturbances hlate₀ hlate₁ =>
    obtain rfl := Option.some.inj (hrow₁.symm.trans hrow')
    obtain rfl : row.id = id := Table.key_of_find? hrow
    have hbefore := hs.accounts _ row hrow
    have hprocessing := hbefore.processing hstatus
    have hattempted := hbefore.attempted hstatus
    have hbalance := hbefore.balance
    have hbound := hbefore.bound
    have hmax := hsame.maxAttempts
    refine ⟨by rw [hmax]; exact hbefore.max, ?_, fun hp => ?_, fun hp => ?_, fun hp => ?_, ?_⟩
    · rw [hid']
      rcases hstatus' with ⟨-, rfl⟩ | ⟨-, rfl⟩ <;> omega
    · rcases hstatus' with ⟨h, -⟩ | ⟨h, -⟩ <;> rw [h] at hp <;> cases hp
    · rcases hstatus' with ⟨-, rfl⟩ | ⟨h, -⟩
      · rw [not_exhausted] at hlate₁
        rw [hmax, hid']
        split at hlate₁ <;> omega
      · rw [h] at hp
        cases hp
    · rcases hstatus' with ⟨h, -⟩ | ⟨h, -⟩ <;> rw [h] at hp <;> cases hp
    · rw [hmax, hid']
      omega

theorem late_turn (hs : s.late₀ id ≤ s.disturbances id) (h : Turn s t id) : t.late₀ id ≤ t.disturbances id := by
  cases h <;> omega

theorem Move.bounded_move (h : Move s l t) (hs : Bounded s) : Bounded t := by
  have hturn := h.turn hs.claims
  refine ⟨h.claims_move hs.claims, fun id hnone => ?_, fun id => late_turn (hs.late id) (hturn id),
    fun id row hrow => accounts_turn hs (hturn id) hrow⟩
  have hbefore : s.executions.find? id = none := by
    cases hrow : s.executions.find? id with
    | none => rfl
    | some row =>
      obtain ⟨row', hrow', -⟩ := h.evolves id row hrow
      rw [hnone] at hrow'
      cases hrow'
  have hzero := hs.unknown id hbefore
  cases hturn id with
  | rest extra hrow hattempts hrefunds => rw [hrefunds, hzero]
  | start row hnone' hrow | decided row row' hrow' hrow | withdrawn row row' hrow' hrow | claimed row now hrow' hrow
    | settled row claimed now verdict late lost hrow' hrow | taken row row' refund late hrow' hrow =>
    rw [hnone] at hrow
    cases hrow

theorem bounded_init : Bounded Engine.init :=
  ⟨⟨released_init, nofun⟩, fun _ _ => rfl, fun _ => Nat.le_refl 0, fun _ _ h => by cases h⟩

variable {evaluateCondition : Option String → String → Bool}

theorem bounded_reachable {ok : Engine → Step → Prop}
    (h : Reachable (step evaluateCondition) (· = Engine.init) ok s) : Bounded s :=
  h.invariant (fun _ hstart => hstart ▸ bounded_init) fun _ _ _ _ hs _ hstep =>
    (step_move hs.claims.released.stages hstep).bounded_move hs

/-- Since the last decision on it an execution was claimed at most as often as its limit allows, once more for each
time that stale recovery gave the attempt back, and once more for each time that it was ever taken from a worker that was
still at it or the answer to a verdict on it got lost. -/
theorem attempts_le (h : Reachable (step evaluateCondition) (· = Engine.init) anyStep s) {id : Id}
    {row : WorkflowExecutionRow} (hrow : s.executions.find? id = some row) :
    s.attempts id ≤ row.maxAttempts + s.refunds id + s.disturbances id := by
  obtain rfl : row.id = id := Table.key_of_find? hrow
  have haccounts := (bounded_reachable h).accounts _ row hrow
  have hbalance := haccounts.balance
  have hbound := haccounts.bound
  omega

theorem approved_mint_is_attempted_once : ∃ s row, run (step fun _ _ => true) Engine.init approvedRun = some s ∧
    s.executions.find? heldMint.id = some row ∧ s.attempts heldMint.id = 1 ∧ row.maxAttempts = 5 ∧
    s.attempts heldMint.id ≤ row.maxAttempts + s.refunds heldMint.id + s.disturbances heldMint.id := by
  refine ⟨_, _, rfl, rfl, rfl, rfl, ?_⟩
  exact attempts_le (.run (.start rfl) (by rfl : run (step fun _ _ => true) Engine.init approvedRun = some _)) rfl

/-! ## Undisturbed runs -/

/-- Stale recovery takes only executions whose worker has died, and no answer to a verdict gets lost. -/
def Undisturbed (s : Engine) : Step → Prop
  | .park _ _ rows | .recover _ _ rows => ∀ row ∈ rows, s.held row.id = false
  | .write _ _ outcome _ => outcome ≠ .lost
  | _ => True

theorem Move.undisturbed (h : Move s l t) (hok : Undisturbed s l) (id : Id) : t.disturbances id = s.disturbances id := by
  cases h with
  | quiet _ _ _ hlog | create _ _ _ _ _ _ _ _ _ hlog | withdraw _ _ _ _ _ _ _ hlog | advance _ _ _ _ _ _ hlog =>
    exact count_same _ hlog
  | decide _ _ _ _ _ _ _ _ _ _ hlog | dispatch _ _ _ _ _ _ _ _ hlog | claim _ _ _ _ _ _ _ _ _ _ _ _ hlog =>
    exact count_cons _ hlog
  | write worker now verdict stage lost hworker hlive hstale hpermitted hstage hexecutions hworkers hholder hlog hlabel =>
    cases lost with
    | false => exact count_same _ hlog
    | true =>
      obtain ⟨n, message, rfl⟩ := hlabel rfl
      exact absurd rfl hok
  | take rows set hset refunds hrows hnodup hstatus hgated heffect hexecutions hworkers hholder hlog hlabel =>
    have hnone : (rows.map (·.id)).filter s.held = [] := by
      rw [List.filter_eq_nil_iff, List.forall_mem_map]
      intro row hmem
      obtain ⟨no, now, rfl | rfl⟩ := hlabel
      all_goals exact Bool.not_eq_true _ ▸ hok row hmem
    obtain ⟨-, -, hdisturbances⟩ := counts_aside id (log_take hlog)
    rw [hdisturbances, hnone]
    rfl

theorem disturbances_eq_zero (h : Reachable (step evaluateCondition) (· = Engine.init) Undisturbed s) (id : Id) :
    s.disturbances id = 0 := by
  induction h with
  | start h =>
    subst h
    rfl
  | step hs hok ht ih =>
    rw [(step_move (bounded_reachable hs).claims.released.stages ht).undisturbed hok, ih]

/-- What a worker that is still at it may rely on, and what an execution may. -/
structure Owned (s : Engine) : Prop where
  row : ∀ n worker, s.workers.find? n = some worker → worker.live = true →
    worker.claimed.status = .processing ∧ s.executions.find? worker.claimed.id = some worker.claimed
  alone : ∀ n n' worker worker', s.workers.find? n = some worker → s.workers.find? n' = some worker' →
    worker.live = true → worker'.live = true → worker.claimed.id = worker'.claimed.id → n = n'
  due : ∀ id row, s.executions.find? id = some row → row.status = .pending → row.attemptCount < row.maxAttempts
  attempts : ∀ id row, s.executions.find? id = some row → s.attempts id ≤ row.maxAttempts + s.refunds id

/-- Where nothing is disturbed, the execution that a worker is at is exactly as it was claimed, so that its verdict is the
one on the current claim; it is at it alone; and an execution that is pending has an attempt left, so that it is due
again. -/
theorem owned_of_undisturbed (h : Reachable (step evaluateCondition) (· = Engine.init) Undisturbed s) : Owned s := by
  have hs := bounded_reachable h
  have hholder : ∀ n worker, s.workers.find? n = some worker → worker.live = true →
      s.holder worker.claimed.id = some n := by
    intro n worker hworker hlive
    -- Nobody is late, so the worker is the holder.
    have hzero : s.late₀ worker.claimed.id = 0 :=
      Nat.le_zero.mp ((hs.late worker.claimed.id).trans_eq (disturbances_eq_zero h _))
    by_contra hne
    have hlate : s.late worker.claimed.id worker = true := by
      rw [claim_of_find? hworker |>.symm] at hne
      simp [Engine.late, hlive, hne]
    have hmem := (Table.find?_eq_some_iff.mp hworker).1
    have hle := List.single_le_sum (fun _ _ => Nat.zero_le _) _
      (List.mem_map_of_mem (f := fun worker' => (s.late worker.claimed.id worker' && true).toNat) hmem)
    rw [hlate] at hle
    exact absurd (hle.trans_eq hzero) (by decide)
  have haccounts : ∀ id row, s.executions.find? id = some row → Accounts s row ∧ row.id = id ∧ s.disturbances row.id = 0 :=
    fun id row hrow => ⟨hs.accounts id row hrow, Table.key_of_find? hrow, disturbances_eq_zero h _⟩
  refine ⟨fun n worker hworker hlive => ?_, fun n n' worker worker' hworker hworker' hlive hlive' hid => ?_,
    fun id row hrow hstatus => ?_, fun id row hrow => ?_⟩
  · obtain ⟨worker', hworker', -, hstatus, hrow⟩ := hs.claims.holds _ n (hholder n worker hworker hlive)
    obtain rfl := Option.some.inj (hworker.symm.trans hworker')
    exact ⟨hstatus, hrow⟩
  · have hn := hholder n worker hworker hlive
    rw [hid, hholder n' worker' hworker' hlive'] at hn
    exact (Option.some.inj hn).symm
  · obtain ⟨haccount, -, hzero⟩ := haccounts id row hrow
    have hpending := haccount.pending hstatus
    omega
  · obtain ⟨haccount, rfl, hzero⟩ := haccounts id row hrow
    have hbalance := haccount.balance
    have hbound := haccount.bound
    omega

theorem approved_mint_is_owned : ∃ s, run (step fun _ _ => true) Engine.init approvedRun = some s ∧
    (s.workers.find? 7).any (·.live) = true ∧ Owned s := by
  refine ⟨_, rfl, rfl, ?_⟩
  refine owned_of_undisturbed (.run_of (.start rfl) (fun u l hl => ?_)
    (by rfl : run (step fun _ _ => true) Engine.init approvedRun = some _))
  simp only [approvedRun, List.mem_cons, List.not_mem_nil, or_false] at hl
  rcases hl with rfl | rfl | rfl | rfl | rfl | rfl | rfl | rfl | rfl | rfl | rfl | rfl | rfl | rfl | rfl | rfl
  all_goals first | exact True.intro | exact fun _ h => absurd h List.not_mem_nil

end Sdp.Workflows
