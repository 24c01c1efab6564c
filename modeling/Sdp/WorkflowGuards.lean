import Sdp.WorkflowExecutions
import Mathlib.Data.List.Basic

/-!
# The guard of an execution

The rule that a worker acts on is that of its own execution, also when it comes from the cache of the tick. Once a rule is
withdrawn, no tick that starts afterwards dispatches an action for it.
-/

open Sdp.Lib

namespace Sdp.Workflows

/-! ## The keys of the caches -/

def tenantKey (organizationId projectId id : Id) : String := organizationId.val ++ ":" ++ projectId.val ++ ":" ++ id.val

theorem append_separator_inj {α : Type} {sep : α} {l l' rest rest' : List α} (hl : sep ∉ l) (hl' : sep ∉ l')
    (h : l ++ sep :: rest = l' ++ sep :: rest') : l = l' ∧ rest = rest' := by
  induction l generalizing l' with
  | nil =>
    cases l' with
    | nil => exact ⟨rfl, (List.cons.inj h).2⟩
    | cons a l' =>
      obtain rfl : sep = a := (List.cons.inj h).1
      exact absurd List.mem_cons_self hl'
  | cons a l ih =>
    cases l' with
    | nil =>
      obtain rfl : a = sep := (List.cons.inj h).1
      exact absurd List.mem_cons_self hl
    | cons a' l' =>
      obtain ⟨rfl, htail⟩ := List.cons.inj h
      have ⟨hl, hrest⟩ := ih (fun hmem => hl (List.mem_cons_of_mem _ hmem))
        (fun hmem => hl' (List.mem_cons_of_mem _ hmem)) htail
      exact ⟨congrArg _ hl, hrest⟩

/-- No two lookups share a key. -/
theorem tenantKey_inj {o p i o' p' i' : Id} (h : tenantKey o p i = tenantKey o' p' i') : o = o' ∧ p = p' ∧ i = i' := by
  have hlist : o.val.toList ++ ':' :: (p.val.toList ++ ':' :: i.val.toList) =
      o'.val.toList ++ ':' :: (p'.val.toList ++ ':' :: i'.val.toList) := by
    simpa [tenantKey, String.toList_append] using congrArg String.toList h
  obtain ⟨ho, hrest⟩ := append_separator_inj o.2 o'.2 hlist
  obtain ⟨hp, hi⟩ := append_separator_inj p.2 p'.2 hrest
  exact ⟨Subtype.ext (String.toList_injective ho), Subtype.ext (String.toList_injective hp),
    Subtype.ext (String.toList_injective hi)⟩

/-! ## What a step does to caches and guards -/

variable {s t : Engine} {l : Step}

/-- The rule that a lookup finds. -/
def Engine.ruleOf (s : Engine) (execution : WorkflowExecutionRow) : Option AssetWorkflowRow :=
  getWorkflowById s.rules execution.workflowId execution.organizationId execution.projectId

/-- A tick is as before, with one more rule in its cache perhaps, or new. -/
inductive TickMove (s : Engine) (no : Nat) (tick' : Tick) : Prop
  | old (tick : Tick) (htick : s.ticks.find? no = some tick) (hrules : tick'.rules = tick.rules)
  | cached (tick : Tick) (worker : Worker) (htick : s.ticks.find? no = some tick)
      (hworker : s.workers.find? worker.claim = some worker)
      (hrules : tick'.rules = Function.update tick.rules (tenantCacheKey worker.claimed worker.claimed.workflowId)
        (some (s.ruleOf worker.claimed)))
  | new (htick : s.ticks.find? no = none) (hrules : tick'.rules = fun _ => none)

/-- A rule was found, and the action not called yet. -/
def Stage.guarding : Stage → Bool
  | .ruleChecked _ | .guarded _ => true
  | _ => false

/-- How a worker came by the rule, or the guard, that it has. -/
inductive WorkerMove (s : Engine) (n : Nat) (worker' : Worker) : Prop
  | plain (hstage : worker'.stage.guarding = false)
  | old (worker : Worker) (hworker : s.workers.find? n = some worker) (htick : worker'.tick = worker.tick)
      (hclaimed : worker'.claimed = worker.claimed) (hstage : worker'.stage = worker.stage)
  | checked (worker : Worker) (tick : Tick) (found : Option AssetWorkflowRow) (rule : AssetWorkflowRow)
      (hworker : s.workers.find? n = some worker) (htick : worker'.tick = worker.tick)
      (hclaimed : worker'.claimed = worker.claimed) (htick' : s.ticks.find? worker.tick = some tick)
      (hfound : tick.rules (tenantCacheKey worker.claimed worker.claimed.workflowId) = some found ∨
        tick.rules (tenantCacheKey worker.claimed worker.claimed.workflowId) = none ∧ found = s.ruleOf worker.claimed)
      (hrule : checkRule found = .ok rule) (hstage : worker'.stage = .ruleChecked rule)
  | guarded (worker : Worker) (rule : AssetWorkflowRow) (gate : Option AssetGateContext) (guard : Guard)
      (hworker : s.workers.find? n = some worker) (htick : worker'.tick = worker.tick)
      (hclaimed : worker'.claimed = worker.claimed) (hrule : worker.stage = .ruleChecked rule)
      (hguard : checkGate worker.claimed rule gate = .ok guard) (hstage : worker'.stage = .guarded guard)

/-- What a step does to the rules. -/
inductive RulesMove (s : Engine) (l : Step) (t : Engine) : Prop
  | same (h : t.rules = s.rules)
  | create (rule : AssetWorkflowRow) (hnone : s.rules.find? rule.id = none) (h : t.rules = s.rules.insertNew rule)
  | update (input : UpdateAssetWorkflowInput) (hl : l = .updateWorkflow input) (h : t.rules = updateWorkflow s.rules input)
  | delete (workflowId organizationId projectId : Id) (now : Nat)
      (h : t.rules = deleteWorkflow s.rules workflowId organizationId projectId now)

/-- What a step does to the rules, the caches of the ticks and the guards of the workers. -/
structure GuardMove (s : Engine) (l : Step) (t : Engine) : Prop where
  rules : RulesMove s l t
  kept : ∀ no, (s.ticks.find? no).isSome = true → (t.ticks.find? no).isSome = true
  ticks : ∀ no tick', t.ticks.find? no = some tick' → TickMove s no tick'
  workers : ∀ n worker', t.workers.find? n = some worker' → WorkerMove s n worker'

theorem tick_same (h : t.ticks = s.ticks) {no : Nat} {tick' : Tick} (htick : t.ticks.find? no = some tick') :
    TickMove s no tick' := .old tick' (h ▸ htick) rfl

theorem worker_same (h : t.workers = s.workers) {n : Nat} {worker' : Worker} (hworker : t.workers.find? n = some worker') :
    WorkerMove s n worker' := .old worker' (h ▸ hworker) rfl rfl rfl

theorem find?_setTick {no no' : Nat} {set : Tick → Tick} {hset : ∀ tick, (set tick).no = tick.no} {tick' : Tick}
    (h : (s.setTick no set hset).ticks.find? no' = some tick') :
    ∃ tick, s.ticks.find? no' = some tick ∧ (tick' = tick ∨ no' = no ∧ tick' = set tick) := by
  obtain ⟨tick, h₀, rfl | ⟨hno, -, rfl⟩⟩ := Table.row_of_update hset h
  · exact ⟨_, h₀, .inl rfl⟩
  · exact ⟨tick, h₀, .inr ⟨hno, rfl⟩⟩

theorem kept_setTick {no no' : Nat} {set : Tick → Tick} {hset : ∀ tick, (set tick).no = tick.no}
    (h : (s.ticks.find? no').isSome = true) : ((s.setTick no set hset).ticks.find? no').isSome = true := by
  obtain ⟨tick, htick⟩ := Option.isSome_iff_exists.mp h
  obtain ⟨tick', htick', -⟩ := Table.row_update no (fun _ => true) hset htick
  exact Option.isSome_iff_exists.mpr ⟨tick', htick'⟩

theorem worker_setStage {n n' : Nat} {stage : Stage} (hworkers : t.workers = (s.setStage n stage).workers)
    (hstage : stage.guarding = false) {worker' : Worker} (hworker : t.workers.find? n' = some worker') :
    WorkerMove s n' worker' := by
  rw [hworkers] at hworker
  obtain ⟨worker, h, rfl | ⟨-, rfl⟩⟩ := find?_setStage hworker
  · exact .old _ h rfl rfl rfl
  · exact .plain hstage

theorem GuardMove.same (hrules : RulesMove s l t) (hticks : t.ticks = s.ticks) (hworkers : t.workers = s.workers) :
    GuardMove s l t :=
  ⟨hrules, fun _ h => hticks ▸ h, fun _ _ => tick_same hticks, fun _ _ => worker_same hworkers⟩

theorem RulesMove.congr {u : Engine} (h : RulesMove s l t) (hrules : u.rules = t.rules) : RulesMove s l u := by
  cases h with
  | same h => exact .same (hrules.trans h)
  | create rule hnone h => exact .create rule hnone (hrules.trans h)
  | update input hl h => exact .update input hl (hrules.trans h)
  | delete workflowId organizationId projectId now h => exact .delete workflowId organizationId projectId now (hrules.trans h)

theorem GuardMove.setTick {u : Engine} {no : Nat} {set : Tick → Tick} {hset : ∀ tick, (set tick).no = tick.no}
    (h : GuardMove s l u) (hrules : ∀ tick, (set tick).rules = tick.rules) : GuardMove s l (u.setTick no set hset) := by
  refine ⟨h.rules.congr rfl, fun no' hsome => kept_setTick (h.kept no' hsome), fun no' tick' htick' => ?_, h.workers⟩
  obtain ⟨tick, h₀, rfl | ⟨-, rfl⟩⟩ := find?_setTick htick'
  · exact h.ticks no' _ h₀
  · -- The cache is the one of before.
    cases h.ticks no' tick h₀ with
    | old tick₀ htick hrules' => exact .old tick₀ htick ((hrules tick).trans hrules')
    | cached tick₀ worker htick hworker hrules' => exact .cached tick₀ worker htick hworker ((hrules tick).trans hrules')
    | new htick hrules' => exact .new htick ((hrules tick).trans hrules')

theorem GuardMove.setStage {n : Nat} {stage : Stage} (hrules : t.rules = s.rules) (hticks : t.ticks = s.ticks)
    (hworkers : t.workers = (s.setStage n stage).workers) (hstage : stage.guarding = false) : GuardMove s l t :=
  ⟨.same hrules, fun _ h => hticks ▸ h, fun _ _ => tick_same hticks, fun _ _ => worker_setStage hworkers hstage⟩

theorem guardMove_loadRule {n : Nat} (h : s.loadRule? n = some t) : GuardMove s l t := by
  unfold Engine.loadRule? at h
  split at h
  · next claim no claimed hworker =>
    obtain rfl := claim_of_find? hworker
    split at h
    · next tick htick =>
      dsimp only at h
      -- How the worker goes on with what was found.
      have hworkers (found : Option AssetWorkflowRow) (hfound : tick.rules (tenantCacheKey claimed claimed.workflowId) = some found ∨
          tick.rules (tenantCacheKey claimed claimed.workflowId) = none ∧ found = s.ruleOf claimed)
          (heq : t.workers = (s.setStage claim (Engine.afterGuard .ruleChecked (checkRule found))).workers) :
          ∀ n worker', t.workers.find? n = some worker' → WorkerMove s n worker' := by
        intro n worker' hworker'
        rw [heq] at hworker'
        obtain ⟨worker, h₀, rfl | ⟨rfl, rfl⟩⟩ := find?_setStage hworker'
        · exact .old _ h₀ rfl rfl rfl
        · obtain rfl := Option.some.inj (hworker.symm.trans h₀)
          cases hrule : checkRule found with
          | ok rule => exact .checked _ tick found rule hworker rfl rfl htick hfound hrule rfl
          | error message => exact .plain rfl
      split at h
      · next cached hcached =>
        cases h
        exact ⟨.same rfl, fun _ h => h, fun _ _ => tick_same (s := s) rfl, hworkers cached (.inl hcached) rfl⟩
      · next hmiss =>
        cases h
        refine ⟨.same rfl, fun _ => kept_setTick, fun no' tick' htick' => ?_, hworkers _ (.inr ⟨hmiss, rfl⟩) rfl⟩
        obtain ⟨tick₀, h₀, rfl | ⟨rfl, rfl⟩⟩ := find?_setTick htick'
        · exact .old _ h₀ rfl
        · obtain rfl := Option.some.inj (htick.symm.trans h₀)
          exact .cached tick ⟨claim, no', claimed, .claimed⟩ htick hworker rfl
    · cases h
  · cases h

theorem guardMove_loadGate {n : Nat} (h : s.loadGate? n = some t) : GuardMove s l t := by
  unfold Engine.loadGate? at h
  split at h
  · next claim no claimed rule hworker =>
    have hworkers (gate : Option AssetGateContext)
        (heq : t.workers = (s.setStage n (Engine.afterGuard .guarded (checkGate claimed rule gate))).workers) :
        ∀ n worker', t.workers.find? n = some worker' → WorkerMove s n worker' := by
      intro n' worker' hworker'
      rw [heq] at hworker'
      obtain ⟨worker, h₀, rfl | ⟨rfl, rfl⟩⟩ := find?_setStage hworker'
      · exact .old _ h₀ rfl rfl rfl
      · obtain rfl := Option.some.inj (hworker.symm.trans h₀)
        cases hguard : checkGate claimed rule gate with
        | ok guard => exact .guarded _ rule gate guard hworker rfl rfl rfl hguard rfl
        | error message => exact .plain rfl
    split at h
    · dsimp only at h
      split at h
      · cases h
        exact ⟨.same rfl, fun _ h => h, fun _ _ => tick_same (s := s) rfl, hworkers _ rfl⟩
      · cases h
        refine GuardMove.setTick ⟨.same rfl, fun _ h => h, fun _ _ => tick_same (s := s) rfl, hworkers _ rfl⟩ fun _ => rfl
    · cases h
  · cases h

theorem worker_insertNew {worker : Worker} (hn : s.workers.find? worker.claim = none)
    (hstage : worker.stage.guarding = false) {n : Nat} {worker' : Worker}
    (h : (s.workers.insertNew worker).find? n = some worker') : WorkerMove s n worker' := by
  rw [Table.find?_insertNew] at h
  split at h
  · next heq =>
    rw [heq, hn] at h
    cases h
    exact .plain hstage
  · exact .old worker' h rfl rfl rfl

theorem guardMove_claim {no n now : Nat} {row : WorkflowExecutionRow} {outcome : CallOutcome}
    (h : s.claim? no row n now outcome = some t) : GuardMove s l t := by
  unfold Engine.claim? at h
  split at h
  · split at h
    · next hguard =>
      dsimp only at h
      have hself : GuardMove s l s := .same (.same rfl) rfl rfl
      split at h
      · cases h
        exact .setTick hself fun _ => rfl
      · cases h
        exact .setTick hself fun _ => rfl
      · cases h
        exact .setTick (.setTick hself fun _ => rfl) fun _ => rfl
      · cases h
        refine ⟨.same rfl,
          fun no' => @kept_setTick s no no' (fun tick => { tick with taken := tick.taken.erase row }) fun _ => rfl,
          fun no' tick' htick' => ?_, fun n' worker' => worker_insertNew hguard.2.2 ?_⟩
        · change (s.setTick no (fun tick => { tick with taken := tick.taken.erase row }) fun _ => rfl).ticks.find? no' =
            some tick' at htick'
          obtain ⟨tick, h₀, rfl | ⟨-, rfl⟩⟩ := find?_setTick htick'
          · exact .old _ h₀ rfl
          · exact .old tick h₀ rfl
        · dsimp only
          split <;> rfl
    · cases h
  · cases h

theorem GuardMove.put {n : Nat} {stage : Stage} (executionId : Id) (now : Nat) (verdict : Verdict)
    (hstage : stage.guarding = false) : GuardMove s l ((s.put executionId now verdict).setStage n stage) :=
  .setStage rfl rfl rfl hstage

theorem GuardMove.freeLane {u : Engine} (h : GuardMove s l u) (no : Nat) (verdict : Verdict) :
    GuardMove s l (u.freeLane no verdict) :=
  h.setTick fun _ => rfl

theorem guardMove_write {n now : Nat} {outcome : CallOutcome} {message : String}
    (h : s.write? n now outcome message = some t) : GuardMove s l t := by
  unfold Engine.write? at h
  split at h
  · next claim no claimed minutes verdict hworker =>
    cases outcome with
    | answered =>
      cases h
      exact (GuardMove.put claimed.id now verdict rfl).freeLane no verdict
    | failed | lost =>
      cases h
      exact .setStage rfl rfl rfl rfl
  · cases h

theorem guardMove_rescue {n now nextAttemptAt : Nat} {outcome : CallOutcome}
    (h : s.rescue? n now outcome nextAttemptAt = some t) : GuardMove s l t := by
  unfold Engine.rescue? at h
  split at h
  · next claim no claimed minutes message hworker =>
    split at h
    · split at h
      · cases outcome with
        | answered =>
          cases h
          exact (GuardMove.put claimed.id now (verdictOnThrow claimed nextAttemptAt message) rfl).freeLane no _
        | failed | lost =>
          cases h
          exact .setStage rfl rfl rfl rfl
      · cases h
    · cases h
  · cases h

variable {evaluateCondition : Option String → String → Bool}

theorem step_guardMove (h : step evaluateCondition s l = some t) : GuardMove s l t := by
  have hself : GuardMove s l s := .same (.same rfl) rfl rfl
  cases l with
  | updateWorkflow input =>
    cases h
    exact .same (.update input rfl rfl) rfl rfl
  | deleteWorkflow workflowId organizationId projectId now =>
    cases h
    exact .same (.delete workflowId organizationId projectId now rfl) rfl rfl
  | setGates | cancelOpen =>
    cases h
    exact .same (.same rfl) rfl rfl
  | createWorkflow rule =>
    change s.createWorkflow? rule = some t at h
    unfold Engine.createWorkflow? at h
    split at h
    · next hnone =>
      cases h
      exact .same (.create rule hnone rfl) rfl rfl
    · cases h
  | deliver no event rules =>
    change s.deliver? no event rules = some t at h
    unfold Engine.deliver? at h
    split at h <;> cases h
    exact .same (.same rfl) rfl rfl
  | enqueue no id now =>
    change s.enqueue? evaluateCondition no id now = some t at h
    unfold Engine.enqueue? at h
    split at h
    · dsimp only at h
      split at h
      · cases h
        exact .same (.same rfl) rfl rfl
      · split at h <;> cases h
        exact .same (.same rfl) rfl rfl
    · cases h
  | decide decision decider id organizationId projectId tokenId now =>
    change s.decide? decision decider id organizationId projectId tokenId now = some t at h
    unfold Engine.decide? at h
    split at h
    · cases h
    · split at h <;> cases h
      exact .same (.same rfl) rfl rfl
  | startTick no now =>
    change s.startTick? no now = some t at h
    unfold Engine.startTick? at h
    split at h
    · next hfree =>
      cases h
      refine ⟨.same rfl, fun no' hsome => ?_, fun no' tick' htick' => ?_, fun _ _ => worker_same (s := s) rfl⟩
      · rw [Table.find?_insertNew]
        split
        · next heq =>
          rw [heq, hfree] at hsome
          cases hsome
        · exact hsome
      rw [Table.find?_insertNew] at htick'
      split at htick'
      · next heq =>
        subst heq
        rw [hfree] at htick'
        cases htick'
        exact .new hfree rfl
      · exact .old tick' htick' rfl
    · cases h
  | park no now rows =>
    change s.park? no now rows = some t at h
    unfold Engine.park? at h
    split at h
    · dsimp only at h
      split at h <;> cases h
      exact .setTick (.same (.same rfl) rfl rfl) fun _ => rfl
    · cases h
  | recover no now rows =>
    change s.recover? no now rows = some t at h
    unfold Engine.recover? at h
    split at h
    · dsimp only at h
      split at h <;> cases h
      exact .setTick (.same (.same rfl) rfl rfl) fun _ => rfl
    · cases h
  | list no rows =>
    change s.list? no rows = some t at h
    unfold Engine.list? at h
    split at h
    · split at h <;> cases h
      exact .setTick hself fun _ => rfl
    · cases h
  | shift no =>
    change s.shift? no = some t at h
    unfold Engine.shift? at h
    split at h
    · split at h
      · split at h <;> cases h
        exact .setTick hself fun _ => rfl
      · cases h
    · cases h
  | claim no row n now outcome => exact guardMove_claim h
  | stop no =>
    cases h
    exact .setTick hself fun _ => rfl
  | loadRule n => exact guardMove_loadRule h
  | loadGate n => exact guardMove_loadGate h
  | dispatch n =>
    change s.dispatch? n = some t at h
    unfold Engine.dispatch? at h
    split at h <;> cases h
    exact .setStage rfl rfl rfl rfl
  | finish n outcome nextAttemptAt =>
    change s.finish? n outcome nextAttemptAt = some t at h
    unfold Engine.finish? at h
    split at h
    · split at h
      · split at h <;> cases h
        exact .setStage rfl rfl rfl rfl
      · cases h
    · cases h
  | throw n message =>
    change s.throw? n message = some t at h
    unfold Engine.throw? at h
    split at h <;> cases h
    all_goals exact .setStage rfl rfl rfl rfl
  | write n now outcome message => exact guardMove_write h
  | rescue n now outcome nextAttemptAt => exact guardMove_rescue h
  | die n =>
    cases h
    exact .setStage rfl rfl rfl rfl

/-! ## The guard of an execution -/

/-- The rule is the one of the execution, of the same tenant, and was enabled. -/
structure AssetWorkflowRow.Guards (rule : AssetWorkflowRow) (execution : WorkflowExecutionRow) : Prop where
  id : rule.id = execution.workflowId
  organization : rule.organizationId = execution.organizationId
  project : rule.projectId = execution.projectId
  enabled : rule.enabled = true

theorem checkRule_ok {found : Option AssetWorkflowRow} {rule : AssetWorkflowRow} (h : checkRule found = .ok rule) :
    found = some rule ∧ rule.enabled = true := by
  unfold checkRule at h
  split at h
  · cases h
  · split at h
    · next henabled =>
      cases h
      exact ⟨rfl, henabled⟩
    · cases h

theorem checkGate_ok {execution : WorkflowExecutionRow} {rule : AssetWorkflowRow} {gate : Option AssetGateContext}
    {guard : Guard} (h : checkGate execution rule gate = .ok guard) : guard.params = rule.definition.params := by
  unfold checkGate at h
  split at h
  · cases h
  · split at h <;> cases h
    rfl

theorem ruleOf_spec {execution : WorkflowExecutionRow} {rule : AssetWorkflowRow} (h : s.ruleOf execution = some rule) :
    s.rules.find? rule.id = some rule ∧ rule.id = execution.workflowId ∧ rule.organizationId = execution.organizationId ∧
      rule.projectId = execution.projectId := by
  unfold Engine.ruleOf getWorkflowById at h
  obtain ⟨hfind, hvisible⟩ := Option.filter_eq_some_iff.mp h
  simp only [AssetWorkflowRow.visibleTo, Bool.and_eq_true, decide_eq_true_eq] at hvisible
  obtain hid : rule.id = execution.workflowId := Table.key_of_find? hfind
  exact ⟨hid ▸ hfind, hid, hvisible.1.1, hvisible.1.2⟩

/-- A cached rule is kept under its own key, and a worker acts on the rule of its own execution. -/
structure Guarded (s : Engine) : Prop where
  cached : ∀ no tick, s.ticks.find? no = some tick → ∀ key rule, tick.rules key = some (some rule) →
    key = tenantKey rule.organizationId rule.projectId rule.id
  checked : ∀ n worker, s.workers.find? n = some worker → ∀ rule, worker.stage = .ruleChecked rule →
    rule.Guards worker.claimed
  ticks : ∀ n worker, s.workers.find? n = some worker → worker.stage.guarding = true →
    (s.ticks.find? worker.tick).isSome = true
  guarded : ∀ n worker, s.workers.find? n = some worker → ∀ guard, worker.stage = .guarded guard →
    ∃ rule : AssetWorkflowRow, rule.Guards worker.claimed ∧ guard.params = rule.definition.params

theorem guarded_init : Guarded Engine.init :=
  ⟨fun _ _ h => (by cases h), fun _ _ h => (by cases h), fun _ _ h => (by cases h), fun _ _ h => (by cases h)⟩

/-- Which rule a worker checks, in terms of the tick's cache. -/
theorem guards_of_checked (hs : Guarded s) {worker : Worker} {tick : Tick} (htick : s.ticks.find? worker.tick = some tick)
    {found : Option AssetWorkflowRow}
    (hfound : tick.rules (tenantCacheKey worker.claimed worker.claimed.workflowId) = some found ∨
      tick.rules (tenantCacheKey worker.claimed worker.claimed.workflowId) = none ∧ found = s.ruleOf worker.claimed)
    {rule : AssetWorkflowRow} (hrule : checkRule found = .ok rule) : rule.Guards worker.claimed := by
  obtain ⟨rfl, henabled⟩ := checkRule_ok hrule
  rcases hfound with hcached | ⟨-, hlookup⟩
  · obtain ⟨horganization, hproject, hid⟩ := tenantKey_inj (hs.cached _ tick htick _ rule hcached)
    exact ⟨hid.symm, horganization.symm, hproject.symm, henabled⟩
  · obtain ⟨-, hid, horganization, hproject⟩ := ruleOf_spec hlookup.symm
    exact ⟨hid, horganization, hproject, henabled⟩

theorem stage_inj {worker : Worker} {stage stage' : Stage} (h : worker.stage = stage) (h' : worker.stage = stage') :
    stage = stage' := h.symm.trans h'

theorem GuardMove.guarded (h : GuardMove s l t) (hs : Guarded s) : Guarded t := by
  refine ⟨fun no tick' htick' key rule hcached => ?_, fun n worker' hworker' rule hstage => ?_,
    fun n worker' hworker' hguarding => ?_, fun n worker' hworker' guard hstage => ?_⟩
  · cases h.ticks no tick' htick' with
    | old tick htick hrules => exact hs.cached no tick htick key rule (hrules ▸ hcached)
    | new htick hrules =>
      rw [hrules] at hcached
      cases hcached
    | cached tick worker htick hworker hrules =>
      rw [hrules, Function.update_apply] at hcached
      split at hcached
      · next hkey =>
        obtain ⟨-, hid, horganization, hproject⟩ := ruleOf_spec (Option.some.inj hcached)
        rw [hkey, horganization, hproject, hid]
        rfl
      · exact hs.cached no tick htick key rule hcached
  · cases h.workers n worker' hworker' with
    | plain hplain =>
      rw [hstage] at hplain
      cases hplain
    | old worker hworker htick hclaimed hsame => exact hclaimed ▸ hs.checked n worker hworker rule (hsame ▸ hstage)
    | checked worker tick found rule' hworker htick hclaimed htick' hfound hrule hstage' =>
      cases stage_inj hstage hstage'
      exact hclaimed ▸ guards_of_checked hs htick' hfound hrule
    | guarded worker rule' gate guard hworker htick hclaimed hrule hguard hstage' => cases stage_inj hstage hstage'
  · cases h.workers n worker' hworker' with
    | plain hplain =>
      rw [hguarding] at hplain
      cases hplain
    | old worker hworker htick hclaimed hsame =>
      rw [htick]
      exact h.kept _ (hs.ticks n worker hworker (hsame ▸ hguarding))
    | checked worker tick found rule' hworker htick hclaimed htick' hfound hrule hstage' =>
      rw [htick]
      exact h.kept _ (Option.isSome_iff_exists.mpr ⟨tick, htick'⟩)
    | guarded worker rule' gate guard hworker htick hclaimed hrule hguard hstage' =>
      rw [htick]
      exact h.kept _ (hs.ticks n worker hworker (by rw [hrule]; rfl))
  · cases h.workers n worker' hworker' with
    | plain hplain =>
      rw [hstage] at hplain
      cases hplain
    | old worker hworker htick hclaimed hsame => exact hclaimed ▸ hs.guarded n worker hworker guard (hsame ▸ hstage)
    | checked worker tick found rule' hworker htick hclaimed htick' hfound hrule hstage' => cases stage_inj hstage hstage'
    | guarded worker rule' gate guard' hworker htick hclaimed hrule hguard hstage' =>
      cases stage_inj hstage hstage'
      exact ⟨rule', hclaimed ▸ hs.checked n worker hworker rule' hrule, checkGate_ok hguard⟩

theorem guarded_reachable (h : Reachable (step evaluateCondition) (· = Engine.init) anyStep s) : Guarded s :=
  h.invariant (fun _ hstart => hstart ▸ guarded_init) fun _ _ _ _ hs _ hstep => (step_guardMove hstep).guarded hs

/-! ## The rule that a tick acts on -/

/-- The rule was in the table, and not deleted, at a moment between the two states. -/
def Was (evaluateCondition : Option String → String → Bool) (s₀ s : Engine) (rule : AssetWorkflowRow) : Prop :=
  ∃ u, Reachable (step evaluateCondition) (· = s₀) anyStep u ∧ Reachable (step evaluateCondition) (· = u) anyStep s ∧
    u.rules.find? rule.id = some rule ∧ rule.deletedAt = none

/-- What the ticks that were not there in `s₀` have found. -/
structure Current (evaluateCondition : Option String → String → Bool) (s₀ s : Engine) : Prop where
  cached : ∀ no tick, s₀.ticks.find? no = none → s.ticks.find? no = some tick → ∀ key rule,
    tick.rules key = some (some rule) → Was evaluateCondition s₀ s rule
  checked : ∀ n worker, s.workers.find? n = some worker → s₀.ticks.find? worker.tick = none → ∀ rule,
    worker.stage = .ruleChecked rule → Was evaluateCondition s₀ s rule
  guarded : ∀ n worker, s.workers.find? n = some worker → s₀.ticks.find? worker.tick = none → ∀ guard,
    worker.stage = .guarded guard → ∃ rule, Was evaluateCondition s₀ s rule ∧ rule.Guards worker.claimed ∧
      guard.params = rule.definition.params

theorem Was.step {s₀ : Engine} {rule : AssetWorkflowRow} (h : Was evaluateCondition s₀ s rule)
    (ht : step evaluateCondition s l = some t) : Was evaluateCondition s₀ t rule :=
  have ⟨u, hu, hs, hrule⟩ := h
  ⟨u, hu, .step hs trivial ht, hrule⟩

theorem was_of_ruleOf {s₀ : Engine} (h : Reachable (step evaluateCondition) (· = s₀) anyStep s)
    {execution : WorkflowExecutionRow} {rule : AssetWorkflowRow} (hrule : s.ruleOf execution = some rule) :
    Was evaluateCondition s₀ s rule := by
  have hvisible := (Option.filter_eq_some_iff.mp hrule).2
  rw [AssetWorkflowRow.visibleTo, Bool.and_eq_true, Option.isNone_iff_eq_none] at hvisible
  exact ⟨s, h, .start rfl, (ruleOf_spec hrule).1, hvisible.2⟩

theorem Guarded.plain (hs : Guarded s) {n : Nat} {worker : Worker} (hworker : s.workers.find? n = some worker)
    (hnone : s.ticks.find? worker.tick = none) : worker.stage.guarding = false := by
  refine Bool.eq_false_iff.mpr fun hguarding => ?_
  have hsome := hs.ticks n worker hworker hguarding
  rw [hnone] at hsome
  cases hsome

theorem current_refl (hs : Guarded s) : Current evaluateCondition s s := by
  refine ⟨fun no tick hnone htick => ?_, fun n worker hworker hnone rule hstage => ?_,
    fun n worker hworker hnone guard hstage => ?_⟩
  · rw [hnone] at htick
    cases htick
  all_goals
    have hplain := hs.plain hworker hnone
    rw [hstage] at hplain
    cases hplain

theorem Current.step {s₀ : Engine} (hs : Current evaluateCondition s₀ s) (hguarded : Guarded s)
    (hreached : Reachable (Workflows.step evaluateCondition) (· = s₀) anyStep s)
    (ht : Workflows.step evaluateCondition s l = some t) : Current evaluateCondition s₀ t := by
  have h := step_guardMove ht
  refine ⟨fun no tick' hnone htick' key rule hcached => ?_, fun n worker' hworker' hnone rule hstage => ?_,
    fun n worker' hworker' hnone guard hstage => ?_⟩
  · cases h.ticks no tick' htick' with
    | old tick htick hrules => exact (hs.cached no tick hnone htick key rule (hrules ▸ hcached)).step ht
    | new htick hrules =>
      rw [hrules] at hcached
      cases hcached
    | cached tick worker htick hworker hrules =>
      rw [hrules, Function.update_apply] at hcached
      split at hcached
      · exact (was_of_ruleOf hreached (Option.some.inj hcached)).step ht
      · exact (hs.cached no tick hnone htick key rule hcached).step ht
  · cases h.workers n worker' hworker' with
    | plain hplain =>
      rw [hstage] at hplain
      cases hplain
    | old worker hworker htick hclaimed hsame =>
      exact (hs.checked n worker hworker (htick ▸ hnone) rule (hsame ▸ hstage)).step ht
    | checked worker tick found rule' hworker htick hclaimed htick' hfound hrule hstage' =>
      cases stage_inj hstage hstage'
      obtain ⟨rfl, -⟩ := checkRule_ok hrule
      rcases hfound with hcached | ⟨-, hlookup⟩
      · exact (hs.cached _ tick (htick ▸ hnone) htick' _ rule hcached).step ht
      · exact (was_of_ruleOf hreached hlookup.symm).step ht
    | guarded worker rule' gate guard hworker htick hclaimed hrule hguard hstage' => cases stage_inj hstage hstage'
  · cases h.workers n worker' hworker' with
    | plain hplain =>
      rw [hstage] at hplain
      cases hplain
    | old worker hworker htick hclaimed hsame =>
      obtain ⟨rule, hwas, hguards, hparams⟩ := hs.guarded n worker hworker (htick ▸ hnone) guard (hsame ▸ hstage)
      exact ⟨rule, hwas.step ht, hclaimed ▸ hguards, hparams⟩
    | checked worker tick found rule' hworker htick hclaimed htick' hfound hrule hstage' => cases stage_inj hstage hstage'
    | guarded worker rule' gate guard' hworker htick hclaimed hrule hguard hstage' =>
      cases stage_inj hstage hstage'
      have hwas := hs.checked n worker hworker (htick ▸ hnone) rule' hrule
      exact ⟨rule', hwas.step ht, hclaimed ▸ hguarded.checked n worker hworker rule' hrule, checkGate_ok hguard⟩

/-- What a worker is about to run are the parameters that the rule of its execution, of the same organization and
project, had at a moment since the tick started, and the rule was enabled then. -/
theorem guard_of_tick {s₀ : Engine} (h₀ : Reachable (step evaluateCondition) (· = Engine.init) anyStep s₀)
    (h : Reachable (step evaluateCondition) (· = s₀) anyStep s) {n : Nat} {worker : Worker} {guard : Guard}
    (hworker : s.workers.find? n = some worker) (hnew : s₀.ticks.find? worker.tick = none)
    (hstage : worker.stage = .guarded guard) :
    ∃ rule, Was evaluateCondition s₀ s rule ∧ rule.Guards worker.claimed ∧ guard.params = rule.definition.params := by
  have hreached : ∀ u, Reachable (step evaluateCondition) (· = s₀) anyStep u → Guarded u := fun u hu =>
    guarded_reachable (hu.invariant (fun _ hstart => hstart ▸ h₀) fun _ _ _ _ ih _ hstep => .step ih trivial hstep)
  have hcurrent : Current evaluateCondition s₀ s := by
    refine h.invariant (fun _ hstart => ?_) fun u _ _ hu hs _ hstep => hs.step (hreached u hu) hu hstep
    subst hstart
    exact current_refl (guarded_reachable h₀)
  exact hcurrent.guarded n worker hworker hnew guard hstage

theorem mint_has_guard_of_tick : ∃ s₀ s worker guard, run (step fun _ _ => true) Engine.init (approvedRun.take 7) = some s₀ ∧
    run (step fun _ _ => true) s₀ ((approvedRun.drop 7).dropLast) = some s ∧ s.workers.find? 7 = some worker ∧
    worker.stage = .guarded guard ∧ ∃ rule, Was (fun _ _ => true) s₀ s rule ∧ rule.Guards worker.claimed ∧
      guard.params = rule.definition.params := by
  refine ⟨_, _, _, _, rfl, rfl, rfl, rfl, ?_⟩
  refine guard_of_tick (.run (.start rfl) (by rfl : run (step fun _ _ => true) Engine.init (approvedRun.take 7) = some _))
    (.run (.start rfl) (by rfl : run (step fun _ _ => true) _ ((approvedRun.drop 7).dropLast) = some _)) (n := 7) rfl rfl rfl

/-! ## Withdrawn rules -/

/-- The step does not enable the rule, unless it is deleted already. -/
def LeavesOff (w : Id) (s : Engine) : Step → Prop
  | .updateWorkflow input => input.workflowId = w → input.enabled = some true →
      ∀ rule, s.rules.find? w = some rule → rule.deletedAt ≠ none
  | _ => True

/-- The rule is there and not enabled. -/
def Off (w : Id) (s : Engine) : Prop := ∃ rule, s.rules.find? w = some rule ∧ rule.enabled = false

variable {w : Id}

theorem off_step (h : GuardMove s l t) (hs : Off w s) (hok : LeavesOff w s l) : Off w t := by
  obtain ⟨rule, hrule, hoff⟩ := hs
  cases h.rules with
  | same hrules => exact ⟨rule, hrules ▸ hrule, hoff⟩
  | create created hnone hrules =>
    refine ⟨rule, ?_, hoff⟩
    rw [hrules, Table.find?_insertNew, if_neg, hrule]
    intro heq
    rw [← heq, hrule] at hnone
    cases hnone
  | update input hl hrules =>
    subst hl
    obtain ⟨rule', hrule', hcases⟩ := Table.row_update input.workflowId
      (·.visibleTo input.organizationId input.projectId) input.id_set hrule
    refine ⟨rule', hrules ▸ hrule', ?_⟩
    rcases hcases with rfl | ⟨hid, hvisible, rfl⟩
    · exact hoff
    · -- A deleted rule is out of sight, and any other is left off.
      rw [AssetWorkflowRow.visibleTo, Bool.and_eq_true, Option.isNone_iff_eq_none] at hvisible
      have hnot : input.enabled ≠ some true := fun henabled => hok hid.symm henabled rule hrule hvisible.2
      change input.enabled.getD rule.enabled = false
      rw [hoff]
      match henabled : input.enabled with
      | none | some false => rfl
      | some true => exact absurd henabled hnot
  | delete workflowId organizationId projectId now hrules =>
    obtain ⟨rule', hrule', hcases⟩ := Table.row_update workflowId (·.visibleTo organizationId projectId)
      (fun _ => rfl : ∀ rule : AssetWorkflowRow, { rule with deletedAt := some now, enabled := false }.id = rule.id) hrule
    refine ⟨rule', hrules ▸ hrule', ?_⟩
    rcases hcases with rfl | ⟨-, -, rfl⟩
    · exact hoff
    · rfl

/-- The rule is off, no newer tick has it in its cache as enabled, and no worker of a newer tick is past its check. -/
structure Withdrawn (s₀ : Engine) (w : Id) (s : Engine) : Prop where
  off : Off w s
  cached : ∀ no tick, s₀.ticks.find? no = none → s.ticks.find? no = some tick → ∀ key rule,
    tick.rules key = some (some rule) → rule.id = w → rule.enabled = false
  workers : ∀ n worker, s.workers.find? n = some worker → s₀.ticks.find? worker.tick = none →
    worker.claimed.workflowId = w → worker.stage.guarding = false
  log : ∃ new, s.log = new ++ s₀.log ∧
    ∀ tick claim id, .dispatched tick claim id w ∈ new → (s₀.ticks.find? tick).isSome = true

theorem enabled_of_off (hs : Off w s) {execution : WorkflowExecutionRow} {rule : AssetWorkflowRow}
    (h : s.ruleOf execution = some rule) (hid : rule.id = w) : rule.enabled = false := by
  obtain ⟨rule', hrule', hoff⟩ := hs
  obtain ⟨hfind, -⟩ := ruleOf_spec h
  rw [hid, hrule'] at hfind
  exact Option.some.inj hfind ▸ hoff

theorem Move.dispatches_guarded (h : Move s l t) : ∃ new, t.log = new ++ s.log ∧
    ∀ tick claim id w, .dispatched tick claim id w ∈ new → ∃ worker, s.workers.find? claim = some worker ∧
      worker.tick = tick ∧ worker.claimed.workflowId = w ∧ worker.stage.guarding = true := by
  have hnone {new : List LogEntry} (hlog : t.log = new ++ s.log)
      (hnew : ∀ tick claim id w, LogEntry.dispatched tick claim id w ∉ new) :
      ∃ new, t.log = new ++ s.log ∧ ∀ tick claim id w, .dispatched tick claim id w ∈ new →
        ∃ worker, s.workers.find? claim = some worker ∧ worker.tick = tick ∧ worker.claimed.workflowId = w ∧
          worker.stage.guarding = true :=
    ⟨new, hlog, fun tick claim id w hmem => absurd hmem (hnew tick claim id w)⟩
  cases h with
  | quiet _ _ _ hlog | create _ _ _ _ _ _ _ _ _ hlog | withdraw _ _ _ _ _ _ _ hlog | advance _ _ _ _ _ _ hlog =>
    exact @hnone [] hlog fun _ _ _ _ => List.not_mem_nil
  | decide _ _ _ _ _ _ _ _ _ _ hlog | claim _ _ _ _ _ _ _ _ _ _ _ _ hlog =>
    exact @hnone [_] hlog fun _ _ _ _ h => by cases List.mem_singleton.mp h
  | write worker now verdict stage lost hworker hlive hstale hpermitted hstage hexecutions hworkers hholder hlog =>
    refine hnone hlog fun _ _ _ _ h => ?_
    cases lost with
    | false => cases h
    | true => cases List.mem_singleton.mp h
  | take rows set hset refunds hrows hnodup hstatus hgated heffect hexecutions hworkers hholder hlog =>
    refine @hnone ((if refunds then (rows.map (·.id)).map LogEntry.refunded else []) ++
      ((rows.map (·.id)).filter s.held).map LogEntry.disturbed) ?_ fun _ _ _ _ h => ?_
    · rw [hlog, List.append_assoc]
      rfl
    · rcases List.mem_append.mp h with h | h
      · cases refunds with
        | false => cases h
        | true =>
          obtain ⟨_, -, h⟩ := List.mem_map.mp h
          cases h
      · obtain ⟨_, -, h⟩ := List.mem_map.mp h
        cases h
  | dispatch worker guard minutes hworker hstage hexecutions hworkers hholder hlog =>
    refine ⟨[_], hlog, fun tick claim id w hmem => ?_⟩
    cases List.mem_singleton.mp hmem
    exact ⟨worker, hworker, rfl, rfl, by rw [hstage]; rfl⟩

theorem withdrawn_refl (hs : Guarded s) (hoff : Off w s) : Withdrawn s w s where
  off := hoff
  cached no tick hnone htick := by
    rw [hnone] at htick
    cases htick
  workers n worker hworker hnone _ := hs.plain hworker hnone
  log := ⟨[], rfl, fun _ _ _ h => (by cases h)⟩

theorem Withdrawn.step {s₀ : Engine} (hs : Withdrawn s₀ w s) (hguarded : Guarded s) (hmove : Move s l t)
    (h : GuardMove s l t) (hok : LeavesOff w s l) : Withdrawn s₀ w t where
  off := off_step h hs.off hok
  cached no tick' hnone htick' key rule hcached hid := by
    cases h.ticks no tick' htick' with
    | old tick htick hrules => exact hs.cached no tick hnone htick key rule (hrules ▸ hcached) hid
    | new htick hrules =>
      rw [hrules] at hcached
      cases hcached
    | cached tick worker htick hworker hrules =>
      rw [hrules, Function.update_apply] at hcached
      split at hcached
      · exact enabled_of_off hs.off (Option.some.inj hcached) hid
      · exact hs.cached no tick hnone htick key rule hcached hid
  workers n worker' hworker' hnone hid := by
    cases h.workers n worker' hworker' with
    | plain hplain => exact hplain
    | old worker hworker htick hclaimed hsame =>
      rw [hsame]
      exact hs.workers n worker hworker (htick ▸ hnone) (hclaimed ▸ hid)
    | checked worker tick found rule hworker htick hclaimed htick' hfound hrule hstage =>
      -- The rule that it found is the withdrawn one, which nobody finds enabled.
      have hguards := guards_of_checked hguarded htick' hfound hrule
      have hw : rule.id = w := hguards.id.trans (hclaimed ▸ hid)
      obtain ⟨rfl, henabled⟩ := checkRule_ok hrule
      have hoff : rule.enabled = false := by
        rcases hfound with hcached | ⟨-, hlookup⟩
        · exact hs.cached _ tick (htick ▸ hnone) htick' _ rule hcached hw
        · exact enabled_of_off hs.off hlookup.symm hw
      rw [hoff] at henabled
      cases henabled
    | guarded worker rule gate guard hworker htick hclaimed hrule hguard hstage =>
      have hplain := hs.workers n worker hworker (htick ▸ hnone) (hclaimed ▸ hid)
      rw [hrule] at hplain
      cases hplain
  log := by
    obtain ⟨new, hlog, hold⟩ := hs.log
    obtain ⟨new', hlog', hnew⟩ := hmove.dispatches_guarded
    refine ⟨new' ++ new, by rw [hlog', hlog, List.append_assoc], fun tick claim id hmem => ?_⟩
    rcases List.mem_append.mp hmem with hmem | hmem
    · obtain ⟨worker, hworker, rfl, hid, hguarding⟩ := hnew tick claim id w hmem
      by_contra hnone
      rw [Bool.not_eq_true, Option.isSome_eq_false_iff, Option.isNone_iff_eq_none] at hnone
      rw [hs.workers claim worker hworker hnone hid] at hguarding
      cases hguarding
    · exact hold tick claim id hmem

/-- Once a rule is disabled or deleted, and unless it is enabled again, no tick that starts later dispatches an action
for it, whatever its caches, however the ticks, deliveries and decisions interleave. -/
theorem withdrawn_not_dispatched {s₀ : Engine}
    (h₀ : Reachable (step evaluateCondition) (· = Engine.init) anyStep s₀) (hoff : Off w s₀)
    (h : Reachable (step evaluateCondition) (· = s₀) (LeavesOff w) s) : ∃ new, s.log = new ++ s₀.log ∧
      ∀ tick claim id, .dispatched tick claim id w ∈ new → (s₀.ticks.find? tick).isSome = true := by
  have hreached : ∀ u, Reachable (step evaluateCondition) (· = s₀) (LeavesOff w) u →
      Reachable (step evaluateCondition) (· = Engine.init) anyStep u := fun u hu =>
    hu.invariant (fun _ hstart => hstart ▸ h₀) fun _ _ _ _ ih _ hstep => .step ih trivial hstep
  have hwithdrawn : Withdrawn s₀ w s := by
    refine h.invariant (fun _ hstart => ?_) fun u _ _ hu hs hok hstep => ?_
    · subst hstart
      exact withdrawn_refl (guarded_reachable h₀) hoff
    · have hmove := step_move (released_reachable (hreached u hu)).stages hstep
      exact hs.step (guarded_reachable (hreached u hu)) hmove (step_guardMove hstep) hok
  exact hwithdrawn.log

/-! The rule is disabled after the guard of a worker passed, and another tick starts. -/

def disabling : UpdateAssetWorkflowInput :=
  ⟨mintRule.id, mintRule.organizationId, mintRule.projectId, none, none, some false⟩

theorem disabled_mint_is_dispatched_by_old_tick : ∃ s₀ s,
    run (step fun _ _ => true) Engine.init (approvedRun.dropLast ++ [.updateWorkflow disabling]) = some s₀ ∧
    run (step fun _ _ => true) s₀ [.startTick 1 2000, .dispatch 7] = some s ∧ s.log.length = s₀.log.length + 1 ∧
    ∃ new, s.log = new ++ s₀.log ∧
      ∀ tick claim id, .dispatched tick claim id mintRule.id ∈ new → (s₀.ticks.find? tick).isSome = true := by
  refine ⟨_, _, rfl, rfl, rfl, ?_⟩
  refine withdrawn_not_dispatched (.run (.start rfl)
    (by rfl : run (step fun _ _ => true) Engine.init (approvedRun.dropLast ++ [.updateWorkflow disabling]) = some _))
    ⟨_, rfl, rfl⟩ (.run_of (.start rfl) (fun u l hl => ?_)
      (by rfl : run (step fun _ _ => true) _ [.startTick 1 2000, .dispatch 7] = some _))
  simp only [List.mem_cons, List.not_mem_nil, or_false] at hl
  rcases hl with rfl | rfl <;> trivial

end Sdp.Workflows
