import Sdp.Breaker
import Sdp.BudgetReserve
import Sdp.Lib.LastWriter

/-!
# The kill switch

Requests read a policy at different times and deliver what they read in any order. The control hash keeps
the newest version of each scope, and an admission needs the version it carries to be the one there.
-/

open Sdp.Lib

namespace Sdp.Budget

/-- `syncPolicy` -/
def syncPolicy (r : Redis) (policy : SponsorshipBudgetPolicy) : Redis :=
  syncControlScript r (controlField policy) policy.version policy.enabled

/-- One script, with any arguments. -/
inductive BudgetScript
  | seed (b : Buckets) (fields : List ScopeField) (snapshot : WindowAdmissionSnapshot)
  | reserve (b : Buckets) (a : AttemptId) (amount : Nat) (scopes : List ScopeLimit)
  | syncControl (policy : SponsorshipBudgetPolicy)
  | cancel (b : Buckets) (a : AttemptId) (fields : List ScopeField)
  | settle (b : Buckets) (a : AttemptId) (reserved actual : Nat) (fields : List ScopeField)
      (detectMissingReservation : Bool)

def runScript (r : Redis) : BudgetScript → Redis
  | .seed b fields snapshot => initializeScript r b fields snapshot
  | .reserve b a amount scopes => (reserveScript r b a amount scopes).1
  | .syncControl policy => syncPolicy r policy
  | .cancel b a fields => (cancelScript r b a fields).1
  | .settle b a reserved actual fields detect => (settleScript r b a reserved actual fields detect).1

def BudgetScript.policy? : BudgetScript → Option SponsorshipBudgetPolicy
  | .syncControl policy => some policy
  | _ => none

/-- The versions of one scope that the scripts deliver. -/
def deliveries (scripts : List BudgetScript) (c : SponsorshipBudgetScopeType × String) : Set (Entry Nat Bool) :=
  { e | ∃ policy ∈ scripts.filterMap BudgetScript.policy?,
      controlField policy = c ∧ e = ⟨policy.version, policy.enabled⟩ }

/-! ## What a script does to the controls -/

theorem reserveScript_control (r : Redis) (b : Buckets) (a : AttemptId) (amount : Nat) (scopes : List ScopeLimit) :
    (reserveScript r b a amount scopes).1.control = r.control := by
  rcases reserveScript_cases r b a amount scopes with ⟨-, hsame⟩ | ⟨hresult, -⟩
  · rw [hsame]
  · rw [hresult]
    rfl

theorem cancelScript_control (r : Redis) (b : Buckets) (a : AttemptId) (fields : List ScopeField) :
    (cancelScript r b a fields).1.control = r.control := by
  unfold cancelScript
  dsimp only
  split
  · rfl
  · split
    · rfl
    · split <;> rfl

theorem settleScript_control (r : Redis) (b : Buckets) (a : AttemptId) (reserved actual : Nat)
    (fields : List ScopeField) (detect : Bool) :
    (settleScript r b a reserved actual fields detect).1.control = r.control := by
  unfold settleScript
  dsimp only
  split
  · rfl
  · split
    · rfl
    · split
      · rfl
      · split <;> rfl

theorem runScript_control {r : Redis} {script : BudgetScript} (h : script.policy? = none) :
    (runScript r script).control = r.control := by
  cases script with
  | seed => rfl
  | reserve b a amount scopes => exact reserveScript_control ..
  | syncControl policy => cases h
  | cancel b a fields => exact cancelScript_control ..
  | settle b a reserved actual fields detect => exact settleScript_control ..

theorem syncPolicy_other (r : Redis) {policy : SponsorshipBudgetPolicy} {c : SponsorshipBudgetScopeType × String}
    (h : controlField policy ≠ c) : (syncPolicy r policy).control c = r.control c := by
  unfold syncPolicy syncControlScript
  split
  · rfl
  · exact Function.update_of_ne (Ne.symm h) ..

/-- The control of a scope holds its newest delivery. -/
def Newest (delivered : Set (Entry Nat Bool)) (control : Option (Nat × Bool)) : Prop :=
  match control with
  | none => delivered = ∅
  | some (version, enabled) => Entry.Latest delivered ⟨version, enabled⟩

theorem Newest.syncPolicy {r : Redis} {delivered : Set (Entry Nat Bool)} (policy : SponsorshipBudgetPolicy)
    (h : Newest delivered (r.control (controlField policy))) :
    Newest (insert ⟨policy.version, policy.enabled⟩ delivered)
      ((Budget.syncPolicy r policy).control (controlField policy)) := by
  unfold Budget.syncPolicy syncControlScript
  cases hcontrol : r.control (controlField policy) with
  | none =>
    rw [hcontrol] at h
    have hempty : delivered = ∅ := h
    simp only [Option.any_none, Bool.false_eq_true, if_false, Function.update_self, hempty, insert_empty_eq]
    exact Entry.Latest.singleton _
  | some control =>
    rw [hcontrol] at h
    simp only [Option.any_some, decide_eq_true_eq]
    split
    · next hnewer =>
      rw [hcontrol]
      exact Entry.Latest.drop h hnewer
    · next hnewer =>
      simp only [Function.update_self]
      exact Entry.Latest.write h (not_lt.mp hnewer)

theorem deliveries_concat (scripts : List BudgetScript) (script : BudgetScript)
    (c : SponsorshipBudgetScopeType × String) (e : Entry Nat Bool) :
    e ∈ deliveries (scripts ++ [script]) c ↔
      e ∈ deliveries scripts c ∨
        ∃ policy, script.policy? = some policy ∧ controlField policy = c ∧ e = ⟨policy.version, policy.enabled⟩ := by
  simp only [deliveries, Set.mem_ofPred_eq, List.filterMap_append, List.mem_append, or_and_right, exists_or]
  refine or_congr Iff.rfl (exists_congr fun policy => and_congr_left fun _ => ?_)
  cases h : script.policy? <;> simp [h, eq_comm]

theorem newest_runScripts {r : Redis} (hr : ∀ c, r.control c = none) (scripts : List BudgetScript)
    (c : SponsorshipBudgetScopeType × String) :
    Newest (deliveries scripts c) ((scripts.foldl runScript r).control c) := by
  induction scripts using List.reverseRecOn with
  | nil =>
    rw [List.foldl_nil, hr c]
    simp [Newest, deliveries]
  | append_singleton scripts script ih =>
    rw [List.foldl_concat]
    cases hpolicy : script.policy? with
    | none =>
      rw [runScript_control hpolicy]
      have hsame : deliveries (scripts ++ [script]) c = deliveries scripts c := by
        ext e
        simp [deliveries_concat, hpolicy]
      rwa [hsame]
    | some policy =>
      obtain rfl : script = .syncControl policy := by
        cases script with
        | syncControl p => exact congrArg BudgetScript.syncControl (Option.some.inj hpolicy)
        | _ => cases hpolicy
      by_cases hc : controlField policy = c
      · subst hc
        have hinsert : deliveries (scripts ++ [.syncControl policy]) (controlField policy) =
            insert ⟨policy.version, policy.enabled⟩ (deliveries scripts (controlField policy)) := by
          ext e
          simp [deliveries_concat, BudgetScript.policy?, or_comm]
        rw [hinsert]
        exact ih.syncPolicy policy
      · have hsame : deliveries (scripts ++ [.syncControl policy]) c = deliveries scripts c := by
          ext e
          simp [deliveries_concat, BudgetScript.policy?, hc]
        rw [hsame]
        simp only [runScript, syncPolicy_other _ hc]
        exact ih

/-! ## Admissions -/

theorem reserve_admitted_control {r : Redis} {b : Buckets} {a : AttemptId} {amount : Nat} {scopes : List ScopeLimit}
    (h : (reserveScript r b a amount scopes).2.outcome = .admitted) :
    ∀ scope ∈ scopes, r.control scope.controlField = some (scope.expectedVersion, true) := by
  rcases reserveScript_cases r b a amount scopes with ⟨hrefused, -⟩ | ⟨-, -, -, hscopes, -⟩
  · exact absurd h hrefused
  · exact fun scope hscope => (checkScopes_none hscopes scope hscope).2

theorem Newest.eq {delivered : Set (Entry Nat Bool)} {control : Option (Nat × Bool)} {e : Entry Nat Bool}
    (h : Newest delivered control) (hflags : Set.InjOn Entry.stamp delivered) (he : Entry.Latest delivered e) :
    control = some (e.stamp, e.value) := by
  cases control with
  | none =>
    have hempty : delivered = ∅ := h
    exact absurd he.1 (hempty ▸ Set.notMem_empty e)
  | some control =>
    have hsame := Entry.Latest.eq hflags h he
    rw [← hsame]

/-- A disabled version that was delivered shuts out every version up to it. -/
theorem Newest.shut {delivered : Set (Entry Nat Bool)} {control : Option (Nat × Bool)} {version expected : Nat}
    (h : Newest delivered control) (hflags : Set.InjOn Entry.stamp delivered)
    (hoff : (⟨version, false⟩ : Entry Nat Bool) ∈ delivered) (hle : expected ≤ version) :
    control ≠ some (expected, true) := by
  rintro rfl
  have hlatest : Entry.Latest delivered ⟨expected, true⟩ := h
  have heq : expected = version := le_antisymm hle (hlatest.2 _ hoff)
  have hsame := hflags hlatest.1 hoff heq
  cases congrArg Entry.value hsame

theorem not_admitted_of_disabled {r : Redis} (hr : ∀ c, r.control c = none) {scripts : List BudgetScript}
    (hflags : ∀ c, Set.InjOn Entry.stamp (deliveries scripts c)) {policy : SponsorshipBudgetPolicy}
    (hsync : .syncControl policy ∈ scripts) (hoff : policy.enabled = false) (b : Buckets) (a : AttemptId) (amount : Nat)
    {scopes : List ScopeLimit} {scope : ScopeLimit} (hscope : scope ∈ scopes)
    (hfield : scope.controlField = controlField policy) (hle : scope.expectedVersion ≤ policy.version) :
    (reserveScript (scripts.foldl runScript r) b a amount scopes).2.outcome ≠ .admitted := by
  intro hadmitted
  have hdelivered : (⟨policy.version, false⟩ : Entry Nat Bool) ∈ deliveries scripts (controlField policy) :=
    ⟨policy, List.mem_filterMap.mpr ⟨_, hsync, rfl⟩, rfl, by rw [hoff]⟩
  have hcontrol := reserve_admitted_control hadmitted scope hscope
  rw [hfield] at hcontrol
  exact (newest_runScripts hr scripts (controlField policy)).shut (hflags _) hdelivered hle hcontrol

/-- Where each version of a scope has one flag: after any scripts, in any order and with any repetition, the
control of every scope is its newest delivered version with that version's flag, and once a disabled version
was delivered no admission carries that version or an older one. -/
theorem control_newest (r : Redis) (hr : ∀ c, r.control c = none) (scripts : List BudgetScript)
    (hflags : ∀ c, Set.InjOn Entry.stamp (deliveries scripts c)) :
    (∀ c, Newest (deliveries scripts c) ((scripts.foldl runScript r).control c)) ∧
      (∀ c e, Entry.Latest (deliveries scripts c) e →
        (scripts.foldl runScript r).control c = some (e.stamp, e.value)) ∧
      ∀ policy, .syncControl policy ∈ scripts → policy.enabled = false →
        ∀ b a amount scopes, ∀ scope ∈ scopes, scope.controlField = controlField policy →
          scope.expectedVersion ≤ policy.version →
            (reserveScript (scripts.foldl runScript r) b a amount scopes).2.outcome ≠ .admitted := by
  have hnewest := newest_runScripts hr scripts
  refine ⟨hnewest, fun c e he => (hnewest c).eq (hflags c) he, ?_⟩
  exact fun policy hsync hoff b a amount scopes scope hscope hfield hle =>
    not_admitted_of_disabled hr hflags hsync hoff b a amount hscope hfield hle

/-- The first version of a policy arrives again after the second, which disabled it. -/
def lateSync : List BudgetScript :=
  [.syncControl { samplePolicies .global with version := 2, enabled := false }, .syncControl (samplePolicies .global)]

theorem lateSync_shut :
    (lateSync.foldl runScript .empty).control (.global, "default") = some (2, false) ∧
      (reserveScript (lateSync.foldl runScript .empty) ⟨"10:00", "00:00"⟩ ⟨"sbr_1", 1⟩ 5
        [scopeLimit samplePolicies .global]).2.outcome ≠ .admitted := by
  have hflags : ∀ c, Set.InjOn Entry.stamp (deliveries lateSync c) := by
    rintro c _ ⟨p, hp, rfl, rfl⟩ _ ⟨q, hq, -, rfl⟩ hversion
    simp only [lateSync, List.filterMap, BudgetScript.policy?, List.mem_cons, List.not_mem_nil, or_false] at hp hq
    rcases hp with rfl | rfl <;> rcases hq with rfl | rfl
    · rfl
    · exact absurd hversion (by decide)
    · exact absurd hversion (by decide)
    · rfl
  obtain ⟨-, hlatest, hshut⟩ := control_newest .empty (fun _ => rfl) lateSync hflags
  refine ⟨hlatest _ ⟨2, false⟩ ⟨?_, ?_⟩, ?_⟩
  · exact ⟨_, List.mem_cons_self, rfl, rfl⟩
  · rintro _ ⟨p, hp, -, rfl⟩
    simp only [lateSync, List.filterMap, BudgetScript.policy?, List.mem_cons, List.not_mem_nil, or_false] at hp
    rcases hp with rfl | rfl <;> decide
  · exact hshut _ List.mem_cons_self rfl _ _ _ _ _ List.mem_cons_self rfl (by decide)

/-! ## The versions of a policy -/

/-- A row that the policy table held at some time of a run. -/
def Held (s₀ s : BreakerState) (p : SponsorshipBudgetPolicy) : Prop :=
  (∃ k, s₀.policies.find? k = some p) ∨ ∃ event, (event, p) ∈ s.revisions

/-- The current row of each scope is a row it held, newer than all others. -/
structure Versioned (s₀ s : BreakerState) : Prop where
  held : ∀ k p, s.policies.find? k = some p → Held s₀ s p
  newest : ∀ p, Held s₀ s p → ∃ q, s.policies.find? p.scopeKey = some q ∧ p.version ≤ q.version
  unique : ∀ p q, Held s₀ s p → Held s₀ s q → p.scopeKey = q.scopeKey → p.version = q.version → p = q

/-- A row that is written is one version past the row it replaces. -/
def Bumps (t : PolicyTable) (result : PolicyTable × Option SponsorshipBudgetPolicy) : Prop :=
  ∀ p, result.2 = some p → ∀ q, t.find? p.scopeKey = some q → p.version = q.version + 1

theorem updatePolicy_bumps {t : PolicyTable} {network : SponsorshipNetwork}
    {scopeType : SponsorshipBudgetScopeType} {scopeId : Option String}
    {guard : SponsorshipBudgetPolicy → Bool} {set : SponsorshipBudgetPolicy → SponsorshipBudgetPolicy}
    (hset : ∀ p, (set p).scopeKey = p.scopeKey) (hbump : ∀ p, (set p).version = p.version + 1) :
    Bumps t (updatePolicy t network scopeType scopeId guard set hset) := by
  intro p hp q hq
  obtain ⟨old, hold, -, rfl⟩ := updatePolicy_row hset hp
  have hfind := (Option.filter_eq_some_iff.mp hold).1
  have hkey : old.scopeKey = _ := Table.key_of_find? hfind
  rw [hset, hkey, hfind] at hq
  rw [hbump, Option.some.inj hq]

theorem upsertPolicy_bumps (t : PolicyTable) (input : UpsertPolicyInput) (freshId now : String) :
    Bumps t (upsertPolicy t input freshId now) := by
  unfold upsertPolicy
  split
  · rintro p ⟨⟩
  · split
    · exact updatePolicy_bumps _ fun _ => rfl
    · dsimp only
      split
      · rintro p ⟨⟩
      · next hnone =>
        intro p hp q hq
        obtain rfl := Option.some.inj hp
        rw [hq] at hnone
        exact absurd rfl hnone

theorem held_write {s₀ s : BreakerState} (event : BreakerEvent)
    (result : PolicyTable × Option SponsorshipBudgetPolicy) (p : SponsorshipBudgetPolicy) :
    Held s₀ (s.write event result) p ↔ Held s₀ s p ∨ result.2 = some p := by
  unfold Held BreakerState.write
  cases result.2 with
  | none => simp
  | some q =>
    simp only [Option.map_some, Option.toList_some, List.singleton_append, List.mem_cons, Prod.mk.injEq,
      Option.some.injEq, exists_or, exists_eq_left, eq_comm (a := q)]
    tauto

section write

variable {s₀ s : BreakerState} (hs : Versioned s₀ s) (event : BreakerEvent)
  {result : PolicyTable × Option SponsorshipBudgetPolicy} (hw : Writes s.policies result)
  (hbump : Bumps s.policies result)
include hs hbump

theorem Versioned.older {p row : SponsorshipBudgetPolicy} (hp : Held s₀ s p) (hrow : result.2 = some row)
    (hkey : p.scopeKey = row.scopeKey) : p.version < row.version := by
  obtain ⟨q, hq, hle⟩ := hs.newest p hp
  rw [hkey] at hq
  have := hbump row hrow q hq
  omega

include hw

theorem Versioned.write : Versioned s₀ (s.write event result) := by
  have hkept (hout : result.2 = none) (k : _) : (s.write event result).policies.find? k = s.policies.find? k := by
    unfold Writes at hw
    simp only [hout] at hw
    exact hw k
  have hwritten {row : SponsorshipBudgetPolicy} (hout : result.2 = some row) (k : _) :
      (s.write event result).policies.find? k = if k = row.scopeKey then some row else s.policies.find? k := by
    unfold Writes at hw
    simp only [hout] at hw
    exact hw k
  constructor
  · intro k p hp
    rw [held_write]
    cases hout : result.2 with
    | none =>
      rw [hkept hout] at hp
      exact .inl (hs.held k p hp)
    | some row =>
      rw [hwritten hout] at hp
      split at hp
      · exact .inr hp
      · exact .inl (hs.held k p hp)
  · intro p hp
    cases hout : result.2 with
    | none =>
      rw [hkept hout]
      simp only [held_write, hout, reduceCtorEq, or_false] at hp
      exact hs.newest p hp
    | some row =>
      rw [hwritten hout]
      by_cases hkey : p.scopeKey = row.scopeKey
      · refine ⟨row, if_pos hkey, ?_⟩
        rcases (held_write ..).mp hp with hp | hp
        · exact (hs.older hbump hp hout hkey).le
        · obtain rfl := Option.some.inj (hout.symm.trans hp)
          exact le_rfl
      · simp only [hkey, if_false]
        rcases (held_write ..).mp hp with hp | hp
        · exact hs.newest p hp
        · obtain rfl := Option.some.inj (hout.symm.trans hp)
          exact absurd rfl hkey
  · intro p q hp hq hkey hversion
    rcases (held_write ..).mp hp with hp | hp <;> rcases (held_write ..).mp hq with hq | hq
    · exact hs.unique p q hp hq hkey hversion
    · exact absurd hversion (hs.older hbump hp hq hkey).ne
    · exact absurd hversion.symm (hs.older hbump hq hp hkey.symm).ne
    · exact Option.some.inj (hp.symm.trans hq)

end write

theorem setPolicyEnabled_bumps (t : PolicyTable) (input : SetPolicyEnabledInput) (now : String) :
    Bumps t (setPolicyEnabled t input now) := by
  unfold setPolicyEnabled
  exact updatePolicy_bumps _ fun _ => rfl

theorem resumeGlobalBreaker_bumps (t : PolicyTable) (network : SponsorshipNetwork)
    (expectedTripReason reason now : String) :
    Bumps t (resumeGlobalBreaker t network expectedTripReason reason now) := by
  unfold resumeGlobalBreaker
  exact updatePolicy_bumps _ fun _ => rfl

theorem Versioned.start {s : BreakerState} (hs : s.revisions = []) : Versioned s s := by
  have hrow : ∀ p, Held s s p → s.policies.find? p.scopeKey = some p := by
    rintro p (⟨k, hp⟩ | ⟨event, hp⟩)
    · rwa [Table.key_of_find? hp]
    · rw [hs] at hp
      cases hp
  refine ⟨fun k p hp => .inl ⟨k, hp⟩, fun p hp => ⟨p, hrow p hp, le_rfl⟩, fun p q hp hq hkey _ => ?_⟩
  have hp := hrow p hp
  rw [hkey, hrow q hq] at hp
  exact (Option.some.inj hp).symm

theorem Versioned.step {s₀ s t : BreakerState} {event : String × BreakerEvent} (hs : Versioned s₀ s)
    (h : breakerStep s event = some t) : Versioned s₀ t := by
  obtain ⟨now, event⟩ := event
  cases event with
  | setPolicyEnabled input =>
    obtain rfl := Option.some.inj h
    exact hs.write _ (setPolicyEnabled_writes ..) (setPolicyEnabled_bumps s.policies input now)
  | upsertPolicy input freshId =>
    obtain rfl := Option.some.inj h
    exact hs.write _ (upsertPolicy_writes ..) (upsertPolicy_bumps s.policies input freshId now)
  | tripGlobalBreaker network reason recoverable =>
    obtain rfl := Option.some.inj h
    exact hs.write _ (setPolicyEnabled_writes ..) (setPolicyEnabled_bumps s.policies _ now)
  | observe tick network =>
    obtain rfl := Option.some.inj h
    exact ⟨hs.held, hs.newest, hs.unique⟩
  | resume tick =>
    simp only [breakerStep] at h
    split at h
    · next network _ =>
      obtain rfl := Option.some.inj h
      have hwrite := hs.write (.resume tick) (resumeGlobalBreaker_writes s.policies network
        KORA_CONFIG_UNAVAILABLE_BREAKER_REASON BREAKER_RECOVERY_REASON now)
        (resumeGlobalBreaker_bumps s.policies network _ _ now)
      exact ⟨hwrite.held, hwrite.newest, hwrite.unique⟩
    · cases h
  | finish tick =>
    obtain rfl := Option.some.inj h
    exact ⟨hs.held, hs.newest, hs.unique⟩

theorem scopeKey_of_controlField {p q : SponsorshipBudgetPolicy} (hnetwork : p.network = q.network)
    (hp : p.scopeId ≠ some "default") (hq : q.scopeId ≠ some "default") (h : controlField p = controlField q) :
    p.scopeKey = q.scopeKey := by
  simp only [controlField, Prod.mk.injEq] at h
  have hid : p.scopeId = q.scopeId := by
    cases hpid : p.scopeId <;> cases hqid : q.scopeId <;> simp_all
  simp only [SponsorshipBudgetPolicy.scopeKey, hnetwork, h.1, hid]

/-- Rows of one network that the table held have one flag for each version of a scope, where no scope has the
word for none as its id. -/
theorem held_flags {s₀ s : BreakerState} (h : Reachable breakerStep (· = s₀) anyStep s) (hs₀ : s₀.revisions = [])
    {network : SponsorshipNetwork} {scripts : List BudgetScript}
    (hheld : ∀ p, .syncControl p ∈ scripts → Held s₀ s p ∧ p.network = network ∧ p.scopeId ≠ some "default")
    (c : SponsorshipBudgetScopeType × String) : Set.InjOn Entry.stamp (deliveries scripts c) := by
  have hs : Versioned s₀ s := by
    refine h.invariant (P := Versioned s₀) ?_ fun _ _ _ _ hs _ hstep => hs.step hstep
    rintro _ rfl
    exact .start hs₀
  have hsync : ∀ p ∈ scripts.filterMap BudgetScript.policy?, .syncControl p ∈ scripts := by
    intro p hp
    obtain ⟨script, hscript, hpolicy⟩ := List.mem_filterMap.mp hp
    cases script with
    | syncControl q => exact Option.some.inj hpolicy ▸ hscript
    | _ => cases hpolicy
  rintro _ ⟨p, hp, rfl, rfl⟩ _ ⟨q, hq, hfield, rfl⟩ hversion
  obtain ⟨hp, hpnet, hpid⟩ := hheld p (hsync p hp)
  obtain ⟨hq, hqnet, hqid⟩ := hheld q (hsync q hq)
  have hkey := scopeKey_of_controlField (hpnet.trans hqnet.symm) hpid hqid hfield.symm
  rw [hs.unique p q hp hq hkey hversion]

/-- After scripts that carry rows that the table held, the control of each scope is its newest delivered version, and no
admission carries a version that was delivered disabled, or one before it. -/
theorem held_control_newest {s₀ s : BreakerState} (h : Reachable breakerStep (· = s₀) anyStep s) (hs₀ : s₀.revisions = [])
    {network : SponsorshipNetwork} {scripts : List BudgetScript}
    (hheld : ∀ p, .syncControl p ∈ scripts → Held s₀ s p ∧ p.network = network ∧ p.scopeId ≠ some "default")
    (r : Redis) (hr : ∀ c, r.control c = none) :
    (∀ c e, Entry.Latest (deliveries scripts c) e →
        (scripts.foldl runScript r).control c = some (e.stamp, e.value)) ∧
      ∀ policy, .syncControl policy ∈ scripts → policy.enabled = false →
        ∀ b a amount scopes, ∀ scope ∈ scopes, scope.controlField = controlField policy →
          scope.expectedVersion ≤ policy.version →
            (reserveScript (scripts.foldl runScript r) b a amount scopes).2.outcome ≠ .admitted := by
  have hflags := held_flags h hs₀ hheld
  exact ⟨fun c e he => (newest_runScripts hr scripts c).eq (hflags c) he,
    fun policy hsync hoff b a amount scopes scope hscope hfield hle =>
      not_admitted_of_disabled hr hflags hsync hoff b a amount hscope hfield hle⟩

end Sdp.Budget
