import Sdp.Code.BudgetPolicies
import Sdp.Lib.Run

/-!
# What the breaker resumes

The provenance of a disabled policy is the provenance of the last change that disabled it. A resume
compares it with that of a recoverable trip, however old the read behind it is.
-/

open Sdp.Lib

namespace Sdp.Budget

/-! ## What a transaction writes -/

/-- Nothing, or one row with its revision. -/
def Writes (t : PolicyTable) (result : PolicyTable × Option SponsorshipBudgetPolicy) : Prop :=
  match result.2 with
  | none => ∀ k, result.1.find? k = t.find? k
  | some p => ∀ k, result.1.find? k = if k = p.scopeKey then some p else t.find? k

theorem updatePolicy_writes (t : PolicyTable) (network : SponsorshipNetwork)
    (scopeType : SponsorshipBudgetScopeType) (scopeId : Option String)
    (guard : SponsorshipBudgetPolicy → Bool) (set : SponsorshipBudgetPolicy → SponsorshipBudgetPolicy)
    (hset : ∀ p, (set p).scopeKey = p.scopeKey) :
    Writes t (updatePolicy t network scopeType scopeId guard set hset) := by
  unfold Writes updatePolicy findPolicy
  simp only [Table.find?_update]
  cases hf : t.find? (network, scopeType, scopeId.getD "") with
  | none =>
    intro k
    simp only [Option.map_none]
    split
    · next hk => rw [hk, hf]
    · rfl
  | some p =>
    have hkey : p.scopeKey = (network, scopeType, scopeId.getD "") := Table.key_of_find? hf
    by_cases hg : p.scopeId = scopeId ∧ guard p
    · have hsome : ((some p).filter fun p => decide (p.scopeId = scopeId)).filter guard = some p := by
        simp [Option.filter, hg.1, hg.2]
      simp only [hsome, Option.map_some]
      intro k
      rw [hset, hkey]
      simp [hg.1, hg.2]
    · -- The row is there, but another clause of the `WHERE` misses it.
      have hguard : (decide (p.scopeId = scopeId) && guard p) = false := by
        simpa using hg
      have hnone : ((some p).filter fun p => decide (p.scopeId = scopeId)).filter guard = none := by
        simp only [Option.filter_some]
        split <;> simp_all
      simp only [hnone, Option.map_none]
      intro k
      simp only [Option.map_some, hguard, Bool.false_eq_true, if_false]
      split
      · next hk => rw [hk, hf]
      · rfl

theorem setPolicyEnabled_writes (t : PolicyTable) (input : SetPolicyEnabledInput) (now : String) :
    Writes t (setPolicyEnabled t input now) := updatePolicy_writes ..

theorem resumeGlobalBreaker_writes (t : PolicyTable) (network : SponsorshipNetwork)
    (expectedTripReason reason now : String) :
    Writes t (resumeGlobalBreaker t network expectedTripReason reason now) := updatePolicy_writes ..

theorem upsertPolicy_writes (t : PolicyTable) (input : UpsertPolicyInput) (freshId now : String) :
    Writes t (upsertPolicy t input freshId now) := by
  unfold upsertPolicy
  split
  · exact fun k => rfl
  · split
    · exact updatePolicy_writes ..
    · dsimp only
      split
      · exact fun k => rfl
      · next hnone =>
        intro k
        rw [Table.find?_insertNew]
        split
        · next hk =>
          rw [hk]
          cases hf : t.find? _ with
          | none => rfl
          | some p => rw [hf] at hnone; simp at hnone
        · rfl

theorem updatePolicy_row {t : PolicyTable} {network : SponsorshipNetwork}
    {scopeType : SponsorshipBudgetScopeType} {scopeId : Option String}
    {guard : SponsorshipBudgetPolicy → Bool} {set : SponsorshipBudgetPolicy → SponsorshipBudgetPolicy}
    (hset : ∀ p, (set p).scopeKey = p.scopeKey) {p : SponsorshipBudgetPolicy}
    (h : (updatePolicy t network scopeType scopeId guard set hset).2 = some p) :
    ∃ q, findPolicy t network scopeType scopeId = some q ∧ guard q ∧ p = set q := by
  obtain ⟨q, hq, rfl⟩ := Option.map_eq_some_iff.mp h
  obtain ⟨hq, hg⟩ := Option.filter_eq_some_iff.mp hq
  exact ⟨q, hq, hg, rfl⟩

theorem upsertPolicy_operator {t : PolicyTable} {input : UpsertPolicyInput} {freshId now : String}
    {p : SponsorshipBudgetPolicy} (h : (upsertPolicy t input freshId now).2 = some p) :
    p.updatedBy = input.operator := by
  unfold upsertPolicy at h
  split at h
  · cases h
  · split at h
    · obtain ⟨q, -, -, rfl⟩ := updatePolicy_row (by intro _; rfl) h
      rfl
    · dsimp only at h
      split at h
      · cases h
      · obtain rfl := Option.some.inj h
        rfl

/-! ## The last change that disabled the global policy -/

def disablesGlobal (network : SponsorshipNetwork) (revision : BreakerEvent × SponsorshipBudgetPolicy) : Bool :=
  revision.2.network = network ∧ revision.2.scopeType = .global ∧ revision.2.scopeId = none ∧
    revision.2.enabled = false

def lastDisabling (s : BreakerState) (network : SponsorshipNetwork) : Option BreakerEvent :=
  (s.revisions.find? (disablesGlobal network)).map (·.1)

/-- The trip that a reconciliation tick may undo. -/
def recoverableTrip (network : SponsorshipNetwork) : BreakerEvent :=
  .tripGlobalBreaker network KORA_CONFIG_UNAVAILABLE_BREAKER_REASON (some true)

/-- Operators have their own names, and integrity trips their own reasons. -/
def Trusted (_ : BreakerState) : String × BreakerEvent → Prop
  | (_, .setPolicyEnabled input) => input.operator ≠ SPONSORSHIP_BREAKER_OPERATOR
  | (_, .upsertPolicy input _) => input.operator ≠ SPONSORSHIP_BREAKER_OPERATOR
  | (_, .tripGlobalBreaker _ reason recoverable) =>
    recoverable ≠ some true → reason ≠ KORA_CONFIG_UNAVAILABLE_BREAKER_REASON
  | _ => True

/-- Disabled by a recoverable trip, as far as the row says. -/
def Tripped (p : SponsorshipBudgetPolicy) : Prop :=
  p.enabled = false ∧ p.updatedBy = SPONSORSHIP_BREAKER_OPERATOR ∧
    p.updateReason = KORA_CONFIG_UNAVAILABLE_BREAKER_REASON

/-- No global policy is tripped at the start, and no revision is known. -/
def BreakerStart (s : BreakerState) : Prop :=
  s.revisions = [] ∧ ∀ network p, getGlobalPolicy s.policies network = some p → ¬ Tripped p

/-- A policy that says it was tripped was. -/
def Provenance (s : BreakerState) : Prop :=
  ∀ network p, getGlobalPolicy s.policies network = some p → Tripped p →
    lastDisabling s network = some (recoverableTrip network)

theorem getGlobalPolicy_eq_some {t : PolicyTable} {network : SponsorshipNetwork} {p : SponsorshipBudgetPolicy} :
    getGlobalPolicy t network = some p ↔ t.find? (network, .global, "") = some p ∧ p.scopeId = none := by
  simp [getGlobalPolicy, findPolicy, Option.filter_eq_some_iff]

/-- One write keeps the provenance, if a row that says it was tripped is written by a recoverable trip. -/
theorem Provenance.write {s : BreakerState} (hs : Provenance s) (event : BreakerEvent)
    {result : PolicyTable × Option SponsorshipBudgetPolicy} (hw : Writes s.policies result)
    (hevent : ∀ p, result.2 = some p → Tripped p → event = recoverableTrip p.network) :
    Provenance (s.write event result) := by
  intro network p hp htrip
  obtain ⟨hp, hscope⟩ := getGlobalPolicy_eq_some.mp hp
  simp only [BreakerState.write] at hp
  unfold Writes at hw
  cases hout : result.2 with
  | none =>
    simp only [hout] at hw
    rw [hw] at hp
    have := hs network p (getGlobalPolicy_eq_some.mpr ⟨hp, hscope⟩) htrip
    simpa [lastDisabling, BreakerState.write, hout] using this
  | some q =>
    simp only [hout] at hw
    rw [hw] at hp
    split at hp
    · next hkey =>
      -- The row was written just now.
      obtain rfl := Option.some.inj hp
      obtain ⟨rfl, hglobal, -⟩ : network = q.network ∧ SponsorshipBudgetScopeType.global = q.scopeType ∧
          "" = q.scopeId.getD "" := by simpa [SponsorshipBudgetPolicy.scopeKey] using hkey
      have hdis : disablesGlobal q.network (event, q) := by
        simp [disablesGlobal, ← hglobal, hscope, htrip.1]
      have hfirst : (s.write event result).revisions.find? (disablesGlobal q.network) = some (event, q) := by
        simp only [BreakerState.write, hout, Option.map_some, Option.toList_some, List.singleton_append]
        exact List.find?_cons_of_pos hdis
      rw [lastDisabling, hfirst, Option.map_some, hevent q hout htrip]
    · next hkey =>
      have hother : disablesGlobal network (event, q) = false := by
        rw [Bool.eq_false_iff]
        intro hdis
        obtain ⟨rfl, hglobal, hnone, -⟩ := of_decide_eq_true hdis
        dsimp only at hglobal hnone
        exact hkey (by simp [SponsorshipBudgetPolicy.scopeKey, hglobal, hnone])
      have := hs network p (getGlobalPolicy_eq_some.mpr ⟨hp, hscope⟩) htrip
      simpa [lastDisabling, BreakerState.write, hout, hother] using this

theorem resumeGlobalBreaker_enables {t : PolicyTable} {network : SponsorshipNetwork} {trip reason now : String}
    {p : SponsorshipBudgetPolicy} (h : (resumeGlobalBreaker t network trip reason now).2 = some p) :
    p.enabled = true := by
  obtain ⟨q, -, -, rfl⟩ := updatePolicy_row (by intro _; rfl) h
  rfl

theorem Provenance.step {s t : BreakerState} {event : String × BreakerEvent} (hs : Provenance s)
    (htrust : Trusted s event) (h : breakerStep s event = some t) : Provenance t := by
  obtain ⟨now, event⟩ := event
  cases event with
  | setPolicyEnabled input =>
    obtain rfl := Option.some.inj h
    refine hs.write _ (setPolicyEnabled_writes ..) fun p hp htrip => ?_
    obtain ⟨q, -, -, rfl⟩ := updatePolicy_row (by intro _; rfl) hp
    exact absurd htrip.2.1 htrust
  | upsertPolicy input freshId =>
    obtain rfl := Option.some.inj h
    refine hs.write _ (upsertPolicy_writes ..) fun p hp htrip => ?_
    exact absurd ((upsertPolicy_operator hp).symm.trans htrip.2.1) htrust
  | tripGlobalBreaker network reason recoverable =>
    obtain rfl := Option.some.inj h
    refine hs.write _ (setPolicyEnabled_writes ..) fun p hp htrip => ?_
    obtain ⟨q, hq, -, rfl⟩ := updatePolicy_row (by intro _; rfl) hp
    obtain rfl : reason = KORA_CONFIG_UNAVAILABLE_BREAKER_REASON := htrip.2.2
    have hrec : recoverable = some true := by
      by_contra hne
      exact htrust hne rfl
    have hnet : q.scopeKey = (network, .global, "") := Table.key_of_find? (getGlobalPolicy_eq_some.mp hq).1
    simp only [SponsorshipBudgetPolicy.scopeKey, Prod.mk.injEq] at hnet
    rw [hrec, recoverableTrip, ← hnet.1]
  | observe tick network =>
    obtain rfl := Option.some.inj h
    exact hs
  | resume tick =>
    simp only [breakerStep] at h
    split at h
    · obtain rfl := Option.some.inj h
      refine hs.write (.resume tick) (resumeGlobalBreaker_writes ..) fun p hp htrip => ?_
      exact absurd htrip.1 (by rw [resumeGlobalBreaker_enables hp]; simp)
    · cases h
  | finish tick =>
    obtain rfl := Option.some.inj h
    exact hs

/-! ## Recovery -/

def globalEnabled (s : BreakerState) (network : SponsorshipNetwork) : Option Bool :=
  (getGlobalPolicy s.policies network).map (·.enabled)

/-- An operator's own change. -/
def BreakerEvent.byOperator : BreakerEvent → Bool
  | .setPolicyEnabled _ | .upsertPolicy _ _ => true
  | _ => false

theorem tripGlobalBreaker_disables {t : PolicyTable} {network : SponsorshipNetwork} {reason now : String}
    {recoverable : Option Bool} {p : SponsorshipBudgetPolicy}
    (h : (tripGlobalBreaker t network reason recoverable now).2 = some p) : p.enabled = false := by
  obtain ⟨q, -, -, rfl⟩ := updatePolicy_row (by intro _; rfl) h
  rfl

theorem write_enables {s : BreakerState} (event : BreakerEvent)
    {result : PolicyTable × Option SponsorshipBudgetPolicy} (hw : Writes s.policies result)
    {network : SponsorshipNetwork} (hoff : globalEnabled s network = some false)
    (hon : globalEnabled (s.write event result) network = some true) :
    ∃ p, result.2 = some p ∧ p.network = network ∧ p.enabled = true := by
  obtain ⟨p, hp, hpon⟩ := Option.map_eq_some_iff.mp hon
  obtain ⟨hp, hscope⟩ := getGlobalPolicy_eq_some.mp hp
  simp only [BreakerState.write] at hp
  unfold Writes at hw
  have hsame : result.1.find? (network, .global, "") ≠ s.policies.find? (network, .global, "") := by
    intro h
    rw [h] at hp
    rw [globalEnabled, getGlobalPolicy_eq_some.mpr ⟨hp, hscope⟩] at hoff
    simp [hpon] at hoff
  cases hout : result.2 with
  | none =>
    simp only [hout] at hw
    exact absurd (hw _) hsame
  | some q =>
    simp only [hout] at hw
    rw [hw] at hp hsame
    split at hp
    · next hkey =>
      obtain rfl := Option.some.inj hp
      simp only [SponsorshipBudgetPolicy.scopeKey, Prod.mk.injEq] at hkey
      exact ⟨q, rfl, hkey.1.symm, hpon⟩
    · next hkey => simp [hkey] at hsame

/-- Whatever the operators, the trips and the ticks did before: what is not an operator's own change
enables a disabled global policy only after a recoverable trip was the last change to disable it. -/
theorem breaker_resumes_recoverable_trips {s : BreakerState}
    (h : Reachable breakerStep BreakerStart Trusted s) (now : String) (event : BreakerEvent)
    (hevent : event.byOperator = false) {t : BreakerState} (hstep : breakerStep s (now, event) = some t)
    (network : SponsorshipNetwork) (hoff : globalEnabled s network = some false)
    (hon : globalEnabled t network = some true) :
    lastDisabling s network = some (recoverableTrip network) := by
  have hprov : Provenance s := by
    refine h.invariant (P := Provenance) (fun s hs network p hp htrip => absurd htrip (hs.2 network p hp)) ?_
    exact fun s event t _ hs htrust hstep => hs.step htrust hstep
  have hunchanged : t.policies = s.policies → False := by
    intro heq
    simp only [globalEnabled, heq] at hon
    rw [globalEnabled, hon] at hoff
    cases hoff
  cases event with
  | setPolicyEnabled | upsertPolicy => cases hevent
  | tripGlobalBreaker trip reason recoverable =>
    obtain rfl := Option.some.inj hstep
    obtain ⟨p, hp, -, hpon⟩ := write_enables _ (setPolicyEnabled_writes ..) hoff hon
    rw [tripGlobalBreaker_disables hp] at hpon
    cases hpon
  | observe | finish =>
    obtain rfl := Option.some.inj hstep
    exact (hunchanged rfl).elim
  | resume tick =>
    simp only [breakerStep] at hstep
    split at hstep
    · next resumed _ =>
      obtain rfl := Option.some.inj hstep
      obtain ⟨p, hp, hnet, -⟩ := write_enables (.resume tick) (resumeGlobalBreaker_writes ..) hoff hon
      -- The row that the resume found is a tripped one.
      obtain ⟨q, hq, hguard, rfl⟩ := updatePolicy_row (by intro _; rfl) hp
      have htrip : Tripped q := by simpa [Tripped] using hguard
      have hkey : q.scopeKey = (resumed, .global, "") := Table.key_of_find? (getGlobalPolicy_eq_some.mp hq).1
      simp only [SponsorshipBudgetPolicy.scopeKey, Prod.mk.injEq] at hkey
      obtain rfl : resumed = network := hkey.1.symm.trans hnet
      exact hprov resumed q hq htrip
    · cases hstep

/-- The policies of `0055_sponsorship_budgets.sql`, as far as the devnet breaker goes. -/
def seededPolicies : BreakerState where
  policies := Table.empty.insertNew
    { id := "sbp_devnet_global", network := .devnet, scopeType := .global, scopeId := none, enabled := true
      perTransactionLamports := 10000000, hourlyLamports := 2000000000, dailyLamports := 10000000000
      version := 1, updatedBy := "migration", updateReason := "Initial devnet sponsorship controls"
      updatedAt := "t0" }
  revisions := []
  ticks := fun _ => none

theorem seededPolicies_start : BreakerStart seededPolicies := by
  refine ⟨rfl, fun network p hp => ?_⟩
  obtain ⟨hp, -⟩ := getGlobalPolicy_eq_some.mp hp
  have hmem := (Table.find?_eq_some_iff.mp hp).1
  obtain rfl := List.mem_singleton.mp hmem
  simp [Tripped]

/-- A trip, a tick that sees it, and its resume. -/
theorem tripped_breaker_resumes :
    ∃ s t, Reachable breakerStep BreakerStart Trusted s ∧ breakerStep s ("t3", .resume 0) = some t ∧
      globalEnabled s .devnet = some false ∧ globalEnabled t .devnet = some true ∧
      lastDisabling s .devnet = some (recoverableTrip .devnet) := by
  have hstart : Reachable breakerStep BreakerStart Trusted seededPolicies := .start seededPolicies_start
  have htrip := hstart.step (l := ("t1", recoverableTrip .devnet)) (fun h => absurd rfl h) rfl
  have hseen := htrip.step (l := ("t2", BreakerEvent.observe 0 .devnet)) trivial rfl
  exact ⟨_, _, hseen, rfl, by decide, by decide,
    breaker_resumes_recoverable_trips hseen "t3" (.resume 0) rfl rfl .devnet (by decide) (by decide)⟩

end Sdp.Budget
