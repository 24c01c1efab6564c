import Sdp.Code.BudgetLedger
import Mathlib.Logic.Function.Basic

/-!
# Budget policies and the breaker

From `db/repositories/sponsorship-budget.repository.ts`, the policy tables of
`0055_sponsorship_budgets.sql` and the breaker part of
`services/jobs/reconcile-sponsorship-budgets.ts`. Each repository function is one transaction: it
writes the policy and appends a revision, or changes nothing.
-/

open Sdp.Lib

namespace Sdp.Budget

def SPONSORSHIP_BREAKER_OPERATOR : String := "system:sponsorship-breaker"

def KORA_CONFIG_UNAVAILABLE_BREAKER_REASON : String :=
  "Kora security configuration was unavailable during reconciliation"

def BREAKER_RECOVERY_REASON : String :=
  "Kora security configuration became readable again during reconciliation"

inductive SponsorshipBudgetScopeType
  | global | organization | project
deriving DecidableEq, Repr

structure SponsorshipBudgetPolicy where
  id : String
  network : SponsorshipNetwork
  scopeType : SponsorshipBudgetScopeType
  scopeId : Option String
  enabled : Bool
  perTransactionLamports : Nat
  hourlyLamports : Nat
  dailyLamports : Nat
  version : Nat
  updatedBy : String
  updateReason : String
  updatedAt : String
deriving DecidableEq

/-- The unique index `(network, scope_type, COALESCE(scope_id, ''))`. -/
def SponsorshipBudgetPolicy.scopeKey (p : SponsorshipBudgetPolicy) :
    SponsorshipNetwork × SponsorshipBudgetScopeType × String :=
  (p.network, p.scopeType, p.scopeId.getD "")

abbrev PolicyTable :=
  Table (SponsorshipNetwork × SponsorshipBudgetScopeType × String) SponsorshipBudgetPolicy
    SponsorshipBudgetPolicy.scopeKey

/-- `WHERE network = ? AND scope_type = ? AND scope_id IS NOT DISTINCT FROM ?` -/
def findPolicy (t : PolicyTable) (network : SponsorshipNetwork) (scopeType : SponsorshipBudgetScopeType)
    (scopeId : Option String) : Option SponsorshipBudgetPolicy :=
  (t.find? (network, scopeType, scopeId.getD "")).filter fun p => p.scopeId = scopeId

def getGlobalPolicy (t : PolicyTable) (network : SponsorshipNetwork) : Option SponsorshipBudgetPolicy :=
  findPolicy t network .global none

/-- An `UPDATE … RETURNING *` of one policy, with the row that the caller also appends as a revision. -/
def updatePolicy (t : PolicyTable) (network : SponsorshipNetwork) (scopeType : SponsorshipBudgetScopeType)
    (scopeId : Option String) (guard : SponsorshipBudgetPolicy → Bool)
    (set : SponsorshipBudgetPolicy → SponsorshipBudgetPolicy) (hset : ∀ p, (set p).scopeKey = p.scopeKey) :
    PolicyTable × Option SponsorshipBudgetPolicy :=
  (t.update (network, scopeType, scopeId.getD "") (fun p => p.scopeId = scopeId && guard p) set hset,
    ((findPolicy t network scopeType scopeId).filter guard).map set)

structure SetPolicyEnabledInput where
  network : SponsorshipNetwork
  scopeType : SponsorshipBudgetScopeType
  scopeId : Option String
  enabled : Bool
  operator : String
  reason : String
  overwriteDisabledProvenance : Option Bool := none
deriving DecidableEq

def setPolicyEnabled (t : PolicyTable) (input : SetPolicyEnabledInput) (now : String) :
    PolicyTable × Option SponsorshipBudgetPolicy :=
  let overwriteDisabledProvenance := input.overwriteDisabledProvenance.getD true
  updatePolicy t input.network input.scopeType input.scopeId
    (fun p => p.enabled ≠ input.enabled ∨
      overwriteDisabledProvenance = true ∧ input.enabled = false ∧
        (p.updatedBy ≠ input.operator ∨ p.updateReason ≠ input.reason))
    (fun p => { p with enabled := input.enabled, version := p.version + 1, updatedBy := input.operator
                       updateReason := input.reason, updatedAt := now })
    fun _ => rfl

def tripGlobalBreaker (t : PolicyTable) (network : SponsorshipNetwork) (reason : String)
    (recoverable : Option Bool) (now : String) : PolicyTable × Option SponsorshipBudgetPolicy :=
  setPolicyEnabled t
    { network, scopeType := .global, scopeId := none, enabled := false
      operator := SPONSORSHIP_BREAKER_OPERATOR, reason
      overwriteDisabledProvenance := some (!recoverable.getD false) }
    now

def resumeGlobalBreaker (t : PolicyTable) (network : SponsorshipNetwork) (expectedTripReason reason : String)
    (now : String) : PolicyTable × Option SponsorshipBudgetPolicy :=
  updatePolicy t network .global none
    (fun p => p.enabled = false ∧ p.updatedBy = SPONSORSHIP_BREAKER_OPERATOR ∧
      p.updateReason = expectedTripReason)
    (fun p => { p with enabled := true, version := p.version + 1, updatedBy := SPONSORSHIP_BREAKER_OPERATOR
                       updateReason := reason, updatedAt := now })
    fun _ => rfl

structure UpsertPolicyInput where
  network : SponsorshipNetwork
  scopeType : SponsorshipBudgetScopeType
  scopeId : Option String
  enabled : Bool
  perTransactionLamports : Nat
  hourlyLamports : Nat
  dailyLamports : Nat
  operator : String
  reason : String
deriving DecidableEq

/-- The checks of the table: a global policy has no scope id, and the limits are ordered safe integers. -/
def UpsertPolicyInput.checked (input : UpsertPolicyInput) : Bool :=
  (input.scopeType ≠ .global ∨ input.scopeId = none) ∧
    input.perTransactionLamports ≤ input.hourlyLamports ∧ input.hourlyLamports ≤ input.dailyLamports ∧
    input.dailyLamports ≤ 9007199254740991

/-- `freshId` is the new row's `sbp_` id. A failed check or a taken scope key throws, and the transaction
leaves the table as it was. -/
def upsertPolicy (t : PolicyTable) (input : UpsertPolicyInput) (freshId now : String) :
    PolicyTable × Option SponsorshipBudgetPolicy :=
  if !input.checked then (t, none)
  else
    match findPolicy t input.network input.scopeType input.scopeId with
    | some _ =>
      updatePolicy t input.network input.scopeType input.scopeId (fun _ => true)
        (fun p => { p with enabled := input.enabled, perTransactionLamports := input.perTransactionLamports
                           hourlyLamports := input.hourlyLamports, dailyLamports := input.dailyLamports
                           version := p.version + 1, updatedBy := input.operator
                           updateReason := input.reason, updatedAt := now })
        fun _ => rfl
    | none =>
      let row : SponsorshipBudgetPolicy :=
        { input with id := freshId, version := 1, updatedBy := input.operator, updateReason := input.reason
                     updatedAt := now }
      if (t.find? row.scopeKey).isSome then (t, none) else (t.insertNew row, some row)

/-- `recoverableTrip` of a reconciliation tick. -/
def isRecoverableBreakerTrip (policy : Option SponsorshipBudgetPolicy) : Bool :=
  policy.any fun p => !p.enabled && p.updatedBy = SPONSORSHIP_BREAKER_OPERATOR &&
    p.updateReason = KORA_CONFIG_UNAVAILABLE_BREAKER_REASON

/-! ## Everyone who writes a policy -/

inductive BreakerEvent
  /-- An operator enables or disables a policy. -/
  | setPolicyEnabled (input : SetPolicyEnabledInput)
  /-- An operator writes a policy. -/
  | upsertPolicy (input : UpsertPolicyInput) (freshId : String)
  /-- A request or a reconciliation tick trips the breaker. -/
  | tripGlobalBreaker (network : SponsorshipNetwork) (reason : String) (recoverable : Option Bool)
  /-- A reconciliation tick reads the global policy. -/
  | observe (tick : Nat) (network : SponsorshipNetwork)
  /-- A tick that saw a recoverable trip, and read the provider's configuration since. -/
  | resume (tick : Nat)
  /-- A tick ends without a resume. -/
  | finish (tick : Nat)
deriving DecidableEq

structure BreakerState where
  policies : PolicyTable
  /-- The revisions, newest first, each with the event that wrote it. -/
  revisions : List (BreakerEvent × SponsorshipBudgetPolicy)
  /-- The network and `recoverableTrip` of each tick under way. -/
  ticks : Nat → Option (SponsorshipNetwork × Bool)

/-- A transaction's result: the policies, and a revision if one was written. -/
def BreakerState.write (s : BreakerState) (event : BreakerEvent)
    (result : PolicyTable × Option SponsorshipBudgetPolicy) : BreakerState :=
  { s with policies := result.1
           revisions := (result.2.map fun p => (event, p)).toList ++ s.revisions }

def breakerStep (s : BreakerState) : String × BreakerEvent → Option BreakerState
  | (now, .setPolicyEnabled input) =>
    some (s.write (.setPolicyEnabled input) (setPolicyEnabled s.policies input now))
  | (now, .upsertPolicy input freshId) =>
    some (s.write (.upsertPolicy input freshId) (upsertPolicy s.policies input freshId now))
  | (now, .tripGlobalBreaker network reason recoverable) =>
    some (s.write (.tripGlobalBreaker network reason recoverable)
      (tripGlobalBreaker s.policies network reason recoverable now))
  | (_, .observe tick network) =>
    some { s with ticks := Function.update s.ticks tick
                    (some (network, isRecoverableBreakerTrip (getGlobalPolicy s.policies network))) }
  | (now, .resume tick) =>
    match s.ticks tick with
    | some (network, true) =>
      some { s.write (.resume tick) (resumeGlobalBreaker s.policies network
              KORA_CONFIG_UNAVAILABLE_BREAKER_REASON BREAKER_RECOVERY_REASON now) with
             ticks := Function.update s.ticks tick none }
    | _ => none
  | (_, .finish tick) => some { s with ticks := Function.update s.ticks tick none }

end Sdp.Budget
