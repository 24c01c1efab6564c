import Sdp.Code.BudgetPolicies

/-!
# The Redis budget scripts

From `runtime/sponsorship-budget-redis.ts`. Each Lua script is one function, for one network. The
keys and hash fields of a script are the arguments of the maps here, and the two hashes of a call
are those of its hour and its day. Time to live is left out: no key expires within its window.
-/

open Sdp.Lib

namespace Sdp.Budget

/-- A counter field: `global`, `organization:<id>` or `project:<id>`. -/
inductive ScopeField
  | global
  | organization (id : String)
  | project (id : String)
deriving DecidableEq, Repr

/-- `fields`. An empty project id is no project. -/
def scopeFields (organizationId : String) (projectId : Option String) : List ScopeField :=
  [.global, .organization organizationId] ++ ((projectId.filter (· ≠ "")).map ScopeField.project).toList

/-- `<reservation id>:<attempt>`, as the keys and the ownership field spell it. -/
structure AttemptId where
  reservationId : String
  attempt : Nat
deriving DecidableEq, Repr

structure Buckets where
  hour : String
  day : String
deriving DecidableEq, Repr

def Buckets.of (b : Buckets) : Window → String
  | .hour => b.hour
  | .day => b.day

/-- The hash of one bucket. `owner` is the field `__reservation:<id>:<attempt>`, `ownerField` the
fields `__reservation:<id>:<attempt>:<field>`. -/
structure BucketHash where
  counter : ScopeField → Option Int
  initialized : ScopeField → Bool
  owner : AttemptId → Option Nat
  ownerField : AttemptId → ScopeField → Option Nat

structure Redis where
  hash : Window → String → BucketHash
  reservation : AttemptId → Option Nat
  settlement : AttemptId → Option Nat
  control : SponsorshipBudgetScopeType × String → Option (Nat × Bool)

namespace BucketHash

def empty : BucketHash where
  counter := fun _ => none
  initialized := fun _ => false
  owner := fun _ => none
  ownerField := fun _ _ => none

/-- `tonumber(redis.call('HGET', key, field) or '0')` -/
def used (h : BucketHash) (f : ScopeField) : Int := (h.counter f).getD 0

def hincrby (h : BucketHash) (f : ScopeField) (delta : Int) : BucketHash :=
  { h with counter := Function.update h.counter f (some (h.used f + delta)) }

def setOwner (h : BucketHash) (a : AttemptId) (value : Option Nat) : BucketHash :=
  { h with owner := Function.update h.owner a value }

def setOwnerField (h : BucketHash) (a : AttemptId) (f : ScopeField) (value : Option Nat) : BucketHash :=
  { h with ownerField := Function.update h.ownerField a (Function.update (h.ownerField a) f value) }

/-- The check that opens `counts` and `covers`: the field's own marker, or the marker of an older
format that had none per field. -/
def marked (h : BucketHash) (a : AttemptId) (fields : List ScopeField) (f : ScopeField) : Bool :=
  if (h.ownerField a f).isSome then true
  else if (h.owner a).isNone then false
  else !fields.any fun g => (h.ownerField a g).isSome

/-- `counts` of `RESERVE_LUA`. -/
def counts (h : BucketHash) (a : AttemptId) (fields : List ScopeField) (f : ScopeField) : Bool :=
  h.marked a fields f

/-- `covers` of `CANCEL_LUA` and `SETTLE_LUA`. -/
def covers (h : BucketHash) (a : AttemptId) (fields : List ScopeField) (f : ScopeField) : Bool :=
  (h.ownerField a f).isSome || (h.marked a fields f && h.initialized f)

end BucketHash

namespace Redis

def empty : Redis where
  hash := fun _ _ => .empty
  reservation := fun _ => none
  settlement := fun _ => none
  control := fun _ => none

/-- One hash of a call. -/
def bucket (r : Redis) (b : Buckets) (w : Window) : BucketHash := r.hash w (b.of w)

/-- The same change to both hashes of a call. -/
def mapBuckets (r : Redis) (b : Buckets) (change : Window → BucketHash → BucketHash) : Redis :=
  { r with hash := fun w k => if k = b.of w then change w (r.hash w k) else r.hash w k }

end Redis

/-! ## INITIALIZE_LUA -/

/-- The first loop at one field, with the fields seeded so far. -/
def seedField (state : BucketHash × List ScopeField) (seed : ScopeField × Nat) :
    BucketHash × List ScopeField :=
  if state.1.initialized seed.1 then state
  else
    ({ state.1 with
        counter := Function.update state.1.counter seed.1 (some (seed.2 : Int))
        initialized := Function.update state.1.initialized seed.1 true },
      seed.1 :: state.2)

def SponsorshipLiveWindowReservation.attemptId (r : SponsorshipLiveWindowReservation) : AttemptId :=
  ⟨r.id, r.attempt⟩

def SponsorshipLiveWindowReservation.fields (r : SponsorshipLiveWindowReservation) : List ScopeField :=
  scopeFields r.organizationId r.projectId

/-- `reconstruct` at one field of one live reservation. -/
def reconstructField (settled : Option Nat) (seeded : List ScopeField) (r : SponsorshipLiveWindowReservation)
    (h : BucketHash) (f : ScopeField) : BucketHash :=
  if f ∈ seeded then
    match settled with
    | some actual =>
      let delta : Int := actual - r.reservedLamports
      if delta ≠ 0 then h.hincrby f delta else h
    | none => (h.setOwnerField r.attemptId f (some r.reservedLamports)).setOwner r.attemptId (some r.reservedLamports)
  else h

def reconstruct (settlement : AttemptId → Option Nat) (seeded : List ScopeField) (h : BucketHash)
    (r : SponsorshipLiveWindowReservation) : BucketHash :=
  r.fields.foldl (reconstructField (settlement r.attemptId) seeded r) h

def initializeHash (settlement : AttemptId → Option Nat) (seeds : List (ScopeField × Nat))
    (live : List SponsorshipLiveWindowReservation) (h : BucketHash) : BucketHash :=
  let state := seeds.foldl seedField (h, [])
  live.foldl (reconstruct settlement state.2) state.1

def SponsorshipBudgetUsage.of (usage : SponsorshipBudgetUsage) : ScopeField → Nat
  | .global => usage.global
  | .organization _ => usage.organization
  | .project _ => usage.project

/-- The script with the arguments that `reserve` gives it: the fields of the admission's scope with
their usage, and the live reservations of both windows. -/
def initializeScript (r : Redis) (b : Buckets) (fields : List ScopeField) (snapshot : WindowAdmissionSnapshot) : Redis :=
  r.mapBuckets b fun w =>
    initializeHash r.settlement (fields.map fun f => (f, (snapshot.usage w).of f)) (snapshot.liveReservations w)

/-! ## RESERVE_LUA -/

structure ScopeLimit where
  field : ScopeField
  perTransactionLamports : Nat
  hourlyLamports : Nat
  dailyLamports : Nat
  controlField : SponsorshipBudgetScopeType × String
  expectedVersion : Nat
deriving DecidableEq

def ScopeField.scopeType : ScopeField → SponsorshipBudgetScopeType
  | .global => .global
  | .organization _ => .organization
  | .project _ => .project

def controlField (policy : SponsorshipBudgetPolicy) : SponsorshipBudgetScopeType × String :=
  (policy.scopeType, policy.scopeId.getD "default")

/-- The arguments of one field. `policies` is `policyByScope`. -/
def scopeLimit (policies : SponsorshipBudgetScopeType → SponsorshipBudgetPolicy) (f : ScopeField) : ScopeLimit where
  field := f
  perTransactionLamports := (policies f.scopeType).perTransactionLamports
  hourlyLamports := (policies f.scopeType).hourlyLamports
  dailyLamports := (policies f.scopeType).dailyLamports
  controlField := controlField (policies f.scopeType)
  expectedVersion := (policies f.scopeType).version

inductive ReserveReply
  | uninitialized (index : Nat)
  | stale (index : Nat)
  | duplicate (existing : Nat)
  | denied (index : Nat) (hourUsed dayUsed : Int)
  | admitted (amount : Nat)
deriving DecidableEq, Repr

/-- The first loop: every field is initialized, and every policy enabled at the expected version. -/
def checkScopes (r : Redis) (b : Buckets) : Nat → List ScopeLimit → Option ReserveReply
  | _, [] => none
  | i, scope :: rest =>
    if !(r.bucket b .hour).initialized scope.field || !(r.bucket b .day).initialized scope.field then
      some (.uninitialized i)
    else if r.control scope.controlField ≠ some (scope.expectedVersion, true) then some (.stale i)
    else checkScopes r b (i + 1) rest

/-- Past a limit, with the amount on top unless it is counted already. -/
def overLimit (counted : Bool) (used : Int) (amount limit : Nat) : Bool :=
  if counted then limit < used else limit < used + amount

/-- The second loop: the limits. -/
def checkLimits (r : Redis) (b : Buckets) (a : AttemptId) (amount : Nat) (fields : List ScopeField) :
    Nat → List ScopeLimit → Option ReserveReply
  | _, [] => none
  | i, scope :: rest =>
    let hour := r.bucket b .hour
    let day := r.bucket b .day
    if scope.perTransactionLamports < amount then some (.denied i (-1) (-1))
    else if overLimit (hour.counts a fields scope.field) (hour.used scope.field) amount scope.hourlyLamports ||
        overLimit (day.counts a fields scope.field) (day.used scope.field) amount scope.dailyLamports then
      some (.denied i (hour.used scope.field) (day.used scope.field))
    else checkLimits r b a amount fields (i + 1) rest

/-- The third loop at one field of one hash. -/
def countField (a : AttemptId) (amount : Nat) (h : BucketHash) (field : ScopeField × Bool) : BucketHash :=
  if field.2 then h else (h.hincrby field.1 amount).setOwnerField a field.1 (some amount)

def reserveHash (a : AttemptId) (amount : Nat) (fields : List ScopeField) (h : BucketHash) : BucketHash :=
  ((fields.map fun f => (f, h.counts a fields f)).foldl (countField a amount) h).setOwner a (some amount)

def reserveScript (r : Redis) (b : Buckets) (a : AttemptId) (amount : Nat) (scopes : List ScopeLimit) :
    Redis × ReserveReply :=
  let fields := scopes.map ScopeLimit.field
  match checkScopes r b 1 scopes with
  | some reply => (r, reply)
  | none =>
    if (r.reservation a).isSome || (r.settlement a).isSome then (r, .duplicate ((r.reservation a).getD 0))
    else
      match checkLimits r b a amount fields 1 scopes with
      | some reply => (r, reply)
      | none =>
        ({ r.mapBuckets b (fun _ => reserveHash a amount fields) with
            reservation := Function.update r.reservation a (some amount) }, .admitted amount)

/-- What `reserve` makes of the reply. -/
inductive AdmissionOutcome
  | admitted | duplicate | denied | stalePolicy
deriving DecidableEq, Repr

def ReserveReply.outcome : ReserveReply → AdmissionOutcome
  | .duplicate _ => .duplicate
  | .admitted _ => .admitted
  | .stale _ => .stalePolicy
  | .uninitialized _ | .denied _ _ _ => .denied

/-! ## SYNC_CONTROL_LUA -/

def syncControlScript (r : Redis) (controlField : SponsorshipBudgetScopeType × String) (version : Nat)
    (enabled : Bool) : Redis :=
  if (r.control controlField).any fun current => version < current.1 then r
  else { r with control := Function.update r.control controlField (some (version, enabled)) }

/-! ## CANCEL_LUA and SETTLE_LUA -/

/-- The last loop of both scripts at one hash: the covered fields move by `adjust` and lose their
markers, and the attempt its ownership. -/
def releaseHash (a : AttemptId) (fields : List ScopeField) (adjust : BucketHash → ScopeField → BucketHash)
    (h : BucketHash) : BucketHash :=
  ((fields.filter (h.covers a fields)).foldl (fun h f => (adjust h f).setOwnerField a f none) h).setOwner a none

inductive CancelReply
  | nothing | mismatch | underflow
  | cancelled (amount : Nat)
deriving DecidableEq, Repr

def cancelScript (r : Redis) (b : Buckets) (a : AttemptId) (fields : List ScopeField) : Redis × CancelReply :=
  let hour := r.bucket b .hour
  let day := r.bucket b .day
  match (r.reservation a).or ((hour.owner a).or (day.owner a)) with
  | none => (r, .nothing)
  | some amount =>
    if (hour.owner a).any (· ≠ amount) || (day.owner a).any (· ≠ amount) then (r, .mismatch)
    else if fields.any fun f =>
        hour.covers a fields f && hour.used f < amount || day.covers a fields f && day.used f < amount then
      (r, .underflow)
    else
      ({ r.mapBuckets b (fun _ => releaseHash a fields fun h f => h.hincrby f (-amount)) with
          reservation := Function.update r.reservation a none }, .cancelled amount)

inductive SettleReply
  | alreadySettled | mismatch | underflow
  | settled (delta : Int)
deriving DecidableEq, Repr

/-- The check of one hash before anything is written. -/
def checkSettle (a : AttemptId) (reserved : Nat) (delta : Int) (fields : List ScopeField) (h : BucketHash) :
    Option SettleReply :=
  if (h.owner a).any (· ≠ reserved) then some .mismatch
  else if delta < 0 && fields.any fun f => h.covers a fields f && h.used f < -delta then some .underflow
  else none

def settleScript (r : Redis) (b : Buckets) (a : AttemptId) (reserved actual : Nat) (fields : List ScopeField)
    (detectMissingReservation : Bool) : Redis × SettleReply :=
  let delta : Int := actual - reserved
  if (r.settlement a).isSome then (r, .alreadySettled)
  else if (r.reservation a).isNone && !detectMissingReservation then (r, .mismatch)
  else if (r.reservation a).any (· ≠ reserved) then (r, .mismatch)
  else
    match (checkSettle a reserved delta fields (r.bucket b .hour)).or
        (checkSettle a reserved delta fields (r.bucket b .day)) with
    | some reply => (r, reply)
    | none =>
      ({ r.mapBuckets b
            (fun _ => releaseHash a fields fun h f => if delta ≠ 0 then h.hincrby f delta else h) with
          reservation := Function.update r.reservation a none
          settlement := Function.update r.settlement a (some actual) }, .settled delta)

end Sdp.Budget
