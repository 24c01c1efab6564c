import Sdp.Lib.Run
import Sdp.Lib.Table

/-!
# Connections to a tenant's own RPC provider

`services/rpc-connection.service.ts` with `services/stores/rpc-connection.store.ts` and the constraints of migration
0060, and the lookup of the relay: `services/rpc-connection-lookup.ts` and `resolveTenantConnection` of
`packages/sdp-rpc/src/relay.ts`. A connection is inserted together with a credential of its own, which no other code
writes, so that the row holds its credential. A transaction is one step, and its constraints are checked at its end; the
probe of an endpoint and the read of a secret have any outcome. Labels, providers, endpoints, `last_check_*` and the
secret store are left out.
-/

open Sdp.Lib

namespace Sdp.RpcConnections

inductive Network
  | devnet
  | mainnetBeta
deriving DecidableEq

inductive ConnectionStatus
  | pending
  | checking
  | active
  | failed
  | deactivated
deriving DecidableEq

inductive CredentialStatus
  | pending
  | active
  | failedValidation
  | deactivated
  | retired
deriving DecidableEq

structure ProviderCredential where
  status : CredentialStatus
  encryptedSecretPayload : Option String

structure RpcConnectionRow where
  id : String
  organizationId : String
  projectId : Option String
  network : Network
  status : ConnectionStatus
  isDefault : Bool
  activatedAt : Option Nat
  deactivatedAt : Option Nat
  credential : ProviderCredential

def organizationScopeKey : String := "__organization__"

/-- An organization, a scope of it and a network. -/
abbrev Slot := String × String × Network

namespace RpcConnectionRow

/-- The generated column `scope_key`. -/
def scopeKey (row : RpcConnectionRow) : String := row.projectId.getD organizationScopeKey

/-- The `CHECK` constraints. -/
def checks (row : RpcConnectionRow) : Bool :=
  row.projectId ≠ some organizationScopeKey &&
    (row.status ≠ .active || row.activatedAt.isSome) &&
    (if row.status = .deactivated then row.deactivatedAt.isSome else row.deactivatedAt.isNone) &&
    (row.activatedAt.isNone || row.status ∈ [.active, .failed, .deactivated]) &&
    (!row.isDefault || row.status = .active)

def slot (row : RpcConnectionRow) : Slot := (row.organizationId, row.scopeKey, row.network)

/-- The rows of the partial index `rpc_connections_one_default_per_scope_network`. -/
def isLiveDefault (row : RpcConnectionRow) : Bool := row.isDefault && row.status = .active

end RpcConnectionRow

abbrev ConnectionTable := Table String RpcConnectionRow (·.id)

/-- The unique index. -/
def oneDefault (connections : ConnectionTable) : Bool :=
  ((connections.rows.filter (·.isLiveDefault)).map (·.slot)).Nodup

def withinChecks (connections : ConnectionTable) : Bool := connections.rows.all (·.checks)

/-! ## Statements -/

/-- An administrator, in a project if one is selected. -/
structure Actor where
  organizationId : String
  projectId : Option String
deriving DecidableEq

/-- `actingScopeKeys` -/
def Actor.scopeKeys (actor : Actor) : List String := organizationScopeKey :: actor.projectId.toList

/-- What every statement on a single connection asks for besides its id. -/
def Actor.reaches (actor : Actor) (row : RpcConnectionRow) : Bool :=
  row.organizationId = actor.organizationId && row.scopeKey ∈ actor.scopeKeys

namespace RpcConnectionRow

def demote (row : RpcConnectionRow) : RpcConnectionRow := { row with isDefault := false }

def fail (row : RpcConnectionRow) : RpcConnectionRow := { row with status := .failed, isDefault := false }

/-- The credentials that an activation promotes. -/
def promotable (row : RpcConnectionRow) : Bool := row.credential.status ∈ [.pending, .failedValidation, .active]

def promote (row : RpcConnectionRow) : RpcConnectionRow :=
  { row with credential := { row.credential with status := .active } }

def activatable (row : RpcConnectionRow) : Bool := row.status ∈ [.pending, .checking, .failed, .active]

def activate (makeDefault : Bool) (now : Nat) (row : RpcConnectionRow) : RpcConnectionRow :=
  { row with
    status := .active
    activatedAt := row.activatedAt.or (some now)
    deactivatedAt := none
    isDefault := makeDefault }

/-- Both statements of a deactivation, the second of which drops the secret. -/
def deactivate (now : Nat) (row : RpcConnectionRow) : RpcConnectionRow :=
  { row with
    status := .deactivated
    isDefault := false
    deactivatedAt := some now
    credential := ⟨.deactivated, none⟩ }

section

variable (row : RpcConnectionRow) (makeDefault : Bool) (now : Nat)

theorem id_demote : row.demote.id = row.id := rfl
theorem id_fail : row.fail.id = row.id := rfl
theorem id_promote : row.promote.id = row.id := rfl
theorem id_activate : (row.activate makeDefault now).id = row.id := rfl
theorem id_deactivate : (row.deactivate now).id = row.id := rfl

end

end RpcConnectionRow

def findConnection (connections : ConnectionTable) (actor : Actor) (id : String) : Option RpcConnectionRow :=
  (connections.find? id).filter actor.reaches

/-- A constraint makes the statement fail. -/
def recordCheckFailure (connections : ConnectionTable) (actor : Actor) (id : String) : Option ConnectionTable :=
  let failed := connections.update id actor.reaches (·.fail) (·.id_fail)
  if withinChecks failed then some failed else none

def clearDefault (connections : ConnectionTable) (slot : Slot) (exceptId : String) : ConnectionTable :=
  connections.updateAll (fun row => row.slot = slot && row.isDefault && row.id ≠ exceptId) (·.demote) (·.id_demote)

inductive ActivationError
  /-- The credential is not promoted. -/
  | unusable
  /-- The unique index is violated. -/
  | defaultConflict
  | constraint
deriving DecidableEq

/-- The transaction of `activateRpcConnection`, for a slot that was read before. Its result tells whether the connection
was activated; the transaction commits either way. -/
def activationTransaction (connections : ConnectionTable) (actor : Actor) (id : String)
    (slot : Slot) (makeDefault : Bool) (now : Nat) : Except ActivationError (ConnectionTable × Bool) :=
  let cleared := if makeDefault then clearDefault connections slot id else connections
  if !cleared.matches? id (fun row => actor.reaches row && row.promotable) then .error .unusable
  else
    let promoted := cleared.update id (fun row => actor.reaches row && row.promotable) (·.promote)
      (·.id_promote)
    let activates := fun row : RpcConnectionRow => actor.reaches row && row.activatable
    let activated := promoted.update id activates (·.activate makeDefault now) (·.id_activate makeDefault now)
    if !oneDefault activated then .error .defaultConflict
    else if !withinChecks activated then .error .constraint
    else .ok (activated, promoted.matches? id activates)

/-- The transaction of `deactivateRpcConnection`, which fails if either row is deactivated already. -/
def deactivationTransaction (connections : ConnectionTable) (actor : Actor) (id : String) (now : Nat) :
    Option ConnectionTable :=
  let guard := fun row : RpcConnectionRow =>
    actor.reaches row && row.status ≠ .deactivated && row.credential.status ≠ .deactivated
  if connections.matches? id guard then some (connections.update id guard (·.deactivate now) (·.id_deactivate now))
  else none

/-! ## What the relay asks -/

def inScope (slot : Slot) (row : RpcConnectionRow) : Bool := row.slot = slot

def isLive (row : RpcConnectionRow) : Bool := row.isLiveDefault && row.credential.status = .active

def findEffectiveConnection (connections : ConnectionTable) (slot : Slot) : Option RpcConnectionRow :=
  connections.rows.find? fun row => inScope slot row && isLive row

inductive ScopeConnectionState
  | none
  | unusable
  | active (connectionId : String)
deriving DecidableEq

/-- A draft was never live, and a deactivated connection is withdrawn. -/
def isConfigured (row : RpcConnectionRow) : Bool := row.status ∉ [.deactivated, .pending, .checking]

def findScopeConnectionState (connections : ConnectionTable) (slot : Slot) : ScopeConnectionState :=
  let rows := connections.rows.filter fun row => inScope slot row && isConfigured row
  if rows.isEmpty then .none
  else
    match rows.find? isLive with
    | some live => .active live.id
    | none => .unusable

/-! ## The system -/

inductive Request
  | idle
  /-- The connection was read, and its endpoint is probed. -/
  | probing (actor : Actor) (id : String) (slot : Slot) (makeDefault : Bool)
  | activated
  | refused (message : String)
deriving DecidableEq

inductive Answer
  | connection (id : String)
  /-- The request of the tenant fails. -/
  | unusable
  /-- No connection answers, and the relay goes on with what the platform manages. -/
  | platform
deriving DecidableEq

inductive Lookup
  | idle
  /-- `slots` are still to be asked. Of the first, no live connection was found if `missed`. -/
  | asking (slots : List (Slot)) (missed : Bool)
  | answered (answer : Answer)
deriving DecidableEq

structure System where
  connections : ConnectionTable
  requests : Nat → Request
  lookups : Nat → Lookup

def System.start : System := ⟨Table.empty, fun _ => .idle, fun _ => .idle⟩

inductive Step
  /-- `projectId` is that of the scope that was asked for. -/
  | submit (actor : Actor) (projectId : Option String) (id : String) (network : Network) (payload : Option String)
  | startActivation (r : Nat) (actor : Actor) (id : String) (makeDefault : Bool)
  | finishProbe (r : Nat) (ok : Bool) (now : Nat)
  | deactivate (actor : Actor) (id : String) (now : Nat)
  | startLookup (r : Nat) (organizationId : String) (projectId : Option String) (network : Network)
  /-- A lookup reads; `secret` tells whether the secret could be read and is complete. -/
  | read (r : Nat) (secret : Bool)

/-- The scopes in the order in which the relay asks for them. -/
def lookupSlots (organizationId : String) (projectId : Option String) (network : Network) :
    List (Slot) :=
  (projectId.toList ++ [organizationScopeKey]).map fun scopeKey => (organizationId, scopeKey, network)

namespace System

def goto (s : System) (r : Nat) (request : Request) : System :=
  { s with requests := Function.update s.requests r request }

def look (s : System) (r : Nat) (lookup : Lookup) : System := { s with lookups := Function.update s.lookups r lookup }

/-- `submitRpcConnection`, once the secret is stored. -/
def submitted (s : System) (actor : Actor) (projectId : Option String) (id : String) (network : Network)
    (payload : Option String) : Option System :=
  let row : RpcConnectionRow :=
    { id, organizationId := actor.organizationId, projectId, network, status := .pending, isDefault := false
      activatedAt := none, deactivatedAt := none, credential := ⟨.pending, payload⟩ }
  if (projectId = none ∨ projectId = actor.projectId) ∧ s.connections.find? id = none ∧ row.checks = true then
    some { s with connections := s.connections.insertNew row }
  else none

def activationStarted (s : System) (r : Nat) (actor : Actor) (id : String) (makeDefault : Bool) : System :=
  match findConnection s.connections actor id with
  | none => s.goto r (.refused "RPC connection")
  | some row =>
    if row.status = .deactivated then
      s.goto r (.refused "A deactivated RPC connection cannot be reactivated; create a new one")
    else s.goto r (.probing actor id row.slot makeDefault)

def probeFinished (s : System) (r : Nat) (ok : Bool) (now : Nat) : Option System :=
  match s.requests r with
  | .probing actor id slot makeDefault =>
    if ok then
      match activationTransaction s.connections actor id slot makeDefault now with
      | .error .unusable => some (s.goto r (.refused "The credential behind this RPC connection is no longer usable"))
      | .error .defaultConflict =>
        some (s.goto r (.refused "Another connection was made the default at the same time"))
      -- The error of the driver is not caught.
      | .error .constraint => some (s.goto r (.refused "constraint"))
      | .ok (connections, activated) =>
        let t := { s with connections }
        some (t.goto r (if activated then .activated
          else .refused "The RPC connection changed while it was being activated"))
    else
      match recordCheckFailure s.connections actor id with
      | some connections =>
        let t := { s with connections }
        some (t.goto r (.refused "The RPC provider rejected this connection"))
      | none => some (s.goto r (.refused "constraint"))
  | _ => none

/-- `TenantRpcConnectionLookup.resolve` of the first slot, in two reads. -/
def lookedUp (s : System) (r : Nat) (secret : Bool) : Option System :=
  match s.lookups r with
  | .asking [] _ => some (s.look r (.answered .platform))
  | .asking (slot :: slots) false =>
    match findEffectiveConnection s.connections slot with
    | some row => some (s.look r (.answered (if secret then .connection row.id else .unusable)))
    | none => some (s.look r (.asking (slot :: slots) true))
  | .asking (slot :: slots) true =>
    match findScopeConnectionState s.connections slot with
    | .unusable => some (s.look r (.answered .unusable))
    | _ => some (s.look r (.asking slots false))
  | _ => none

end System

def step (s : System) : Step → Option System
  | .submit actor projectId id network payload => s.submitted actor projectId id network payload
  | .startActivation r actor id makeDefault =>
    match s.requests r with
    | .idle => some (s.activationStarted r actor id makeDefault)
    | _ => none
  | .finishProbe r ok now => s.probeFinished r ok now
  | .deactivate actor id now =>
    match deactivationTransaction s.connections actor id now with
    | some connections => some { s with connections }
    | none => some s
  | .startLookup r organizationId projectId network =>
    match s.lookups r with
    | .idle => some (s.look r (.asking (lookupSlots organizationId projectId network) false))
    | _ => none
  | .read r secret => s.lookedUp r secret

end Sdp.RpcConnections
