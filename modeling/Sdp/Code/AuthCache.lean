import Sdp.Code.ApiKeyRequests
import Mathlib.Logic.Function.Basic

/-!
# Authentication with cached API keys

From `middleware/auth.ts`, `routes/api-keys/handlers.ts` and `routes/webhooks/handlers.ts`: any number
of authentications of one key and of requests that write it, over one database and one cache. Each
query and each call of the cache is one step. The numbers of the writes are for the statements
only. The rate limit, the allowlist of the organization and the marker of unknown keys are left out.
-/

namespace Sdp.AuthCache

open ApiKeys

/-! ## Records -/

structure CachedApiKey where
  id : String
  role : ApiKeyRole
  permissions : List Permission
  allowedIps : Option (List String)
  walletScope : ApiKeyWalletScope
  signingWalletId : Option String
  walletBindings : List ApiKeyWalletBinding
  status : ApiKeyStatus
  expiresAt : Option Nat
  rotationDeadline : Option Nat
deriving DecidableEq

/-- The row of one query and the wallet permissions of the next one. -/
def cachedApiKey (candidates : String → Nat) (row : ApiKeyRow) (walletPermissions : List ApiKeyWalletBinding) :
    CachedApiKey :=
  let key := { row with walletPermissions }
  let walletBindings := key.walletBindings candidates
  { id := key.id, role := key.role, permissions := key.effectivePermissions, allowedIps := key.allowedIps
    walletScope := key.walletScope, walletBindings
    signingWalletId := key.signingWalletId.or (walletBindings.head?.map (·.walletId))
    status := key.status, expiresAt := key.expiresAt, rotationDeadline := key.rotationDeadline }

/-- Older readers take no bindings for no restriction. -/
def CachedApiKey.cacheable (key : CachedApiKey) : Bool := key.walletScope ≠ .selected || key.walletBindings ≠ []

inductive AuthError
  | revokedApiKey | expiredApiKey | forbidden
deriving DecidableEq, Repr

/-- The checks of `authMiddleware`. `ipAllowed` is `isClientIpAllowed` of the address of the request. -/
def authorize (key : CachedApiKey) (now : Nat) (ipAllowed : Option (List String) → Bool) : Except AuthError Unit := do
  if key.status = .revoked ∨ key.status = .deactivated then throw .revokedApiKey
  if key.status = .expired then throw .expiredApiKey
  if key.expiresAt.any (· < now) then throw .expiredApiKey
  if key.rotationDeadline.any (· ≤ now) then throw .expiredApiKey
  if !ipAllowed key.allowedIps then throw .forbidden

/-! ## Requests that write the key -/

inductive KeyWrite
  | revoke
  | update (body : UpdateBody) (patch : ParsedWalletBindingPatch)
  | rotate (deadline : Nat)
  | deleteOrganization

namespace KeyWrite

def apply : KeyWrite → ApiKeyRow → ApiKeyRow
  | .revoke, key => { key with status := .deactivated }
  | .update body patch, key => body.apply patch key
  | .rotate deadline, key => key.retire deadline
  | .deleteOrganization, key => if key.status = .active then { key with status := .revoked } else key

/-- Whether the handler returns success at once for a key that is out of use. -/
def checksStatus : KeyWrite → Bool
  | .revoke => true
  | _ => false

/-- Whether the request deletes the cached record after its write. -/
def deletesCached : KeyWrite → Bool
  | .revoke | .rotate _ => true
  | .update body patch => body.allowedIps.isSome || body.permissions.isSome || patch.touched
  | .deleteOrganization => false

end KeyWrite

/-- Where a request stands. `written` has `true` while it is about to delete the cached record. -/
inductive RequestState
  | idle
  /-- `revokeApiKey` has read a key in use. -/
  | admitted
  /-- It has read a key that a write, of this number, took out of use. It writes and deletes nothing. -/
  | answered (version : Nat)
  | written (version : Nat) (deletes : Bool)
  | returned
deriving DecidableEq

/-! ## The system -/

/-- A record and the number of the write that its row was read after. -/
structure Entry where
  record : CachedApiKey
  version : Nat
deriving DecidableEq

/-- Where an authentication stands. `floor` is the last write that a returned request stood for when it started. -/
inductive Authentication
  | idle
  | started (floor : Nat)
  | missed (floor : Nat)
  | readRow (floor : Nat) (row : ApiKeyRow) (version : Nat)
  | readWallets (floor : Nat) (entry : Entry)
  | found (floor : Nat) (entry : Entry)
  | decided (floor : Nat) (entry : Entry) (result : Except AuthError Unit)

structure System where
  /-- The row after each write. -/
  rows : Nat → ApiKeyRow
  version : Nat
  cache : Option Entry
  /-- The last write that a request which has returned stands for: its own, or the one that it answered with. -/
  floor : Nat
  requests : Nat → RequestState
  authentications : Nat → Authentication

def System.row (s : System) : ApiKeyRow := s.rows s.version

/-- `status === "deactivated" || status === "revoked"` -/
def outOfUse (key : ApiKeyRow) : Bool := key.status = .deactivated || key.status = .revoked

/-- The write that took the key out of use. -/
def System.outOfUseSince (s : System) : Nat :=
  ((List.range (s.version + 1)).find? fun version => outOfUse (s.rows version)).getD s.version

def System.start (key : ApiKeyRow) : System := ⟨fun _ => key, 0, none, 0, fun _ => .idle, fun _ => .idle⟩

inductive AuthenticationStep
  | start
  | readCache
  | readRow
  | readWallets
  | writeCache
  | decide (now : Nat) (ipAllowed : Option (List String) → Bool)

inductive RequestStep
  /-- The first query of `revokeApiKey`. -/
  | readStatus
  | write (w : KeyWrite)
  | deleteCached
  | return

inductive Event
  | authenticate (a : Nat) (e : AuthenticationStep)
  | request (r : Nat) (e : RequestStep)
  /-- The cached record expires. -/
  | expire

section

variable (candidates : String → Nat)

/-- The cache and the authentication after a step of it. -/
def authenticationStep (s : System) : Authentication → AuthenticationStep → Option (Option Entry × Authentication)
  | .idle, .start => some (s.cache, .started s.floor)
  | .started floor, .readCache =>
    match s.cache with
    | some entry => some (s.cache, .found floor entry)
    | none => some (s.cache, .missed floor)
  | .missed floor, .readRow => some (s.cache, .readRow floor s.row s.version)
  | .readRow floor row version, .readWallets =>
    some (s.cache, .readWallets floor ⟨cachedApiKey candidates row s.row.walletPermissions, version⟩)
  | .readWallets floor entry, .writeCache =>
    some (if entry.record.cacheable then some entry else s.cache, .found floor entry)
  | .found floor entry, .decide now ipAllowed =>
    some (s.cache, .decided floor entry (authorize entry.record now ipAllowed))
  | _, _ => none

/-- Where a request stands before its write. -/
def KeyWrite.before (w : KeyWrite) : RequestState := if w.checksStatus then .admitted else .idle

/-- A request writes the row in one transaction. -/
def requestStep (s : System) (r : Nat) : RequestState → RequestStep → Option System
  | .idle, .readStatus =>
    some { s with
      requests := Function.update s.requests r (if outOfUse s.row then .answered s.outOfUseSince else .admitted) }
  | state, .write w =>
    if state = w.before then
      some { s with
        rows := Function.update s.rows (s.version + 1) (w.apply s.row)
        version := s.version + 1
        requests := Function.update s.requests r (.written (s.version + 1) w.deletesCached) }
    else none
  | .written version true, .deleteCached =>
    some { s with cache := none, requests := Function.update s.requests r (.written version false) }
  | .written version false, .return | .answered version, .return =>
    some { s with floor := max s.floor version, requests := Function.update s.requests r .returned }
  | _, _ => none

def step (s : System) : Event → Option System
  | .authenticate a e =>
    (authenticationStep candidates s (s.authentications a) e).map fun (cache, authentication) =>
      { s with cache, authentications := Function.update s.authentications a authentication }
  | .request r e => requestStep s r (s.requests r) e
  | .expire => some { s with cache := none }

end

end Sdp.AuthCache
