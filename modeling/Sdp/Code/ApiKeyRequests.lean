import Sdp.Code.ApiKeys

/-!
# Requests that write API keys

From `services/api-key-scope.service.ts`, `services/api-key.service.ts` and
`routes/api-keys/handlers.ts`: `createApiKey`, `updateApiKey` and `rotateApiKey`, made with a key of
the same project. A field of a body that may be left out or null is an `Option (Option α)`. The
lookups of the project and of the creator, the audit log and the cache are left out.
-/

namespace Sdp.ApiKeys

open Amount (trim)

/-! ## Wallet scopes -/

structure WalletBindingInput where
  walletId : String
  permissions : Option (List Permission)

structure WalletScopeInput where
  walletScope : Option ApiKeyWalletScope
  signingWalletId : Option (Option String)
  signingWalletIds : Option (Option (List String))
  walletBindings : Option (Option (List WalletBindingInput))
  provisionWallet : Bool
  connectionId : Option String

structure ParsedWalletBindingPatch where
  touched : Bool
  defaultSigningWalletId : Option String
  bindings : List ApiKeyWalletBinding
deriving DecidableEq

def trimWalletId (walletId : String) : Except AppError String :=
  let normalized := trim walletId.toList
  if normalized = [] then throw (badRequest "Wallet IDs must be non-empty strings") else pure (.ofList normalized)

def upsertBinding (bindings : List ApiKeyWalletBinding) (input : WalletBindingInput) :
    Except AppError (List ApiKeyWalletBinding) := do
  let walletId ← trimWalletId input.walletId
  if bindings.any (·.walletId = walletId) then
    match input.permissions with
    | none => pure bindings
    | some permissions =>
      pure (bindings.map fun b =>
        if b.walletId = walletId then ⟨walletId, normalizeApiKeyWalletPermissions permissions⟩ else b)
  else
    pure (bindings ++ [⟨walletId, (input.permissions.map normalizeApiKeyWalletPermissions).getD [.all]⟩])

namespace WalletScopeInput

def touched (input : WalletScopeInput) : Bool :=
  input.signingWalletId.isSome || input.signingWalletIds.isSome || input.walletBindings.isSome

def clearAllRequested (input : WalletScopeInput) : Bool :=
  input.signingWalletId.any (·.isNone) || input.signingWalletIds.any (·.isNone) || input.walletBindings.any (·.isNone)

/-- The inputs of `upsertBinding` in their order. -/
def bindingInputs (input : WalletScopeInput) : List WalletBindingInput :=
  input.walletBindings.join.getD [] ++ (input.signingWalletIds.join.getD []).map (⟨·, none⟩) ++
    input.signingWalletId.join.toList.map (⟨·, none⟩)

end WalletScopeInput

def parseWalletBindingPatch (input : WalletScopeInput) : Except AppError ParsedWalletBindingPatch := do
  if input.clearAllRequested then
    if input.signingWalletId.join.isSome || input.signingWalletIds.join.isSome || input.walletBindings.join.isSome then
      throw (badRequest "Cannot combine null wallet binding fields with non-null wallet binding values")
    pure ⟨input.touched, none, []⟩
  else
    let bindings ← input.bindingInputs.foldlM upsertBinding []
    let defaultSigningWalletId ← match input.signingWalletId.join with
      | some walletId => some <$> trimWalletId walletId
      | none => pure (bindings.head?.map (·.walletId))
    pure ⟨input.touched, defaultSigningWalletId, bindings⟩

def allWithProvision : AppError := badRequest "walletScope 'all' cannot be combined with provisionWallet"

def allWithBindings : AppError :=
  badRequest "walletScope 'all' cannot be combined with signingWalletId, signingWalletIds, or walletBindings"

def resolveCreateWalletScope (input : WalletScopeInput) : Except AppError ParsedWalletBindingPatch := do
  let some walletScope := input.walletScope | throw (badRequest "walletScope is required")
  if input.connectionId.isSome && !input.provisionWallet then
    throw (badRequest "connectionId requires provisionWallet")
  let patch ← parseWalletBindingPatch input
  match walletScope with
  | .all =>
    if input.provisionWallet then throw allWithProvision
    if patch.touched then throw allWithBindings
    pure ⟨true, none, []⟩
  | .selected =>
    if !input.provisionWallet && patch.bindings = [] then
      throw (badRequest "walletScope 'selected' requires wallet bindings or provisionWallet")
    pure ⟨true, patch.defaultSigningWalletId, patch.bindings⟩

def resolveUpdateWalletScope (input : WalletScopeInput) : Except AppError ParsedWalletBindingPatch := do
  let patch ← parseWalletBindingPatch input
  match input.walletScope with
  | none =>
    if patch.touched then throw (badRequest "walletScope is required when updating API key wallet access")
    pure ⟨false, patch.defaultSigningWalletId, patch.bindings⟩
  | some .all =>
    if input.provisionWallet then throw allWithProvision
    if patch.touched then throw allWithBindings
    pure ⟨true, none, []⟩
  | some .selected =>
    if input.provisionWallet then throw (badRequest "provisionWallet is only supported during API key creation")
    if !patch.touched || patch.bindings = [] then
      throw (badRequest "walletScope 'selected' requires signingWalletId, signingWalletIds, or walletBindings")
    pure ⟨true, patch.defaultSigningWalletId, patch.bindings⟩

/-- Its errors also list the wallet ids. -/
def resolveWalletBindingsInScope (candidates : String → Nat) (bindings : List ApiKeyWalletBinding) :
    Except AppError (List ApiKeyWalletBinding) := do
  if bindings.any fun b => candidates b.walletId = 0 then throw (badRequest "Unknown signing wallet IDs")
  if bindings.any fun b => 1 < candidates b.walletId then
    throw ⟨.conflict, "Custody wallet ownership is ambiguous for walletId"⟩
  pure bindings

def assertGrantableApiKeyPermissions (actorPermissions : List Permission) (resolvedRole : ApiKeyRole)
    (requestedPermissions : Option (List Permission)) : Except AppError Unit := do
  if hasAnyPermission actorPermissions [.orgAdmin] then return
  let effectivePermissions := requestedPermissions.getD (getPermissionsForApiKeyRole resolvedRole)
  if !hasAllPermissions actorPermissions effectivePermissions then
    throw ⟨.insufficientPermissions, "Cannot grant an API key more permissions than you hold"⟩

/-! ## The requests -/

abbrev ApiKeyTable := Lib.Table String ApiKeyRow (·.id)

/-- `INSERT` of a key with the id of another one. -/
def keyCollision : AppError := ⟨.conflict, "Failed to create API key due to a key collision. Please retry."⟩

structure CreateBody where
  name : String
  description : Option String
  role : Option ApiKeyRole
  permissions : Option (List Permission)
  allowedIps : Option (List String)
  expiresAt : Option Nat
  wallets : WalletScopeInput

structure UpdateBody where
  name : Option String
  description : Option (Option String)
  allowedIps : Option (Option (List String))
  expiresAt : Option (Option Nat)
  permissions : Option (Option (List Permission))
  wallets : WalletScopeInput

/-- The id of the new key and the wallet that the custody service provisions are given from outside. -/
inductive KeyRequest
  | create (body : CreateBody) (newId : String) (provisioned : Except AppError String)
  | update (keyId : String) (body : UpdateBody)
  | rotate (keyId : String) (gracePeriodMs : Option Nat) (newId : String) (now : Nat)

section

variable (candidates : String → Nat)

/-- The signing wallet and the bindings of a new key. -/
def resolveCreateWallets (actor : ApiKeyContext) (wallets : WalletScopeInput) (provisioned : Except AppError String) :
    Except AppError (Option String × List ApiKeyWalletBinding) := do
  let walletSelection ← resolveCreateWalletScope wallets
  if wallets.provisionWallet then
    if !(.all ∈ actor.permissions || .custodyAdmin ∈ actor.permissions) then
      throw ⟨.insufficientPermissions, "Required permissions: custody:admin"⟩
    let walletId ← provisioned
    pure (some walletId, [⟨walletId, [.all]⟩])
  else
    let bindings ← resolveWalletBindingsInScope candidates walletSelection.bindings
    pure (walletSelection.defaultSigningWalletId, bindings)

/-- `replaceApiKeyWalletBindings` -/
def storedBindings (bindings : List ApiKeyWalletBinding) : List ApiKeyWalletBinding :=
  bindings.map fun b => ⟨b.walletId, normalizeApiKeyWalletPermissions b.permissions⟩

def createApiKey (actor : ApiKeyContext) (body : CreateBody) (newId : String)
    (provisioned : Except AppError String) : Except AppError ApiKeyRow := do
  let (signingWalletId, bindings) ← resolveCreateWallets candidates actor body.wallets provisioned
  let role := body.role.getD .apiDeveloper
  assertGrantableApiKeyPermissions actor.permissions role body.permissions
  pure
    { id := newId, name := body.name, description := body.description, role, permissions := body.permissions
      allowedIps := body.allowedIps, signingWalletId, status := .active, expiresAt := body.expiresAt
      rotatedFrom := none, rotationDeadline := none, walletPermissions := storedBindings bindings }

/-- The key after its `UPDATE`. -/
def UpdateBody.apply (body : UpdateBody) (patch : ParsedWalletBindingPatch) (key : ApiKeyRow) : ApiKeyRow :=
  { key with
    name := body.name.getD key.name
    description := body.description.getD key.description
    allowedIps := body.allowedIps.getD key.allowedIps
    expiresAt := body.expiresAt.getD key.expiresAt
    permissions := body.permissions.getD key.permissions
    signingWalletId := if patch.touched then patch.defaultSigningWalletId else key.signingWalletId
    walletPermissions := if patch.touched then storedBindings patch.bindings else key.walletPermissions }

def UpdateBody.isEmpty (body : UpdateBody) (patch : ParsedWalletBindingPatch) : Bool :=
  body.name.isNone && body.description.isNone && body.allowedIps.isNone && body.expiresAt.isNone &&
    body.permissions.isNone && !patch.touched

/-- The wallets of the body, resolved when it has any. -/
def resolveUpdateWallets (wallets : WalletScopeInput) : Except AppError ParsedWalletBindingPatch := do
  let walletSelection ← resolveUpdateWalletScope wallets
  if walletSelection.touched then
    let bindings ← resolveWalletBindingsInScope candidates walletSelection.bindings
    pure { walletSelection with bindings }
  else pure walletSelection

/-- Permissions that the body leaves out are not checked. -/
def UpdateBody.assertGrantable (body : UpdateBody) (actor : ApiKeyContext) (currentRole : ApiKeyRole) :
    Except AppError Unit :=
  match body.permissions with
  | none => pure ()
  | some permissions => assertGrantableApiKeyPermissions actor.permissions currentRole permissions

def updateApiKey (actor : ApiKeyContext) (existing : ApiKeyRow) (body : UpdateBody) : Except AppError ApiKeyRow := do
  let patch ← resolveUpdateWallets candidates body.wallets
  body.assertGrantable actor existing.role
  if body.isEmpty patch then throw (badRequest "No fields to update")
  pure (body.apply patch existing)

/-- The new key. Its expiry is not taken over. -/
def rotatedKey (existing : ApiKeyRow) (newId : String) : ApiKeyRow :=
  { existing with
    id := newId, status := .active, expiresAt := none, rotatedFrom := some existing.id, rotationDeadline := none }

def rotateApiKey (actor : ApiKeyContext) (existing : Option ApiKeyRow) (keyId newId : String) :
    Except AppError ApiKeyRow := do
  if keyId = actor.id then throw (badRequest "Cannot rotate the API key being used for this request")
  match existing with
  | some key =>
    if key.status = .active then pure (rotatedKey key newId) else throw ⟨.notFound, "API key"⟩
  | none => throw ⟨.notFound, "API key"⟩

/-- A day, when the body gives no grace period. -/
def deadlineOf (gracePeriodMs : Option Nat) (now : Nat) : Nat := now + gracePeriodMs.getD (24 * 60 * 60 * 1000)

def ApiKeyRow.retire (deadline : Nat) (key : ApiKeyRow) : ApiKeyRow := { key with rotationDeadline := some deadline }

theorem ApiKeyRow.id_retire (deadline : Nat) (key : ApiKeyRow) : (key.retire deadline).id = key.id := rfl

/-- `INSERT INTO api_keys` -/
def insertKey (keys : ApiKeyTable) (key : ApiKeyRow) : Except AppError ApiKeyTable := do
  if (keys.find? key.id).isSome then throw keyCollision
  pure (keys.insertNew key)

/-- The keys after a request that is made with the key `actorId`, and the key whose secret it discloses. -/
def handle (keys : ApiKeyTable) (actorId : String) (request : KeyRequest) :
    Except AppError (ApiKeyTable × Option ApiKeyRow) := do
  let some actorKey := keys.find? actorId | throw ⟨.unauthorized, "Authentication required"⟩
  let actor := actorKey.context candidates
  if !hasPermission actor.permissions .apiKeysWrite then
    throw ⟨.insufficientPermissions, "Required permissions: api-keys:write"⟩
  match request with
  | .create body newId provisioned =>
    let key ← createApiKey candidates actor body newId provisioned
    let keys ← insertKey keys key
    pure (keys, some key)
  | .update keyId body =>
    let some existing := keys.find? keyId | throw ⟨.notFound, "API key"⟩
    let key ← updateApiKey candidates actor existing body
    pure (keys.update keyId (fun _ => true) (fun row => { key with id := row.id }) fun _ => rfl, none)
  | .rotate keyId gracePeriodMs newId now =>
    let key ← rotateApiKey actor (keys.find? keyId) keyId newId
    let keys ← insertKey keys key
    pure (keys.update keyId (fun _ => true) (ApiKeyRow.retire (deadlineOf gracePeriodMs now)) (ApiKeyRow.id_retire _),
      some key)

end

end Sdp.ApiKeys
