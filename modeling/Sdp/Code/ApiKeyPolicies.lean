import Mathlib.Data.Prod.Lex
import Sdp.Code.ApiKeyRequests
import Sdp.Code.PolicyEvaluate

/-!
# Policies of API keys

From `services/policy/api-key-policy.store.ts`, `services/policy/wallet-policy.store.ts` and
`db/repositories/policy.repository.postgres.ts`: the control profiles of one key with their revisions
and wallet bindings, what writes them, and the policy that an operation resolves. The scope of a
request is the project of the key, so the checks of the tenant are left out, as are the columns for
display only.
-/

namespace Sdp.KeyRotation

open ApiKeys Policy

/-! ## Rows -/

inductive ControlProfileStatus
  | draft | active | disabled | archived
deriving DecidableEq, Repr

/-- A row of `api_key_control_profiles`. -/
structure ControlProfileRow where
  id : String
  projectId : Option String
  name : String
  status : ControlProfileStatus
  activeRevisionId : Option String
  createdAt : Nat
  activatedAt : Option Nat
  archivedAt : Option Nat
deriving DecidableEq

/-- A row of `api_key_control_profile_revisions`. -/
structure RevisionRow where
  id : String
  profileId : String
  revisionNumber : Nat
  rules : List PolicyRule
  defaultAction : PolicyDefaultAction
deriving DecidableEq

/-- `binding_scope`, `wallet_id` and `custody_wallet_id` -/
inductive BindingTarget
  | all
  | selected (walletId custodyWalletId : String)
deriving DecidableEq

/-- A row of `api_key_wallet_policy_bindings`. -/
structure PolicyBindingRow where
  target : BindingTarget
  walletControlProfileId : Option String
  apiKeyControlProfileId : Option String
deriving DecidableEq

/-- Everything that is stored for one key. -/
structure KeyRows where
  key : ApiKeyRow
  profiles : List ControlProfileRow
  revisions : List RevisionRow
  bindings : List PolicyBindingRow
deriving DecidableEq

/-- An active wallet of the project or of its organization. -/
structure CustodyWallet where
  walletId : String
  projectId : Option String

/-- An active wallet profile with its active revision. -/
structure WalletControlProfile where
  id : String
  custodyWalletId : String
  projectId : Option String
  revision : PolicyRevision
  defaultAction : PolicyDefaultAction

/-- The wallets and wallet profiles as they are when a policy is resolved. -/
structure Custody where
  tenantOwnsWallet : String → Bool
  wallets : String → Option CustodyWallet
  candidates : String → Nat
  walletProfiles : String → Option WalletControlProfile

/-! ## The policy of a key -/

def forbidden (message : String) : AppError := ⟨.forbidden, message⟩

def KeyRows.profile? (k : KeyRows) (id : String) : Option ControlProfileRow := k.profiles.find? (·.id = id)

def KeyRows.revision? (k : KeyRows) (id : String) : Option RevisionRow := k.revisions.find? (·.id = id)

def KeyRows.activeRevision? (k : KeyRows) (profile : ControlProfileRow) : Option RevisionRow :=
  profile.activeRevisionId.bind k.revision?

def customerPolicy (profile : ControlProfileRow) (revision : RevisionRow) : EffectivePolicy where
  source := .customerProfile
  profileId := some profile.id
  revision := some ⟨revision.id, revision.rules⟩
  defaultAction := revision.defaultAction
  implicitAllow := nofun

section

variable (projectId : String)

/-- The profiles that `getActiveApiKeyControlProfileByApiKeyId` selects from. -/
def KeyRows.activeProfiles (k : KeyRows) : List ControlProfileRow :=
  k.profiles.filter fun p => (p.projectId = some projectId ∨ p.projectId = none) ∧ p.status = .active

/-- The profile of the project first, then the last activation; a profile without one is last. -/
def ControlProfileRow.activation (profile : ControlProfileRow) : ℕ ×ₗ ℕ :=
  toLex (if profile.projectId = some projectId then 1 else 0, (profile.activatedAt.map (· + 1)).getD 0)

/-- The first rows by activation, whatever their times of creation. -/
def KeyRows.firstActivated (k : KeyRows) : List ControlProfileRow :=
  (k.activeProfiles projectId).filter fun p =>
    (k.activeProfiles projectId).all fun q => q.activation projectId ≤ p.activation projectId

/-- `ORDER BY … created_at DESC`: the rows that `LIMIT 1` may return. -/
def KeyRows.defaultProfiles (k : KeyRows) : List ControlProfileRow :=
  (k.activeProfiles projectId).filter fun p => (k.activeProfiles projectId).all fun q =>
    toLex (q.activation projectId, q.createdAt) ≤ toLex (p.activation projectId, p.createdAt)

/-- The policies that it may return: more than one when rows are equal in the order of the query. -/
def KeyRows.resolveEffectiveApiKeyPolicy (k : KeyRows) : List EffectivePolicy :=
  if k.activeProfiles projectId = [] then [implicitDefaultAllowPolicy]
  else (k.defaultProfiles projectId).map fun p =>
    match k.activeRevision? p with
    | none => implicitDefaultAllowPolicy
    | some revision => customerPolicy p revision

def KeyRows.resolveApiKeyPolicyProfileForBinding (k : KeyRows) (profileId : String) :
    Except AppError EffectivePolicy :=
  match (k.profile? profileId).filter (·.status = .active) with
  | none => throw (forbidden "API key policy profile is not active for the requested wallet binding")
  | some profile =>
    match k.activeRevision? profile with
    | none => throw (forbidden "API key policy profile is not active for the requested wallet binding")
    | some revision =>
      if profile.projectId ≠ none ∧ profile.projectId ≠ some projectId then
        throw (forbidden "API key policy profile is not scoped to the requested API key")
      else pure (customerPolicy profile revision)

/-! ## The policy of an operation -/

structure PolicyTarget where
  walletId : String
  custodyWalletId : String
  walletProjectId : Option String
  endpointBindingCount : Nat
  endpointWalletBinding : Bool

/-- A key without wallet permissions counts its signing wallet. -/
def KeyRows.getApiKeyWalletPolicyTarget (k : KeyRows) (custody : Custody) (custodyWalletId : String) :
    Option PolicyTarget :=
  if custody.tenantOwnsWallet custodyWalletId ∧ k.key.status = .active then
    (custody.wallets custodyWalletId).map fun wallet =>
      { walletId := wallet.walletId, custodyWalletId, walletProjectId := wallet.projectId
        endpointBindingCount := k.key.permissionRows.length
        endpointWalletBinding :=
          custody.candidates wallet.walletId = 1 ∧ k.key.permissionRows.any (·.walletId = wallet.walletId) }
  else none

def KeyRows.assertApiKeyWalletPolicyTarget (k : KeyRows) (custody : Custody) (custodyWalletId : String) :
    Except AppError PolicyTarget := do
  let some target := k.getApiKeyWalletPolicyTarget custody custodyWalletId
    | throw (forbidden "API key is not authorized for the requested wallet")
  if target.walletProjectId ≠ none ∧ target.walletProjectId ≠ some projectId then
    throw (forbidden "Project API keys cannot use wallets from other projects")
  if 0 < target.endpointBindingCount ∧ !target.endpointWalletBinding then
    throw (forbidden "API key is not authorized for the requested wallet")
  pure target

def resolveWalletPolicyProfileForBinding (custody : Custody) (profileId : String) (target : PolicyTarget) :
    Except AppError EffectivePolicy :=
  match custody.walletProfiles profileId with
  | none => throw (forbidden "Wallet policy profile is not active for the requested wallet binding")
  | some profile =>
    if profile.custodyWalletId ≠ target.custodyWalletId ∨
        (profile.projectId ≠ none ∧ profile.projectId ≠ target.walletProjectId) then
      throw (forbidden "Wallet policy profile is not scoped to the requested wallet")
    else
      pure
        { source := .customerProfile, profileId := some profile.id, revision := some profile.revision
          defaultAction := profile.defaultAction, implicitAllow := nofun }

def BindingTarget.appliesTo (custodyWalletId : String) : BindingTarget → Bool
  | .all => false
  | .selected _ id => id = custodyWalletId

/-- The unique indexes leave one binding for all wallets and one for each custody wallet. -/
def KeyRows.applicableBinding (k : KeyRows) (custodyWalletId : String) : Option PolicyBindingRow :=
  (k.bindings.find? (·.target.appliesTo custodyWalletId)).or (k.bindings.find? (·.target = .all))

structure ApiKeyOperationScope where
  apiKeyPolicy : EffectivePolicy
  walletPolicy : Option EffectivePolicy
  custodyWalletId : Option String

/-- The API-key policies that a binding may give. -/
def KeyRows.bindingPolicies (k : KeyRows) (binding : PolicyBindingRow) : List (Except AppError EffectivePolicy) :=
  match binding.apiKeyControlProfileId with
  | some profileId => [k.resolveApiKeyPolicyProfileForBinding projectId profileId]
  | none => (k.resolveEffectiveApiKeyPolicy projectId).map .ok

/-- The wallet policy of a binding and the wallet that it is for. -/
def KeyRows.bindingWalletPolicy (k : KeyRows) (custody : Custody) (binding : PolicyBindingRow)
    (custodyWalletId : String) : Except AppError (Option EffectivePolicy × String) := do
  let target ← k.assertApiKeyWalletPolicyTarget projectId custody custodyWalletId
  if binding.target ≠ .all ∧ !binding.target.appliesTo target.custodyWalletId then
    throw (forbidden "API key policy binding does not match the requested custody wallet")
  match binding.walletControlProfileId with
  | none => pure (none, target.custodyWalletId)
  | some profileId =>
    let policy ← resolveWalletPolicyProfileForBinding custody profileId target
    pure (some policy, target.custodyWalletId)

/-- `resolveApiKeyWalletPolicyScopeForTarget`: the wallet policy is resolved first. -/
def bindingScope (wallet : Except AppError (Option EffectivePolicy × String))
    (apiKeyPolicy : Except AppError EffectivePolicy) : Except AppError ApiKeyOperationScope := do
  let (walletPolicy, custodyWalletId) ← wallet
  let apiKeyPolicy ← apiKeyPolicy
  pure ⟨apiKeyPolicy, walletPolicy, some custodyWalletId⟩

/-- What `resolveOperationScope` may return. -/
def KeyRows.resolveOperationScope (k : KeyRows) (custody : Custody) (custodyWalletId : String) :
    List (Except AppError ApiKeyOperationScope) :=
  if !custody.tenantOwnsWallet custodyWalletId ∨ k.bindings = [] then
    (k.resolveEffectiveApiKeyPolicy projectId).map fun policy => .ok ⟨policy, none, none⟩
  else
    match k.applicableBinding custodyWalletId with
    | none => [throw (forbidden "API key policy binding is not configured for the requested wallet")]
    | some binding =>
      (k.bindingPolicies projectId binding).map
        (bindingScope (k.bindingWalletPolicy projectId custody binding custodyWalletId))

/-! ## Writes -/

/-- `validateApiKeyWalletPolicyBinding` -/
def KeyRows.validateBinding (k : KeyRows) (custody : Custody) (input : PolicyBindingRow) : Except AppError Unit := do
  if input.apiKeyControlProfileId = none ∧ input.walletControlProfileId = none then
    throw (badRequest "Policy bindings must reference at least one control profile")
  match input.target with
  | .selected _ custodyWalletId =>
    let target ← k.assertApiKeyWalletPolicyTarget projectId custody custodyWalletId
    if let some profileId := input.apiKeyControlProfileId then
      let _ ← k.resolveApiKeyPolicyProfileForBinding projectId profileId
    if let some profileId := input.walletControlProfileId then
      let _ ← resolveWalletPolicyProfileForBinding custody profileId target
    pure ()
  | .all =>
    if k.key.status ≠ .active then throw (forbidden "API key is not active for policy binding")
    if input.walletControlProfileId ≠ none then
      throw (badRequest "walletControlProfileId cannot be used with all-wallet policy bindings")
    if let some profileId := input.apiKeyControlProfileId then
      let _ ← k.resolveApiKeyPolicyProfileForBinding projectId profileId
    pure ()

/-- Two rows with the same entry of a unique index. -/
def BindingTarget.conflicts : BindingTarget → BindingTarget → Bool
  | .all, .all => true
  | .selected _ id, .selected _ id' => id = id'
  | _, _ => false

/-- `INSERT … ON CONFLICT … DO UPDATE` -/
def upsertPolicyBinding (bindings : List PolicyBindingRow) (input : PolicyBindingRow) : List PolicyBindingRow :=
  bindings.filter (fun b => !b.target.conflicts input.target) ++ [input]

/-- A request that writes the key. The ids that it draws are new ones. -/
inductive KeyWrite
  | update (actor : ApiKeyContext) (body : UpdateBody)
  /-- Another rotation of the key. -/
  | retire (deadline : Nat)
  | createProfile (id name : String) (now : Nat)
  | createRevision (id profileId : String) (rules : List PolicyRule) (defaultAction : PolicyDefaultAction)
  | activateRevision (profileId revisionId : String) (now : Nat)
  /-- `kept` are the bindings that the `DELETE` of a replacement does not find, all of them when one
  binding is upserted. -/
  | writeBindings (custody : Custody) (kept : List BindingTarget) (inputs : List PolicyBindingRow)

variable (candidates : String → Nat)

def ControlProfileRow.activate (revisionId : String) (now : Nat) (profile : ControlProfileRow) : ControlProfileRow :=
  { profile with
    status := .active, activeRevisionId := some revisionId, activatedAt := some (profile.activatedAt.getD now) }

/-- `assertScopedApiKeyControlProfile` -/
def KeyRows.scopedProfile? (k : KeyRows) (profileId : String) : Option ControlProfileRow :=
  (k.profile? profileId).filter fun p => p.projectId = some projectId ∧ p.status ≠ .archived

/-- `none` when the request fails; it then writes nothing. -/
def KeyWrite.apply (k : KeyRows) : KeyWrite → Option KeyRows
  | .update actor body => (updateApiKey candidates actor k.key body).toOption.map fun key => { k with key }
  | .retire deadline => some { k with key := k.key.retire deadline }
  | .createProfile id name now =>
    if k.key.status = .active ∧ (k.profile? id).isNone then
      let profile :=
        { id, projectId := some projectId, name, status := .draft, activeRevisionId := none, createdAt := now
          activatedAt := none, archivedAt := none }
      some { k with profiles := k.profiles ++ [profile] }
    else none
  | .createRevision id profileId rules defaultAction =>
    if k.key.status = .active ∧ (k.scopedProfile? projectId profileId).isSome ∧ (k.revision? id).isNone then
      let numbers := (k.revisions.filter (·.profileId = profileId)).map (·.revisionNumber)
      let revision := { id, profileId, revisionNumber := numbers.foldl max 0 + 1, rules, defaultAction }
      some { k with revisions := k.revisions ++ [revision] }
    else none
  | .activateRevision profileId revisionId now =>
    if k.key.status = .active ∧ (k.scopedProfile? projectId profileId).isSome ∧
        (k.revision? revisionId).any (·.profileId = profileId) then
      let profiles := k.profiles.map fun p => if p.id = profileId then p.activate revisionId now else p
      some { k with profiles }
    else none
  | .writeBindings custody kept inputs =>
    if k.key.status = .active ∧ inputs.Pairwise (fun a b => !a.target.conflicts b.target) ∧
        ∀ input ∈ inputs, (k.validateBinding projectId custody input).isOk then
      let bindings := inputs.foldl upsertPolicyBinding (k.bindings.filter (·.target ∈ kept))
      some { k with bindings }
    else none

end

end Sdp.KeyRotation
