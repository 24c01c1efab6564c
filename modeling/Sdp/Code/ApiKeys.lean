import Sdp.Lib.Table
import Sdp.Code.Amount

/-!
# API keys

From `packages/sdp-types/src/permissions.ts`, `services/api-key-wallets.service.ts` and
`services/api-key-scope.service.ts`: a key with its wallet permissions, and what a request that is
made with it may use. `candidates` says how many active custody wallets of the project have a wallet id.
-/

namespace Sdp.ApiKeys

/-! ## Permissions -/

inductive Permission
  | tokensRead | tokensWrite | tokensAdmin
  | paymentsRead | paymentsWrite
  | earnRead | earnWrite
  | counterpartiesRead | counterpartiesWrite
  | walletsRead | walletsWrite
  | complianceRead | complianceWrite
  | webhooksRead | webhooksWrite
  | transactionsRead | transactionsWrite
  | auditRead
  | orgRead | orgWrite | orgAdmin
  | apiKeysRead | apiKeysWrite
  | projectsRead | projectsWrite | projectsAdmin
  | projectMembersRead | projectMembersWrite
  | sessionsRead | sessionsWrite
  | custodyRead | custodyWrite | custodyAdmin
  /-- `*` -/
  | all
deriving DecidableEq, Repr

inductive ApiKeyRole
  | apiAdmin | apiDeveloper | apiReadonly
deriving DecidableEq, Repr

def getPermissionsForApiKeyRole : ApiKeyRole → List Permission
  | .apiAdmin => [.all]
  | .apiDeveloper =>
    [.tokensRead, .tokensWrite, .paymentsRead, .paymentsWrite, .earnRead, .earnWrite, .counterpartiesRead,
      .counterpartiesWrite, .walletsRead, .walletsWrite, .complianceRead, .webhooksRead, .webhooksWrite]
  | .apiReadonly =>
    [.tokensRead, .paymentsRead, .earnRead, .counterpartiesRead, .walletsRead, .complianceRead, .webhooksRead,
      .auditRead]

def hasPermission (userPermissions : List Permission) (required : Permission) : Bool :=
  .all ∈ userPermissions || required ∈ userPermissions

def hasAnyPermission (userPermissions required : List Permission) : Bool :=
  .all ∈ userPermissions || required.any (· ∈ userPermissions)

def hasAllPermissions (userPermissions required : List Permission) : Bool :=
  .all ∈ userPermissions || required.all (· ∈ userPermissions)

/-! ## Errors -/

inductive AppErrorCode
  | badRequest | unauthorized | forbidden | insufficientPermissions | notFound | conflict | internalError
deriving DecidableEq, Repr

structure AppError where
  code : AppErrorCode
  message : String
deriving DecidableEq

def badRequest (message : String) : AppError := ⟨.badRequest, message⟩

/-! ## Keys and their wallets -/

inductive ApiKeyStatus
  | active | revoked | expired | deactivated
deriving DecidableEq, Repr

inductive ApiKeyWalletScope
  | all | selected
deriving DecidableEq, Repr

structure ApiKeyWalletBinding where
  walletId : String
  permissions : List Permission
deriving DecidableEq

/-- A row of `api_keys` and its rows of `api_key_wallet_permissions`. -/
structure ApiKeyRow where
  id : String
  name : String
  description : Option String
  role : ApiKeyRole
  permissions : Option (List Permission)
  allowedIps : Option (List String)
  signingWalletId : Option String
  status : ApiKeyStatus
  expiresAt : Option Nat
  rotatedFrom : Option String
  rotationDeadline : Option Nat
  walletPermissions : List ApiKeyWalletBinding
deriving DecidableEq

def normalizeApiKeyWalletPermissions (permissions : List Permission) : List Permission :=
  if permissions = [] then [.all]
  else if .all ∈ permissions then [.all]
  else permissions.eraseDups

/-- What a request carries of the key that it is made with. -/
structure ApiKeyContext where
  id : String
  permissions : List Permission
  walletScope : ApiKeyWalletScope
  walletBindings : List ApiKeyWalletBinding

section

variable (candidates : String → Nat)

/-- A key from before the bindings has its signing wallet alone. -/
def ApiKeyRow.permissionRows (key : ApiKeyRow) : List ApiKeyWalletBinding :=
  if key.walletPermissions = [] then key.signingWalletId.toList.map (⟨·, [.all]⟩) else key.walletPermissions

def ApiKeyRow.walletScope (key : ApiKeyRow) : ApiKeyWalletScope :=
  if key.permissionRows ≠ [] ∨ key.signingWalletId.isSome then .selected else .all

/-- `loadApiKeyWalletAuthorization`: a binding without exactly one custody wallet is dropped. -/
def ApiKeyRow.walletBindings (key : ApiKeyRow) : List ApiKeyWalletBinding :=
  (key.permissionRows.filter fun b => candidates b.walletId = 1).map fun b =>
    ⟨b.walletId, normalizeApiKeyWalletPermissions b.permissions⟩

def ApiKeyRow.effectivePermissions (key : ApiKeyRow) : List Permission :=
  key.permissions.getD (getPermissionsForApiKeyRole key.role)

def ApiKeyRow.context (key : ApiKeyRow) : ApiKeyContext :=
  ⟨key.id, key.effectivePermissions, key.walletScope, key.walletBindings candidates⟩

end

def hasBindingPermission (binding : ApiKeyWalletBinding) (requiredPermissions : List Permission) : Bool :=
  requiredPermissions = [] || .all ∈ binding.permissions || requiredPermissions.all (· ∈ binding.permissions)

/-- Its second error also lists the permissions. `normalizeBindings` changes nothing: no binding is empty. -/
def assertApiKeyWalletAccess (auth : ApiKeyContext) (walletId : String) (requiredPermissions : List Permission) :
    Except AppError Unit :=
  match auth.walletScope with
  | .all => pure ()
  | .selected =>
    match auth.walletBindings.find? (·.walletId = walletId) with
    | none => throw ⟨.forbidden, "API key is not authorized for the requested wallet"⟩
    | some binding =>
      if hasBindingPermission binding requiredPermissions then pure ()
      else throw ⟨.forbidden, "API key does not include required wallet permissions"⟩

/-- The request may use the permission on the wallet. -/
def ApiKeyContext.mayUse (auth : ApiKeyContext) (permission : Permission) (walletId : String) : Bool :=
  hasPermission auth.permissions permission && (assertApiKeyWalletAccess auth walletId [permission]).isOk

end Sdp.ApiKeys
