import Sdp.Code.Amount
import Sdp.Lib.Run

/-!
# Deployments and edits of a token

`beginTokenDeploy`, `releaseTokenDeploy`, `setTokenDeployed` and `updateToken` from
`services/token.service.ts`, with the requests `deployToken`, `prepareDeploy` and `confirmDeploy` of
`routes/issuance/handlers/deploy.ts` and `updateToken` of `tokens.ts` as steps over one token and its
mints on chain. An address is a number. A wallet stands for the custody address that it resolves to.
`createTransaction` is one step: a call that loses the race between its lookup and its insert throws, as does
one whose key another operation uses.

Left out: the texts of the errors, name, description, uri and image of the token beyond their presence
in an edit, and the permanent delegate, which no guard reads.
-/

open Sdp.Amount

namespace Sdp.Deployments

inductive TokenStatus
  | pending | deploying | active | paused
deriving DecidableEq

/-- A row of `issued_tokens`. -/
structure Token where
  status : TokenStatus
  mintAddress : Option Nat
  mintAuthority : Option Nat
  metadataAuthority : Option Nat
  freezeAuthority : Option Nat
  /-- The list is a PDA of the authority and the mint. -/
  ablListAddress : Option (Nat × Nat)
  signingWalletId : Nat
  symbol : String
  decimals : Nat
  requiresAllowlist : Bool
  maxSupply : Option Nat
  totalSupplyCached : Nat
  isMintable : Bool
  isFreezable : Bool
  /-- `supportsBlocklistAccessControl(template)` -/
  supportsBlocklist : Bool
deriving DecidableEq

/-- A mint on chain. -/
structure MintAccount where
  address : Nat
  decimals : Nat
  mintAuthority : Nat
  freezeAuthority : Option Nat
  /-- How many edits of the decimals the read had seen that it was built from. -/
  edits : Nat
deriving DecidableEq

/-! ## Statements -/

def Token.isDraft (t : Token) : Bool := t.status = .pending && t.mintAddress = none

/-- `none` when the row is not claimable. -/
def beginTokenDeploy (t : Token) : Option Token :=
  if t.isDraft then some { t with status := .deploying } else none

def releaseTokenDeploy (t : Token) : Token :=
  if t.status = .deploying ∧ t.mintAddress = none then { t with status := .pending } else t

/-- The `UPDATE` has no condition but the id. -/
def setTokenDeployed (t : Token) (mintAddress mintAuthority : Nat) (freezeAuthority : Option Nat)
    (ablListAddress : Option (Nat × Nat)) : Token :=
  { t with
    mintAddress := some mintAddress
    mintAuthority := some mintAuthority
    metadataAuthority := some mintAuthority
    freezeAuthority
    ablListAddress
    status := .active }

def shouldEnableOnChainAcl (t : Token) : Bool := t.requiresAllowlist || t.supportsBlocklist

/-- `freezeAuthority` of the handlers -/
def Token.freezeAuthorityFor (t : Token) (wallet : Nat) : Option Nat := if t.isFreezable then some wallet else none

/-- The mint that `createToken` and `prepareCreateToken` build from a token. -/
def Token.mintAccount (t : Token) (address wallet edits : Nat) : MintAccount :=
  { address
    decimals := t.decimals
    mintAuthority := wallet
    freezeAuthority := t.freezeAuthorityFor wallet
    edits }

/-- What a deployment writes that was built from the token `t`. -/
def record (row t : Token) (mint : MintAccount) : Token :=
  setTokenDeployed row mint.address mint.mintAuthority mint.freezeAuthority
    (if shouldEnableOnChainAcl t ∧ mint.freezeAuthority ≠ none then some (mint.mintAuthority, mint.address) else none)

/-! ## Edits -/

inductive PatchStatus
  | active | paused
deriving DecidableEq

def PatchStatus.toStatus : PatchStatus → TokenStatus
  | .active => .active
  | .paused => .paused

/-- `updateTokenSchema` -/
structure UpdateTokenInput where
  /-- A name, a description, a uri or an image is given. -/
  metadata : Bool
  symbol : Option String
  decimals : Option Nat
  status : Option PatchStatus
  requiresAllowlist : Option Bool
  /-- `some none` clears the cap. -/
  maxSupply : Option (Option String)
deriving DecidableEq

namespace UpdateTokenInput

def requiresUndeployedGuard (i : UpdateTokenInput) : Bool :=
  i.symbol.isSome || i.decimals.isSome || i.requiresAllowlist.isSome

def requiresStableDeploymentGuard (i : UpdateTokenInput) : Bool := i.metadata || i.status.isSome

def isEmpty (i : UpdateTokenInput) : Bool :=
  !i.requiresUndeployedGuard && !i.requiresStableDeploymentGuard && i.maxSupply.isNone

/-- The checks of the handler on the token that it has read. -/
def admitted (i : UpdateTokenInput) (existing : Token) : Bool :=
  existing.status ≠ .deploying && (!i.requiresUndeployedGuard || existing.isDraft) &&
    (i.maxSupply.isNone || existing.mintAddress.isNone || (existing.isMintable && existing.mintAuthority.isSome))

end UpdateTokenInput

/-- The column value of the cap and the supply that it was compared with. `none` is a bad request. -/
def resolveMaxSupplyBaseUnits (maxSupply : Option String) (decimals : Option Nat) (existing : Token) :
    Option (Option Nat × Option Nat) :=
  match maxSupply with
  | none => some (none, none)
  | some text =>
    match parseDecimalAmount text (decimals.getD existing.decimals) with
    | .error _ => none
    | .ok baseUnits =>
      if existing.mintAddress = none then some (some baseUnits, none)
      else if baseUnits < existing.totalSupplyCached then none
      else some (some baseUnits, some existing.totalSupplyCached)

/-- The `UPDATE` of `updateToken`. -/
structure TokenWrite where
  input : UpdateTokenInput
  maxSupply : Option (Option Nat)
  requiresUnlockedSupplyGuard : Bool
  supplyAtCapCheck : Option Nat
  /-- `expectedDeploymentState` -/
  expectedStatus : TokenStatus
  expectedMintAddress : Option Nat
deriving DecidableEq

namespace TokenWrite

/-- The `WHERE` of it. -/
def applies (w : TokenWrite) (t : Token) : Bool :=
  (if w.input.requiresUndeployedGuard then t.isDraft
    else !w.input.requiresStableDeploymentGuard || t.status ≠ .deploying) &&
  (!w.requiresUnlockedSupplyGuard || (t.isMintable && t.mintAuthority.isSome)) &&
  (w.supplyAtCapCheck.all fun supply => t.totalSupplyCached = supply) &&
  t.status = w.expectedStatus && t.mintAddress = w.expectedMintAddress

def set (w : TokenWrite) (t : Token) : Token :=
  { t with
    symbol := w.input.symbol.getD t.symbol
    decimals := w.input.decimals.getD t.decimals
    status := (w.input.status.map PatchStatus.toStatus).getD t.status
    requiresAllowlist := w.input.requiresAllowlist.getD t.requiresAllowlist
    maxSupply := w.maxSupply.getD t.maxSupply }

end TokenWrite

/-! ## Requests -/

/-- Where a request stands. -/
inductive Request
  | idle
  | done
  /-- A deployment that returned success. -/
  | deployed
  /-- `deployToken` has read a draft. -/
  | deployChecked
  /-- It has a transaction of its own. -/
  | deployAdmitted
  /-- It has the claim; so many deployments were recorded then. -/
  | deployClaimed (records : Nat)
  | deployCreating (token : Token) (edits records : Nat)
  | deployCreated (mint : MintAccount) (token : Token) (records : Nat)
  /-- The creation threw. -/
  | deployAborted
  /-- `prepareDeploy` has read a draft. -/
  | prepareRead (token : Token) (edits : Nat)
  /-- The client has the transaction. -/
  | prepared (mint : MintAccount)
  /-- `confirmDeploy` has read a draft. -/
  | confirmRead (token : Token) (records : Nat)
  | confirmVerified (mint : MintAccount) (token : Token) (records : Nat)
  | updateRead (input : UpdateTokenInput) (status : TokenStatus) (mintAddress : Option Nat)
  | updateResolved (write : TokenWrite)
deriving DecidableEq

/-- How `createToken` ends. -/
inductive Creation
  | returned
  /-- It throws, but the mint is there or will be. -/
  | lost
  | failed
deriving DecidableEq

structure System where
  token : Token
  chain : Nat → Option MintAccount
  requests : Nat → Request
  /-- The fingerprints of the deploy transactions, by idempotency key. -/
  fingerprints : Nat → Option Nat
  /-- How many deployments are recorded. -/
  records : Nat
  /-- How many of these have returned success. -/
  returned : Nat
  /-- How many replays have. -/
  replays : Nat
  /-- How many edits of the decimals are written. -/
  edits : Nat

inductive Step
  | deployRead (n : Nat)
  /-- `createTransaction`, with the idempotency key and the fingerprint of the request if it has a key. -/
  | deployTransaction (n : Nat) (idempotency : Option (Nat × Nat))
  | deployClaim (n : Nat)
  | deploySnapshot (n : Nat)
  | deployCreate (n address wallet : Nat) (creation : Creation)
  /-- `setTokenDeployed`, with what the writes after it let the request return. -/
  | deployRecord (n : Nat) (returns : Bool)
  | deployRelease (n : Nat)
  | prepareRead (n : Nat)
  | prepareSend (n address wallet : Nat)
  | prepareLand (n : Nat)
  | confirmRead (n : Nat)
  | confirmVerify (n address : Nat)
  | confirmRecord (n : Nat) (returns : Bool)
  | updateRead (n : Nat) (input : UpdateTokenInput)
  | updateResolve (n : Nat)
  | updateWrite (n : Nat)
  /-- A pause or unpause has settled; only deployed tokens have these. -/
  | applySettledTokenStatus (status : PatchStatus)
  /-- Mints, burns and refreshes. -/
  | recount (supply : Nat)
  /-- The request throws or dies where it stands. -/
  | stop (n : Nat)
deriving DecidableEq

namespace System

def setRequest (s : System) (n : Nat) (r : Request) : System :=
  { s with requests := Function.update s.requests n r }

def create (s : System) (mint : MintAccount) : System :=
  { s with chain := Function.update s.chain mint.address (some mint) }

def deployRead (s : System) (n : Nat) : Option System :=
  match s.requests n with
  | .idle => some (s.setRequest n (if s.token.isDraft then .deployChecked else .done))
  | _ => none

/-- A replay returns success with the draft that it has read, whatever became of the first request. -/
def deployTransaction (s : System) (n : Nat) (idempotency : Option (Nat × Nat)) : Option System :=
  match s.requests n with
  | .deployChecked =>
    match idempotency with
    | none => some (s.setRequest n .deployAdmitted)
    | some (key, fingerprint) =>
      match s.fingerprints key with
      | none =>
        some ({ s with fingerprints := Function.update s.fingerprints key (some fingerprint) }.setRequest n
          .deployAdmitted)
      | some stored =>
        if stored = fingerprint then some ({ s with replays := s.replays + 1 }.setRequest n .deployed)
        else some (s.setRequest n .done)
  | _ => none

def deployClaim (s : System) (n : Nat) : Option System :=
  match s.requests n with
  | .deployAdmitted =>
    match beginTokenDeploy s.token with
    | some token => some ({ s with token }.setRequest n (.deployClaimed s.records))
    | none => some (s.setRequest n .done)
  | _ => none

def deploySnapshot (s : System) (n : Nat) : Option System :=
  match s.requests n with
  | .deployClaimed records => some (s.setRequest n (.deployCreating s.token s.edits records))
  | _ => none

/-- A deployment is recorded, by a request that returns success or does not. -/
def recorded (s : System) (token : Token) (mint : MintAccount) (returns : Bool) : System :=
  { s with
    token := record s.token token mint
    records := s.records + 1
    returned := if returns then s.returned + 1 else s.returned }

/-- The address is that of a new key pair. -/
def deployCreate (s : System) (n address wallet : Nat) (creation : Creation) : Option System :=
  match s.requests n with
  | .deployCreating token edits records =>
    let mint := token.mintAccount address wallet edits
    if s.chain address = none then
      match creation with
      | .returned => some ((s.create mint).setRequest n (.deployCreated mint token records))
      | .lost => some ((s.create mint).setRequest n .deployAborted)
      | .failed => some (s.setRequest n .deployAborted)
    else none
  | _ => none

def deployRecord (s : System) (n : Nat) (returns : Bool) : Option System :=
  match s.requests n with
  | .deployCreated mint token _ =>
    some ((s.recorded token mint returns).setRequest n (if returns then .deployed else .done))
  | _ => none

def deployRelease (s : System) (n : Nat) : Option System :=
  match s.requests n with
  | .deployAborted => some ({ s with token := releaseTokenDeploy s.token }.setRequest n .done)
  | _ => none

def prepareRead (s : System) (n : Nat) : Option System :=
  match s.requests n with
  | .idle => some (s.setRequest n (if s.token.isDraft then .prepareRead s.token s.edits else .done))
  | _ => none

/-- It pins the wallet with an edit that has no guard. -/
def prepareSend (s : System) (n address wallet : Nat) : Option System :=
  match s.requests n with
  | .prepareRead token edits =>
    some ({ s with token := { s.token with signingWalletId := wallet } }.setRequest n
      (.prepared (token.mintAccount address wallet edits)))
  | _ => none

def prepareLand (s : System) (n : Nat) : Option System :=
  match s.requests n with
  | .prepared mint => if s.chain mint.address = none then some ((s.create mint).setRequest n .done) else none
  | _ => none

def confirmRead (s : System) (n : Nat) : Option System :=
  match s.requests n with
  | .idle => some (s.setRequest n (if s.token.isDraft then .confirmRead s.token s.records else .done))
  | _ => none

/-- The transaction landed, it created the mint, and the mint has the authorities of the wallet. -/
def confirmVerify (s : System) (n address : Nat) : Option System :=
  match s.requests n with
  | .confirmRead token records =>
    match s.chain address with
    | some mint =>
      if mint.mintAuthority = token.signingWalletId ∧
          mint.freezeAuthority = token.freezeAuthorityFor token.signingWalletId then
        some (s.setRequest n (.confirmVerified mint token records))
      else some (s.setRequest n .done)
    | none => some (s.setRequest n .done)
  | _ => none

def confirmRecord (s : System) (n : Nat) (returns : Bool) : Option System :=
  match s.requests n with
  | .confirmVerified mint token _ =>
    some ((s.recorded token mint returns).setRequest n (if returns then .deployed else .done))
  | _ => none

def updateRead (s : System) (n : Nat) (input : UpdateTokenInput) : Option System :=
  match s.requests n with
  | .idle =>
    if input.admitted s.token then some (s.setRequest n (.updateRead input s.token.status s.token.mintAddress))
    else some (s.setRequest n .done)
  | _ => none

def updateResolve (s : System) (n : Nat) : Option System :=
  match s.requests n with
  | .updateRead input status mintAddress =>
    if input.isEmpty then some (s.setRequest n .done)
    else
      match input.maxSupply with
      | none => some (s.setRequest n (.updateResolved ⟨input, none, false, none, status, mintAddress⟩))
      | some maxSupply =>
        match resolveMaxSupplyBaseUnits maxSupply input.decimals s.token with
        | some (cap, supply) =>
          some (s.setRequest n
            (.updateResolved ⟨input, some cap, s.token.mintAddress.isSome, supply, status, mintAddress⟩))
        | none => some (s.setRequest n .done)
  | _ => none

def updateWrite (s : System) (n : Nat) : Option System :=
  match s.requests n with
  | .updateResolved write =>
    if write.applies s.token then
      some ({ s with
        token := write.set s.token
        edits := if write.input.decimals.isSome then s.edits + 1 else s.edits }.setRequest n .done)
    else some (s.setRequest n .done)
  | _ => none

def applySettledTokenStatus (s : System) (status : PatchStatus) : Option System :=
  if s.token.mintAddress.isSome then some { s with token := { s.token with status := status.toStatus } } else none

def step (s : System) : Step → Option System
  | .deployRead n => s.deployRead n
  | .deployTransaction n idempotency => s.deployTransaction n idempotency
  | .deployClaim n => s.deployClaim n
  | .deploySnapshot n => s.deploySnapshot n
  | .deployCreate n address wallet creation => s.deployCreate n address wallet creation
  | .deployRecord n returns => s.deployRecord n returns
  | .deployRelease n => s.deployRelease n
  | .prepareRead n => s.prepareRead n
  | .prepareSend n address wallet => s.prepareSend n address wallet
  | .prepareLand n => s.prepareLand n
  | .confirmRead n => s.confirmRead n
  | .confirmVerify n address => s.confirmVerify n address
  | .confirmRecord n returns => s.confirmRecord n returns
  | .updateRead n input => s.updateRead n input
  | .updateResolve n => s.updateResolve n
  | .updateWrite n => s.updateWrite n
  | .applySettledTokenStatus status => s.applySettledTokenStatus status
  | .recount supply => some { s with token := { s.token with totalSupplyCached := supply } }
  | .stop n => if s.requests n = .deployed then none else some (s.setRequest n .done)

/-- `createToken`: a draft that nobody works on. -/
structure Initial (s : System) : Prop where
  draft : s.token.isDraft = true
  chain : ∀ address, s.chain address = none
  requests : ∀ n, s.requests n = .idle
  fingerprints : ∀ key, s.fingerprints key = none
  records : s.records = 0
  returned : s.returned = 0
  replays : s.replays = 0
  edits : s.edits = 0

end System

end Sdp.Deployments
