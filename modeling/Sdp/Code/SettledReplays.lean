import Sdp.Code.IssuanceExecution
import Sdp.Code.TokenDeployments

/-!
# Settled issuance operations and their replays

`persistSettledTransactionWithDurability`, `persistSettledTransactionThenOutcome` and
`recoverSettledTransactionReplay` of `routes/issuance/handlers/settled-transaction.ts` (for a mint
`recoverSettledMintReplay` of `mint.ts`), with the parts of the handlers `executeMint`, `executeBurn`,
`executeForceBurn`, `freezeAccount`, `unfreezeAccount`, `pauseToken` and `unpauseToken` that follow an effect
on chain and that answer a replay of the key. How each write ends is data of the attempt. The row and its
account stand for what `applySettledBurnSupply`, `applySettledTokenStatus` and
`applySettledAccountFreezeState` of `services/token.service.ts` read.
-/

open Sdp.Issuance (TransactionStatus RowWrite)
open Sdp.Deployments (TokenStatus)

namespace Sdp.Replays

inductive Operation
  | mint | burn | forceBurn | freeze | unfreeze | pause | unpause
deriving DecidableEq

/-- `Number.MAX_SAFE_INTEGER` -/
def maxSafeInteger : Nat := 9007199254740991

/-- Evidence of a transaction that has landed. Only a mint has a token account. -/
structure Receipt (op : Operation) where
  signature : String
  slot : Nat
  tokenAccount : Option String
  signature_ne : signature ≠ ""
  slot_le : slot ≤ maxSafeInteger
  tokenAccount_mint : if op = .mint then tokenAccount.any (· ≠ "") = true else tokenAccount = none
deriving DecidableEq

/-- A row of `issuance_transactions`. -/
structure Row where
  status : TransactionStatus
  signature : Option String
  slot : Option Nat
  /-- `tokenAccount` of `operation_params` -/
  tokenAccount : Option String
  /-- The marker of the supply or lifecycle bookkeeping. -/
  bookkeepingApplied : Bool
deriving DecidableEq

structure Token where
  status : TokenStatus
  /-- `mintAddress` is set. -/
  deployed : Bool
  isMintable : Bool
  isFreezable : Bool
  totalSupply : Nat
  maxSupply : Option Nat
  requiresAllowlist : Bool
  /-- `supportsBlocklistAccessControl(template)` -/
  supportsBlocklist : Bool
  /-- `ablListAddress` is set. -/
  hasAblList : Bool
deriving DecidableEq

/-- The account of a freeze or an unfreeze. -/
structure Account where
  /-- It has a row in `frozen_accounts`. -/
  row : Bool
  /-- A newer freeze or unfreeze of it is confirmed. -/
  newer : Bool
deriving DecidableEq

structure World (op : Operation) where
  token : Token
  account : Account
  transaction : Row
  /-- The successful outcome in the audit log. -/
  outcome : Option (Receipt op)
  /-- How often the bookkeeping was applied. For a mint it is the reservation. -/
  applied : Nat
  /-- How many transactions were sent to the chain. -/
  submitted : Nat

variable {op : Operation}

/-! ## Evidence -/

/-- `parseSettledTransactionEvidence`, or `parseSettledMintEvidence` for a mint -/
def parseEvidence (op : Operation) (signature : Option String) (slot : Option Nat) (tokenAccount : Option String) :
    Option (Receipt op) :=
  match signature, slot with
  | some signature, some slot =>
    if h : signature ≠ "" ∧ slot ≤ maxSafeInteger then
      if hmint : op = .mint then
        if haccount : tokenAccount.any (· ≠ "") = true then
          some ⟨signature, slot, tokenAccount, h.1, h.2, by rw [if_pos hmint]; exact haccount⟩
        else none
      else some ⟨signature, slot, none, h.1, h.2, by rw [if_neg hmint]⟩
    else none
  | _, _ => none

/-- The narrower write. -/
def Row.journal (row : Row) (receipt : Receipt op) : Row :=
  { row with
    signature := some receipt.signature
    slot := some receipt.slot
    tokenAccount := receipt.tokenAccount.or row.tokenAccount }

def Row.settle (row : Row) (receipt : Receipt op) : Row := { row.journal receipt with status := .confirmed }

/-- How the storage behaves during an attempt. A slot that the column cannot hold is a write that is lost. -/
structure Storage where
  reads : Bool
  /-- The update of the row to `confirmed`. -/
  settle : RowWrite
  /-- The narrower write, after the update has thrown. -/
  evidence : RowWrite
  /-- `completeCritical` -/
  outcome : Bool
  bookkeeping : Bool
deriving DecidableEq

def Storage.works : Storage := ⟨true, .done, .done, true, true⟩

/-- The row, and whether it is known to hold the evidence. The caller gets the transaction as confirmed anyway. -/
def persistSettledTransactionWithDurability (row : Row) (receipt : Receipt op) (storage : Storage) : Row × Bool :=
  match storage.settle with
  | .done => (row.settle receipt, true)
  | .rowOnly =>
    (if storage.evidence.changesRow then (row.settle receipt).journal receipt else row.settle receipt,
      storage.evidence = .done)
  | .lost => (if storage.evidence.changesRow then row.journal receipt else row, storage.evidence = .done)

/-! ## Bookkeeping -/

/-- `promoteJournaledLifecycleTransaction` -/
def promote (row : Row) : Option Row :=
  match row.status with
  | .confirmed => if row.slot.isSome then some row else none
  | .pending =>
    if row.signature.any (· ≠ "") && row.slot.isSome then some { row with status := .confirmed } else none
  | .processing | .finalized | .failed => none

namespace World

def mark (w : World op) (row : Row) : World op :=
  { w with transaction := { row with bookkeepingApplied := true }, applied := w.applied + 1 }

/-- `none` is a throw, and then nothing is written. -/
def applySettledBurnSupply (w : World op) : Option (World op) :=
  if w.transaction.bookkeepingApplied then some w else some (w.mark w.transaction)

def applySettledTokenStatus (w : World op) : Option (World op) :=
  if w.transaction.bookkeepingApplied then
    if w.transaction.status = .confirmed then some w else none
  else (promote w.transaction).map w.mark

def applySettledAccountFreezeState (w : World op) (frozen : Bool) : Option (World op) :=
  if w.transaction.bookkeepingApplied then
    if w.transaction.status = .confirmed ∧ w.account.row = true then some w else none
  else
    match promote w.transaction with
    | none => none
    | some row =>
      if frozen && !w.account.newer then some { w.mark row with account := { w.account with row := true } }
      else if w.account.row then some (w.mark row) else none

/-- What a handler does once its transaction is confirmed. A mint was counted before it was sent. -/
def bookkeep (w : World op) (storage : Storage) : Option (World op) :=
  if op = .mint then some w
  else if storage.bookkeeping then
    match op with
    | .mint => some w
    | .burn | .forceBurn => w.applySettledBurnSupply
    | .pause | .unpause => w.applySettledTokenStatus
    | .freeze => w.applySettledAccountFreezeState true
    | .unfreeze => w.applySettledAccountFreezeState false
  else none

end World

/-! ## The first attempt -/

inductive Response
  | transaction (status : TransactionStatus) (signature : Option String) (slot : Option Nat)
  | error
deriving DecidableEq

/-- The transaction as confirmed with a receipt. -/
def confirmedWith (receipt : Receipt op) : Response :=
  .transaction .confirmed (some receipt.signature) (some receipt.slot)

/-- When the effect has just landed: a mint was counted, and an account that is unfrozen had a row. -/
def landed (op : Operation) (amount : Nat) (token : Token) (account : Account) : World op :=
  { token := if op = .mint then { token with totalSupply := token.totalSupply + amount } else token
    account := if op = .unfreeze then { account with row := true } else account
    transaction := ⟨.pending, none, none, none, false⟩
    outcome := none
    applied := if op = .mint then 1 else 0
    submitted := 1 }

/-- The row and the outcome, as far as they are written. -/
def World.persisted (w : World op) (receipt : Receipt op) (storage : Storage) : World op :=
  { w with
    transaction := (persistSettledTransactionWithDurability w.transaction receipt storage).1
    outcome := if storage.outcome then some receipt else w.outcome }

/-- `persistSettledTransactionThenOutcome` and the bookkeeping. -/
def complete (w : World op) (receipt : Receipt op) (storage : Storage) : Response × World op :=
  if (persistSettledTransactionWithDurability w.transaction receipt storage).2 || storage.outcome then
    match (w.persisted receipt storage).bookkeep storage with
    | some w' => (confirmedWith receipt, w')
    | none => (.error, w.persisted receipt storage)
  else (.error, w.persisted receipt storage)

/-! ## What a handler checks before it looks the key up -/

inductive ErrorCode
  | tokenPaused | tokenNotActive | tokenNotDeployed | tokenNotMintable | maxSupplyExceeded | notOnTokenAllowlist
  | onTokenBlocklist | destinationRevoked
  /-- No authority, a token that cannot be frozen, no wallet or signer, a denied policy, no account to freeze. -/
  | refused
deriving DecidableEq

/-- What the handler reads outside the token. -/
structure Reads where
  /-- The signing wallet is resolved and its signer controls the authority. -/
  signer : Bool
  /-- The policy gate lets a mint through. -/
  policy : Bool
  /-- The freeze, pause or delegate authority is known. -/
  authority : Bool
  /-- `resolveFreezeTarget` -/
  target : Bool
  /-- `isAddressAllowed` of the destination -/
  onControlList : Bool
  /-- The entry of the destination is revoked. -/
  revoked : Bool
  /-- `isWalletOnList` of the destination -/
  onChainList : Bool
  /-- `addToList` succeeds, or the destination is on the list after it. -/
  addToList : Bool
deriving DecidableEq

def check (ok : Bool) (code : ErrorCode) : Except ErrorCode Unit := if ok then .ok () else .error code

def require (ok : Bool) : Except ErrorCode Unit := check ok .refused

def assertTokenAllowsOperation (token : Token) : Except ErrorCode Unit :=
  match token.status with
  | .paused => .error .tokenPaused
  | .active => .ok ()
  | .pending | .deploying => .error .tokenNotActive

def assertTokenIsDeployed (token : Token) : Except ErrorCode Unit :=
  check token.deployed .tokenNotDeployed

/-- The cap counts the supply as it is cached now. -/
def resolveMintOperationAmount (token : Token) (amount : Nat) : Except ErrorCode Unit := do
  assertTokenAllowsOperation token
  assertTokenIsDeployed token
  check token.isMintable .tokenNotMintable
  check (token.maxSupply.all (token.totalSupply + amount ≤ ·)) .maxSupplyExceeded

def assertDestinationAllowedByControlList (token : Token) (isOnControlList : Bool) : Except ErrorCode Unit :=
  if token.requiresAllowlist then check isOnControlList .notOnTokenAllowlist
  else check (!(token.supportsBlocklist && isOnControlList)) .onTokenBlocklist

/-- `getOnChainAllowlistMutationForMint` is not null. -/
def mutatesOnChainAllowlist (token : Token) : Bool := token.requiresAllowlist && token.hasAblList

def assertControlList (token : Token) (reads : Reads) : Except ErrorCode Unit :=
  if mutatesOnChainAllowlist token then .ok () else assertDestinationAllowedByControlList token reads.onControlList

/-- `true` when a transaction is sent that puts the destination on the list. -/
def syncDestinationToOnChainAllowlist (reads : Reads) : Bool × Except ErrorCode Unit :=
  if reads.revoked then (false, .error .destinationRevoked)
  else if reads.onChainList then (false, .ok ())
  else (true, if reads.addToList then .ok () else .error .refused)

/-- `extractMintPolicyCandidate` and the policy gate -/
def extractMintPolicyCandidate (token : Token) (amount : Nat) (reads : Reads) : Except ErrorCode Unit := do
  resolveMintOperationAmount token amount
  assertControlList token reads
  require reads.signer
  require reads.policy

/-- `executeMint` up to `createTransaction` -/
def admitMint (token : Token) (amount : Nat) (reads : Reads) : Bool × Except ErrorCode Unit :=
  match extractMintPolicyCandidate token amount reads with
  | .error code => (false, .error code)
  | .ok () => if mutatesOnChainAllowlist token then syncDestinationToOnChainAllowlist reads else (false, .ok ())

def admitBurn (token : Token) (reads : Reads) : Except ErrorCode Unit := do
  assertTokenAllowsOperation token
  assertTokenIsDeployed token
  require reads.signer

def admitForceBurn (token : Token) (reads : Reads) : Except ErrorCode Unit := do
  assertTokenAllowsOperation token
  assertTokenIsDeployed token
  require reads.authority
  require reads.signer

def admitFreeze (token : Token) (reads : Reads) : Except ErrorCode Unit := do
  require token.isFreezable
  assertTokenIsDeployed token
  require reads.authority
  require reads.signer
  require reads.target

def admitUnfreeze (token : Token) (reads : Reads) : Except ErrorCode Unit := do
  assertTokenIsDeployed token
  require reads.authority
  require reads.target
  require reads.signer

/-- The status of the token is checked only for a new transaction. -/
def admitPause (token : Token) (reads : Reads) : Except ErrorCode Unit := do
  assertTokenIsDeployed token
  require reads.authority
  require reads.signer

/-- Whether a transaction was sent, and how the checks end. -/
def Operation.admit (op : Operation) (token : Token) (amount : Nat) (reads : Reads) : Bool × Except ErrorCode Unit :=
  match op with
  | .mint => admitMint token amount reads
  | .burn => (false, admitBurn token reads)
  | .forceBurn => (false, admitForceBurn token reads)
  | .freeze => (false, admitFreeze token reads)
  | .unfreeze => (false, admitUnfreeze token reads)
  | .pause | .unpause => (false, admitPause token reads)

/-! ## Replays -/

def Row.response (row : Row) : Response := .transaction row.status row.signature row.slot

/-- `recoverSettledTransactionReplay`, or `recoverSettledMintReplay` for a mint -/
def recoverSettledTransactionReplay (w : World op) (storage : Storage) : Response × Row :=
  if w.transaction.status ≠ .pending then (w.transaction.response, w.transaction)
  else
    match (parseEvidence op w.transaction.signature w.transaction.slot w.transaction.tokenAccount).or w.outcome with
    | some receipt => (confirmedWith receipt, (persistSettledTransactionWithDurability w.transaction receipt storage).1)
    | none => (w.transaction.response, w.transaction)

def Response.isConfirmed : Response → Bool
  | .transaction .confirmed _ _ => true
  | _ => false

/-- The answer for a transaction that is not confirmed. A freeze is answered with its account. -/
def World.answerUnsettled (w : World op) (response : Response) : Response :=
  match op with
  | .freeze | .unfreeze => if w.transaction.status ≠ .failed ∧ w.account.row = true then response else .error
  | .mint | .burn | .forceBurn | .pause | .unpause => response

def World.withRow (w : World op) (row : Row) : World op := { w with transaction := row }

def World.sent (w : World op) (sent : Bool) : World op :=
  { w with submitted := if sent then w.submitted + 1 else w.submitted }

/-- The branch of the handler for a key that has its row. -/
def answerReplay (w : World op) (storage : Storage) : Response × World op :=
  match recoverSettledTransactionReplay w storage with
  | (response, row) =>
    if response.isConfirmed then
      match (w.withRow row).bookkeep storage with
      | some w' => (response, w')
      | none => (.error, w.withRow row)
    else ((w.withRow row).answerUnsettled response, w.withRow row)

def replay (w : World op) (amount : Nat) (reads : Reads) (storage : Storage) : Response × World op :=
  match op.admit w.token amount reads with
  | (sent, .error _) => (.error, w.sent sent)
  | (sent, .ok ()) => if storage.reads then answerReplay (w.sent sent) storage else (.error, w.sent sent)

/-! ## Runs -/

inductive Step
  | replay (reads : Reads) (storage : Storage)
  /-- Other requests change the token and the account. A row of `frozen_accounts` is never deleted. -/
  | change (token : Token) (account : Account)

def World.step (amount : Nat) (w : World op) : Step → Option (World op)
  | .replay reads storage => some (Replays.replay w amount reads storage).2
  | .change token account => if w.account.row && !account.row then none else some { w with token, account }

end Sdp.Replays
