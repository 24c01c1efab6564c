import Sdp.Code.Amount
import Sdp.Lib.Bytes
import Sdp.Lib.Json
import Sdp.Lib.Table

/-!
# Kamino withdrawals

`buildKaminoWithdrawPlan` of `packages/sdp-kamino/src/sdk.ts` with `amounts.ts`, `guards.ts` and
`withdraw-instructions.ts`, from the reads of one call that have all come back. The instructions of the SDK are
bytes; the ones that the token library builds are constructors with their arguments. A `bigint` of base units is a
`Nat`, and an `Int` where the code subtracts. At the end, what a chain does with a plan.
-/

open Sdp.Amount Sdp.Lib

namespace Sdp.Kamino

abbrev Address := String

inductive SolanaCluster
  | mainnetBeta
  | devnet
deriving DecidableEq

def SolanaCluster.text : SolanaCluster → String
  | .mainnetBeta => "mainnet-beta"
  | .devnet => "devnet"

inductive SdpKaminoErrorCode
  | invalidAmount
  | vaultUnreadable
deriving DecidableEq

inductive PlanError
  | kamino (code : SdpKaminoErrorCode) (message : String)
  | amount (error : AmountError)
  | programMismatch (cluster : SolanaCluster) (offendingProgram : Address)
  | other (message : String)
deriving DecidableEq

/-! ## Amounts -/

/-- `JSON.stringify` of a string. -/
def stringify (value : String) : String := String.ofList (Json.quoted value)

def invalidAmount (field value : String) : PlanError :=
  .kamino .invalidAmount s!"Kamino {field} must be a positive decimal string; received {stringify value}"

def amountTooPrecise (field value : String) (decimals : Nat) : PlanError :=
  .kamino .invalidAmount (s!"Kamino {field} {stringify value} has more precision than its mint supports " ++
    s!"({decimals} decimals). The SDK would floor it, so the amount encoded on chain would not " ++
    "match the amount requested.")

def amountOutOfRange (field value : String) : PlanError :=
  .kamino .invalidAmount
    s!"Kamino {field} {stringify value} exceeds the maximum unsigned 64-bit base-unit amount"

def vaultUnreadable (vault : Address) (cluster : SolanaCluster) : PlanError :=
  .kamino .vaultUnreadable (s!"Kamino vault {vault} could not be read on {cluster.text}. " ++
    "Check that the RPC endpoint serves that cluster — a mismatched RPC reports a missing vault, not a connection error.")

def maxU64BaseUnits : Nat := 2 ^ 64 - 1

/-- `mintDecimals`, of the text of the value. -/
def mintDecimals (value label : String) : Except PlanError Nat :=
  let raw := trim value.toList
  if raw ≠ [] ∧ raw.all isDigit ∧ digitsValue raw ≤ 18 then .ok (digitsValue raw)
  else .error (.other s!"Kamino vault state carried an unusable {label} ({value})")

def trimInsignificantFractionalZeroes (value : List Char) : List Char :=
  if '.' ∉ value then value
  else
    let whole := value.takeWhile (· ≠ '.')
    let fraction := ((value.drop (whole.length + 1)).reverse.dropWhile (· = '0')).reverse
    if fraction = [] then whole else whole ++ '.' :: fraction

def acceptAtMintScale (field value : String) (decimals : Nat) : Except PlanError String :=
  let normalized := trim value.toList
  if !isDecimalString (String.ofList normalized) then .error (invalidAmount field value)
  else
    let canonicalScaleInput := String.ofList (trimInsignificantFractionalZeroes normalized)
    if decimals < decimalScale canonicalScaleInput then .error (amountTooPrecise field value decimals)
    else match parseDecimalAmount canonicalScaleInput decimals with
      | .error error => .error (.amount error)
      | .ok baseUnits =>
        if maxU64BaseUnits < baseUnits then .error (amountOutOfRange field value)
        else .ok (formatDecimalAmount baseUnits decimals)

def isZeroAmount (canonical : String) : Bool := canonical = "0"

/-- The shares of a withdrawal, as they are accepted and in base units. -/
def acceptShares (shares : String) (decimals : Nat) : Except PlanError (String × Nat) := do
  let acceptedShares ← acceptAtMintScale "shares" shares decimals
  if isZeroAmount acceptedShares then throw (invalidAmount "shares" shares)
  match parseDecimalAmount acceptedShares decimals with
  | .error error => throw (.amount error)
  | .ok requestedBaseUnits =>
    -- `toDecimal`
    if !isDecimalString acceptedShares then throw (invalidAmount "shares" acceptedShares)
    return (acceptedShares, requestedBaseUnits)

/-! ## Instructions -/

structure KaminoClusterConfig where
  kvaultProgramId : Address
  klendProgramId : Address
  farmsProgramId : Address

def kaminoClusterConfig : SolanaCluster → KaminoClusterConfig
  | .mainnetBeta =>
    ⟨"KvauGMspG5k6rtzrqqn7WNn3oZdyKqLKwK2XWQ8FLjd", "KLend2g3cP87fffoy8q1mQqGKjrxjC8boSyAYavgmjD",
      "FarmsPZpWu9i7Kky8tPN37rs2TpmMrAZrC7S7vJa91Hr"⟩
  | .devnet =>
    ⟨"devkRngFnfp4gBc5a3LsadgbQKdPo8MSZ4prFiNSVmY", "KLend2g3cP87fffoy8q1mQqGKjrxjC8boSyAYavgmjD",
      "FarmsPZpWu9i7Kky8tPN37rs2TpmMrAZrC7S7vJa91Hr"⟩

def tokenProgramAddress : Address := "TokenkegQfeZyiNwAJbNbGKPFXCWuBvf9Ss623VQ5DA"

def associatedTokenProgramAddress : Address := "ATokenGPvbdGVxr1b2hvZbsiqW5xWH25efTNsLJA8knL"

def clusterInvariantPrograms : List Address :=
  ["11111111111111111111111111111111", tokenProgramAddress, "TokenzQdBNbLqP5VEhdkAS6EPFLC1PHnBqCXEpPxuEb",
    associatedTokenProgramAddress, "MemoSq4gqABAXKb96qnH8TysNcWxMyWCqXgDLGmfcHr",
    "ComputeBudget111111111111111111111111111111"]

def permittedPlanPrograms (cluster : SolanaCluster) : List Address :=
  let config := kaminoClusterConfig cluster
  [config.kvaultProgramId, config.klendProgramId, config.farmsProgramId] ++ clusterInvariantPrograms

structure AccountMeta where
  address : Address
  signer : Bool
  writable : Bool
deriving DecidableEq

/-- An instruction of the SDK. -/
structure SdkInstruction where
  programAddress : Address
  accounts : Option (List AccountMeta)
  data : Option (List UInt8)
deriving DecidableEq

inductive Instruction
  | createAssociatedTokenIdempotent (payer ata owner mint : Address)
  | transferChecked (source mint destination authority : Address) (amount decimals : Nat)
  | closeAccount (account destination owner : Address)
  | sdk (instruction : SdkInstruction)
deriving DecidableEq

def Instruction.programAddress : Instruction → Address
  | .createAssociatedTokenIdempotent .. => associatedTokenProgramAddress
  | .transferChecked .. | .closeAccount .. => tokenProgramAddress
  | .sdk instruction => instruction.programAddress

inductive WithdrawInstructionRole
  | unstake
  | prepare
  | withdraw
  | post
deriving DecidableEq

structure RoleTaggedInstruction where
  instruction : Instruction
  role : WithdrawInstructionRole
  sharesBaseUnits : Option Nat
deriving DecidableEq

/-- `KVAULT_SHARE_REDEEMING_DISCRIMINATORS`: `withdraw` and `withdraw_from_available`. -/
def kvaultShareRedeemingDiscriminators : List (List UInt8) :=
  [[183, 18, 70, 156, 148, 109, 161, 34], [19, 131, 112, 155, 170, 220, 34, 57]]

def kvaultBurnAllSharesSentinel : Nat := 18446744073709551615

def decodeKvaultWithdrawShares (instruction : SdkInstruction) (kvaultProgramAddress : Address) : Option Nat :=
  if instruction.programAddress ≠ kvaultProgramAddress then none
  else match instruction.data with
    | none => none
    | some data =>
      if data.length < 16 then none
      else if kvaultShareRedeemingDiscriminators.any fun discriminator => discriminator.isPrefixOf data then
        some (ofBytes ((data.drop 8).take 8))
      else none

def rewriteKvaultWithdrawShares (instruction : Instruction) (sharesBaseUnits : Nat) : Except PlanError Instruction :=
  let unwritable : PlanError :=
    .kamino .vaultUnreadable "Kamino burn-all instruction does not carry a writable sharesAmount argument"
  match instruction with
  | .sdk ⟨programAddress, accounts, some data⟩ =>
    if data.length < 16 then .error unwritable
    else .ok (.sdk ⟨programAddress, accounts, some (data.take 8 ++ toBytes 8 sharesBaseUnits ++ data.drop 16)⟩)
  | _ => .error unwritable

/-! ## Consolidation -/

structure ShareTokenAccountBalance where
  address : Address
  amount : Nat
deriving DecidableEq

/-- Whose account it is, and who pays for what a withdrawal creates. -/
structure Owner where
  address : Address
  rentPayer : Option Address
  shareMint : Address
  shareDecimals : Nat
  /-- `findAssociatedTokenPda` of the owner and the mint. -/
  shareAta : Address

structure Consolidation where
  instructions : List Instruction
  totalBaseUnits : Nat
  postConsolidationAtaBaseUnits : Nat

def Owner.transfer (owner : Owner) (source : Address) (amount : Nat) : Instruction :=
  .transferChecked source owner.shareMint owner.shareAta owner.address amount owner.shareDecimals

/-- The loop of `buildShareAccountConsolidation`: its transfers and what remains. -/
def consolidate (owner : Owner) : List ShareTokenAccountBalance → (remaining : Nat) → List Instruction × Nat
  | [], remaining => ([], remaining)
  | account :: accounts, remaining =>
    if remaining = 0 then ([], remaining)
    else if account.address = owner.shareAta ∨ account.amount = 0 then consolidate owner accounts remaining
    else
      let amount := if account.amount < remaining then account.amount else remaining
      let (instructions, remaining) := consolidate owner accounts (remaining - amount)
      (owner.transfer account.address amount :: instructions, remaining)

def buildShareAccountConsolidation (owner : Owner) (accounts : List ShareTokenAccountBalance)
    (requestedBaseUnits : Nat) : Except PlanError Consolidation :=
  let totalBaseUnits := (accounts.map ShareTokenAccountBalance.amount).sum
  if kvaultBurnAllSharesSentinel < totalBaseUnits then
    .error (.kamino .vaultUnreadable "Kamino share-token balances exceed the mint's u64 supply range.")
  else if totalBaseUnits < requestedBaseUnits then
    .error (.kamino .invalidAmount (s!"Kamino wallet holds {totalBaseUnits} share base units, below the " ++
      s!"requested {requestedBaseUnits}."))
  else
    let ataBaseUnits :=
      ((accounts.filter fun account => account.address = owner.shareAta).map ShareTokenAccountBalance.amount).sum
    if requestedBaseUnits ≤ ataBaseUnits then .ok ⟨[], totalBaseUnits, ataBaseUnits⟩
    else
      let create := .createAssociatedTokenIdempotent (owner.rentPayer.getD owner.address) owner.shareAta owner.address
        owner.shareMint
      let (instructions, remaining) := consolidate owner accounts (requestedBaseUnits - ataBaseUnits)
      if remaining ≠ 0 then
        .error (.kamino .vaultUnreadable
          "Kamino share-token account balances did not cover the requested consolidation.")
      else .ok ⟨create :: instructions, totalBaseUnits, requestedBaseUnits⟩

/-! ## The burn-all sentinel -/

/-- A self-transfer that fails unless the account holds the maximum. -/
def buildMaximumWithdrawalBalanceGuard (owner : Owner) (requestedBaseUnits : Nat) : Option Instruction :=
  if requestedBaseUnits ≠ kvaultBurnAllSharesSentinel then none
  else some (owner.transfer owner.shareAta requestedBaseUnits)

def RoleTaggedInstruction.isSentinel (tagged : RoleTaggedInstruction) : Bool :=
  tagged.sharesBaseUnits = some kvaultBurnAllSharesSentinel

/-- The sentinel's entry with the remainder in its place. -/
def resolveEntry (remainder : Nat) (tagged : RoleTaggedInstruction) : Except PlanError RoleTaggedInstruction :=
  if tagged.isSentinel then do
    return ⟨← rewriteKvaultWithdrawShares tagged.instruction remainder, tagged.role, some remainder⟩
  else .ok tagged

def resolveBurnAllSentinel (instructions : List RoleTaggedInstruction) (requestedBaseUnits : Nat)
    (maximumBalanceGuarded : Bool) : Except PlanError (List RoleTaggedInstruction) :=
  let sentinelCount := (instructions.filter RoleTaggedInstruction.isSentinel).length
  let redeeming := instructions.filter fun tagged => tagged.role = .withdraw
  let sentinelIndex : Int := (redeeming.findIdx? RoleTaggedInstruction.isSentinel).elim (-1) Int.ofNat
  let literalBaseUnits :=
    (redeeming.map fun tagged => if tagged.isSentinel then 0 else tagged.sharesBaseUnits.getD 0).sum
  let remainder : Int := (requestedBaseUnits : Int) - literalBaseUnits
  if sentinelCount = 0 then .ok instructions
  else if sentinelCount ≠ 1 then
    .error (.kamino .vaultUnreadable
      "Kamino withdraw bundle carries more than one burn-all instruction; refusing to build.")
  else if sentinelIndex ≠ redeeming.length - 1 then
    .error (.kamino .vaultUnreadable ("Kamino withdraw bundle places burn-all before a later share redemption; " ++
      "refusing to rewrite an order the provider did not document."))
  else if remainder ≤ 0 ∨ kvaultBurnAllSharesSentinel < remainder then
    .error (.kamino .invalidAmount
      (s!"Kamino withdraw instructions leave {remainder} share base units for their final redemption; " ++
        "the remainder must be positive and fit in the protocol's u64 field."))
  else if remainder = kvaultBurnAllSharesSentinel ∧ !maximumBalanceGuarded then
    .error (.kamino .vaultUnreadable
      "Kamino's maximum-u64 burn-all instruction requires an atomic share-balance guard.")
  else instructions.mapM (resolveEntry remainder.toNat)

/-! ## The plan -/

def buildShareAccountCloseInstruction (owner : Owner) (refundTo : Option Address)
    (ataBaseUnitsBeforeExit redeemedBaseUnits ownerTotalBaseUnits : Nat) : Option Instruction :=
  if ataBaseUnitsBeforeExit ≠ redeemedBaseUnits then none
  else if ownerTotalBaseUnits ≠ redeemedBaseUnits then none
  else some (.closeAccount owner.shareAta (refundTo.getD owner.address) owner.address)

/-- What `withdrawIxs` of the SDK returns; a `none` is an entry that `asInstructions` drops. -/
structure Bundle where
  unstakeFromFarmIfNeededIxs : List (Option SdkInstruction)
  withdrawIxs : List (Option SdkInstruction)
  postWithdrawIxs : List (Option SdkInstruction)

structure KaminoVaultAssetIdentity where
  depositTokenMint : Address
  shareMint : Address

structure KaminoWithdrawInput where
  vault : Address
  owner : Address
  rentPayer : Option Address
  shares : String
  rentRefundTo : Option Address

/-- What a call has read and what the SDK has answered it. -/
structure VaultReads where
  assetIdentity : KaminoVaultAssetIdentity
  sharesMintDecimals : String
  shareAta : Address
  shareAccounts : List ShareTokenAccountBalance
  globalConfigFound : Bool
  /-- The first of the four penalties that is no finite non-negative decimal. -/
  unusablePenalty : Option String
  exposesUserSharesState : Bool
  bundle : Bundle
  lookupTables : List Address

structure KaminoInstructionPlan where
  cluster : SolanaCluster
  instructions : List Instruction
  lookupTables : List Address
  assetIdentity : KaminoVaultAssetIdentity
  acceptedShares : String
  createsShareAccount : Bool

def assertPlanTargetsCluster (plan : KaminoInstructionPlan) : Except PlanError KaminoInstructionPlan :=
  match plan.instructions.find? fun i => i.programAddress ∉ permittedPlanPrograms plan.cluster with
  | some instruction => .error (.programMismatch plan.cluster instruction.programAddress)
  | none => .ok plan

/-- The instructions of a role that redeems nothing. -/
def withRole (role : WithdrawInstructionRole) (instructions : List (Option SdkInstruction)) :
    List RoleTaggedInstruction :=
  instructions.reduceOption.map fun instruction => ⟨.sdk instruction, role, none⟩

def tagWithdraw (kvaultProgramAddress : Address) (instruction : SdkInstruction) : RoleTaggedInstruction :=
  let sharesBaseUnits := decodeKvaultWithdrawShares instruction kvaultProgramAddress
  ⟨.sdk instruction, if sharesBaseUnits = none then .prepare else .withdraw, sharesBaseUnits⟩

def decodeBundle (bundle : Bundle) (kvaultProgramAddress : Address) : List RoleTaggedInstruction :=
  withRole .unstake bundle.unstakeFromFarmIfNeededIxs ++
    bundle.withdrawIxs.reduceOption.map (tagWithdraw kvaultProgramAddress) ++
    withRole .post bundle.postWithdrawIxs

/-- The instructions with what prepares the share balance put before the first redemption. -/
def guardRedemptions (decoded : List RoleTaggedInstruction) (preRedemptionInstructions : List Instruction) :
    Except PlanError (List RoleTaggedInstruction) :=
  if preRedemptionInstructions = [] then .ok decoded
  else match decoded.findIdx? fun tagged => tagged.role = .withdraw with
    | none =>
      .error (.kamino .vaultUnreadable
        "Kamino produced no redemption instruction after preparing the withdrawal share balance.")
    | some firstRedemptionIndex =>
      .ok (decoded.take firstRedemptionIndex ++
        preRedemptionInstructions.map (fun instruction => ⟨instruction, .prepare, none⟩) ++
        decoded.drop firstRedemptionIndex)

/-- The checks of what was read, after the share accounts. -/
def VaultReads.check (reads : VaultReads) (vault : Address) (cluster : SolanaCluster) : Except PlanError Unit :=
  if !reads.globalConfigFound then .error (vaultUnreadable vault cluster)
  else match reads.unusablePenalty with
    | some label => .error (.kamino .vaultUnreadable s!"Kamino {label} was not a finite non-negative decimal")
    | none => if !reads.exposesUserSharesState then .error (vaultUnreadable vault cluster) else .ok ()

/-- From the answer of the SDK to the instructions whose redemptions are those of the request. -/
def encodeRedemptions (owner : Owner) (consolidation : Consolidation) (requestedBaseUnits : Nat)
    (decoded : List RoleTaggedInstruction) : Except PlanError (List RoleTaggedInstruction) := do
  let maximumBalanceGuard := buildMaximumWithdrawalBalanceGuard owner requestedBaseUnits
  let guarded ← guardRedemptions decoded (consolidation.instructions ++ maximumBalanceGuard.toList)
  let tagged ← resolveBurnAllSentinel guarded requestedBaseUnits maximumBalanceGuard.isSome
  let encodedBaseUnits := (tagged.map fun entry => entry.sharesBaseUnits.getD 0).sum
  if encodedBaseUnits ≠ requestedBaseUnits then
    .error (.kamino .vaultUnreadable (s!"Kamino withdraw instructions encode {encodedBaseUnits} share base units where " ++
      s!"the accepted request is {requestedBaseUnits}; refusing to build a plan whose ledger " ++
      "record would not match what moves on chain."))
  else .ok tagged

def buildKaminoWithdrawPlan (cluster : SolanaCluster) (input : KaminoWithdrawInput) (reads : VaultReads) :
    Except PlanError KaminoInstructionPlan := do
  let shareDecimals ← mintDecimals reads.sharesMintDecimals "sharesMintDecimals"
  let (acceptedShares, requestedBaseUnits) ← acceptShares input.shares shareDecimals
  let owner : Owner := ⟨input.owner, input.rentPayer, reads.assetIdentity.shareMint, shareDecimals, reads.shareAta⟩
  let consolidation ← buildShareAccountConsolidation owner reads.shareAccounts requestedBaseUnits
  reads.check input.vault cluster
  let tagged ← encodeRedemptions owner consolidation requestedBaseUnits
    (decodeBundle reads.bundle (kaminoClusterConfig cluster).kvaultProgramId)
  let createsShareAccount := !reads.shareAccounts.any fun account => account.address = reads.shareAta
  let rentRefundTo := if createsShareAccount then input.rentPayer else input.rentRefundTo
  let closeShareAccountInstruction := buildShareAccountCloseInstruction owner rentRefundTo
    consolidation.postConsolidationAtaBaseUnits requestedBaseUnits consolidation.totalBaseUnits
  assertPlanTargetsCluster
    { cluster
      instructions := tagged.map RoleTaggedInstruction.instruction ++ closeShareAccountInstruction.toList
      lookupTables := reads.lookupTables
      assetIdentity := reads.assetIdentity
      acceptedShares
      createsShareAccount }

/-! ## Execution -/

/-- The share accounts of an owner, and what has been burned. -/
structure Shares where
  accounts : Table Address ShareTokenAccountBalance ShareTokenAccountBalance.address
  burned : Nat

namespace Shares

def balance (s : Shares) (address : Address) : Nat :=
  (s.accounts.find? address).elim 0 ShareTokenAccountBalance.amount

def total (s : Shares) : Nat := s.accounts.sum ShareTokenAccountBalance.amount

def setAmount (s : Shares) (address : Address) (amount : Nat) : Shares :=
  { s with accounts := s.accounts.update address (fun _ => true) (fun row => { row with amount }) fun _ => rfl }

/-- Shares move between two accounts, or from one to itself; `none` is a transaction that fails. -/
def transfer (s : Shares) (source destination : Address) (amount : Nat) : Option Shares :=
  if s.balance source < amount ∨ s.accounts.find? destination = none then none
  else
    let taken := s.setAmount source (s.balance source - amount)
    some (taken.setAmount destination (taken.balance destination + amount))

/-- A redemption burns what it encodes, the sentinel all there is. -/
def burn (s : Shares) (ata : Address) (shares : Nat) : Option Shares :=
  let amount := if shares = kvaultBurnAllSharesSentinel then s.balance ata else shares
  if s.balance ata < amount then none
  else some { s.setAmount ata (s.balance ata - amount) with burned := s.burned + amount }

/-- What an instruction does to the share accounts. Of the instructions of the SDK only redemptions move shares. -/
def execute (kvaultProgramAddress ata : Address) (s : Shares) : Instruction → Option Shares
  | .createAssociatedTokenIdempotent _ account _ _ => some { s with accounts := s.accounts.insertNew ⟨account, 0⟩ }
  | .transferChecked source _ destination _ amount _ => s.transfer source destination amount
  | .closeAccount account _ _ => if (s.accounts.find? account).any fun row => row.amount = 0 then some s else none
  | .sdk instruction =>
    match decodeKvaultWithdrawShares instruction kvaultProgramAddress with
    | none => some s
    | some shares => s.burn ata shares

end Shares

end Sdp.Kamino
