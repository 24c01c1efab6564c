import Mathlib.Data.List.MinMax
import Mathlib.Data.Prod.Lex
import Mathlib.Data.Rat.Floor
import Sdp.Code.TokenSupply

/-!
# Rows of the Earn ledger

The tables `earn_movements` and `earn_positions` with the constraints of migrations 0062 and 0067, and what
`db/repositories/earn-movements.repository.ts` does with a single row: the transition matrix, the metadata of a
transition, its assignments, the rows that intents insert, and the projection of the rent funder. Attribution
columns, addresses that nothing reads and `provider_data` are left out. A `TEXT` timestamp that only the database
writes is a number.
-/

open Sdp.Amount Sdp.Issuance

namespace Sdp.Earn

inductive Environment
  | sandbox
  | production
deriving DecidableEq

inductive ExecutionModel
  | custodial
  | vaultDirect
deriving DecidableEq

inductive Direction
  | deposit
  | withdrawal
deriving DecidableEq

inductive Status
  | requested
  | processing
  | pendingApproval
  | completed
  | partiallyCompleted
  | cancelled
  | submitted
  | confirmed
  | finalized
  | failed
deriving DecidableEq

/-! ## Movements -/

structure Movement where
  id : Nat
  organizationId : Nat
  /-- `NULL` once the project is deleted. -/
  projectId : Option Nat
  environment : Environment
  provider : String
  executionModel : ExecutionModel
  direction : Direction
  positionId : Nat
  status : Status
  failureReason : Option String
  confirmedAt : Option String
  settledAt : Option String
  denomination : String
  amountRequested : String
  amountSettled : Option String
  feeAmount : Option String
  minSharesOut : Option String
  sharesOut : Option String
  payoutToken : Option String
  custodyWalletId : Option Nat
  vaultAddress : Option String
  signature : Option String
  signedTransaction : Option String
  lastValidBlockHeight : Option ℚ
  requestId : String
  idempotencyFingerprint : String
  createdAt : Nat
  createsShareAccount : Bool
  shareAtaRentFunder : Option String
deriving DecidableEq

/-! ## Constraints -/

/-- `NULLIF(BTRIM(text), '') IS NOT NULL`: `BTRIM` strips spaces only. -/
def filled (text : Option String) : Bool := text.any fun t => t.toList.any (· ≠ ' ')

/-- `text ~ '[1-9]'` -/
def nonZeroDigit (text : String) : Bool := text.toList.any fun c => isDigit c && c ≠ '0'

/-- `LENGTH(text) BETWEEN 1 AND 128` -/
def shortText (text : String) : Bool := 1 ≤ text.length && text.length ≤ 128

/-- The format of an amount, which the regular expressions of the code and of the constraints spell alike. -/
def positiveDecimal (text : String) : Bool := shortText text && (plainDecimal text && nonZeroDigit text)

namespace Status

/-- The statuses that the chain has committed to. -/
def committed (status : Status) : Bool := status = .confirmed || status = .finalized

/-- `earn_movement_statuses`: the statuses of an execution model. -/
def legal : ExecutionModel → List Status
  | .custodial => [.requested, .processing, .pendingApproval, .completed, .partiallyCompleted, .failed, .cancelled]
  | .vaultDirect => [.requested, .submitted, .confirmed, .finalized, .failed]

/-- `is_terminal` -/
def terminal : Status → Bool
  | .completed | .partiallyCompleted | .failed | .cancelled | .finalized => true
  | _ => false

end Status

namespace Movement

def modelShapeCheck (m : Movement) : Bool :=
  match m.executionModel with
  | .vaultDirect =>
    m.custodyWalletId.isSome && m.vaultAddress.isSome && m.signature.isSome && m.signedTransaction.isSome &&
      m.lastValidBlockHeight.isSome && m.payoutToken.isNone && m.feeAmount.isNone
  | .custodial =>
    m.custodyWalletId.isNone && m.vaultAddress.isNone && m.signature.isNone && m.signedTransaction.isNone &&
      m.lastValidBlockHeight.isNone && m.minSharesOut.isNone && m.sharesOut.isNone

def confirmationMetadataCheck (m : Movement) : Bool :=
  m.executionModel ≠ .vaultDirect || m.status.committed == filled m.confirmedAt

def settlementMetadataCheck (m : Movement) : Bool :=
  m.executionModel ≠ .vaultDirect || (m.status = .finalized) == filled m.settledAt

def failureMetadataCheck (m : Movement) : Bool :=
  m.executionModel ≠ .vaultDirect || (m.status = .failed) == filled m.failureReason

def amountRequestedFormatCheck (m : Movement) : Bool := positiveDecimal m.amountRequested

def settledAmountFormatCheck (m : Movement) : Bool := m.amountSettled.all shortText

def feeAmountFormatCheck (m : Movement) : Bool := m.feeAmount.all shortText

def vaultAmountFormatCheck (m : Movement) : Bool :=
  m.executionModel ≠ .vaultDirect ||
    (m.amountSettled.all (fun text => plainDecimal text && nonZeroDigit text) && m.minSharesOut.all positiveDecimal)

def sharesOutFormatCheck (m : Movement) : Bool :=
  m.sharesOut.all fun text => m.status.committed && positiveDecimal text

/-- `LENGTH(BTRIM(denomination)) BETWEEN 1 AND 128` -/
def denominationCheck (m : Movement) : Bool :=
  let text := ((m.denomination.toList.dropWhile (· = ' ')).reverse.dropWhile (· = ' ')).reverse
  1 ≤ text.length && text.length ≤ 128

def lastValidBlockHeightCheck (m : Movement) : Bool :=
  m.lastValidBlockHeight.all fun height => height.isInt && 0 ≤ height && height ≤ 18446744073709551615

def shareAtaRentFunderShape (m : Movement) : Bool := m.shareAtaRentFunder.isNone || m.createsShareAccount

/-- The foreign key of the pair of model and status. -/
def statusCheck (m : Movement) : Bool := m.status ∈ Status.legal m.executionModel

/-- What the table demands of a row by itself. -/
def checks (m : Movement) : Bool :=
  m.modelShapeCheck && m.confirmationMetadataCheck && m.settlementMetadataCheck && m.failureMetadataCheck &&
    m.amountRequestedFormatCheck && m.settledAmountFormatCheck && m.feeAmountFormatCheck &&
    m.vaultAmountFormatCheck && m.sharesOutFormatCheck && m.denominationCheck && m.lastValidBlockHeightCheck &&
    m.shareAtaRentFunderShape && m.statusCheck

end Movement

/-! ## Transitions -/

/-- `EARN_MOVEMENT_TRANSITIONS.vault_direct`: where a movement may come from. -/
def vaultTransitions : Status → List Status
  | .submitted => [.requested]
  | .confirmed => [.requested, .submitted]
  | .finalized => [.requested, .submitted, .confirmed]
  | .failed => [.requested, .submitted]
  | _ => []

/-- Of an optional field, `none` is `undefined` and `some none` is `null`. -/
structure AdvanceInput where
  movementId : Nat
  organizationId : Nat
  /-- `none` is a text that is no status. -/
  toStatus : Option Status
  sharesOut : Option (Option String)
  failureReason : Option (Option String)
  confirmedAt : Option (Option String)
  settledAt : Option (Option String)
deriving DecidableEq

/-- `allowedSourceStatuses("vault_direct", toStatus)` -/
def allowedSourceStatuses (toStatus : Option Status) : Option (List Status) :=
  match toStatus.elim [] vaultTransitions with
  | [] => none
  | sources => some sources

/-- `!field?.trim()` -/
def missing (field : Option (Option String)) : Bool := !field.join.any fun t => trim t.toList ≠ []

def assertVaultTransitionMetadata (input : AdvanceInput) : Except String Unit :=
  if input.failureReason ≠ none ∧ input.toStatus ≠ some .failed then
    .error "failureReason is only valid when failing an earn vault movement"
  else if input.toStatus = some .failed ∧ missing input.failureReason then
    .error "failureReason is required when failing an earn vault movement"
  else if input.settledAt ≠ none ∧ input.toStatus ≠ some .finalized then
    .error "settledAt is only valid when finalizing an earn vault movement"
  else if input.toStatus = some .finalized ∧ missing input.settledAt then
    .error "settledAt is required when finalizing an earn vault movement"
  else if input.confirmedAt ≠ none ∧ input.toStatus ≠ some .confirmed ∧ input.toStatus ≠ some .finalized then
    .error "confirmedAt is only valid when confirming an earn vault movement"
  else if (input.toStatus = some .confirmed ∨ input.toStatus = some .finalized) ∧ missing input.confirmedAt then
    .error "confirmedAt is required when confirming an earn vault movement"
  else if input.sharesOut ≠ none ∧ input.toStatus ≠ some .confirmed then
    .error "sharesOut is only valid when confirming an earn vault movement"
  else if input.sharesOut.join.any (fun text => !positiveDecimal text) then
    .error "sharesOut must be a positive unsigned decimal with at most 128 characters"
  else .ok ()

/-- The assignments of the `UPDATE`. -/
def Movement.advance (m : Movement) (input : AdvanceInput) (status : Status) : Movement :=
  { m with
    status
    sharesOut := input.sharesOut.getD m.sharesOut
    failureReason := input.failureReason.getD m.failureReason
    settledAt := input.settledAt.getD m.settledAt
    confirmedAt := input.confirmedAt.elim m.confirmedAt m.confirmedAt.or
    amountSettled := if status.committed then m.amountSettled.or (some m.amountRequested) else m.amountSettled }

/-! ## Reconciliation -/

inductive Commitment
  | processed
  | confirmed
  | finalized
deriving DecidableEq

structure SignatureStatus where
  /-- The JSON text of the error of a transaction that failed. -/
  err : Option String
  confirmationStatus : Option Commitment
deriving DecidableEq

/-- What the sweep reads of the chain for a movement, and how its broadcast ends. -/
structure Observation where
  status : Option SignatureStatus
  currentBlockHeight : Option Nat
  now : String
  broadcast : Bool
deriving DecidableEq

/-- The transition that `reconcileMovement` asks for, when it asks for one. -/
def reconcileMovement (m : Movement) (seen : Observation) : Option AdvanceInput :=
  let change : AdvanceInput := ⟨m.id, m.organizationId, none, none, none, none, none⟩
  let markSubmitted := if m.status = .requested then some { change with toStatus := some .submitted } else none
  match seen.status with
  | some ⟨some err, _⟩ => some { change with toStatus := some .failed, failureReason := some (some err) }
  | some ⟨none, some .finalized⟩ =>
    some { change with
      toStatus := some .finalized, confirmedAt := some (some seen.now), settledAt := some (some seen.now) }
  | some ⟨none, some .confirmed⟩ =>
    if m.status = .confirmed then none
    else some { change with toStatus := some .confirmed, confirmedAt := some (some seen.now) }
  | some _ => markSubmitted
  | none =>
    if m.status = .confirmed then none
    else match m.signedTransaction, m.lastValidBlockHeight, seen.currentBlockHeight with
      | some _, some last, some height =>
        if last < height then
          some { change with
            toStatus := some .failed
            failureReason := some (some "Transaction blockhash expired before confirmation") }
        else if seen.broadcast then markSubmitted else none
      | _, _, _ => none

/-! ## Positions -/

/-- The instrument of a holding, by which it is unique. -/
inductive Holding
  | vault (organizationId : Nat) (environment : Environment) (provider vaultAddress : String) (custodyWalletId : Nat)
  | program (providerWalletId : Nat)
deriving DecidableEq

structure Position where
  id : Nat
  organizationId : Nat
  environment : Environment
  provider : String
  holding : Holding
  shareMint : Option String
  tokenMint : Option String
  label : String
  /-- `activated_at` is set. -/
  activated : Bool
  /-- `closed_at` is set. -/
  closed : Bool
  shareAtaRentFunder : Option String
  /-- Counts the versions of the row. -/
  version : Nat
deriving DecidableEq

/-- The foreign keys of a movement onto its position: the tenancy of every movement, the exact claim of a vault's. -/
def Position.identifies (p : Position) (m : Movement) : Bool :=
  p.id = m.positionId && p.organizationId = m.organizationId && p.environment = m.environment &&
    p.provider = m.provider &&
    match m.vaultAddress, m.custodyWalletId with
    | some vault, some wallet => p.holding = .vault m.organizationId m.environment m.provider vault wallet
    | _, _ => true

/-- A movement that creates the share account of a position and has not failed. -/
def Movement.claims (m : Movement) (positionId : Nat) : Bool :=
  m.positionId = positionId && m.createsShareAccount && m.status ≠ .failed

/-- `ORDER BY created_at DESC, id DESC` -/
def Movement.age (m : Movement) : Lex (Nat × Nat) := toLex (m.createdAt, m.id)

/-- The subquery of `projectShareAccountRentFunder`. -/
def projectedFunder (rows : List Movement) (positionId : Nat) : Option String :=
  ((rows.filter fun m => m.claims positionId).argmax Movement.age).bind Movement.shareAtaRentFunder

/-- A status that keeps a holding active. -/
def Status.live (status : Status) : Bool :=
  status = .requested || status = .submitted || status = .confirmed || status = .finalized

/-! ## Intents -/

/-- What deposit and withdrawal intents have in common. -/
structure SignedIntent where
  organizationId : Nat
  projectId : Nat
  environment : Environment
  provider : String
  vaultAddress : String
  custodyWalletId : Nat
  shareMint : String
  signature : String
  signedTransaction : String
  lastValidBlockHeight : ℚ
  requestId : String
  idempotencyFingerprint : String
  createsShareAccount : Option Bool
  shareAtaRentFunder : Option String
  /-- `sdp_iso_now()` in its transaction. -/
  now : Nat
deriving DecidableEq

structure DepositIntent extends SignedIntent where
  tokenMint : String
  label : String
  requestedAmount : String
  acceptedMinSharesOut : Option String
  /-- The joins of `claimVaultPosition` find the project, and the wallet in its scope. -/
  inScope : Bool
deriving DecidableEq

structure WithdrawalIntent extends SignedIntent where
  positionId : Nat
  requestedShares : String
deriving DecidableEq

structure CustodialIntent where
  organizationId : Nat
  projectId : Nat
  environment : Environment
  provider : String
  providerWalletId : Nat
  amountRequestedUsd : String
  payoutToken : String
  requestId : String
  idempotencyFingerprint : String
  now : Nat
deriving DecidableEq

def shareAccountClaimBindings (input : SignedIntent) : Bool × Option String :=
  let creates := input.createsShareAccount = some true
  (creates, if creates then input.shareAtaRentFunder else none)

/-- The columns that both vault inserts bind alike. -/
def SignedIntent.movement (input : SignedIntent) (id positionId : Nat) (direction : Direction)
    (denomination amount : String) (minSharesOut : Option String) : Movement where
  id
  organizationId := input.organizationId
  projectId := some input.projectId
  environment := input.environment
  provider := input.provider
  executionModel := .vaultDirect
  direction
  positionId
  status := .requested
  failureReason := none
  confirmedAt := none
  settledAt := none
  denomination
  amountRequested := amount
  amountSettled := none
  feeAmount := none
  minSharesOut
  sharesOut := none
  payoutToken := none
  custodyWalletId := some input.custodyWalletId
  vaultAddress := some input.vaultAddress
  signature := some input.signature
  signedTransaction := some input.signedTransaction
  lastValidBlockHeight := some input.lastValidBlockHeight
  requestId := input.requestId
  idempotencyFingerprint := input.idempotencyFingerprint
  createdAt := input.now
  createsShareAccount := (shareAccountClaimBindings input).1
  shareAtaRentFunder := (shareAccountClaimBindings input).2

/-- The row of `insertVaultMovement`. -/
def DepositIntent.vaultMovement (input : DepositIntent) (id positionId : Nat) : Movement :=
  input.movement id positionId .deposit input.tokenMint input.requestedAmount input.acceptedMinSharesOut

/-- The row of `insertVaultWithdrawalMovement`. -/
def WithdrawalIntent.vaultMovement (input : WithdrawalIntent) (id positionId : Nat) : Movement :=
  input.movement id positionId .withdrawal input.shareMint input.requestedShares none

/-- The row of `createCustodialMovement`. -/
def CustodialIntent.movement (input : CustodialIntent) (id positionId : Nat) : Movement where
  id
  organizationId := input.organizationId
  projectId := some input.projectId
  environment := input.environment
  provider := input.provider
  executionModel := .custodial
  direction := .withdrawal
  positionId
  status := .requested
  failureReason := none
  confirmedAt := none
  settledAt := none
  denomination := "usd"
  amountRequested := input.amountRequestedUsd
  amountSettled := none
  feeAmount := none
  minSharesOut := none
  sharesOut := none
  payoutToken := some input.payoutToken
  custodyWalletId := none
  vaultAddress := none
  signature := none
  signedTransaction := none
  lastValidBlockHeight := none
  requestId := input.requestId
  idempotencyFingerprint := input.idempotencyFingerprint
  createdAt := input.now
  createsShareAccount := false
  shareAtaRentFunder := none

def idempotencyConflict : String := "Idempotency key already used with different request payload"

def assertMovementIsOwnReplay (m : Movement) (projectId : Nat) (fingerprint : String) : Except String Unit :=
  if m.projectId ≠ some projectId ∨ m.idempotencyFingerprint ≠ fingerprint then .error idempotencyConflict else .ok ()

end Sdp.Earn
