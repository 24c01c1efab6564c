import Sdp.Code.TokenDeployments

/-!
# Calls on the row of a token

`createToken` and `updateToken` of `services/token.service.ts`, each as one call on one row. The columns
of the row are those of a deployment.
-/

open Sdp.Amount

namespace Sdp.Deployments

/-- What `createToken` writes into the row. -/
structure CreateTokenInput where
  signingWalletId : Nat
  symbol : String
  decimals : Option Nat
  maxSupply : Option String
  isMintable : Option Bool
  isFreezable : Option Bool
  requiresAllowlist : Option Bool
  supportsBlocklist : Bool

/-- `if (maxSupply)`: an empty text is none. -/
def givenCap (maxSupply : Option String) : Option String := maxSupply.filter (· ≠ "")

def CreateTokenInput.row (input : CreateTokenInput) (maxSupply : Option Nat) : Token where
  status := .pending
  mintAddress := none
  mintAuthority := none
  metadataAuthority := none
  freezeAuthority := none
  ablListAddress := none
  signingWalletId := input.signingWalletId
  symbol := input.symbol
  decimals := input.decimals.getD 9
  requiresAllowlist := input.requiresAllowlist.getD false
  maxSupply := maxSupply
  totalSupplyCached := 0
  isMintable := input.isMintable.getD true
  isFreezable := input.isFreezable.getD true
  supportsBlocklist := input.supportsBlocklist

/-- `none` is a bad request. -/
def createToken (input : CreateTokenInput) : Option Token :=
  match givenCap input.maxSupply with
  | none => some (input.row none)
  | some text =>
    match parseDecimalAmount text (input.decimals.getD 9) with
    | .ok maxSupplyBaseUnits => some (input.row (some maxSupplyBaseUnits))
    | .error _ => none

structure UpdateCall where
  input : UpdateTokenInput
  signingWalletId : Option Nat
  expectedDeploymentState : Option (TokenStatus × Option Nat)
deriving DecidableEq

namespace UpdateCall

/-- The value of the column and the supply that it was compared with, where a cap is given. -/
def resolve (call : UpdateCall) (existing : Token) : Option (Option (Option Nat) × Option Nat) :=
  match call.input.maxSupply with
  | none => some (none, none)
  | some maxSupply =>
    (resolveMaxSupplyBaseUnits (givenCap maxSupply) call.input.decimals existing).map fun resolved =>
      (some resolved.1, resolved.2)

/-- Without an expected state, the state as it is. -/
def write (call : UpdateCall) (existing : Token) (resolved : Option (Option Nat) × Option Nat) : TokenWrite :=
  let expected := call.expectedDeploymentState.getD (existing.status, existing.mintAddress)
  { input := call.input
    maxSupply := resolved.1
    requiresUnlockedSupplyGuard := call.input.maxSupply.isSome && existing.mintAddress.isSome
    supplyAtCapCheck := resolved.2
    expectedStatus := expected.1
    expectedMintAddress := expected.2 }

end UpdateCall

inductive UpdateOutcome
  | updated | badRequest | conflict
deriving DecidableEq

def updateToken (existing : Token) (call : UpdateCall) : Token × UpdateOutcome :=
  match call.resolve existing with
  | none => (existing, .badRequest)
  | some resolved =>
    if call.input.isEmpty && call.signingWalletId.isNone then (existing, .updated)
    else
      let write := call.write existing resolved
      if write.applies existing then
        ({ write.set existing with signingWalletId := call.signingWalletId.getD existing.signingWalletId }, .updated)
      else (existing, .conflict)

end Sdp.Deployments
