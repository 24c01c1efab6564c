import Sdp.Code.Amount

/-!
# Dividing amounts

From `packages/sdp-payments/src/decimal.ts`. `@solana/fixed-points` is a parameter: its unsigned numbers, and the
functions that are called with them.
-/

namespace Sdp.DecimalDivision

open Sdp.Amount (trim isDecimalString decimalScale)

inductive DecimalError
  | badRequest (message : String)
  /-- What the library throws. -/
  | fixedPoints
deriving DecidableEq

structure DecimalFixedPoint where
  raw : Nat
  decimals : Nat
deriving DecidableEq

inductive RoundingMode
  | round

structure ToStringOptions where
  decimals : Nat
  rounding : RoundingMode

structure FixedPoints where
  decimalFixedPoint : (totalBits decimals : Nat) → (value : String) → Except DecimalError DecimalFixedPoint
  divideDecimalFixedPoint : (a b : DecimalFixedPoint) → RoundingMode → Except DecimalError DecimalFixedPoint
  decimalFixedPointToString : DecimalFixedPoint → Option ToStringOptions → Except DecimalError String

def decimalBits : Nat := 128

def divisionDecimals : Nat := 9

def parseAmount (lib : FixedPoints) (value : String) (decimals : Nat) : Except DecimalError DecimalFixedPoint :=
  let normalized := String.ofList (trim value.toList)
  if !isDecimalString normalized then .error (.badRequest "Invalid amount format")
  else lib.decimalFixedPoint decimalBits decimals normalized

def divideDecimalAmounts (lib : FixedPoints) (numerator denominator : String) : Except DecimalError String := do
  let num ← parseAmount lib numerator (max (decimalScale numerator) divisionDecimals)
  let den ← parseAmount lib denominator (decimalScale denominator)
  if den.raw = 0 then
    throw (.badRequest "Cannot divide by a zero amount")
  let quotient ← lib.divideDecimalFixedPoint num den .round
  if divisionDecimals < quotient.decimals then
    lib.decimalFixedPointToString quotient (some ⟨divisionDecimals, .round⟩)
  else lib.decimalFixedPointToString quotient none

end Sdp.DecimalDivision
