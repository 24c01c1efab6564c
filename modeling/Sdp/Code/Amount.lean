import Mathlib.Logic.Function.Basic

/-!
# Decimal amounts

From `packages/sdp-solana/src/amount.ts`. A `bigint` result is a `Nat`: the parser
never makes a negative number. The check that `decimals` is a non-negative integer
is the type `Nat`.
-/

namespace Sdp.Amount

inductive AmountError
  | invalidDecimalAmount
  | tooManyDecimalPlaces
deriving DecidableEq, Repr

def AmountError.message : AmountError → String
  | .invalidDecimalAmount => "Invalid decimal amount"
  | .tooManyDecimalPlaces => "Amount has too many decimal places"

def isDigit (c : Char) : Bool := '0' ≤ c ∧ c ≤ '9'

/-- The loop of `isDecimalString`. -/
def isDecimalLoop : List Char → (hasDigit seenDot : Bool) → Bool
  | [], hasDigit, _ => hasDigit
  | c :: rest, hasDigit, seenDot =>
    if c = '.' then
      if seenDot then false else isDecimalLoop rest hasDigit true
    else if !isDigit c then false
    else isDecimalLoop rest true seenDot

def isDecimalString (value : String) : Bool :=
  if value.toList = [] then false else isDecimalLoop value.toList false false

/-- The characters that `String.prototype.trim` strips. -/
def isTrimmed (c : Char) : Bool :=
  c.toNat ∈ [0x09, 0x0A, 0x0B, 0x0C, 0x0D, 0x20, 0xA0, 0x1680, 0x2028, 0x2029, 0x202F, 0x205F,
    0x3000, 0xFEFF] ∨ (0x2000 ≤ c.toNat ∧ c.toNat ≤ 0x200A)

def trim (s : List Char) : List Char :=
  ((s.dropWhile isTrimmed).reverse.dropWhile isTrimmed).reverse

structure DecimalParts where
  whole : List Char
  fraction : List Char

def normalizeDecimalParts (value : List Char) : DecimalParts :=
  let parts := value.splitOn '.'
  let wholeRaw := parts.getD 0 []
  let fractionRaw := parts.getD 1 []
  { whole := if wholeRaw = [] then ['0'] else wholeRaw, fraction := fractionRaw }

def decimalScale (value : String) : Nat := (normalizeDecimalParts (trim value.toList)).fraction.length

/-- `BigInt` of a string of digits. -/
def digitsValue (digits : List Char) : Nat :=
  digits.foldl (fun n c => 10 * n + (c.toNat - '0'.toNat)) 0

def parseDecimalAmount (value : String) (decimals : Nat) : Except AmountError Nat :=
  let normalized := trim value.toList
  if !isDecimalString (String.ofList normalized) then .error .invalidDecimalAmount
  else
    let parts := normalizeDecimalParts normalized
    if decimals < parts.fraction.length then .error .tooManyDecimalPlaces
    else
      let padded := parts.fraction ++ List.replicate (decimals - parts.fraction.length) '0'
      let sanitized := (parts.whole ++ padded).dropWhile (· = '0')
      .ok (digitsValue (if sanitized = [] then ['0'] else sanitized))

def compareDecimalAmounts (left right : String) : Except AmountError Int := do
  let decimals := max (decimalScale left) (decimalScale right)
  let leftAmount ← parseDecimalAmount left decimals
  let rightAmount ← parseDecimalAmount right decimals
  if leftAmount = rightAmount then return 0
  return if leftAmount < rightAmount then -1 else 1

/-- `formatDecimalAmount` of an amount that is not negative. -/
def formatDecimalAmount (value decimals : Nat) : String :=
  let digits := Nat.toDigits 10 value
  if decimals = 0 then String.ofList digits
  else
    let padded := List.replicate (decimals + 1 - digits.length) '0' ++ digits
    let whole := padded.take (padded.length - decimals)
    let fraction := ((padded.drop (padded.length - decimals)).reverse.dropWhile (· = '0')).reverse
    String.ofList (if fraction = [] then whole else whole ++ '.' :: fraction)

end Sdp.Amount
