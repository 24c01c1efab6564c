import Sdp.Lib.JsValues
import Mathlib.Algebra.Order.Ring.Int

/-!
# Idempotency

`lib/idempotency.ts`, and the amounts that the schemas of the vault routes in `routes/earn/schemas.ts` let through. A
fingerprint is the text of a normalized value; `localeCompare` is a parameter. The hash of a request id is one too.
-/

open Sdp.Lib.Json

namespace Sdp.Idempotency

/-! ## Request ids of a provider -/

/-- `length` of a string: its UTF-16 code units. -/
def utf16Length (part : String) : Nat := (part.toList.map fun c => if c.toNat < 0x10000 then 1 else 2).sum

def lengthPrefixed (part : String) : List Char := Nat.toDigits 10 (utf16Length part) ++ ':' :: part.toList

/-- What is hashed for a request id, of the parts of the scope and the key. -/
def requestIdMaterial (parts : List String) : String :=
  String.ofList (List.intercalate ['|'] (parts.map lengthPrefixed))

/-- `Number.parseInt` of a hexadecimal digit. -/
def hexValue (c : Char) : Nat :=
  if c.isDigit then c.toNat - '0'.toNat else c.toLower.toNat - 'a'.toNat + 10

/-- What the id keeps of a hexadecimal digest. -/
def requestIdOfHash (hash : List Char) : String :=
  let slice (start stop : Nat) := (hash.drop start).take (stop - start)
  let variant := Nat.toDigits 16 (hexValue (hash.getD 16 '0') &&& 0x3 ||| 0x8)
  String.ofList (List.intercalate ['-']
    [slice 0 8, slice 8 12, '4' :: slice 13 16, variant ++ slice 17 20, slice 20 32])

def deriveProviderRequestId (sha256 : String → List Char) (scope : List String) (key : String) : String :=
  requestIdOfHash (sha256 (requestIdMaterial (scope ++ [key])))

/-! ## Replays -/

inductive ReplayError
  | conflict (message : String)
deriving DecidableEq

/-- `resolveIdempotencyReplay`, from the row that `findExisting` has found. -/
def resolveIdempotencyReplay {Row : Type} (idempotencyFingerprint : Row → Option String) (existing : Option Row)
    (fingerprint : String) : Except ReplayError (Option Row) :=
  match existing with
  | none => .ok none
  | some row =>
    match idempotencyFingerprint row with
    | none => .ok none
    | some stored =>
      if stored = fingerprint then .ok (some row)
      else .error (.conflict "Idempotency key already used with different request payload")

mutual

/-- The sort looks at keys only, so that the values are normalized before it. -/
def normalizeForFingerprint (localeCompare : String → String → Ordering) : JsValue → JsValue
  | .arr items => .arr (normalizeItems localeCompare items)
  | .obj members => .obj (arranged localeCompare (normalizeEntries localeCompare members))
  | v => v

def normalizeItems (localeCompare : String → String → Ordering) : List JsValue → List JsValue
  | [] => []
  | v :: items => normalizeForFingerprint localeCompare v :: normalizeItems localeCompare items

/-- The entries that are not undefined. -/
def normalizeEntries (localeCompare : String → String → Ordering) : Members JsValue → Members JsValue
  | [] => []
  | (_, .undefined) :: members => normalizeEntries localeCompare members
  | (key, v) :: members => (key, normalizeForFingerprint localeCompare v) :: normalizeEntries localeCompare members

end

/-- `JSON.stringify`. -/
def stringify (value : JsValue) : Option String := value.toTree?.map fun t => String.ofList t.text

/-- `null` for what is missing. -/
def orNull : Option JsValue → JsValue
  | none => .null
  | some v => v

structure TransferBatchFingerprintRecipientInput where
  externalId : Option String
  counterpartyId : String
  counterpartyAccountId : String
  destinationAddress : String
  amount : String
deriving DecidableEq

def TransferBatchFingerprintRecipientInput.value (recipient : TransferBatchFingerprintRecipientInput) : JsValue :=
  .obj [("externalId", orNull (recipient.externalId.map .str)), ("counterpartyId", .str recipient.counterpartyId),
    ("counterpartyAccountId", .str recipient.counterpartyAccountId),
    ("destinationAddress", .str recipient.destinationAddress), ("amount", .str recipient.amount)]

structure TransferBatchFingerprintInput where
  sourceAddress : String
  token : String
  recipients : List TransferBatchFingerprintRecipientInput
  options : Option { members : Members JsValue // (JsValue.obj members).UniqueKeys }

def TransferBatchFingerprintInput.value (input : TransferBatchFingerprintInput) : JsValue :=
  .obj [("scope", .str "payment_transfer_batch"), ("sourceAddress", .str input.sourceAddress), ("token", .str input.token),
    ("recipients", .arr (input.recipients.map TransferBatchFingerprintRecipientInput.value)),
    ("options", orNull (input.options.map fun options => .obj options.1))]

def buildTransferBatchFingerprint (localeCompare : String → String → Ordering) (input : TransferBatchFingerprintInput) :
    Option String :=
  stringify (normalizeForFingerprint localeCompare input.value)

/-! ## Vault movements -/

/-- `replace(/^0+(?=\d)/, "")`: of zeros that no other digit follows the last one stays. -/
def stripLeadingZeros (integer : List Char) : List Char :=
  let rest := integer.dropWhile (· = '0')
  if rest.length = integer.length ∨ rest.head?.any Char.isDigit then rest else '0' :: rest

def normalizeDecimalString (value : String) : String :=
  let parts := value.toList.splitOn '.'
  let integer := parts.getD 0 ['0']
  let fraction := parts.getD 1 []
  let stripped := stripLeadingZeros integer
  let normalizedInteger := if stripped = [] then ['0'] else stripped
  let normalizedFraction := (fraction.reverse.dropWhile (· = '0')).reverse
  String.ofList (if normalizedFraction = [] then normalizedInteger else normalizedInteger ++ '.' :: normalizedFraction)

structure EarnVaultDepositFingerprintInput where
  environment : String
  provider : String
  providerReference : String
  custodyWalletId : String
  amount : String
  minSharesOut : Option String

def EarnVaultDepositFingerprintInput.value (input : EarnVaultDepositFingerprintInput) : JsValue :=
  .obj [("scope", .str "earn_vault_deposit"), ("environment", .str input.environment), ("provider", .str input.provider),
    ("providerReference", .str input.providerReference), ("custodyWalletId", .str input.custodyWalletId),
    ("direction", .str "deposit"), ("amount", .str (normalizeDecimalString input.amount)),
    ("minSharesOut", orNull (input.minSharesOut.map fun floor => .str (normalizeDecimalString floor)))]

def buildEarnVaultDepositFingerprint (localeCompare : String → String → Ordering)
    (input : EarnVaultDepositFingerprintInput) : Option String :=
  stringify (normalizeForFingerprint localeCompare input.value)

structure EarnVaultWithdrawalFingerprintInput where
  environment : String
  provider : String
  positionId : String
  shares : String

def EarnVaultWithdrawalFingerprintInput.value (input : EarnVaultWithdrawalFingerprintInput) : JsValue :=
  .obj [("scope", .str "earn_vault_withdrawal"), ("environment", .str input.environment), ("provider", .str input.provider),
    ("positionId", .str input.positionId), ("direction", .str "withdrawal"),
    ("shares", .str (normalizeDecimalString input.shares))]

def buildEarnVaultWithdrawalFingerprint (localeCompare : String → String → Ordering)
    (input : EarnVaultWithdrawalFingerprintInput) : Option String :=
  stringify (normalizeForFingerprint localeCompare input.value)

def areDigits (digits : List Char) : Bool := !digits.isEmpty && digits.all Char.isDigit

/-- `/^\d+(\.\d+)?$/` -/
def isDecimalPattern (value : List Char) : Bool :=
  match value.splitOn '.' with
  | [whole] => areDigits whole
  | [whole, fraction] => areDigits whole && areDigits fraction
  | _ => false

/-- The schema of `amount`, `minSharesOut` and `shares`. -/
def acceptsAmount (value : String) : Bool :=
  decide (value.length ≤ 128) && isDecimalPattern value.toList && value.toList.any fun c => '1' ≤ c && c ≤ '9'

end Sdp.Idempotency
