import Sdp.Code.TokenSupply
import Sdp.Code.TransferBatches

/-!
# The chunks of a batch, with their amounts

From `routes/payments/handlers/transfer-batches/transaction.ts` and `sumDecimalAmounts` of
`packages/sdp-payments/src/decimal.ts`. The size of the transaction that is built from groups is a parameter, since
only `@solana/kit` knows it. Its memo is always of one length, and nothing else that is random goes into it.
-/

open Sdp.Amount Sdp.Issuance

namespace Sdp.Chunks

/-- The unsigned values with 128 bits of `@solana/fixed-points`. With so many decimals a plain text with no more places is
read and a value is written, and two values are added, exactly or not at all. -/
structure FixedPoints where
  decimalFixedPoint : Nat → String → Option Nat
  addDecimalFixedPoint : Nat → Nat → Option Nat
  decimalFixedPointToString : Nat → Nat → String
  read_plain : ∀ decimals text raw, plainDecimal text = true → parseDecimalAmount text decimals = .ok raw →
    decimalFixedPoint decimals text = if raw < 2 ^ 128 then some raw else none
  add_eq : ∀ a b, addDecimalFixedPoint a b = if a + b < 2 ^ 128 then some (a + b) else none
  write_exact : ∀ decimals raw, parseDecimalAmount (decimalFixedPointToString decimals raw) decimals = .ok raw

inductive ChunkError
  | invalidAmount
  /-- The library throws. -/
  | fixedPoint
  | transactionTooLarge (recipientCount : Nat)
deriving DecidableEq, Repr

/-- What `badRequest` says. -/
def ChunkError.message : ChunkError → Option String
  | .invalidAmount => some "Invalid amount format"
  | .fixedPoint => none
  | .transactionTooLarge _ => some "A batch transaction exceeds Solana transaction size limits"

/-! ## Amounts -/

section Amounts

variable (fp : FixedPoints)

def parseAmount (value : String) (decimals : Nat) : Except ChunkError Nat :=
  let normalized := String.ofList (trim value.toList)
  if !isDecimalString normalized then .error .invalidAmount
  else
    match fp.decimalFixedPoint decimals normalized with
    | some raw => .ok raw
    | none => .error .fixedPoint

/-- `reduce(addDecimalFixedPoint)` from the first value on. -/
def addAll (total : Nat) : List Nat → Except ChunkError Nat
  | [] => .ok total
  | value :: values =>
    match fp.addDecimalFixedPoint total value with
    | some total => addAll total values
    | none => .error .fixedPoint

def largestScale (amounts : List String) : Nat := amounts.foldl (fun scale amount => max scale (decimalScale amount)) 0

def sumDecimalAmounts (amounts : List String) : Except ChunkError String := do
  let scale := largestScale amounts
  match ← amounts.mapM (parseAmount fp · scale) with
  | [] => return "0"
  | value :: values => return fp.decimalFixedPointToString scale (← addAll fp value values)

end Amounts

/-! ## Chunks -/

/-- A recipient as `resolveRecipients` makes it for a token with so many decimals, with the instructions that pay it. Of
the base units an instruction has room for 64 bits. -/
structure RecipientInstructionGroup (decimals : Nat) (Instruction : Type) where
  index : Nat
  amount : String
  amountBaseUnits : Nat
  instructions : List Instruction
  formatted : amount = formatDecimalAmount amountBaseUnits decimals
  encoded : amountBaseUnits < 2 ^ 64

/-- Without the instructions and the message, which are those that the size is taken of. -/
structure TransactionChunk where
  recipientIndexes : List Nat
  amount : String
deriving DecidableEq

section Chunks

variable {decimals : Nat} {Instruction : Type} (fp : FixedPoints)
  (fits : List (RecipientInstructionGroup decimals Instruction) → Bool) (maxRecipientsPerTransaction : Nat)

def buildCandidateChunk (groups : List (RecipientInstructionGroup decimals Instruction)) :
    Except ChunkError TransactionChunk := do
  let amount ← sumDecimalAmounts fp (groups.map (·.amount))
  return { recipientIndexes := groups.map (·.index), amount }

def assertTransactionFits (groups : List (RecipientInstructionGroup decimals Instruction)) (chunk : TransactionChunk) :
    Except ChunkError Unit :=
  if fits groups then .ok () else .error (.transactionTooLarge chunk.recipientIndexes.length)

def flush (chunks : List TransactionChunk) (pending : List (RecipientInstructionGroup decimals Instruction)) :
    Except ChunkError (List TransactionChunk) :=
  if pending.isEmpty then .ok chunks
  else do
    let chunk ← buildCandidateChunk fp pending
    assertTransactionFits fits pending chunk
    return chunks ++ [chunk]

def chunkLoop : List (RecipientInstructionGroup decimals Instruction) → List TransactionChunk →
    List (RecipientInstructionGroup decimals Instruction) → Except ChunkError (List TransactionChunk)
  | [], chunks, pending => flush fp fits chunks pending
  | group :: groups, chunks, pending => do
    let full : Bool := maxRecipientsPerTransaction ≤ pending.length
    let chunks ← bif full then flush fp fits chunks pending else .ok chunks
    let pending := bif full then [] else pending
    let _ ← buildCandidateChunk fp (pending ++ [group])
    if fits (pending ++ [group]) then chunkLoop groups chunks (pending ++ [group])
    else
      let chunks ← flush fp fits chunks pending
      let chunk ← buildCandidateChunk fp [group]
      assertTransactionFits fits [group] chunk
      chunkLoop groups chunks [group]

def chunkInstructionGroups (groups : List (RecipientInstructionGroup decimals Instruction)) :
    Except ChunkError (List TransactionChunk) :=
  chunkLoop fp fits maxRecipientsPerTransaction groups [] []

end Chunks

end Sdp.Chunks
