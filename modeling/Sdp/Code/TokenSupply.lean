import Sdp.Code.Amount
import Sdp.Lib.Run
import Sdp.Lib.Table

/-!
# The recorded supply of a token

`reserveMintSupply`, `applySettledBurnSupply`, `setSupplyFromBaseUnits` and the cap of `updateToken`
from `services/token.service.ts`, with the steps of `routes/issuance/handlers/mint.ts`, `burn.ts` and
`supply.ts` around them. One deployed token, the mint account of it and any number of requests. Times
are milliseconds, and each landing on chain takes a slot of its own.

The refresh is one statement, but its `FROM` subquery reads the statement's snapshot and the row is
written later. `toMosaicAmount` refuses some more amounts and changes none.
-/

open Sdp.Lib Sdp.Amount

namespace Sdp.Issuance

def mintInFlightWindowMs : Nat := 5 * 60 * 1000

inductive TransactionStatus
  | pending | processing | confirmed | finalized | failed
deriving DecidableEq

/-- `status IN ('pending', 'processing', 'failed')` -/
def TransactionStatus.unsettled : TransactionStatus → Bool
  | .pending | .processing | .failed => true
  | .confirmed | .finalized => false

structure IssuedToken where
  decimals : Nat
  maxSupply : Option Nat
  /-- Every reader takes `NULL` for `0`. -/
  totalSupplyCached : Nat
  totalSupplyUpdatedAt : Option Nat

/-- How far the Solana transaction of a mint has come. -/
inductive MintStage
  | created
  /-- The cap left no room. -/
  | refused
  /-- Reserved, and able to land. -/
  | admitted
  | landed (slot : Nat)
  | expired
deriving DecidableEq

def MintStage.hasLanded : MintStage → Bool
  | .landed _ => true
  | _ => false

structure MintTransaction where
  id : Nat
  amount : String
  amountBaseUnits : Nat
  status : TransactionStatus
  updatedAt : Nat
  stage : MintStage
deriving DecidableEq

structure BurnTransaction where
  id : Nat
  amountBaseUnits : Nat
  /-- Rows from before the column have none. -/
  supplyBaselineUpdatedAt : Option (Option Nat)
  supplyBookkeepingAppliedAt : Option Nat
  landedAt : Option Nat
  /-- What the bookkeeping took off the recorded supply. -/
  subtracted : Nat
  /-- How far a refresh had read that was written before the bookkeeping. -/
  reconciledSlot : Nat
deriving DecidableEq

abbrev MintTable := Table Nat MintTransaction MintTransaction.id

abbrev BurnTable := Table Nat BurnTransaction BurnTransaction.id

/-! ## Reservations and burns -/

/-- `none` when the cap refuses it. -/
def reserveMintSupply (token : IssuedToken) (deltaBaseUnits now : Nat) : Option IssuedToken :=
  if token.maxSupply.all fun cap => token.totalSupplyCached + deltaBaseUnits ≤ cap then
    some { token with
      totalSupplyCached := token.totalSupplyCached + deltaBaseUnits
      totalSupplyUpdatedAt := some now }
  else none

def supplyChangedSinceAdmission (token : IssuedToken) (burn : BurnTransaction) : Bool :=
  burn.supplyBaselineUpdatedAt.any fun baseline => baseline ≠ token.totalSupplyUpdatedAt

/-- `GREATEST(… - …, 0)` is the subtraction of `Nat`. -/
def applySettledBurnSupply (token : IssuedToken) (burn : BurnTransaction) (now reconciledSlot : Nat) :
    IssuedToken × BurnTransaction :=
  if burn.supplyBookkeepingAppliedAt.isSome then (token, burn)
  else if supplyChangedSinceAdmission token burn then
    (token, { burn with supplyBookkeepingAppliedAt := some now, reconciledSlot })
  else
    let supply := token.totalSupplyCached - burn.amountBaseUnits
    ({ token with totalSupplyCached := supply, totalSupplyUpdatedAt := some now },
      { burn with
        supplyBookkeepingAppliedAt := some now
        subtracted := token.totalSupplyCached - supply
        reconciledSlot })

/-! ## Refreshes -/

/-- `amount ~ '^\d+(\.\d+)?$'` -/
def plainDecimal (amount : String) : Bool :=
  match amount.toList.splitOn '.' with
  | [whole] => whole ≠ [] ∧ whole.all isDigit
  | [whole, fraction] => (whole ≠ [] ∧ whole.all isDigit) ∧ fraction ≠ [] ∧ fraction.all isDigit
  | _ => false

/-- `trunc(amount::numeric * 10 ^ decimals, 0)`, or `0` for a text that is no plain decimal. -/
def liveAmount (amount : String) (decimals : Nat) : Nat :=
  if plainDecimal amount then
    let parts := normalizeDecimalParts amount.toList
    digitsValue (parts.whole ++ parts.fraction) * 10 ^ decimals / 10 ^ parts.fraction.length
  else 0

/-- The `WHERE` of `live`. -/
def isLive (since : Nat) (mint : MintTransaction) : Bool := mint.status.unsettled && since ≤ mint.updatedAt

def liveReserved (mints : MintTable) (decimals since : Nat) : Nat :=
  mints.sum fun mint => if isLive since mint then liveAmount mint.amount decimals else 0

/-- The subquery `resolved`. -/
def resolvedSupply (token : IssuedToken) (mints : MintTable) (supplyBaseUnits since : Nat) : Nat :=
  max supplyBaseUnits (min token.totalSupplyCached (supplyBaseUnits + liveReserved mints token.decimals since))

/-- The `UPDATE` with what `resolved` gave. -/
def setSupply (token : IssuedToken) (supplyBaseUnits supply now : Nat) : IssuedToken :=
  { token with
    totalSupplyCached := supply
    totalSupplyUpdatedAt := if supply = supplyBaseUnits then some now else token.totalSupplyUpdatedAt }

/-- Where a call of `refreshTokenSupply` stands. -/
inductive Refresh
  | idle
  /-- The RPC answered with the supply at a slot. -/
  | read (supplyBaseUnits slot : Nat)
  | called (supplyBaseUnits slot now : Nat)
  /-- The statement has its snapshot; so many reservations were in it. -/
  | resolved (supplyBaseUnits slot now supply reservations : Nat)
  | done
deriving DecidableEq

/-- Where a call of `updateToken` with a cap stands. -/
inductive CapChange
  | idle
  /-- `_resolveMaxSupplyBaseUnits` compared the cap with the supply. -/
  | checked (maxSupply supply : Nat)
  | done
deriving DecidableEq

/-! ## The machine -/

structure System where
  now : Nat
  slot : Nat
  /-- What the mint account holds. -/
  chainSupply : Nat
  token : IssuedToken
  mints : MintTable
  burns : BurnTable
  refreshes : Nat → Refresh
  capChanges : Nat → CapChange
  /-- How many reservations are committed. -/
  reservations : Nat
  /-- How far a written refresh had read. -/
  reconciledSlot : Nat

inductive Step
  | elapse (now : Nat)
  | createMint (id : Nat) (amount : String)
  /-- With the time that the request took before the statement. -/
  | reserveMint (id time : Nat)
  /-- `updateTransaction` -/
  | updateMint (id : Nat) (status : TransactionStatus)
  | landMint (id : Nat)
  | expireMint (id : Nat)
  /-- `executeBurn` reads the token and creates the row. -/
  | admitBurn (id : Nat) (amount : String)
  | landBurn (id : Nat)
  | bookkeepBurn (id time : Nat)
  | checkCap (n : Nat) (maxSupply : String)
  | writeCap (n : Nat)
  | clearCap
  | readSupply (n : Nat)
  | callRefresh (n : Nat)
  | resolveRefresh (n : Nat)
  | writeRefresh (n : Nat)
deriving DecidableEq

/-- What the request schema and `parsePositiveTokenAmount` let through. -/
def parsePositiveTokenAmount (amount : String) (decimals : Nat) : Option Nat :=
  if isDecimalString amount then
    match parseDecimalAmount amount decimals with
    | .ok amountBaseUnits => if 0 < amountBaseUnits then some amountBaseUnits else none
    | .error _ => none
  else none

def admittedBurn (token : IssuedToken) (id amountBaseUnits : Nat) : BurnTransaction :=
  { id
    amountBaseUnits
    supplyBaselineUpdatedAt := some token.totalSupplyUpdatedAt
    supplyBookkeepingAppliedAt := none
    landedAt := none
    subtracted := 0
    reconciledSlot := 0 }

def setStage (stage : MintStage) (mint : MintTransaction) : MintTransaction := { mint with stage }

def setStatus (status : TransactionStatus) (now : Nat) (mint : MintTransaction) : MintTransaction :=
  { mint with status, updatedAt := now }

def setLanded (slot : Nat) (burn : BurnTransaction) : BurnTransaction := { burn with landedAt := some slot }

/-- The row that a booking leaves. -/
def setBooked (burn' burn : BurnTransaction) : BurnTransaction := { burn' with id := burn.id }

namespace System

def setMint (s : System) (id : Nat) (stage : MintStage) : System :=
  { s with mints := s.mints.update id (fun _ => true) (setStage stage) fun _ => rfl }

/-- No mint can still land when its window is over. -/
def elapse (s : System) (now : Nat) : Option System :=
  if s.now ≤ now ∧ ∀ mint ∈ s.mints.rows,
      mint.stage = .admitted → now ≤ mint.updatedAt + mintInFlightWindowMs then some { s with now }
  else none

def createMint (s : System) (id : Nat) (amount : String) : Option System :=
  match s.mints.find? id, parsePositiveTokenAmount amount s.token.decimals with
  | none, some amountBaseUnits =>
    let mint := { id, amount, amountBaseUnits, status := .pending, updatedAt := s.now, stage := .created }
    some { s with mints := s.mints.insertNew mint }
  | _, _ => none

def reserveMint (s : System) (id time : Nat) : Option System :=
  match s.mints.find? id with
  | some mint =>
    if mint.stage = .created ∧ time ≤ s.now then
      match reserveMintSupply s.token mint.amountBaseUnits time with
      | some token =>
        let stage := if s.now ≤ mint.updatedAt + mintInFlightWindowMs then .admitted else .expired
        some { s.setMint id stage with token, reservations := s.reservations + 1 }
      | none => some (s.setMint id .refused)
    else none
  | none => none

/-- A mint is recorded as settled after it landed. -/
def updateMint (s : System) (id : Nat) (status : TransactionStatus) : Option System :=
  match s.mints.find? id with
  | some mint =>
    if status.unsettled ∨ mint.stage.hasLanded then
      some { s with mints := s.mints.update id (fun _ => true) (setStatus status s.now) fun _ => rfl }
    else none
  | none => none

def landMint (s : System) (id : Nat) : Option System :=
  match s.mints.find? id with
  | some mint =>
    if mint.stage = .admitted then
      some { s.setMint id (.landed (s.slot + 1)) with
        slot := s.slot + 1, chainSupply := s.chainSupply + mint.amountBaseUnits }
    else none
  | none => none

def expireMint (s : System) (id : Nat) : Option System :=
  match s.mints.find? id with
  | some mint => if mint.stage = .admitted then some (s.setMint id .expired) else none
  | none => none

def admitBurn (s : System) (id : Nat) (amount : String) : Option System :=
  match s.burns.find? id, parsePositiveTokenAmount amount s.token.decimals with
  | none, some amountBaseUnits =>
    some { s with burns := s.burns.insertNew (admittedBurn s.token id amountBaseUnits) }
  | _, _ => none

def landBurn (s : System) (id : Nat) : Option System :=
  match s.burns.find? id with
  | some burn =>
    if burn.landedAt = none ∧ burn.amountBaseUnits ≤ s.chainSupply then
      some { s with
        slot := s.slot + 1
        chainSupply := s.chainSupply - burn.amountBaseUnits
        burns := s.burns.update id (fun _ => true) (setLanded (s.slot + 1)) fun _ => rfl }
    else none
  | none => none

/-- The first attempt, a retry or a replay: the row says `confirmed`. -/
def bookkeepBurn (s : System) (id time : Nat) : Option System :=
  match s.burns.find? id with
  | some burn =>
    if burn.landedAt.isSome ∧ time ≤ s.now then
      let (token, burn') := applySettledBurnSupply s.token burn time s.reconciledSlot
      some { s with
        token
        burns := s.burns.update id (fun _ => true) (setBooked burn') fun _ => rfl }
    else none
  | none => none

def setCapChange (s : System) (n : Nat) (change : CapChange) : System :=
  { s with capChanges := Function.update s.capChanges n change }

def checkCap (s : System) (n : Nat) (maxSupply : String) : Option System :=
  if s.capChanges n = .idle then
    match parseDecimalAmount maxSupply s.token.decimals with
    | .ok cap =>
      if s.token.totalSupplyCached ≤ cap then some (s.setCapChange n (.checked cap s.token.totalSupplyCached))
      else some (s.setCapChange n .done)
    | .error _ => some (s.setCapChange n .done)
  else none

/-- `COALESCE(total_supply_cached, '0') = ?` -/
def writeCap (s : System) (n : Nat) : Option System :=
  match s.capChanges n with
  | .checked maxSupply supply =>
    if s.token.totalSupplyCached = supply then
      some ({ s with token := { s.token with maxSupply := some maxSupply } }.setCapChange n .done)
    else some (s.setCapChange n .done)
  | _ => none

def setRefresh (s : System) (n : Nat) (refresh : Refresh) : System :=
  { s with refreshes := Function.update s.refreshes n refresh }

/-- `getTokenSupply` of the RPC -/
def readSupply (s : System) (n : Nat) : Option System :=
  match s.refreshes n with
  | .idle => some (s.setRefresh n (.read s.chainSupply s.slot))
  | _ => none

def callRefresh (s : System) (n : Nat) : Option System :=
  match s.refreshes n with
  | .read reading slot => some (s.setRefresh n (.called reading slot s.now))
  | _ => none

def resolveRefresh (s : System) (n : Nat) : Option System :=
  match s.refreshes n with
  | .called reading slot now =>
    some (s.setRefresh n (.resolved reading slot now
      (resolvedSupply s.token s.mints reading (now - mintInFlightWindowMs)) s.reservations))
  | _ => none

def writeRefresh (s : System) (n : Nat) : Option System :=
  match s.refreshes n with
  | .resolved reading slot now supply _ =>
    some ({ s with
      token := setSupply s.token reading supply now
      reconciledSlot := max s.reconciledSlot slot }.setRefresh n .done)
  | _ => none

def step (s : System) : Step → Option System
  | .elapse now => s.elapse now
  | .createMint id amount => s.createMint id amount
  | .reserveMint id time => s.reserveMint id time
  | .updateMint id status => s.updateMint id status
  | .landMint id => s.landMint id
  | .expireMint id => s.expireMint id
  | .admitBurn id amount => s.admitBurn id amount
  | .landBurn id => s.landBurn id
  | .bookkeepBurn id time => s.bookkeepBurn id time
  | .checkCap n maxSupply => s.checkCap n maxSupply
  | .writeCap n => s.writeCap n
  | .clearCap => some { s with token := { s.token with maxSupply := none } }
  | .readSupply n => s.readSupply n
  | .callRefresh n => s.callRefresh n
  | .resolveRefresh n => s.resolveRefresh n
  | .writeRefresh n => s.writeRefresh n

end System

end Sdp.Issuance
