import Sdp.Code.Transfers
import Mathlib.Data.Rat.Defs
import Mathlib.Logic.Function.Basic

/-!
# Ramp settlements

From `routes/webhooks/ramps/settlements.ts`, `bvnk.ts` and `mural.ts`, `createOnrampQuote` and
`cancelRampTransfer` in `routes/payments/handlers/ramps.ts`, the statements of
`db/repositories/payments.repository.postgres.ts` that they call, and the unique indexes of
`0008_payment_transfer_ramp_attributes.sql` and `0047_ramp_settlement_integrity.sql`. Any number of
handlers run over one database, and each of their statements is a step. Of `provider_data` only the
keys that a handler reads or writes are here. Counterparties do not change.
-/

open Sdp.Lib

namespace Sdp.Ramps

open Payments (PaymentTransferStatus PaymentTransferType)

/-! ## Rows -/

inductive RampProviderId
  | moonpay | lightspark | bvnk | moneygram | coinbase | mural | stripe
deriving DecidableEq, Repr

/-- The JSON text of a settlement's economics. -/
abbrev RampTransferSettlement := String

structure MuralTransferData where
  accountId : Option String := none
  accountCreditedDeliveryId : Option String := none
deriving DecidableEq

structure ProviderData where
  /-- `bvnk.fundingWalletId` -/
  fundingWalletId : Option String := none
  mural : Option MuralTransferData := none
  settlement : Option RampTransferSettlement := none
deriving DecidableEq

structure PaymentTransferRow where
  id : String
  organizationId : String
  projectId : Option String
  counterpartyId : Option String
  token : String
  amount : Option String
  type : PaymentTransferType
  status : PaymentTransferStatus
  provider : Option RampProviderId
  providerReference : Option String
  fiatCurrency : Option String
  fiatAmount : Option String
  providerData : ProviderData
  error : Option String
  updatedAt : Nat
deriving DecidableEq

abbrev TransferTable := Table String PaymentTransferRow (·.id)

def PaymentTransferRow.deliveryId (r : PaymentTransferRow) : Option String :=
  r.providerData.mural.bind (·.accountCreditedDeliveryId)

structure CounterpartyRow where
  id : String
  organizationId : String
  projectId : Option String
  active : Bool
  /-- The denormalized column, and the reference in `provider_data`. -/
  bvnkCustomerReference : Option String × Option String
  muralOrganizationId : Option String × Option String
deriving DecidableEq

/-- The row that a query with `LIMIT 2` returns alone. -/
def sole {α : Type} : List α → Option α
  | [a] => some a
  | _ => none

def refersTo (columns : Option String × Option String) (reference : String) : Bool :=
  columns.1 = some reference ∨ columns.1 = none ∧ columns.2 = some reference

def findActiveCounterpartyByBvnkCustomerReference (rows : List CounterpartyRow) (reference : String) :
    Option CounterpartyRow :=
  sole (rows.filter fun r => r.active ∧ refersTo r.bvnkCustomerReference reference)

def findCounterpartyByMuralOrganizationId (rows : List CounterpartyRow) (organizationId : String) :
    Option CounterpartyRow :=
  sole (rows.filter fun r => r.active ∧ refersTo r.muralOrganizationId organizationId)

/-! ## Statements -/

/-- What an update of a transfer writes; a missing field keeps its column. -/
structure TransferUpdate where
  toStatus : PaymentTransferStatus
  amount : Option String := none
  fiatAmount : Option String := none
  mural : Option MuralTransferData := none
  settlement : Option RampTransferSettlement := none
  error : Option String := none
  updatedAt : Nat

/-- `provider_data || patch` replaces the keys of the patch. -/
def TransferUpdate.set (u : TransferUpdate) (r : PaymentTransferRow) : PaymentTransferRow :=
  { r with
    status := u.toStatus
    amount := u.amount.or r.amount
    fiatAmount := u.fiatAmount.or r.fiatAmount
    providerData := { r.providerData with
      mural := u.mural.or r.providerData.mural
      settlement := u.settlement.or r.providerData.settlement }
    error := u.error.or r.error
    updatedAt := u.updatedAt }

/-- The `WHERE` of `updateTransferStatusGuarded`, of the transfer that was read. -/
def guarded (transfer : PaymentTransferRow) (fromStatuses : List PaymentTransferStatus) (r : PaymentTransferRow) :
    Bool :=
  r.organizationId = transfer.organizationId ∧ r.projectId = transfer.projectId ∧ r.status ∈ fromStatuses

def getTransferByProviderReference (t : TransferTable) (provider : RampProviderId) (reference : String) :
    Option PaymentTransferRow :=
  t.rows.find? fun r => r.provider = some provider ∧ r.providerReference = some reference

def getTransferById (t : TransferTable) (id organizationId : String) (projectId : Option String) :
    Option PaymentTransferRow :=
  (t.find? id).filter fun r => r.organizationId = organizationId ∧ r.projectId = projectId

/-! ## Settlement events -/

inductive RampSettlementKind
  | awaitingPayment
  | settling
  | settled (receivedAmount : Option String) (settlement : Option RampTransferSettlement)
  | failed (error : Option String) (settlement : Option RampTransferSettlement)
  | expired (error : Option String) (settlement : Option RampTransferSettlement)
deriving DecidableEq

inductive RampSettlementEvent
  | ignore
  | event (provider : RampProviderId) (reference : String) (kind : RampSettlementKind)
deriving DecidableEq

def RampSettlementKind.status : RampSettlementKind → PaymentTransferStatus
  | .awaitingPayment => .awaitingPayment
  | .settling => .settling
  | .settled .. => .completed
  | .failed .. => .failed
  | .expired .. => .expired

def terminalRampTransferStatuses : List PaymentTransferStatus := [.completed, .failed, .expired, .canceled]

def liveStatuses : List PaymentTransferStatus := [.pending, .awaitingPayment, .settling]

/-- `ALLOWED_RAMP_SETTLEMENT_SOURCE_STATUSES` -/
def RampSettlementKind.sources : RampSettlementKind → List PaymentTransferStatus
  | .awaitingPayment => [.pending]
  | .settling => [.pending, .awaitingPayment]
  | .settled .. | .failed .. | .expired .. => [.pending, .awaitingPayment, .settling]

/-- An empty string is falsy. -/
def truthy (value : Option String) : Option String := value.filter (· ≠ "")

def settlementUpdate (kind : RampSettlementKind) (transfer : PaymentTransferRow) (now : Nat) : TransferUpdate :=
  match kind with
  | .awaitingPayment | .settling => { toStatus := kind.status, updatedAt := now }
  | .settled receivedAmount settlement =>
    { toStatus := kind.status, settlement, updatedAt := now
      amount := if transfer.type = .offramp then none else truthy receivedAmount
      fiatAmount := if transfer.type = .offramp then truthy receivedAmount else none }
  | .failed error settlement | .expired error settlement =>
    { toStatus := kind.status, settlement, updatedAt := now, error := truthy error }

/-- The input of `emitRampSettled`. -/
structure RampSettled where
  organizationId : String
  projectId : String
  direction : PaymentTransferType
  transferId : String
  provider : Option RampProviderId
  counterpartyId : Option String
  amount : Option String
  fiatCurrency : Option String
  cryptoToken : String
deriving DecidableEq

def rampSettled (transfer : PaymentTransferRow) (projectId : String) (amount : Option String) : RampSettled where
  organizationId := transfer.organizationId
  projectId := projectId
  direction := if transfer.type = .offramp then .offramp else .onramp
  transferId := transfer.id
  provider := transfer.provider
  counterpartyId := transfer.counterpartyId
  amount := amount
  fiatCurrency := transfer.fiatCurrency
  cryptoToken := transfer.token

/-! ## Pay-ins -/

/-- `bvnk:payment:payin:status-change`. The payment's own reference is in the payload, and `parse` drops it. -/
structure BvnkPayin where
  reference : String
  customerReference : Option String
  walletId : Option String
  status : Option String
  amount : Option String
deriving DecidableEq

/-- `account_credited` -/
structure MuralCredit where
  organizationId : String
  accountId : String
  tokenAmount : String
  deliveryId : String
deriving DecidableEq

structure BvnkChannelTransaction where
  transferId : Option String
  /-- `transaction-confirmed`, or else `transaction-detected`. -/
  confirmed : Bool
  walletAmount : Option String
  displayAmount : Option String
deriving DecidableEq

/-- What the handler checks before it reads. -/
def BvnkPayin.isCompleted (p : BvnkPayin) : Bool :=
  p.status = some "COMPLETED" ∧ (truthy p.customerReference).isSome ∧ (truthy p.walletId).isSome ∧
    (truthy p.amount).isSome

inductive Payin
  | bvnk (p : BvnkPayin)
  | mural (e : MuralCredit)
deriving DecidableEq

def belongsTo (counterparty : CounterpartyRow) (provider : RampProviderId) (r : PaymentTransferRow) : Bool :=
  r.organizationId = counterparty.organizationId ∧ r.projectId = counterparty.projectId ∧
    r.counterpartyId = some counterparty.id ∧ r.provider = some provider ∧ r.type = .onramp

/-- `numeric` is the cast of the same name. The amount of a quote is a decimal, and an amount of a pay-in that is none
stops the handler. -/
def payinMatches (numeric : String → Option ℚ) (counterparty : CounterpartyRow) : Payin → PaymentTransferRow → Bool
  | .bvnk p, r =>
    belongsTo counterparty .bvnk r ∧ r.status ∈ liveStatuses ∧
      p.walletId.isSome ∧ r.providerData.fundingWalletId = p.walletId ∧
      (p.amount.bind numeric).isSome ∧ r.fiatAmount.bind numeric = p.amount.bind numeric
  | .mural e, r =>
    belongsTo counterparty .mural r ∧ r.status = .awaitingPayment ∧
      r.providerData.mural.bind (·.accountId) = some e.accountId

def matchingIds (t : TransferTable) (p : PaymentTransferRow → Bool) : List String := (t.rows.filter p).map (·.id)

def isReplay (t : TransferTable) (deliveryId : String) : Bool :=
  t.rows.any fun r => r.provider = some .mural ∧ r.deliveryId = some deliveryId

/-! ## Handlers -/

inductive Delivery
  | settlement (event : RampSettlementEvent)
  | payin (p : BvnkPayin)
  | channel (e : BvnkChannelTransaction)
  | credited (e : MuralCredit)
deriving DecidableEq

/-- What a delivery has in hand for its next statement. -/
inductive Handler
  | idle
  | received (delivery : Delivery)
  /-- `applyRampSettlementEvent` has read the transfer. -/
  | applying (kind : RampSettlementKind) (transfer : PaymentTransferRow)
  | found (payin : Payin) (counterparty : CounterpartyRow)
  /-- No transfer has the delivery's id. -/
  | unused (e : MuralCredit) (counterparty : CounterpartyRow)
  | matched (payin : Payin) (counterparty : CounterpartyRow) (id : String)
  | loaded (payin : Payin) (transfer : PaymentTransferRow)
  | announcing (event : RampSettled)
  | done

/-- The transfers that matched a pay-in when it settled one. -/
structure PayinSettlement where
  payin : Payin
  transferId : String
  matching : List String
deriving DecidableEq

structure System where
  now : Nat
  transfers : TransferTable
  counterparties : List CounterpartyRow
  numeric : String → Option ℚ
  handlers : Nat → Handler
  /-- `emitRampSettled`, with the handler that called it. -/
  announced : List (Nat × RampSettled)
  /-- The rows that a handler's write moved to `completed`; for the statements only. -/
  completed : List (Nat × PaymentTransferRow)
  /-- For the statements only. -/
  payins : List PayinSettlement

structure OnrampQuote where
  transferId : String
  organizationId : String
  projectId : String
  counterpartyId : String
  token : String
  provider : RampProviderId
  quoteId : String
  /-- `rampQuoteTransferStatus` of the quote. -/
  status : PaymentTransferStatus
  fiatCurrency : Option String
  fiatAmount : String
  fundingWalletId : Option String
  muralAccountId : Option String

def OnrampQuote.row (q : OnrampQuote) (now : Nat) : PaymentTransferRow where
  id := q.transferId
  organizationId := q.organizationId
  projectId := some q.projectId
  counterpartyId := some q.counterpartyId
  token := q.token
  amount := none
  type := .onramp
  status := q.status
  provider := some q.provider
  providerReference := some q.quoteId
  fiatCurrency := q.fiatCurrency
  fiatAmount := some q.fiatAmount
  providerData := { fundingWalletId := q.fundingWalletId, mural := q.muralAccountId.map fun id => { accountId := some id } }
  error := none
  updatedAt := now

inductive Step
  | elapse (ms : Nat)
  | deliver (n : Nat) (delivery : Delivery)
  /-- The next statement of the handler. -/
  | next (n : Nat)
  | createOnrampQuote (q : OnrampQuote)
  | cancelRampTransfer (provider : RampProviderId) (reference organizationId projectId : String)

namespace System

def setHandler (s : System) (n : Nat) (handler : Handler) : System :=
  { s with handlers := Function.update s.handlers n handler }

/-- The row that the update returns. -/
def returning (s : System) (id : String) (guard : PaymentTransferRow → Bool) (u : TransferUpdate) :
    Option PaymentTransferRow :=
  ((s.transfers.find? id).filter guard).map u.set

/-- An update of a transfer by the handler `n`. -/
def write (s : System) (n : Nat) (id : String) (guard : PaymentTransferRow → Bool) (u : TransferUpdate) : System :=
  { s with
    transfers := s.transfers.update id guard u.set fun _ => rfl
    completed :=
      if u.toStatus = .completed then (s.returning id guard u).toList.map (n, ·) ++ s.completed else s.completed }

def counterparty? (s : System) : Payin → Option CounterpartyRow
  | .bvnk p =>
    if p.isCompleted then p.customerReference.bind (findActiveCounterpartyByBvnkCustomerReference s.counterparties)
    else none
  | .mural e => findCounterpartyByMuralOrganizationId s.counterparties e.organizationId

/-- The transfers that match a pay-in. -/
def liveMatches (s : System) (payin : Payin) : List String :=
  (s.counterparty? payin).elim [] fun counterparty =>
    matchingIds s.transfers (payinMatches s.numeric counterparty payin)

def logPayin (s : System) (payin : Payin) (returned : Option PaymentTransferRow) : System :=
  { s with payins := returned.toList.map (fun r => ⟨payin, r.id, s.liveMatches payin⟩) ++ s.payins }

def payinUpdate (p : BvnkPayin) (now : Nat) : TransferUpdate :=
  { toStatus := .completed, amount := p.amount, fiatAmount := p.amount, updatedAt := now }

def channelUpdate (e : BvnkChannelTransaction) (now : Nat) : TransferUpdate :=
  { toStatus := if e.confirmed then .completed else .settling
    fiatAmount := if e.confirmed then e.walletAmount.or e.displayAmount else none
    updatedAt := now }

def channelGuard (r : PaymentTransferRow) : Bool :=
  r.provider = some .bvnk ∧ r.type = .offramp ∧ r.status ∉ terminalRampTransferStatuses

def creditUpdate (e : MuralCredit) (transfer : PaymentTransferRow) (now : Nat) : TransferUpdate :=
  { toStatus := .completed
    amount := some e.tokenAmount
    mural := some { transfer.providerData.mural.getD {} with accountCreditedDeliveryId := some e.deliveryId }
    updatedAt := now }

/-- The unique index on the delivery ids of Mural's transfers refuses the update of this one. -/
def deliveryTaken (t : TransferTable) (id deliveryId : String) : Bool :=
  t.rows.any fun r => r.id ≠ id ∧ r.provider = some .mural ∧ r.deliveryId = some deliveryId

/-- The handler looks for the only transfer that matches. -/
def matchPayin (s : System) (n : Nat) (payin : Payin) (counterparty : CounterpartyRow) : System :=
  match sole (matchingIds s.transfers (payinMatches s.numeric counterparty payin)) with
  | none => s.setHandler n .done
  | some id => s.setHandler n (.matched payin counterparty id)

def applySettlement (s : System) (n : Nat) (kind : RampSettlementKind) (transfer : PaymentTransferRow) : System :=
  let t := s.write n transfer.id (guarded transfer kind.sources) (settlementUpdate kind transfer s.now)
  match kind, truthy transfer.projectId with
  | .settled receivedAmount _, some projectId =>
    t.setHandler n (.announcing (rampSettled transfer projectId receivedAmount))
  | _, _ => t.setHandler n .done

def completePayin (s : System) (n : Nat) (p : BvnkPayin) (transfer : PaymentTransferRow) : System :=
  let guard := guarded transfer liveStatuses
  let u := payinUpdate p s.now
  ((s.logPayin (.bvnk p) (s.returning transfer.id guard u)).write n transfer.id guard u).setHandler n .done

/-- The update has found the transfer. -/
def claimCredit (s : System) (n : Nat) (e : MuralCredit) (transfer claimed : PaymentTransferRow) : System :=
  let t := (s.logPayin (.mural e) (some claimed)).write n transfer.id (guarded transfer [.awaitingPayment])
    (creditUpdate e transfer s.now)
  match truthy transfer.projectId with
  | none => t.setHandler n .done
  | some projectId => t.setHandler n (.announcing (rampSettled transfer projectId (some e.tokenAmount)))

def completeCredit (s : System) (n : Nat) (e : MuralCredit) (transfer : PaymentTransferRow) : System :=
  match s.returning transfer.id (guarded transfer [.awaitingPayment]) (creditUpdate e transfer s.now) with
  | none => s.setHandler n .done
  | some claimed =>
    if deliveryTaken s.transfers transfer.id e.deliveryId then s.setHandler n .done
    else s.claimCredit n e transfer claimed

/-- A handler that returns or throws is done. -/
def next (s : System) (n : Nat) : Option System :=
  match s.handlers n with
  | .idle | .done => none
  | .received (.settlement .ignore) => some (s.setHandler n .done)
  | .received (.settlement (.event provider reference kind)) =>
    match getTransferByProviderReference s.transfers provider reference with
    | none => some (s.setHandler n .done)
    | some transfer =>
      if (transfer.type = .onramp ∨ transfer.type = .offramp) ∧ transfer.status ∉ terminalRampTransferStatuses then
        some (s.setHandler n (.applying kind transfer))
      else some (s.setHandler n .done)
  | .received (.payin p) =>
    match s.counterparty? (.bvnk p) with
    | none => some (s.setHandler n .done)
    | some counterparty => some (s.setHandler n (.found (.bvnk p) counterparty))
  | .received (.channel e) =>
    match truthy e.transferId with
    | none => some (s.setHandler n .done)
    | some id => some ((s.write n id channelGuard (channelUpdate e s.now)).setHandler n .done)
  | .received (.credited e) =>
    match s.counterparty? (.mural e) with
    | none => some (s.setHandler n .done)
    | some counterparty => some (s.setHandler n (.found (.mural e) counterparty))
  | .applying kind transfer => some (s.applySettlement n kind transfer)
  | .found (.bvnk p) counterparty => some (s.matchPayin n (.bvnk p) counterparty)
  | .found (.mural e) counterparty =>
    if isReplay s.transfers e.deliveryId then some (s.setHandler n .done)
    else some (s.setHandler n (.unused e counterparty))
  | .unused e counterparty => some (s.matchPayin n (.mural e) counterparty)
  | .matched payin counterparty id =>
    match getTransferById s.transfers id counterparty.organizationId counterparty.projectId with
    | none => some (s.setHandler n .done)
    | some transfer => some (s.setHandler n (.loaded payin transfer))
  | .loaded (.bvnk p) transfer => some (s.completePayin n p transfer)
  | .loaded (.mural e) transfer => some (s.completeCredit n e transfer)
  | .announcing event => some ({ s with announced := (n, event) :: s.announced }.setHandler n .done)

/-- The unique index on the providers' references. -/
def referenceTaken (t : TransferTable) (provider : RampProviderId) (reference : String) : Bool :=
  (getTransferByProviderReference t provider reference).isSome

def cancelableStatuses : List PaymentTransferStatus := [.pending, .awaitingPayment]

def cancelGuard (provider : RampProviderId) (reference organizationId projectId : String) (r : PaymentTransferRow) :
    Bool :=
  r.provider = some provider ∧ r.providerReference = some reference ∧ r.organizationId = organizationId ∧
    r.projectId = some projectId ∧ r.status ∈ cancelableStatuses

def step (s : System) : Step → Option System
  | .elapse ms => some { s with now := s.now + ms }
  | .deliver n delivery =>
    match s.handlers n with
    | .idle => some (s.setHandler n (.received delivery))
    | _ => none
  | .next n => s.next n
  | .createOnrampQuote q =>
    if (s.transfers.find? q.transferId).isSome ∨ referenceTaken s.transfers q.provider q.quoteId then none
    else some { s with transfers := s.transfers.insertNew (q.row s.now) }
  | .cancelRampTransfer provider reference organizationId projectId =>
    match getTransferByProviderReference s.transfers provider reference with
    | none => none
    | some transfer =>
      let guard := cancelGuard provider reference organizationId projectId
      let set := ({ toStatus := .canceled, updatedAt := s.now } : TransferUpdate).set
      some { s with transfers := s.transfers.update transfer.id guard set fun _ => rfl }

end System

end Sdp.Ramps
