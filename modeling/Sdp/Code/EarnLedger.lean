import Sdp.Code.EarnMovements
import Sdp.Lib.Locks

/-!
# Transactions on the Earn ledger

Any number of calls of `createSignedVaultDepositIntent`, `createSignedVaultWithdrawalIntent`,
`advanceVaultMovement`, the reconciliation sweep and the custodial withdrawal (`createCustodialMovement` with the
replay handling of its route), one step for each statement, under READ COMMITTED. A statement sees the committed rows
and the ones that its own transaction wrote, and a row that is written is locked until the transaction ends. A step
that has to wait cannot be taken. The `UPDATE` of the projection is two steps, its start, which fixes what its
subquery sees, and its write, which finds the position as it is by then. The key-share lock that a foreign key takes
on the position is left out: it only rules out more interleavings. A transaction may be aborted at any statement, as
the victim of a deadlock is.
-/

open Sdp.Lib

namespace Sdp.Earn

inductive VaultIntent
  | deposit (input : DepositIntent)
  | withdrawal (input : WithdrawalIntent)
deriving DecidableEq

/-- A row of `earn_provider_wallets`. -/
structure Program where
  organizationId : Nat
  environment : Environment
  provider : String
  label : String

inductive Request
  | vault (intent : VaultIntent)
  | advance (input : AdvanceInput)
  /-- The sweep at one movement. -/
  | reconcile (movementId : Nat) (seen : Observation)
  | custodial (input : CustodialIntent)

inductive Resource
  | position (id : Nat)
  | holding (holding : Holding)
  | movement (id : Nat)
  | request (organizationId : Nat) (requestId : String)
  | signature (text : String)
deriving DecidableEq

/-- A constraint that turns a write down. -/
inductive Constraint
  | check
  | foreignKey
  | unique
deriving DecidableEq

inductive Result
  | written (row : Movement)
  | replayed (row : Movement)
  /-- `null`: the row is not there, or in no status to come from. -/
  | missed
  | conflict (message : String)
  | failed (message : String)
  | refused (constraint : Constraint)
  | aborted
deriving DecidableEq

/-- An advance that is to run in a transaction. -/
structure Advance where
  input : AdvanceInput
  status : Status
  positionId : Nat
  direction : Direction
deriving DecidableEq

/-- Where a call stands, named by its next statement. -/
inductive Stage
  | idle
  | claim
  | insert (positionId : Nat)
  /-- The second lookup of the request. -/
  | resolve
  | project
  /-- The projection has started: what its subquery found, and the version of the position that it saw. -/
  | projecting (funder : Option String) (version : Nat)
  | commit (result : Result)
  | advance (input : AdvanceInput)
  | lock (advance : Advance)
  | update (advance : Advance)
  | deactivate
  | activate
  | insertCustodial (minted : Bool)
  | mint
  | recover
  | done (result : Result)
deriving DecidableEq

/-- A call with the rows that its transaction wrote or locked and has not committed. -/
structure Call where
  stage : Stage
  movement : Option Movement
  position : Option Position
deriving DecidableEq

structure System where
  requests : Nat → Request
  programs : Nat → Option Program
  movements : Table Nat Movement Movement.id
  positions : Table Nat Position Position.id
  locks : Locks Resource Nat
  calls : Nat → Call

inductive Step
  | next (n : Nat)
  | abort (n : Nat)
deriving DecidableEq

/-! ## What intents write -/

namespace VaultIntent

def common : VaultIntent → SignedIntent
  | .deposit input => input.toSignedIntent
  | .withdrawal input => input.toSignedIntent

/-- The row of the intent, at the position that was claimed or that a withdrawal names. -/
def vaultMovement (intent : VaultIntent) (id positionId : Nat) : Movement :=
  match intent with
  | .deposit input => input.vaultMovement id positionId
  | .withdrawal input => input.vaultMovement id positionId

def positionMismatch : String := "Vault position does not match project, wallet scope, or asset identity"

def unresolved : VaultIntent → String
  | .deposit _ => "Failed to resolve concurrent earn vault movement"
  | .withdrawal _ => "Failed to resolve concurrent earn vault withdrawal"

/-- A replayed withdrawal must be one. -/
def acceptsDirection (intent : VaultIntent) (direction : Direction) : Bool :=
  match intent with
  | .deposit _ => true
  | .withdrawal _ => direction = .withdrawal

end VaultIntent

namespace DepositIntent

def holding (input : DepositIntent) : Holding :=
  .vault input.organizationId input.environment input.provider input.vaultAddress input.custodyWalletId

/-- The row that `claimVaultPosition` inserts. -/
def position (input : DepositIntent) (id : Nat) : Position where
  id
  organizationId := input.organizationId
  environment := input.environment
  provider := input.provider
  holding := input.holding
  shareMint := some input.shareMint
  tokenMint := some input.tokenMint
  label := input.label
  activated := true
  closed := false
  shareAtaRentFunder := none
  version := 0

end DepositIntent

namespace Position

/-- The `DO UPDATE` of `claimVaultPosition`. -/
def refresh (p : Position) (label : String) : Position := { p with label, activated := true, version := p.version + 1 }

def fund (p : Position) (funder : Option String) : Position :=
  { p with shareAtaRentFunder := funder, version := p.version + 1 }

/-- The holding is closed down when nothing live remains. -/
def deactivate (p : Position) (rows : List Movement) : Position :=
  if p.activated && !rows.any (fun m => m.positionId = p.id && m.status.live) then
    { p with activated := false, version := p.version + 1 }
  else p

def activate (p : Position) : Position := { p with activated := true, closed := false, version := p.version + 1 }

end Position

/-- The row that `mintEarnPositionForProviderWallet` inserts. -/
def Program.position (program : Program) (id providerWalletId : Nat) : Position where
  id
  organizationId := program.organizationId
  environment := program.environment
  provider := program.provider
  holding := .program providerWalletId
  shareMint := none
  tokenMint := none
  label := program.label
  activated := true
  closed := false
  shareAtaRentFunder := none
  version := 0

/-- What follows the `UPDATE` of an advance. -/
def Advance.next (advance : Advance) (row : Movement) : Stage :=
  if advance.status = .failed then .deactivate
  else if advance.direction = .deposit then .activate
  else .commit (.written row)

namespace System

def setCall (s : System) (n : Nat) (call : Call) : System := { s with calls := Function.update s.calls n call }

def goto (s : System) (n : Nat) (stage : Stage) : System :=
  s.setCall n ⟨stage, (s.calls n).movement, (s.calls n).position⟩

def take (s : System) (n : Nat) (resources : List Resource) : System :=
  { s with locks := s.locks.acquire n resources }

/-- The call ends and its locks are free; what it has not committed is gone. -/
def finish (s : System) (n : Nat) (result : Result) : System :=
  { s with locks := s.locks.release n }.setCall n ⟨.done result, none, none⟩

/-! ## What a statement sees -/

def visible (s : System) (n : Nat) : Table Nat Movement Movement.id :=
  (s.calls n).movement.elim s.movements s.movements.upsert

def visiblePosition (s : System) (n id : Nat) : Option Position :=
  ((s.calls n).position.filter fun p => p.id = id).or (s.positions.find? id)

def findVaultMovementByRequest (s : System) (organizationId : Nat) (requestId : String) : Option Movement :=
  s.movements.rows.find? fun m =>
    m.organizationId = organizationId && m.requestId = requestId && m.executionModel = .vaultDirect

def requireMovementPosition (s : System) (m : Movement) : Option Position :=
  (s.positions.find? m.positionId).filter fun p =>
    p.organizationId = m.organizationId && p.environment = m.environment

/-! ## Intents -/

def resolveReplay (s : System) (intent : VaultIntent) (prior : Movement) : Result :=
  match assertMovementIsOwnReplay prior intent.common.projectId intent.common.idempotencyFingerprint with
  | .error message => .conflict message
  | .ok () =>
    if intent.acceptsDirection prior.direction then
      match s.requireMovementPosition prior with
      | some _ => .replayed prior
      | none => .failed "Earn movement references missing holding"
    else .conflict idempotencyConflict

def findPrior (s : System) (n : Nat) (intent : VaultIntent) : Option System :=
  match s.findVaultMovementByRequest intent.common.organizationId intent.common.requestId with
  | some prior => some (s.finish n (s.resolveReplay intent prior))
  | none =>
    match intent with
    | .deposit _ => some (s.goto n .claim)
    | .withdrawal input => some (s.goto n (.insert input.positionId))

/-- The locks of an inserted position: on itself and on its entry in the unique index. -/
def claimEntries (n : Nat) (input : DepositIntent) : List Resource := [.position n, .holding input.holding]

def claimVaultPosition (s : System) (n : Nat) (input : DepositIntent) : Option System :=
  if !input.inScope then some (s.finish n (.conflict VaultIntent.positionMismatch))
  else if !s.locks.free n (claimEntries n input) then none
  else match s.positions.rows.find? fun p => p.holding = input.holding with
    | none =>
      some ((s.take n (claimEntries n input)).setCall n ⟨.insert n, none, some (input.position n)⟩)
    | some p =>
      if !s.locks.free n [.position p.id] then none
      else if p.tokenMint = some input.tokenMint ∧ p.shareMint = some input.shareMint then
        some ((s.take n [.position p.id]).setCall n ⟨.insert p.id, none, some (p.refresh input.label)⟩)
      else some (s.finish n (.conflict VaultIntent.positionMismatch))

/-- The locks of an inserted row: on itself and on its entries in the unique indexes. -/
def entries (n : Nat) (input : SignedIntent) : List Resource :=
  [.movement n, .request input.organizationId input.requestId, .signature input.signature]

/-- `ON CONFLICT (organization_id, request_id) DO NOTHING`: a row of the request that is not committed is waited
for, as one with the signature is. -/
def insertMovement (s : System) (n : Nat) (intent : VaultIntent) (positionId : Nat) : Option System :=
  let row := intent.vaultMovement n positionId
  if !row.checks then some (s.finish n (.refused .check))
  else if (s.findVaultMovementByRequest row.organizationId row.requestId).isSome then some (s.goto n .resolve)
  else if !s.locks.free n (entries n intent.common) then none
  else if s.movements.rows.any fun m => m.signature = row.signature then some (s.finish n (.refused .unique))
  else if !(s.visiblePosition n row.positionId).any fun p => p.identifies row then
    some (s.finish n (.refused .foreignKey))
  else some ((s.take n (entries n intent.common)).setCall n ⟨.project, some row, (s.calls n).position⟩)

def resolve (s : System) (n : Nat) (intent : VaultIntent) : Option System :=
  match s.findVaultMovementByRequest intent.common.organizationId intent.common.requestId with
  | none => some (s.finish n (.failed intent.unresolved))
  | some winner =>
    match s.resolveReplay intent winner with
    | .replayed row => some (s.goto n (.commit (.replayed row)))
    | result => some (s.finish n result)

/-! ## The projection -/

def startProjection (s : System) (n : Nat) : Option System :=
  match (s.calls n).movement with
  | none => none
  | some m =>
    match (s.visiblePosition n m.positionId).filter fun p => p.organizationId = m.organizationId with
    | none => some (s.goto n (.commit (.written m)))
    | some p =>
      some (s.goto n (.projecting (projectedFunder (s.visible n).rows m.positionId) p.version))

def projectShareAccountRentFunder (s : System) (n : Nat) (funder : Option String) : Option System :=
  match (s.calls n).movement with
  | none => none
  | some m =>
    match (s.calls n).position with
    | some p => some (s.setCall n ⟨.commit (.written m), some m, some (p.fund funder)⟩)
    | none =>
      if !s.locks.free n [.position m.positionId] then none
      else match s.positions.find? m.positionId with
        | none => some (s.goto n (.commit (.written m)))
        | some p =>
          some ((s.take n [.position p.id]).setCall n ⟨.commit (.written m), some m, some (p.fund funder)⟩)

def commit (s : System) (n : Nat) (result : Result) : System :=
  { s with
    movements := s.visible n
    positions := (s.calls n).position.elim s.positions s.positions.upsert }.finish n result

/-! ## Advances -/

/-- The row that the guarded `UPDATE` returns. -/
def advanced (s : System) (input : AdvanceInput) (status : Status) : Option Movement :=
  ((s.movements.find? input.movementId).filter fun m =>
    m.organizationId = input.organizationId && m.executionModel = .vaultDirect &&
      m.status ∈ vaultTransitions status).map fun m => m.advance input status

/-- The `UPDATE` in a transaction of its own. -/
def advanceAlone (s : System) (n : Nat) (input : AdvanceInput) (status : Status) : Option System :=
  match s.advanced input status with
  | none => some (s.finish n .missed)
  | some row =>
    if !s.locks.free n [.movement row.id] then none
    else if !row.checks then some (s.finish n (.refused .check))
    else some ({ s with movements := s.movements.upsert row }.finish n (.written row))

def selectCandidate (s : System) (n : Nat) (input : AdvanceInput) (status : Status) : Option System :=
  match (s.movements.find? input.movementId).filter fun m => m.organizationId = input.organizationId with
  | none => some (s.finish n .missed)
  | some m => some (s.goto n (.lock ⟨input, status, m.positionId, m.direction⟩))

def advanceVaultMovement (s : System) (n : Nat) (input : AdvanceInput) : Option System :=
  match assertVaultTransitionMetadata input with
  | .error message => some (s.finish n (.failed message))
  | .ok () =>
    match input.toStatus, allowedSourceStatuses input.toStatus with
    | some status, some _ =>
      if status = .submitted then s.advanceAlone n input status else s.selectCandidate n input status
    | _, _ => some (s.finish n (.failed "Illegal earn movement transition"))

def lockPosition (s : System) (n : Nat) (advance : Advance) : Option System :=
  if !s.locks.free n [.position advance.positionId] then none
  else match s.positions.find? advance.positionId with
    | none => some (s.goto n (.update advance))
    | some p => some ((s.take n [.position p.id]).setCall n ⟨.update advance, none, some p⟩)

def updateMovement (s : System) (n : Nat) (advance : Advance) : Option System :=
  match s.advanced advance.input advance.status with
  | none => some (s.finish n .missed)
  | some row =>
    if !s.locks.free n [.movement row.id] then none
    else if !row.checks then some (s.finish n (.refused .check))
    else some ((s.take n [.movement row.id]).setCall n ⟨advance.next row, some row, (s.calls n).position⟩)

def deactivate (s : System) (n : Nat) : System :=
  s.setCall n ⟨.project, (s.calls n).movement, (s.calls n).position.map fun p => p.deactivate (s.visible n).rows⟩

def activate (s : System) (n : Nat) : Option System :=
  match (s.calls n).movement with
  | none => none
  | some m => some (s.setCall n ⟨.commit (.written m), some m, (s.calls n).position.map Position.activate⟩)

/-- The sweep reads the row, and acts on it later. -/
def reconcile (s : System) (n movementId : Nat) (seen : Observation) : Option System :=
  let unsettled := (s.movements.find? movementId).filter fun m =>
    m.executionModel = .vaultDirect && (m.status = .requested || m.status = .submitted || m.status = .confirmed)
  match unsettled.bind fun m => reconcileMovement m seen with
  | none => some (s.finish n .missed)
  | some input => some (s.goto n (.advance input))

/-! ## Custodial movements -/

def findProgramPosition (s : System) (providerWalletId : Nat) : Option Position :=
  s.positions.rows.find? fun p => p.holding = .program providerWalletId

def findCustodialMovementByRequestId (s : System) (input : CustodialIntent) : Option Movement :=
  (s.findProgramPosition input.providerWalletId).bind fun p => s.movements.rows.find? fun m =>
    m.positionId = p.id && m.organizationId = input.organizationId && m.requestId = input.requestId &&
      m.executionModel = .custodial

/-- `resolveIdempotencyReplay` -/
def resolveCustodial (input : CustodialIntent) (existing : Movement) : Result :=
  if existing.idempotencyFingerprint = input.idempotencyFingerprint then .replayed existing
  else .conflict idempotencyConflict

def findIntentRow (s : System) (n : Nat) (input : CustodialIntent) : System :=
  match s.findCustodialMovementByRequestId input with
  | some existing => s.finish n (resolveCustodial input existing)
  | none => s.goto n (.insertCustodial false)

def insertCustodialMovement (s : System) (n : Nat) (input : CustodialIntent) (minted : Bool) : System :=
  match s.findProgramPosition input.providerWalletId with
  | none => if minted then s.finish n (.failed "Earn program wallet has no custodial holding") else s.goto n .mint
  | some p =>
    let row := input.movement n p.id
    if !row.checks then s.finish n (.refused .check)
    else if s.movements.rows.any fun m =>
        m.positionId = p.id && m.requestId = input.requestId && m.executionModel = .custodial then s.goto n .recover
    else if !p.identifies row then s.finish n (.refused .foreignKey)
    else { s with movements := s.movements.upsert row }.finish n (.written row)

def mintEarnPositionForProviderWallet (s : System) (n : Nat) (providerWalletId : Nat) : System :=
  match s.findProgramPosition providerWalletId, s.programs providerWalletId with
  | some _, _ => s.goto n (.insertCustodial true)
  | none, some program =>
    { s with positions := s.positions.upsert (program.position n providerWalletId) }.goto n (.insertCustodial true)
  | none, none => s.finish n (.failed "Earn ledger could not open a custodial holding")

/-- The lookup after a unique violation. -/
def recover (s : System) (n : Nat) (input : CustodialIntent) : System :=
  match s.findCustodialMovementByRequestId input with
  | some existing => s.finish n (resolveCustodial input existing)
  | none => s.finish n (.failed "Failed to persist earn withdrawal intent")

/-! ## Runs -/

def next (s : System) (n : Nat) : Option System :=
  match (s.calls n).stage, s.requests n with
  | .idle, .vault intent => s.findPrior n intent
  | .idle, .advance input => s.advanceVaultMovement n input
  | .idle, .reconcile movementId seen => s.reconcile n movementId seen
  | .idle, .custodial input => some (s.findIntentRow n input)
  | .claim, .vault (.deposit input) => s.claimVaultPosition n input
  | .insert positionId, .vault intent => s.insertMovement n intent positionId
  | .resolve, .vault intent => s.resolve n intent
  | .project, _ => s.startProjection n
  | .projecting funder _, _ => s.projectShareAccountRentFunder n funder
  | .commit result, _ => some (s.commit n result)
  | .advance input, _ => s.advanceVaultMovement n input
  | .lock advance, _ => s.lockPosition n advance
  | .update advance, _ => s.updateMovement n advance
  | .deactivate, _ => some (s.deactivate n)
  | .activate, _ => s.activate n
  | .insertCustodial minted, .custodial input => some (s.insertCustodialMovement n input minted)
  | .mint, .custodial input => some (s.mintEarnPositionForProviderWallet n input.providerWalletId)
  | .recover, .custodial input => some (s.recover n input)
  | _, _ => none

def abort (s : System) (n : Nat) : Option System :=
  match (s.calls n).stage with
  | .idle | .done _ => none
  | _ => some (s.finish n .aborted)

def step (s : System) : Step → Option System
  | .next n => s.next n
  | .abort n => s.abort n

structure Initial (s : System) : Prop where
  movements : s.movements = .empty
  positions : s.positions = .empty
  locks : s.locks = .none
  calls : ∀ n, s.calls n = ⟨.idle, none, none⟩

end System

end Sdp.Earn
