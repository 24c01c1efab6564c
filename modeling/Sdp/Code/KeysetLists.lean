import Mathlib.Data.Prod.Lex
import Sdp.Code.EarnMovements
import Sdp.Lib.Base64
import Sdp.Lib.KeysetPages

/-!
# Lists behind a cursor

`lib/keyset-cursor.ts`, the queries of `db/repositories/earn-movements.repository.ts` and of
`db/repositories/private-channel-event.repository.postgres.ts` that page behind a key, and the endpoints of
`routes/earn/handlers/movements.ts`, `routes/earn/handlers/vault.ts` and `routes/private-channels/handlers/events.ts`
that make a cursor of the last row. The records that rows are mapped to, the shares read from chain and the default
limits are left out. Rows have the columns that the lists read.
-/

open Sdp.Earn Sdp.Lib

namespace Sdp.Lists

/-! ## `lib/keyset-cursor.ts` -/

structure KeysetCursor where
  value : String
  id : String
deriving DecidableEq

/-- A character of a string that `btoa` and `atob` take for a byte. -/
def isByte (c : Char) : Bool := c.toNat < 256

/-- It throws at a character that is not a byte. -/
def btoa (text : List Char) : Option (List Char) :=
  if text.all isByte then some (Base64.encode (text.map Char.toNat)) else none

def atob (text : List Char) : Option (List Char) := (Base64.decode text).map (·.map Char.ofNat)

/-- `replace` of every `a` by `b`. -/
def replaceAll (a b : Char) (text : List Char) : List Char := text.map fun c => if c = a then b else c

def encodeKeysetCursor (value id : String) : Option String :=
  (btoa (value.toList ++ '|' :: id.toList)).map fun text =>
    String.ofList ((replaceAll '/' '_' (replaceAll '+' '-' text)).rdropWhile (· = '='))

/-- What `decodeKeysetCursor` makes of the decoded text. -/
def splitDecoded (decoded : List Char) : Option KeysetCursor :=
  let separator := decoded.idxOf '|'
  -- Where there is no separator, this index is the length.
  if separator = 0 ∨ decoded.length ≤ separator + 1 then none
  else some ⟨String.ofList (decoded.take separator), String.ofList (decoded.drop (separator + 1))⟩

def decodeKeysetCursor (cursor : String) : Option KeysetCursor :=
  (atob (replaceAll '_' '/' (replaceAll '-' '+' cursor.toList))).bind splitDecoded

/-! ## What the endpoints share -/

inductive ListError
  | badRequest (message : String)
  /-- `btoa` threw. -/
  | invalidCharacter
deriving DecidableEq

structure Page (ρ : Type) where
  rows : List ρ
  hasMore : Bool
  nextCursor : Option String
deriving DecidableEq

section

variable {ρ : Type} (message : String) (schema : KeysetCursor → Bool) (cursor : ρ → KeysetCursor)

/-- The cursor of a query, which the endpoint decodes and validates. -/
def parseBefore : Option String → Except ListError (Option KeysetCursor)
  | none => .ok none
  | some text =>
    match (decodeKeysetCursor text).filter schema with
    | none => .error (.badRequest message)
    | some before => .ok (some before)

/-- The next cursor is that of the last row, if there is more. -/
def toPage (result : List ρ × Bool) : Except ListError (Page ρ) :=
  match if result.2 then result.1.getLast? else none with
  | none => .ok ⟨result.1, result.2, none⟩
  | some last =>
    match encodeKeysetCursor (cursor last).value (cursor last).id with
    | none => .error .invalidCharacter
    | some text => .ok ⟨result.1, result.2, some text⟩

/-- An endpoint, given what its query selects behind a cursor. -/
def listPage (before : Option String) (list : Option KeysetCursor → List ρ × Bool) : Except ListError (Page ρ) :=
  (parseBefore message schema before).bind fun before => toPage cursor (list before)

end

/-- What a client reads that goes on with the cursor of each page, of the tables of the moment of each request. -/
def readPages {σ ρ : Type} (request : σ → Option String → Except ListError (Page ρ)) :
    List σ → Option String → Except ListError (List (Page ρ))
  | [], _ => .ok []
  | tables :: later, before =>
    (request tables before).bind fun page =>
      match page.nextCursor with
      | none => .ok [page]
      | some next => (readPages request later (some next)).map (page :: ·)

section

variable {κ : Type} [LinearOrder κ] (collate : String → κ)

/-- What `(created_at, id)` is compared by. -/
def KeysetCursor.key (cursor : KeysetCursor) : κ ×ₗ κ := toLex (collate cursor.value, collate cursor.id)

end

/-! ## Earn movements -/

structure MovementRow where
  id : String
  organizationId : String
  /-- `NULL` once the project is deleted. -/
  projectId : Option String
  environment : Environment
  provider : String
  executionModel : ExecutionModel
  direction : Direction
  positionId : String
  status : Status
  sourceAddress : Option String
  destinationAddress : Option String
  custodyWalletId : Option String
  requestId : String
  createdAt : String
deriving DecidableEq

def MovementRow.cursor (row : MovementRow) : KeysetCursor := ⟨row.createdAt, row.id⟩

/-- Whose rows an endpoint lists: `custodyWalletIds` are the wallets that the caller may read. -/
structure Caller where
  organizationId : String
  projectId : String
  environment : Environment
  custodyWalletIds : List String

/-- `SETTLED_VAULT_STATUSES_BY_DIRECTION` -/
def settledVaultStatusesByDirection : Direction → List Status
  | .deposit => [.confirmed, .finalized, .failed]
  | .withdrawal => [.finalized, .failed]

/-- The conditions of `listVaultMovements` but for the filter on `settled`. -/
def Caller.ownsVaultMovement (caller : Caller) (direction : Direction) (row : MovementRow) : Bool :=
  row.organizationId = caller.organizationId && row.environment = caller.environment &&
    row.executionModel = .vaultDirect && row.direction = direction &&
    row.custodyWalletId.any (· ∈ caller.custodyWalletIds) && row.projectId = some caller.projectId

/-- The text of a status, which a query compares with what it was sent. -/
def statusText : Status → String
  | .requested => "requested"
  | .processing => "processing"
  | .pendingApproval => "pending_approval"
  | .completed => "completed"
  | .partiallyCompleted => "partially_completed"
  | .cancelled => "cancelled"
  | .submitted => "submitted"
  | .confirmed => "confirmed"
  | .finalized => "finalized"
  | .failed => "failed"

structure VaultMovementsQuery where
  limit : Nat
  requestId : Option String
  settled : Option Bool

structure MovementsQuery where
  limit : Nat
  direction : Option Direction
  status : Option String
  provider : Option String
  positionId : Option String
  sourceAddress : Option String
  destinationAddress : Option String

/-- The visibility of `listMovements`: rows of programs, and vault rows of the project and its wallets. -/
def Caller.seesMovement (caller : Caller) (row : MovementRow) : Bool :=
  row.organizationId = caller.organizationId && row.environment = caller.environment &&
    if caller.custodyWalletIds = [] then row.executionModel = .custodial
    else row.executionModel = .custodial ||
      (row.projectId = some caller.projectId && row.custodyWalletId.any (· ∈ caller.custodyWalletIds))

/-- The columns that a query names. -/
def MovementsQuery.selects (query : MovementsQuery) (row : MovementRow) : Bool :=
  query.direction.all (row.direction = ·) && query.status.all (statusText row.status = ·) &&
    query.provider.all (row.provider = ·) && query.positionId.all (row.positionId = ·) &&
    query.sourceAddress.all (row.sourceAddress = some ·) &&
    query.destinationAddress.all (row.destinationAddress = some ·)

/-- `settled` asks for the rows whose status is in the set of the direction, or for the others. -/
def VaultMovementsQuery.selects (query : VaultMovementsQuery) (direction : Direction) (row : MovementRow) : Bool :=
  query.settled.all fun settled => decide (row.status ∈ settledVaultStatusesByDirection direction) = settled

section

variable {κ : Type} [LinearOrder κ] (collate : String → κ)

def listVaultMovements (caller : Caller) (direction : Direction) (query : VaultMovementsQuery) (rows : List MovementRow)
    (before : Option KeysetCursor) : List MovementRow × Bool :=
  Keyset.page (·.cursor.key collate)
    (rows.filter fun row => caller.ownsVaultMovement direction row && query.selects direction row)
    (before.map (·.key collate)) query.limit

def listMovements (caller : Caller) (query : MovementsQuery) (rows : List MovementRow) (before : Option KeysetCursor) :
    List MovementRow × Bool :=
  Keyset.page (·.cursor.key collate) (rows.filter fun row => caller.seesMovement row && query.selects row)
    (before.map (·.key collate)) query.limit

end

def findVaultMovementByRequestId (organizationId requestId : String) (rows : List MovementRow) : Option MovementRow :=
  rows.find? fun row =>
    row.organizationId = organizationId && row.requestId = requestId && row.executionModel = .vaultDirect

/-- `toLowerCase` of a character that is a byte. -/
def toLowerCase (c : Char) : Char :=
  if (65 ≤ c.toNat ∧ c.toNat ≤ 90) ∨ (192 ≤ c.toNat ∧ c.toNat ≤ 222 ∧ c.toNat ≠ 215) then Char.ofNat (c.toNat + 32)
  else c

section

-- What `z.string().datetime({ precision: 3 })` accepts.
variable (isDatetime : String → Bool)

def movementCursorSchema (cursor : KeysetCursor) : Bool := isDatetime cursor.value && shortText cursor.id

def vaultMovementCursorSchema (cursor : KeysetCursor) : Bool :=
  movementCursorSchema isDatetime cursor && cursor.id.toList = cursor.id.toList.map toLowerCase

variable {κ : Type} [LinearOrder κ] (collate : String → κ)

def listEarnMovements (caller : Caller) (query : MovementsQuery) (rows : List MovementRow) (before : Option String) :
    Except ListError (Page MovementRow) :=
  listPage "Invalid earn movement pagination cursor" (movementCursorSchema isDatetime) (·.cursor) before
    (listMovements collate caller query rows)

/-- What both lists of vault movements do. -/
def listEarnVaultMovements (message : String) (direction : Direction) (caller : Caller) (query : VaultMovementsQuery)
    (rows : List MovementRow) (before : Option String) : Except ListError (Page MovementRow) :=
  listPage message (vaultMovementCursorSchema isDatetime) (·.cursor) before fun before =>
    if caller.custodyWalletIds = [] then ([], false)
    else match query.requestId with
      | some requestId =>
        (((findVaultMovementByRequestId caller.organizationId requestId rows).filter
          (caller.ownsVaultMovement direction)).toList, false)
      | none => listVaultMovements collate caller direction query rows before

def listEarnVaultDeposits : Caller → VaultMovementsQuery → List MovementRow → Option String →
    Except ListError (Page MovementRow) :=
  listEarnVaultMovements isDatetime collate "Invalid vault deposit pagination cursor" .deposit

def listEarnVaultWithdrawals : Caller → VaultMovementsQuery → List MovementRow → Option String →
    Except ListError (Page MovementRow) :=
  listEarnVaultMovements isDatetime collate "Invalid vault withdrawal pagination cursor" .withdrawal

end

/-! ## Vault positions -/

structure PositionRow where
  id : String
  organizationId : String
  environment : Environment
  kind : ExecutionModel
  custodyWalletId : Option String
  activatedAt : Option String
  closedAt : Option String
  createdAt : String
deriving DecidableEq

def PositionRow.cursor (row : PositionRow) : KeysetCursor := ⟨row.createdAt, row.id⟩

/-- A closed position that a deposit is about to enter again is listed. -/
def Caller.seesPosition (caller : Caller) (movements : List MovementRow) (row : PositionRow) : Bool :=
  row.organizationId = caller.organizationId && row.environment = caller.environment && row.kind = .vaultDirect &&
    row.activatedAt.isSome &&
    (row.closedAt.isNone || movements.any fun reentry =>
      reentry.positionId = row.id && reentry.direction = .deposit && reentry.status ∈ [.requested, .submitted]) &&
    row.custodyWalletId.any (· ∈ caller.custodyWalletIds) &&
    movements.any fun movement =>
      movement.positionId = row.id && movement.status ∈ [.requested, .submitted, .confirmed, .finalized]

section

variable {κ : Type} [LinearOrder κ] (collate : String → κ)

def listVaultPositions (caller : Caller) (limit : Nat) (tables : List PositionRow × List MovementRow)
    (before : Option KeysetCursor) : List PositionRow × Bool :=
  Keyset.page (·.cursor.key collate) (tables.1.filter (caller.seesPosition tables.2)) (before.map (·.key collate)) limit

def listEarnVaultPositions (isDatetime : String → Bool) (caller : Caller) (limit : Nat)
    (tables : List PositionRow × List MovementRow) (before : Option String) : Except ListError (Page PositionRow) :=
  listPage "Invalid vault position pagination cursor" (vaultMovementCursorSchema isDatetime) (·.cursor) before
    fun before =>
      if caller.custodyWalletIds = [] then ([], false) else listVaultPositions collate caller limit tables before

end

/-! ## Events of private channels -/

inductive EventFamily
  | member
  | transfer
  | error
  | lifecycle
deriving DecidableEq

inductive EventStatus
  | pending
  | confirmed
  | failed
  | stale
  | info
deriving DecidableEq

structure EventRow where
  id : String
  organizationId : String
  projectId : String
  instanceId : String
  channelId : Option String
  sdpUserId : Option String
  family : EventFamily
  type : String
  status : EventStatus
  occurredAt : String
deriving DecidableEq

def EventRow.cursor (row : EventRow) : KeysetCursor := ⟨row.occurredAt, row.id⟩

/-- `EventViewer` -/
inductive EventViewer
  | all
  | member (channelIds : List String) (userId : String)
  | none

structure EventsQuery where
  family : Option EventFamily
  type : Option String
  status : Option EventStatus
  limit : Nat

def EventsQuery.selects (query : EventsQuery) (row : EventRow) : Bool :=
  query.family.all (row.family = ·) && query.type.all (row.type = ·) && query.status.all (row.status = ·)

/-- The conditions of `listByChannel` on the channel. -/
def EventViewer.seesInChannel (viewer : EventViewer) (channelId : String) (row : EventRow) : Bool :=
  match viewer with
  | .all => row.channelId = some channelId || (row.channelId.isNone && row.family ≠ .transfer)
  | .member _ userId =>
    row.channelId = some channelId ||
      (row.channelId.isNone && (row.family = .lifecycle || (row.family ≠ .transfer && row.sdpUserId = some userId)))
  | .none => false

/-- The conditions of `listByProject` on the channel. -/
def EventViewer.seesInProject (viewer : EventViewer) (row : EventRow) : Bool :=
  match viewer with
  | .all => true
  | .member channelIds userId =>
    row.channelId.any (· ∈ channelIds) ||
      (row.channelId.isNone &&
        if channelIds = [] then row.sdpUserId = some userId
        else row.family = .lifecycle || row.sdpUserId = some userId)
  | .none => false

section

variable {κ : Type} [LinearOrder κ] (collate : String → κ)

/-- `(occurred_at < ? OR (occurred_at = ? AND id < ?))` -/
def EventRow.isBefore (cursor : KeysetCursor) (row : EventRow) : Bool :=
  collate row.occurredAt < collate cursor.value || (row.occurredAt = cursor.value && collate row.id < collate cursor.id)

/-- What both queries of events do with their conditions. -/
def listEvents (selects : EventRow → Bool) (requested : Nat) (rows : List EventRow) (before : Option KeysetCursor) :
    List EventRow × Bool :=
  let limit := min (max requested 1) 100
  let selected := rows.filter fun row => selects row && before.all (row.isBefore collate ·)
  let mapped := (Keyset.descending (·.cursor.key collate) selected).take (limit + 1)
  let hasMore := decide (limit < mapped.length)
  (if hasMore then mapped.take limit else mapped, hasMore)

def listByChannel (instanceId channelId : String) (viewer : EventViewer) (query : EventsQuery) :
    List EventRow → Option KeysetCursor → List EventRow × Bool :=
  listEvents collate
    (fun row => row.instanceId = instanceId && viewer.seesInChannel channelId row && query.selects row) query.limit

def listByProject (organizationId projectId : String) (viewer : EventViewer) (query : EventsQuery) :
    List EventRow → Option KeysetCursor → List EventRow × Bool :=
  listEvents collate
    (fun row => row.organizationId = organizationId && row.projectId = projectId && viewer.seesInProject row &&
      query.selects row) query.limit

/-- Whoever may see nothing of a channel gets an empty page. -/
def EventViewer.admits (viewer : EventViewer) (channelId : String) : Bool :=
  match viewer with
  | .all => true
  | .member channelIds _ => channelId ∈ channelIds
  | .none => false

/-- The channel is one of the instance. -/
def listChannelEvents (instanceId channelId : String) (viewer : EventViewer) (query : EventsQuery) (rows : List EventRow)
    (before : Option String) : Except ListError (Page EventRow) :=
  listPage "Invalid pagination cursor" (fun _ => true) (·.cursor) before fun before =>
    if viewer.admits channelId then listByChannel collate instanceId channelId viewer query rows before else ([], false)

def listProjectEvents (organizationId projectId : String) (viewer : EventViewer) (query : EventsQuery)
    (rows : List EventRow) (before : Option String) : Except ListError (Page EventRow) :=
  listPage "Invalid pagination cursor" (fun _ => true) (·.cursor) before fun before =>
    match viewer with
    | .none => ([], false)
    | viewer => listByProject collate organizationId projectId viewer query rows before

end

end Sdp.Lists
