import Mathlib.Data.Prod.Lex
import Sdp.Lib.Run
import Sdp.Lib.Table

/-!
# Mirrors of settled lifecycle and authority changes

`applySettledTokenStatus`, `applySettledAccountFreezeState` and `applySettledTokenAuthority` from
`services/token.service.ts` for one token. Every call locks the row of its transaction and the row of
the token until it ends, so at most one call is past its first statement; the writes that record a
confirmation lock only the row of their transaction, and they come between any two statements of a call.
Ids and creation times are compared as the database does, by some linear order each.
-/

open Sdp.Lib

namespace Sdp.Mirrors

variable {ι τ : Type}

inductive TransactionStatus
  | pending | processing | confirmed | failed
deriving DecidableEq

inductive Role
  | mint | freeze | permanentDelegate | metadata
deriving DecidableEq

/-- The account of `operation_params` -/
structure AccountParams where
  tokenAccountAddress : Option String
  accountAddress : Option String
deriving DecidableEq

/-- `params.tokenAccountAddress ?? params.accountAddress` -/
def AccountParams.recordedAccount (p : AccountParams) : Option String := p.tokenAccountAddress.or p.accountAddress

/-- `type` and `operation_params` of a transaction -/
inductive Operation
  | pause
  | unpause
  | freeze (params : AccountParams)
  | unfreeze (params : AccountParams)
  | updateAuthority (role : Role) (newAuthority : Option String)
  /-- A mint, a burn or a deployment. -/
  | other
deriving DecidableEq

/-- A row of `issuance_transactions`. -/
structure Row (ι τ : Type) where
  id : ι
  operation : Operation
  status : TransactionStatus
  signature : Option String
  slot : Option Nat
  createdAt : τ
  /-- `authority_bookkeeping_applied_at` of an authority update, else `lifecycle_bookkeeping_applied_at` -/
  bookkeepingApplied : Bool
deriving DecidableEq

/-- A row of `frozen_accounts`. -/
structure FrozenAccount (τ : Type) where
  reason : Option String
  frozenAt : τ
  frozenBy : String
  unfrozenAt : Option τ
  unfrozenBy : Option String
deriving DecidableEq

inductive TokenStatus
  | pending | deploying | active | paused
deriving DecidableEq

/-- What the token and its tables show of the chain. -/
structure Token (τ : Type) where
  status : TokenStatus
  frozenAccounts : String → Option (FrozenAccount τ)
  mintAuthority : Option String
  isMintable : Bool
  freezeAuthority : Option String
  freezeAuthorityEnabled : Bool
  metadataAuthority : Option String
  /-- The legacy extension `metadataAuthority`. -/
  metadataAuthorityExtension : Option String
  /-- The extension `permanentDelegate`. -/
  permanentDelegate : Option String

inductive ErrorCode
  | transactionNotFound | notSettledLifecycle | notSettledAuthority | lifecycleParamsMismatch
  | authorityParamsMismatch | frozenAccountNotFound
deriving DecidableEq

def ErrorCode.message : ErrorCode → String
  | .transactionNotFound => "TOKEN_TRANSACTION_NOT_FOUND"
  | .notSettledLifecycle => "TOKEN_TRANSACTION_NOT_SETTLED_LIFECYCLE"
  | .notSettledAuthority => "TOKEN_TRANSACTION_NOT_SETTLED_AUTHORITY"
  | .lifecycleParamsMismatch => "TOKEN_TRANSACTION_LIFECYCLE_PARAMS_MISMATCH"
  | .authorityParamsMismatch => "TOKEN_TRANSACTION_AUTHORITY_PARAMS_MISMATCH"
  | .frozenAccountNotFound => "FROZEN_ACCOUNT_NOT_FOUND"

/-! ## Calls -/

inductive FreezeState
  | frozen | unfrozen
deriving DecidableEq

inductive Call
  | applySettledTokenStatus (paused : Bool)
  | applySettledAccountFreezeState (accountAddress : String) (state : FreezeState) (actorId : String)
      (reason : Option String)
  | applySettledTokenAuthority (role : Role) (newAuthority : Option String)
deriving DecidableEq

/-- What a call does after its locking read. -/
inductive Checked
  | returns
  | throws (code : ErrorCode)
  | goesOn
deriving DecidableEq

/-- `promoteJournaledLifecycleTransaction`, whose `UPDATE` finds the row as it was locked. -/
def checkPromotion (row : Row ι τ) : Checked :=
  match row.status with
  | .confirmed => if row.slot.isNone then .throws .notSettledLifecycle else .goesOn
  | .pending =>
    -- An empty signature is no signature.
    if row.signature.all (· = "") || row.slot.isNone then .throws .notSettledLifecycle else .goesOn
  | .processing | .failed => .throws .notSettledLifecycle

/-- The marker of a lifecycle change, and then the promotion. -/
def checkLifecycle (row : Row ι τ) (found : Bool) : Checked :=
  if row.bookkeepingApplied then
    if row.status ≠ .confirmed ∨ !found then .throws .notSettledLifecycle else .returns
  else checkPromotion row

/-- `expectedType` of a status -/
def statusOperation (paused : Bool) : Operation := if paused then .pause else .unpause

def checkStatus (row : Row ι τ) (paused : Bool) : Checked :=
  if row.operation = statusOperation paused then checkLifecycle row true else .throws .notSettledLifecycle

def checkFreezeState (row : Row ι τ) (existing : Option (FrozenAccount τ)) (accountAddress : String)
    (state : FreezeState) : Checked :=
  match row.operation, state with
  | .freeze params, .frozen | .unfreeze params, .unfrozen =>
    if params.recordedAccount = some accountAddress then checkLifecycle row existing.isSome
    else .throws .lifecycleParamsMismatch
  | _, _ => .throws .notSettledLifecycle

def checkAuthority (row : Row ι τ) (role : Role) (newAuthority : Option String) : Checked :=
  match row.operation with
  | .updateAuthority role' newAuthority' =>
    if row.status ≠ .confirmed ∨ row.slot = none then .throws .notSettledAuthority
    else if row.bookkeepingApplied then .returns
    else if role' = role ∧ newAuthority' = newAuthority then .goesOn
    else .throws .authorityParamsMismatch
  | _ => .throws .notSettledAuthority

def Call.check (call : Call) (token : Token τ) (row : Row ι τ) : Checked :=
  match call with
  | .applySettledTokenStatus paused => checkStatus row paused
  | .applySettledAccountFreezeState accountAddress state _ _ =>
    checkFreezeState row (token.frozenAccounts accountAddress) accountAddress state
  | .applySettledTokenAuthority role newAuthority => checkAuthority row role newAuthority

/-! ## Writes of the mirrors -/

def Token.setFrozenAccount (token : Token τ) (accountAddress : String) (account : FrozenAccount τ) : Token τ :=
  { token with frozenAccounts := fun a => if a = accountAddress then some account else token.frozenAccounts a }

def applyAccountFreezeMirror (token : Token τ) (accountAddress : String) (state : FreezeState) (actorId : String)
    (reason : Option String) (now : τ) : Except ErrorCode (Token τ) :=
  match state, token.frozenAccounts accountAddress with
  | .frozen, some existing =>
    if existing.unfrozenAt.isNone then .ok token
    else .ok (token.setFrozenAccount accountAddress ⟨reason, now, actorId, none, none⟩)
  | .frozen, none => .ok (token.setFrozenAccount accountAddress ⟨reason, now, actorId, none, none⟩)
  | .unfrozen, none => .error .frozenAccountNotFound
  | .unfrozen, some existing =>
    if existing.unfrozenAt.isSome then .ok token
    else .ok (token.setFrozenAccount accountAddress
      { existing with unfrozenAt := some now, unfrozenBy := some actorId })

def applyTokenAuthorityMirror (token : Token τ) (role : Role) (newAuthority : Option String) : Token τ :=
  match role with
  | .mint => { token with mintAuthority := newAuthority, isMintable := newAuthority.isSome }
  | .freeze => { token with freezeAuthority := newAuthority, freezeAuthorityEnabled := newAuthority.isSome }
  | .metadata => { token with metadataAuthority := newAuthority, metadataAuthorityExtension := none }
  | .permanentDelegate => { token with permanentDelegate := newAuthority }

/-- What a call writes to the mirrors after its scan. -/
def Call.mirror (call : Call) (token : Token τ) (newer : Bool) (now : τ) : Except ErrorCode (Token τ) :=
  match call with
  | .applySettledTokenStatus paused =>
    .ok (if newer then token else { token with status := if paused then .paused else .active })
  | .applySettledAccountFreezeState accountAddress state actorId reason =>
    if newer then
      if (token.frozenAccounts accountAddress).isSome then .ok token else .error .frozenAccountNotFound
    else applyAccountFreezeMirror token accountAddress state actorId reason now
  | .applySettledTokenAuthority role newAuthority =>
    .ok (if newer then token else applyTokenAuthorityMirror token role newAuthority)

/-! ## What is mirrored -/

inductive Mirror
  | status
  | account (accountAddress : String)
  | authority (role : Role)
deriving DecidableEq

inductive Value
  | status (status : TokenStatus)
  | frozen (frozen : Bool)
  | authority (authority : Option String)
deriving DecidableEq

/-- The account is listed with `unfrozen_at IS NULL`. -/
def Token.isAccountFrozen (token : Token τ) (accountAddress : String) : Bool :=
  (token.frozenAccounts accountAddress).any fun account => account.unfrozenAt.isNone

/-- The recorded authority. The legacy extension takes precedence over the column. -/
def Token.authority (token : Token τ) : Role → Option String
  | .mint => token.mintAuthority
  | .freeze => token.freezeAuthority
  | .permanentDelegate => token.permanentDelegate
  | .metadata => token.metadataAuthorityExtension.or token.metadataAuthority

def Token.value (token : Token τ) : Mirror → Value
  | .status => .status token.status
  | .account accountAddress => .frozen (token.isAccountFrozen accountAddress)
  | .authority role => .authority (token.authority role)

/-- The mirror that an operation changes, and the value that it gives it. -/
def Operation.write : Operation → Option (Mirror × Value)
  | .pause => some (.status, .status .paused)
  | .unpause => some (.status, .status .active)
  | .freeze params => params.recordedAccount.map fun a => (.account a, .frozen true)
  | .unfreeze params => params.recordedAccount.map fun a => (.account a, .frozen false)
  | .updateAuthority role newAuthority => some (.authority role, .authority newAuthority)
  | .other => none

/-- Slot, creation time and id of a row. -/
def Row.stamp (row : Row ι τ) (slot : Nat) : Nat ×ₗ τ ×ₗ ι := toLex (slot, toLex (row.createdAt, row.id))

/-! ## Updates of a row -/

/-- A row that the database knows as confirmed in a slot. -/
def Row.settled (row : Row ι τ) : Bool := row.status = .confirmed && row.slot.isSome

def setStatus (status : TransactionStatus) (row : Row ι τ) : Row ι τ := { row with status }

def setEvidence (signature : String) (slot : Option Nat) (row : Row ι τ) : Row ι τ :=
  { row with signature := some signature, slot }

def setConfirmed (signature : String) (slot : Option Nat) (row : Row ι τ) : Row ι τ :=
  { row with status := .confirmed, signature := some signature, slot }

/-- The promotion and the marker. -/
def setApplied (row : Row ι τ) : Row ι τ := { row with status := .confirmed, bookkeepingApplied := true }

theorem setApplied_id (row : Row ι τ) : (setApplied row).id = row.id := rfl

/-! ## The scan for newer transactions -/

/-- The rows that the scan of a call is about. -/
def Call.scans (call : Call) (operation : Operation) : Bool :=
  match call, operation with
  | .applySettledTokenStatus _, .pause | .applySettledTokenStatus _, .unpause => true
  | .applySettledAccountFreezeState accountAddress _ _ _, .freeze params
  | .applySettledAccountFreezeState accountAddress _ _ _, .unfreeze params =>
    params.recordedAccount = some accountAddress
  | .applySettledTokenAuthority role _, .updateAuthority role' _ => role' = role
  | _, _ => false

variable [LinearOrder ι] [LinearOrder τ]

/-- The condition on slot, creation time and id. -/
def Row.newerThan (newer row : Row ι τ) : Bool :=
  match newer.slot, row.slot with
  | some slot', some slot =>
    slot' > slot || slot' = slot && newer.createdAt > row.createdAt ||
      slot' = slot && newer.createdAt = row.createdAt && newer.id > row.id
  | _, _ => false

def Call.supersedes (call : Call) (row newer : Row ι τ) : Bool :=
  call.scans newer.operation && newer.status = .confirmed && newer.newerThan row

/-! ## Runs -/

/-- The call that holds the lock of the token. -/
structure Active (ι τ : Type) where
  call : Call
  /-- The row as the call has locked it. -/
  row : Row ι τ
  now : τ
  /-- What the scan has found. -/
  newer : Option Bool

structure System (ι τ : Type) [LinearOrder ι] where
  rows : Table ι (Row ι τ) Row.id
  token : Token τ
  active : Option (Active ι τ)
  /-- The confirmed transactions for which a call has ended, with its marker or in `FROZEN_ACCOUNT_NOT_FOUND`. -/
  applied : List ι

inductive Step (ι τ : Type)
  | createTransaction (id : ι) (operation : Operation) (createdAt : τ)
  /-- The status while a transaction is not confirmed. -/
  | updateStatus (id : ι) (status : TransactionStatus)
  /-- The narrower evidence of a transaction that has landed. -/
  | journal (id : ι) (signature : String) (slot : Nat)
  | confirm (id : ι) (signature : String) (slot : Option Nat)
  | call (id : ι) (call : Call) (now : τ)
  | scan
  | finish
  /-- A statement of the call fails, and its transaction is rolled back. -/
  | fail

namespace System

/-- An `UPDATE` of a row that is not settled, unless a call has locked it. -/
def updateRow (s : System ι τ) (id : ι) (set : Row ι τ → Row ι τ) (hset : ∀ r, (set r).id = r.id) :
    Option (System ι τ) :=
  if s.active.any (·.row.id = id) then none
  else some { s with rows := s.rows.update id (fun row => !row.settled) set hset }

def begin (s : System ι τ) (id : ι) (call : Call) (now : τ) : Option (System ι τ) :=
  if s.active.isSome then none
  else
    match s.rows.find? id with
    | none => some s
    | some row =>
      match call.check s.token row with
      | .goesOn => some { s with active := some ⟨call, row, now, none⟩ }
      | .returns | .throws _ => some s

def scan (s : System ι τ) : Option (System ι τ) :=
  match s.active with
  | some active =>
    if active.newer.isNone then
      some { s with active := some { active with newer := some (s.rows.rows.any (active.call.supersedes active.row)) } }
    else none
  | none => none

def finish (s : System ι τ) : Option (System ι τ) :=
  match s.active with
  | some ⟨call, row, now, some newer⟩ =>
    match call.mirror s.token newer now with
    | .ok token => some
        { s with
          rows := s.rows.update row.id (fun row => !row.bookkeepingApplied) setApplied setApplied_id
          token
          active := none
          applied := row.id :: s.applied }
    -- The promotion is rolled back with the rest.
    | .error _ => some
        { s with
          active := none
          applied := if row.settled then row.id :: s.applied else s.applied }
  | _ => none

def fail (s : System ι τ) : Option (System ι τ) :=
  if s.active.isSome then some { s with active := none } else none

def step (s : System ι τ) : Step ι τ → Option (System ι τ)
  | .createTransaction id operation createdAt =>
    some { s with rows := s.rows.insertNew ⟨id, operation, .pending, none, none, createdAt, false⟩ }
  | .updateStatus id status =>
    if status = .confirmed then none else s.updateRow id (setStatus status) fun _ => rfl
  | .journal id signature slot => s.updateRow id (setEvidence signature (some slot)) fun _ => rfl
  | .confirm id signature slot => s.updateRow id (setConfirmed signature slot) fun _ => rfl
  | .call id call now => s.begin id call now
  | .scan => s.scan
  | .finish => s.finish
  | .fail => s.fail

/-- Nothing is confirmed or applied yet. The token shows whatever it shows. -/
structure Initial (s : System ι τ) : Prop where
  rows : ∀ id row, s.rows.find? id = some row → row.status = .pending ∧ row.slot = none ∧ row.bookkeepingApplied = false
  active : s.active = none
  applied : s.applied = []

end System

end Sdp.Mirrors
