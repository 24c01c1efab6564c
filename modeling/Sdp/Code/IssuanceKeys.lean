import Mathlib.Data.List.Infix
import Mathlib.Logic.Function.Basic
import Sdp.Lib.Run

/-!
# One idempotency key of `createTransaction`

`createTransaction` and `findTransactionByIdempotency` of `services/token.service.ts` for one organization
and key, as steps of any number of calls over the rows with that key, of which the unique index
`idx_issuance_tx_org_idempotency_key` allows one. A call that loses the race is recognized by the text of
the error. A call without a fingerprint is refused before all this.
-/

namespace Sdp.IssuanceKeys

/-- A row of `issuance_transactions` with the key. -/
structure Row where
  id : Nat
  fingerprint : String
  /-- The project of its token. -/
  project : Option Nat
deriving DecidableEq

structure Input where
  fingerprint : String
  /-- The project of the token, which `assertTokenInTenant` has compared with the scope. -/
  project : Option Nat
  /-- The service has a `tenantScope`. -/
  tenantScoped : Bool
deriving DecidableEq

inductive Result
  | created (row : Row)
  | replayed (row : Row)
  | conflict
  /-- The error of the database is thrown on. -/
  | raised (message : String)
deriving DecidableEq

/-- Where a call stands, named by its next statement. -/
inductive Call
  | idle
  | insert
  /-- The second lookup, after an error that was taken for a unique violation. -/
  | recover (message : String)
  | insertTransactionStatus (row : Row)
  | done (result : Result)
deriving DecidableEq

structure System where
  inputs : Nat → Input
  rows : List Row
  calls : Nat → Call

inductive Step
  | find (n : Nat)
  | insert (n : Nat)
  | recover (n : Nat)
  | insertTransactionStatus (n : Nat)
deriving DecidableEq

/-- `text.includes(part)` -/
def includes (text part : String) : Bool := part.toList <:+: text.toList

/-- The message of PostgreSQL's error 23505. -/
def duplicateKey : String := "duplicate key value violates unique constraint \"idx_issuance_tx_org_idempotency_key\""

/-- The tenant clause of the lookup. -/
def Input.sees (input : Input) (row : Row) : Bool := !input.tenantScoped || row.project = input.project

/-- What a row means to a later call. -/
def Input.replays (input : Input) (row : Row) : Result :=
  if row.fingerprint = input.fingerprint then .replayed row else .conflict

namespace System

def setCall (s : System) (n : Nat) (call : Call) : System := { s with calls := Function.update s.calls n call }

def findTransactionByIdempotency (s : System) (n : Nat) : Option Row := s.rows.find? (s.inputs n).sees

def find (s : System) (n : Nat) : Option System :=
  match s.calls n with
  | .idle =>
    match s.findTransactionByIdempotency n with
    | some row => some (s.setCall n (.done ((s.inputs n).replays row)))
    | none => some (s.setCall n .insert)
  | _ => none

/-- The row has an id of its own: that of the call. -/
def newRow (s : System) (n : Nat) : Row := ⟨n, (s.inputs n).fingerprint, (s.inputs n).project⟩

def insert (s : System) (n : Nat) : Option System :=
  match s.calls n with
  | .insert =>
    if s.rows.isEmpty then
      some ({ s with rows := [s.newRow n] }.setCall n (.insertTransactionStatus (s.newRow n)))
    else if includes duplicateKey "UNIQUE" then some (s.setCall n (.recover duplicateKey))
    else some (s.setCall n (.done (.raised duplicateKey)))
  | _ => none

def recover (s : System) (n : Nat) : Option System :=
  match s.calls n with
  | .recover message =>
    match s.findTransactionByIdempotency n with
    | some row => some (s.setCall n (.done ((s.inputs n).replays row)))
    | none => some (s.setCall n (.done (.raised message)))
  | _ => none

def insertTransactionStatus (s : System) (n : Nat) : Option System :=
  match s.calls n with
  | .insertTransactionStatus row => some (s.setCall n (.done (.created row)))
  | _ => none

def step (s : System) : Step → Option System
  | .find n => s.find n
  | .insert n => s.insert n
  | .recover n => s.recover n
  | .insertTransactionStatus n => s.insertTransactionStatus n

structure Initial (s : System) : Prop where
  rows : s.rows = []
  calls : ∀ n, s.calls n = .idle

end System

end Sdp.IssuanceKeys
