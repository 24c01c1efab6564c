import Mathlib.Logic.Function.Basic
import Sdp.Lib.Run

/-!
# Mints and operators on one address of an allowlist

`syncDestinationToOnChainAllowlist` of `routes/issuance/handlers/mint.ts`, `addAllowlistEntry` and
`removeAllowlistEntry` of `allowlist.ts` for a token with an on-chain list, and the statements of
`services/token.service.ts` that they use, as steps on one address: its row in `token_allowlists`, whose
`UNIQUE(token_id, address)` makes it the only one, and its membership of the list on chain. How a
transaction on chain ends is data of the step. Failures of the database and of the reads from the chain,
labels, the status history and the audit log are left out.
-/

namespace Sdp.Allowlist

inductive EntryStatus
  | pending | active | revoked
deriving DecidableEq

structure Entry where
  id : Nat
  status : EntryStatus
deriving DecidableEq

/-- How `addToList` or `removeFromList` ends. -/
inductive Submission
  | landed
  /-- It throws, and it has landed. -/
  | landedWithError
  | failed
  /-- It throws, and it may still land. -/
  | ambiguous
deriving DecidableEq

/-- What a mint inserts the row for. -/
inductive Purpose
  /-- The destination is on the list already. -/
  | mirror
  /-- Before `addToList`. -/
  | add
  /-- After `addToList`, when the row was another's. -/
  | reassert
deriving DecidableEq

/-- Where a request stands, named by its next statement. -/
inductive Stage
  | idle
  -- A mint. `created` is the entry that it has inserted.
  | isWalletOnList
  | select (purpose : Purpose)
  | insert (purpose : Purpose)
  | addToList (created : Option Nat)
  | recheck (created : Option Nat)
  | rollback (created : Nat)
  -- An operator adds. `existing` is the entry that it has found.
  | write (existing : Option Nat)
  | operatorAddToList (id : Nat)
  | operatorRecheck (id : Nat)
  | activate (id : Nat)
  -- An operator removes.
  | removeFromList (id : Nat)
  | removalRecheck (id : Nat)
  | revoke (id : Nat)
  | done
deriving DecidableEq

/-- How a mint goes on after `ADDRESS_ALREADY_ALLOWLISTED`. -/
def Purpose.alreadyAllowlisted : Purpose → Stage
  | .add => .addToList none
  | .mirror | .reassert => .done

/-- How a mint goes on with the entry that it has inserted. -/
def Purpose.inserted (id : Nat) : Purpose → Stage
  | .add => .addToList (some id)
  | .mirror | .reassert => .done

/-- The row is re-asserted when it was another's. -/
def added : Option Nat → Stage
  | some _ => .done
  | none => .select .reassert

structure Request where
  stage : Stage
  /-- An `addToList` of a mint that threw may still land. -/
  mintAddOpen : Bool
  operatorAddOpen : Bool
  removalOpen : Bool
deriving DecidableEq

structure System where
  entry : Option Entry
  nextId : Nat
  onList : Bool
  /-- A removal is complete, and no operator has added the address since. -/
  removed : Bool
  requests : Nat → Request

inductive Step
  | getAllowlistEntryStatusByAddress (n : Nat)
  | isWalletOnList (n : Nat)
  | select (n : Nat)
  | insert (n : Nat)
  | addToList (n : Nat) (submission : Submission)
  | recheck (n : Nat)
  | rollback (n : Nat)
  | operatorSelect (n : Nat)
  | operatorWrite (n : Nat)
  | operatorAddToList (n : Nat) (submission : Submission)
  | operatorRecheck (n : Nat)
  | activateAllowlistEntry (n : Nat)
  | getAllowlistEntry (n id : Nat)
  | removeFromList (n : Nat) (submission : Submission)
  | removalRecheck (n : Nat)
  | revokeAllowlistEntry (n : Nat)
  /-- What was left open lands. -/
  | lateMintAdd (n : Nat)
  | lateOperatorAdd (n : Nat)
  | lateRemoval (n : Nat)
  /-- What was left open can no longer land. -/
  | expire (n : Nat)
deriving DecidableEq

namespace System

def setRequest (s : System) (n : Nat) (r : Request) : System := { s with requests := Function.update s.requests n r }

def setStage (s : System) (n : Nat) (stage : Stage) : System := s.setRequest n { s.requests n with stage }

/-- The `WHERE id = ?` of an update. -/
def hasEntry (s : System) (id : Nat) : Bool := s.entry.any (·.id = id)

/-! ## A mint -/

def getAllowlistEntryStatusByAddress (s : System) (n : Nat) : Option System :=
  match (s.requests n).stage with
  | .idle => some (s.setStage n (if s.entry.any (·.status = .revoked) then .done else .isWalletOnList))
  | _ => none

def isWalletOnList (s : System) (n : Nat) : Option System :=
  match (s.requests n).stage with
  | .isWalletOnList => some (s.setStage n (.select (if s.onList then .mirror else .add)))
  | _ => none

/-- The `SELECT` of `addAllowlistEntryStrict`. -/
def select (s : System) (n : Nat) : Option System :=
  match (s.requests n).stage with
  | .select purpose =>
    match s.entry with
    | none => some (s.setStage n (.insert purpose))
    | some ⟨_, .revoked⟩ => some (s.setStage n .done)
    | some ⟨_, .pending⟩ | some ⟨_, .active⟩ => some (s.setStage n purpose.alreadyAllowlisted)
  | _ => none

/-- `insertNewAllowlistEntry`. A row that is there by now is a unique violation, whatever its status. -/
def insert (s : System) (n : Nat) : Option System :=
  match (s.requests n).stage with
  | .insert purpose =>
    match s.entry with
    | some _ => some (s.setStage n purpose.alreadyAllowlisted)
    | none =>
      some ({ s with entry := some ⟨s.nextId, .active⟩, nextId := s.nextId + 1 }.setStage n
        (purpose.inserted s.nextId))
  | _ => none

def addToList (s : System) (n : Nat) (submission : Submission) : Option System :=
  match (s.requests n).stage with
  | .addToList created =>
    match submission with
    | .landed => some ({ s with onList := true }.setStage n (added created))
    | .landedWithError => some ({ s with onList := true }.setStage n (.recheck created))
    | .failed => some (s.setStage n (.recheck created))
    | .ambiguous => some (s.setRequest n { s.requests n with stage := .recheck created, mintAddOpen := true })
  | _ => none

def recheck (s : System) (n : Nat) : Option System :=
  match (s.requests n).stage with
  | .recheck created =>
    if s.onList then some (s.setStage n (added created))
    else
      match created with
      | some id => some (s.setStage n (.rollback id))
      | none => some (s.setStage n .done)
  | _ => none

/-- `deleteAllowlistEntry` -/
def rollback (s : System) (n : Nat) : Option System :=
  match (s.requests n).stage with
  | .rollback id => some ({ s with entry := if s.hasEntry id then none else s.entry }.setStage n .done)
  | _ => none

/-! ## An operator adds -/

def operatorSelect (s : System) (n : Nat) : Option System :=
  match (s.requests n).stage with
  | .idle =>
    match s.entry with
    | some ⟨_, .active⟩ => some (s.setStage n .done)
    | some ⟨id, .pending⟩ | some ⟨id, .revoked⟩ => some (s.setStage n (.write (some id)))
    | none => some (s.setStage n (.write none))
  | _ => none

/-- The `UPDATE` of the entry that was found, or the `INSERT`. -/
def operatorWrite (s : System) (n : Nat) : Option System :=
  match (s.requests n).stage with
  | .write (some id) =>
    if s.hasEntry id then
      some ({ s with entry := some ⟨id, .pending⟩, removed := false }.setStage n (.operatorAddToList id))
    else some (s.setStage n .done)
  | .write none =>
    match s.entry with
    | some _ => some (s.setStage n .done)
    | none =>
      some ({ s with entry := some ⟨s.nextId, .pending⟩, nextId := s.nextId + 1, removed := false }.setStage n
        (.operatorAddToList s.nextId))
  | _ => none

def operatorAddToList (s : System) (n : Nat) (submission : Submission) : Option System :=
  match (s.requests n).stage with
  | .operatorAddToList id =>
    match submission with
    | .landed => some ({ s with onList := true }.setStage n (.activate id))
    | .landedWithError => some ({ s with onList := true }.setStage n (.operatorRecheck id))
    | .failed => some (s.setStage n (.operatorRecheck id))
    | .ambiguous => some (s.setRequest n { s.requests n with stage := .operatorRecheck id, operatorAddOpen := true })
  | _ => none

def operatorRecheck (s : System) (n : Nat) : Option System :=
  match (s.requests n).stage with
  | .operatorRecheck id => some (s.setStage n (if s.onList then .activate id else .done))
  | _ => none

def activateAllowlistEntry (s : System) (n : Nat) : Option System :=
  match (s.requests n).stage with
  | .activate id =>
    if s.entry = some ⟨id, .pending⟩ then some ({ s with entry := some ⟨id, .active⟩ }.setStage n .done)
    else some (s.setStage n .done)
  | _ => none

/-! ## An operator removes -/

def getAllowlistEntry (s : System) (n id : Nat) : Option System :=
  match (s.requests n).stage with
  | .idle =>
    if s.hasEntry id && s.entry.all (·.status ≠ .revoked) then some (s.setStage n (.removeFromList id))
    else some (s.setStage n .done)
  | _ => none

def removeFromList (s : System) (n : Nat) (submission : Submission) : Option System :=
  match (s.requests n).stage with
  | .removeFromList id =>
    match submission with
    | .landed => some ({ s with onList := false }.setStage n (.revoke id))
    | .landedWithError => some ({ s with onList := false }.setStage n (.removalRecheck id))
    | .failed => some (s.setStage n (.removalRecheck id))
    | .ambiguous => some (s.setRequest n { s.requests n with stage := .removalRecheck id, removalOpen := true })
  | _ => none

def removalRecheck (s : System) (n : Nat) : Option System :=
  match (s.requests n).stage with
  | .removalRecheck id => some (s.setStage n (if s.onList then .done else .revoke id))
  | _ => none

def revokeAllowlistEntry (s : System) (n : Nat) : Option System :=
  match (s.requests n).stage with
  | .revoke id =>
    if s.hasEntry id then some ({ s with entry := some ⟨id, .revoked⟩, removed := true }.setStage n .done)
    else some (s.setStage n .done)
  | _ => none

/-! ## Late effects -/

def lateMintAdd (s : System) (n : Nat) : Option System :=
  if (s.requests n).mintAddOpen then
    some ({ s with onList := true }.setRequest n { s.requests n with mintAddOpen := false })
  else none

def lateOperatorAdd (s : System) (n : Nat) : Option System :=
  if (s.requests n).operatorAddOpen then
    some ({ s with onList := true }.setRequest n { s.requests n with operatorAddOpen := false })
  else none

def lateRemoval (s : System) (n : Nat) : Option System :=
  if (s.requests n).removalOpen then
    some ({ s with onList := false }.setRequest n { s.requests n with removalOpen := false })
  else none

def step (s : System) : Step → Option System
  | .getAllowlistEntryStatusByAddress n => s.getAllowlistEntryStatusByAddress n
  | .isWalletOnList n => s.isWalletOnList n
  | .select n => s.select n
  | .insert n => s.insert n
  | .addToList n submission => s.addToList n submission
  | .recheck n => s.recheck n
  | .rollback n => s.rollback n
  | .operatorSelect n => s.operatorSelect n
  | .operatorWrite n => s.operatorWrite n
  | .operatorAddToList n submission => s.operatorAddToList n submission
  | .operatorRecheck n => s.operatorRecheck n
  | .activateAllowlistEntry n => s.activateAllowlistEntry n
  | .getAllowlistEntry n id => s.getAllowlistEntry n id
  | .removeFromList n submission => s.removeFromList n submission
  | .removalRecheck n => s.removalRecheck n
  | .revokeAllowlistEntry n => s.revokeAllowlistEntry n
  | .lateMintAdd n => s.lateMintAdd n
  | .lateOperatorAdd n => s.lateOperatorAdd n
  | .lateRemoval n => s.lateRemoval n
  | .expire n =>
    some (s.setRequest n { s.requests n with mintAddOpen := false, operatorAddOpen := false, removalOpen := false })

/-- The entry lets the address in, or is about to. -/
def live (s : System) : Bool := s.entry.any (·.status ≠ .revoked)

def revoked (s : System) : Bool := s.entry.any (·.status = .revoked)

/-- Nobody is at work, and the two stores agree. -/
structure Initial (s : System) : Prop where
  requests : ∀ n, s.requests n = ⟨.idle, false, false, false⟩
  ids : ∀ e, s.entry = some e → e.id < s.nextId
  removed : s.removed = s.revoked
  listed : s.onList = true → s.live = true

end System

end Sdp.Allowlist
