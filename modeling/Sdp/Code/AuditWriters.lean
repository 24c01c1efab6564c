import Sdp.Code.AuditLedger
import Sdp.Lib.Run

/-!
# Audit writers

`persist` and `reconcileExternalCheckpoint` from `services/audit.service.ts` inside
`lockedTransactionWithPostCommit` of `db/client.ts`, with `compareAndSet` and `compareAndDelete` of
`runtime/kv-redis.ts`. Any number of writers run over one database and one external checkpoint. The
session lock is its holder's as long as the connection lives, and a statement on a dead connection
fails. A script of the store may run and its answer get lost, or come from a second try of the client.
-/

open Sdp.Lib

namespace Sdp.Audit

/-! ## Reconciliation -/

structure AuditLedgerHead where
  ledgerSequence : Int
  previousEntryHash : Option String
  entryHash : String
  entryHashValid : Bool
  anchorMatches : Bool
deriving DecidableEq

/-- The first query of `persist`. -/
def currentHead (pg : Postgres) (l : AuditLedger) : Option AuditLedgerHead :=
  l.head?.map fun row =>
    { ledgerSequence := row.ledgerSequence
      previousEntryHash := row.previousEntryHash
      entryHash := row.entryHash
      entryHashValid := row.entryHash = auditLogHash pg row.ledgerSequence row.entry row.previousEntryHash
      anchorMatches := (l.anchorAt row.ledgerSequence).map (·.entryHash) = some row.entryHash }

def checkpointForHead (head : Option AuditLedgerHead) : Option AuditLedgerCheckpoint :=
  head.map fun h => ⟨h.ledgerSequence, h.entryHash⟩

/-- `assertValidCurrentHead` does not throw. -/
def validCurrentHead : Option AuditLedgerHead → Bool
  | none => true
  | some head =>
    isSafeInteger head.ledgerSequence && 1 ≤ head.ledgerSequence && isHash head.entryHash &&
      (if head.ledgerSequence = 1 then head.previousEntryHash.isNone else head.previousEntryHash.any isHash) &&
      head.entryHashValid && head.anchorMatches

/-- The checkpoint that the predecessor of the head has. -/
def predecessorMatches (previous : Option AuditLedgerCheckpoint) (head : AuditLedgerHead) : Bool :=
  match previous with
  | none => head.ledgerSequence = 1 && head.previousEntryHash.isNone
  | some previous =>
    previous.sequence = head.ledgerSequence - 1 && head.previousEntryHash = some previous.headHash

/-- What `reconcileExternalCheckpoint` does with the value that it reads. -/
inductive Reconciliation
  | settled (expected : Option AuditLedgerCheckpoint)
  /-- It writes the expected checkpoint over the value. -/
  | repair (expected : AuditLedgerCheckpoint)
  | failed (message : String)
deriving DecidableEq

def headInvalid : String := "Current audit-ledger head failed seal or anchor validation"

def diverged : String := "External audit-ledger checkpoint diverged; writes are locked"

def reconcileExternalCheckpoint (head : Option AuditLedgerHead) (external : Option CheckpointValue) : Reconciliation :=
  if validCurrentHead head then
    if external = (checkpointForHead head).map .finalized then .settled (checkpointForHead head)
    else
      match head, parsePendingCheckpoint external, external with
      | some head, some (previous, next), _ =>
        if predecessorMatches previous head ∧ next = ⟨head.ledgerSequence, head.entryHash⟩ then .repair next
        else .failed diverged
      | some head, none, none => .repair ⟨head.ledgerSequence, head.entryHash⟩
      | _, _, _ => .failed diverged
  else .failed headInvalid

/-! ## Writers -/

def AuditLogRow.checkpoint (r : AuditLogRow) : AuditLedgerCheckpoint := ⟨r.ledgerSequence, r.entryHash⟩

/-- `insertedPreviousCheckpoint` -/
def AuditLogRow.previousCheckpoint (r : AuditLogRow) : Option AuditLedgerCheckpoint :=
  if r.ledgerSequence = 1 then none else some ⟨r.ledgerSequence - 1, r.previousEntryHash.getD ""⟩

/-- Where a call of `persist` stands. -/
inductive Phase
  | idle
  /-- It has the lock and an open transaction. -/
  | locked
  | readHead (head : Option AuditLedgerHead)
  | repairing (expected : AuditLedgerCheckpoint) (external : Option CheckpointValue)
  /-- The repair did not answer `true`; the value is read again. -/
  | rereading (expected : AuditLedgerCheckpoint)
  | reconciled (expected : Option AuditLedgerCheckpoint)
  | inserted (expected : Option AuditLedgerCheckpoint) (row : AuditLogRow)
  | witnessed (expected : Option AuditLedgerCheckpoint) (row : AuditLogRow)
  | committed (expected : Option AuditLedgerCheckpoint) (row : AuditLogRow)
  /-- The rollback is confirmed. -/
  | rolledBack (expected : Option AuditLedgerCheckpoint) (row : AuditLogRow)
  | closing (returned : Bool)
  | done (returned : Bool)
deriving DecidableEq

def pendingCheckpoint (expected : Option AuditLedgerCheckpoint) (row : AuditLogRow) : CheckpointValue :=
  .pending expected row.checkpoint

/-- The script that a writer runs in a phase: the value it expects and the one it sets. -/
def Phase.script : Phase → Option (Option CheckpointValue × Option CheckpointValue)
  | .repairing expected external => some (external, some (.finalized expected))
  | .inserted expected row => some (expected.map .finalized, some (pendingCheckpoint expected row))
  | .committed expected row => some (some (pendingCheckpoint expected row), some (.finalized row.checkpoint))
  | .rolledBack expected row => some (some (pendingCheckpoint expected row), expected.map .finalized)
  | _ => none

inductive Reply
  | swapped | kept | lost
deriving DecidableEq

def Phase.afterScript : Phase → Reply → Phase
  | .repairing expected _, .swapped => .reconciled (some expected)
  | .repairing expected _, .kept => .rereading expected
  | .inserted expected row, .swapped => .witnessed expected row
  | .committed _ _, .swapped => .closing true
  | _, _ => .closing false

inductive CommitOutcome
  | answered
  /-- The server rolls back instead, and says so. -/
  | refused
  /-- The connection dies under the statement. -/
  | lost (applied : Bool)
deriving DecidableEq

structure System where
  ledger : AuditLedger
  external : Option CheckpointValue
  lock : Option Nat
  /-- What each writer inserts. -/
  entries : Nat → AuditEntry
  phases : Nat → Phase

inductive Step
  | acquire (n : Nat)
  /-- The next statement or read of the writer. -/
  | next (n : Nat)
  | script (n : Nat) (applied : Bool) (reply : Reply)
  | commit (n : Nat) (outcome : CommitOutcome)
  /-- The statement or read fails. -/
  | throw (n : Nat)
  /-- The writer's connection dies, with its transaction and its lock. -/
  | drop (n : Nat)
deriving DecidableEq

namespace System

def setPhase (s : System) (n : Nat) (phase : Phase) : System := { s with phases := Function.update s.phases n phase }

def next (pg : Postgres) (s : System) (n : Nat) : Option System :=
  match s.phases n with
  | .locked =>
    if s.lock = some n then some (s.setPhase n (.readHead (currentHead pg s.ledger)))
    else some (s.setPhase n (.closing false))
  | .readHead head =>
    match reconcileExternalCheckpoint head s.external with
    | .settled expected => some (s.setPhase n (.reconciled expected))
    | .repair expected => some (s.setPhase n (.repairing expected s.external))
    | .failed _ => some (s.setPhase n (.closing false))
  | .rereading expected =>
    if s.external = some (.finalized expected) then some (s.setPhase n (.reconciled (some expected)))
    else some (s.setPhase n (.closing false))
  | .reconciled expected =>
    if s.lock = some n then
      match sealAuditLogInsert pg s.ledger (s.entries n) with
      | some row =>
        if row.previousCheckpoint = expected then some (s.setPhase n (.inserted expected row))
        else some (s.setPhase n (.closing false))
      | none => some (s.setPhase n (.closing false))
    else some (s.setPhase n (.closing false))
  | .closing returned =>
    some ({ s with lock := if s.lock = some n then none else s.lock }.setPhase n (.done returned))
  | _ => none

def script (s : System) (n : Nat) (applied : Bool) (reply : Reply) : Option System :=
  match (s.phases n).script with
  | some (old, new) =>
    let swaps := applied && s.external = old
    if reply = .swapped ∧ swaps = false then none
    else some ({ s with external := if swaps then new else s.external }.setPhase n ((s.phases n).afterScript reply))
  | none => none

def commit (s : System) (n : Nat) (outcome : CommitOutcome) : Option System :=
  match s.phases n with
  | .witnessed expected row =>
    if s.lock = some n then
      match outcome, s.ledger.append row with
      | .answered, some ledger => some ({ s with ledger }.setPhase n (.committed expected row))
      | .answered, none | .refused, _ => some (s.setPhase n (.rolledBack expected row))
      | .lost true, some ledger => some ({ s with ledger, lock := none }.setPhase n (.closing false))
      | .lost _, _ => some ({ s with lock := none }.setPhase n (.closing false))
    else some (s.setPhase n (.closing false))
  | _ => none

def throw (s : System) (n : Nat) : Option System :=
  match s.phases n with
  | .locked | .readHead _ | .rereading _ | .reconciled _ => some (s.setPhase n (.closing false))
  | _ => none

def step (pg : Postgres) (s : System) : Step → Option System
  | .acquire n =>
    match s.phases n, s.lock with
    | .idle, none => some ({ s with lock := some n }.setPhase n .locked)
    | _, _ => none
  | .next n => s.next pg n
  | .script n applied reply => s.script n applied reply
  | .commit n outcome => s.commit n outcome
  | .throw n => s.throw n
  | .drop n => if s.lock = some n then some { s with lock := none } else none

/-- After the migration, before the first writer. -/
def Initial (pg : Postgres) (history : List AuditEntry) (s : System) : Prop :=
  s.ledger = backfill pg history ∧ s.external = none ∧ s.lock = none ∧ ∀ n, s.phases n = .idle

end System

end Sdp.Audit
