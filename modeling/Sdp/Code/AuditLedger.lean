import Sdp.Lib.HashChain
import Sdp.Lib.Json
import Mathlib.Algebra.Order.Ring.Int

/-!
# The audit ledger

From `0047_audit_ledger_integrity.sql` and the checkpoint functions and `verifyIntegrity` of
`services/audit.service.ts`. A `BYTEA` is its hex text. SHA-256 and the casts to `jsonb` and
`timestamptz` are the database's.
-/

open Sdp.Lib

namespace Sdp.Audit

/-- `/^[0-9a-f]{64}$/` -/
def isHash (s : String) : Bool := s.length = 64 && s.toList.all fun c => c.isDigit || ('a' ≤ c && c ≤ 'f')

structure AuditMetadata where
  auditPhase : Option String
  auditIntentId : Option String
deriving DecidableEq

structure Postgres where
  sha256 : String → String
  sha256_isHash (text : String) : isHash (sha256 text) = true
  /-- `none` where `pg_input_is_valid` says no. Only two keys are read. -/
  jsonb : String → Option AuditMetadata
  /-- In milliseconds. -/
  timestamptz : String → Int

/-! ## Rows -/

/-- The columns that an `INSERT` gives, or their defaults. -/
structure AuditEntry where
  id : String
  organizationId : Option String
  userId : Option String
  apiKeyId : Option String
  action : String
  resourceType : String
  resourceId : Option String
  metadata : Option String
  ipAddress : Option String
  userAgent : Option String
  requestId : Option String
  status : String
  createdAt : String
deriving DecidableEq

structure AuditLogRow where
  ledgerSequence : Int
  entry : AuditEntry
  previousEntryHash : Option String
  entryHash : String
deriving DecidableEq

structure AuditLedgerAnchor where
  ledgerSequence : Int
  entryHash : String
deriving DecidableEq

/-- Both tables in the order of `ledger_sequence`, which is unique in each. -/
structure AuditLedger where
  logs : List AuditLogRow
  anchors : List AuditLedgerAnchor
  logsUnique : (logs.map (·.ledgerSequence)).Pairwise (· < ·)
  anchorsUnique : (anchors.map (·.ledgerSequence)).Pairwise (· < ·)

def nullable : Option String → Json.Scalar
  | none => .null
  | some s => .str s

/-- `jsonb_build_array(…)::TEXT` -/
def payload (sequence : Int) (e : AuditEntry) (previous : Option String) : String :=
  Json.arrayText [.num sequence, .str e.id, nullable e.organizationId, nullable e.userId, nullable e.apiKeyId,
    .str e.action, .str e.resourceType, nullable e.resourceId, nullable e.metadata, nullable e.ipAddress,
    nullable e.userAgent, nullable e.requestId, .str e.status, .str e.createdAt, nullable previous]

def auditLogHash (pg : Postgres) (sequence : Int) (e : AuditEntry) (previous : Option String) : String :=
  pg.sha256 (payload sequence e previous)

/-- A row as it is sealed. -/
def sealedRow (pg : Postgres) (sequence : Int) (e : AuditEntry) (previous : Option String) : AuditLogRow where
  ledgerSequence := sequence
  entry := e
  previousEntryHash := previous
  entryHash := auditLogHash pg sequence e previous

def AuditLogRow.anchor (r : AuditLogRow) : AuditLedgerAnchor := ⟨r.ledgerSequence, r.entryHash⟩

def links (pg : Postgres) : Links AuditLogRow String where
  previous := (·.previousEntryHash)
  hash := (·.entryHash)
  sealed r p := auditLogHash pg r.ledgerSequence r.entry p

namespace AuditLedger

def empty : AuditLedger := ⟨[], [], .nil, .nil⟩

def head? (l : AuditLedger) : Option AuditLogRow := l.logs.getLast?

def anchorHead? (l : AuditLedger) : Option AuditLedgerAnchor := l.anchors.getLast?

def anchorAt (l : AuditLedger) (sequence : Int) : Option AuditLedgerAnchor :=
  l.anchors.find? (·.ledgerSequence = sequence)

/-- A committed row with the anchor that its trigger adds. An anchor or a row of a later sequence refuses it. -/
def append (l : AuditLedger) (r : AuditLogRow) : Option AuditLedger :=
  if h : (∀ row ∈ l.logs, row.ledgerSequence < r.ledgerSequence) ∧
      ∀ anchor ∈ l.anchors, anchor.ledgerSequence < r.ledgerSequence then
    some
      { logs := l.logs ++ [r]
        anchors := l.anchors ++ [r.anchor]
        logsUnique := by
          rw [List.map_append, List.pairwise_append]
          exact ⟨l.logsUnique, List.pairwise_singleton _ _, by simpa using h.1⟩
        anchorsUnique := by
          rw [List.map_append, List.pairwise_append]
          exact ⟨l.anchorsUnique, List.pairwise_singleton _ _, by simpa [AuditLogRow.anchor] using h.2⟩ }
  else none

/-- What is left when someone deletes all but the first `m` entries together with their anchors. -/
def truncate (l : AuditLedger) (m : Nat) : AuditLedger where
  logs := l.logs.take m
  anchors := l.anchors.take m
  logsUnique := l.logsUnique.sublist ((List.take_sublist m l.logs).map _)
  anchorsUnique := l.anchorsUnique.sublist ((List.take_sublist m l.anchors).map _)

end AuditLedger

/-! ## Sealing -/

/-- The history that the migration finds, in the order of its loop. -/
def backfillRows (pg : Postgres) (sequence : Int) (previous : Option String) : List AuditEntry → List AuditLogRow
  | [] => []
  | e :: es =>
    let row := sealedRow pg (sequence + 1) e previous
    row :: backfillRows pg (sequence + 1) (some row.entryHash) es

theorem lt_of_mem_backfillRows {pg : Postgres} {sequence : Int} {previous : Option String} {es : List AuditEntry}
    {row : AuditLogRow} (h : row ∈ backfillRows pg sequence previous es) : sequence < row.ledgerSequence := by
  induction es generalizing sequence previous with
  | nil => cases h
  | cons e es ih =>
    rcases List.mem_cons.mp h with rfl | h
    · exact Int.lt_succ sequence
    · exact Int.lt_trans (Int.lt_succ sequence) (ih h)

theorem backfillRows_unique (pg : Postgres) (sequence : Int) (previous : Option String) (es : List AuditEntry) :
    ((backfillRows pg sequence previous es).map (·.ledgerSequence)).Pairwise (· < ·) := by
  induction es generalizing sequence previous with
  | nil => exact .nil
  | cons e es ih =>
    refine List.Pairwise.cons ?_ (ih _ _)
    intro s hs
    obtain ⟨row, hrow, rfl⟩ := List.mem_map.mp hs
    exact lt_of_mem_backfillRows hrow

def backfill (pg : Postgres) (history : List AuditEntry) : AuditLedger where
  logs := backfillRows pg 0 none history
  anchors := (backfillRows pg 0 none history).map (·.anchor)
  logsUnique := backfillRows_unique pg 0 none history
  anchorsUnique := by
    rw [List.map_map]
    exact backfillRows_unique pg 0 none history

/-- The trigger before an insert. `none` is the exception that the head diverges from its anchor. -/
def sealAuditLogInsert (pg : Postgres) (l : AuditLedger) (e : AuditEntry) : Option AuditLogRow :=
  let anchored := l.anchorHead?
  if l.head?.map (·.anchor) ≠ anchored then none
  else some (sealedRow pg ((anchored.map (·.ledgerSequence)).getD 0 + 1) e (anchored.map (·.entryHash)))

/-! ## Verification -/

structure LedgerVerification where
  valid : Bool
  checkedEntries : Nat
  firstInvalidSequence : Option Int
  headHash : Option String
  unresolvedCriticalIntents : Nat
deriving DecidableEq

/-- The loop over the rows: the count and the last hash, or the verdict of its early return. -/
def verifyRows (pg : Postgres) (l : AuditLedger) (checked : Nat) (previous : Option String) :
    List AuditLogRow → Except LedgerVerification (Nat × Option String)
  | [] => .ok (checked, previous)
  | row :: rows =>
    if row.previousEntryHash ≠ previous ∨
        row.entryHash ≠ auditLogHash pg row.ledgerSequence row.entry previous then
      .error ⟨false, checked, some row.ledgerSequence, previous, 0⟩
    else if (l.anchorAt row.ledgerSequence).map (·.entryHash) ≠ some row.entryHash then
      .error ⟨false, checked, some row.ledgerSequence, previous, 0⟩
    else verifyRows pg l (checked + 1) (some row.entryHash) rows

def AuditLogRow.metadata (pg : Postgres) (r : AuditLogRow) : Option AuditMetadata := r.entry.metadata.bind pg.jsonb

/-- Intents of more than 15 minutes ago without an outcome. -/
def unresolvedIntents (pg : Postgres) (now : Int) (logs : List AuditLogRow) : List AuditLogRow :=
  logs.filter fun intent =>
    (intent.metadata pg).bind (·.auditPhase) = some "intent" ∧
      pg.timestamptz intent.entry.createdAt < now - 15 * 60 * 1000 ∧
      ∀ outcome ∈ logs, ¬((outcome.metadata pg).bind (·.auditPhase) = some "outcome" ∧
        intent.entry.resourceId.isSome ∧
        (outcome.metadata pg).bind (·.auditIntentId) = intent.entry.resourceId)

def verifyAuditLedger (pg : Postgres) (l : AuditLedger) (now : Int) (externalSequence : Int)
    (externalHeadHash : Option String) : LedgerVerification :=
  match verifyRows pg l 0 none l.logs with
  | .error verdict => verdict
  | .ok (checked, previous) =>
    if l.anchors.length ≠ checked ∨
        l.anchorHead?.map (·.ledgerSequence) ≠ (if checked = 0 then none else some (checked : Int)) ∨
        l.anchorHead?.map (·.entryHash) ≠ previous then
      ⟨false, checked, some (checked + 1), previous, 0⟩
    else if externalSequence ≠ checked ∨ externalHeadHash ≠ previous then
      ⟨false, checked, some (checked + 1), previous, 0⟩
    else
      let unresolved := unresolvedIntents pg now l.logs
      ⟨unresolved.length = 0, checked, (unresolved.map (·.ledgerSequence)).head?, previous, unresolved.length⟩

/-! ## Checkpoints -/

structure AuditLedgerCheckpoint where
  sequence : Int
  headHash : String
deriving DecidableEq

/-- What the key of the checkpoint holds. JSON texts of different values are different, and a text
that is neither kind is `malformed`. -/
inductive CheckpointValue
  | finalized (checkpoint : AuditLedgerCheckpoint)
  | pending (previous : Option AuditLedgerCheckpoint) (next : AuditLedgerCheckpoint)
  | malformed (text : String)
deriving DecidableEq

def isSafeInteger (n : Int) : Bool := -(2 ^ 53) < n && n < 2 ^ 53

def isValidCheckpoint (c : AuditLedgerCheckpoint) : Bool :=
  isSafeInteger c.sequence && 0 < c.sequence && isHash c.headHash

def parseCheckpoint : Option CheckpointValue → AuditLedgerCheckpoint
  | none => ⟨0, ""⟩
  | some (.finalized c) => if isValidCheckpoint c then c else ⟨-1, ""⟩
  | some (.pending _ _) => ⟨-1, ""⟩
  | some (.malformed _) => ⟨-1, ""⟩

def parsePendingCheckpoint : Option CheckpointValue → Option (Option AuditLedgerCheckpoint × AuditLedgerCheckpoint)
  | some (.pending previous next) =>
    if previous.all isValidCheckpoint && isValidCheckpoint next &&
        next.sequence = (previous.map (·.sequence)).getD 0 + 1 then
      some (previous, next)
    else none
  | _ => none

structure AuditLedgerIntegrity where
  valid : Bool
  checkedEntries : Nat
  firstInvalidSequence : Option Int
  headHash : Option String
  unresolvedCriticalIntents : Nat
  externalCheckpointMatches : Bool
deriving DecidableEq

/-- `external` is read before the query over the ledger. -/
def verifyIntegrity (pg : Postgres) (external : Option CheckpointValue) (l : AuditLedger) (now : Int) :
    AuditLedgerIntegrity :=
  let parsed := parseCheckpoint external
  -- `NULLIF(?, '')`
  let result := verifyAuditLedger pg l now parsed.sequence (if parsed.headHash = "" then none else some parsed.headHash)
  let expected := if result.checkedEntries = 0 then none
    else result.headHash.map fun h => CheckpointValue.finalized ⟨result.checkedEntries, h⟩
  { valid := result.valid && external = expected
    checkedEntries := result.checkedEntries
    firstInvalidSequence := result.firstInvalidSequence
    headHash := result.headHash
    unresolvedCriticalIntents := result.unresolvedCriticalIntents
    externalCheckpointMatches := external = expected }

end Sdp.Audit
