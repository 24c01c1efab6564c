import Sdp.AuditLedger
import Sdp.Code.AuditWriters
import Mathlib.Data.List.Infix
import Mathlib.Data.List.Nodup

/-!
# The external checkpoint and the ledger

Every value that a run leaves at the checkpoint's key is explained by the ledger of that moment, and a
writer that reconciles repairs what its predecessors left, with one exception.
-/

open Sdp.Lib

namespace Sdp.Audit

variable {pg : Postgres} {l : AuditLedger} {rows : List AuditLogRow} {row : AuditLogRow}

/-! ## Sealed ledgers -/

/-- The rows count from 1. -/
def Numbered (rows : List AuditLogRow) : Prop :=
  rows.map (·.ledgerSequence) = (List.range' 1 rows.length).map Int.ofNat

/-- A ledger that only `persist` and the migration have written. -/
structure Sealed (pg : Postgres) (l : AuditLedger) : Prop where
  chained : (links pg).Chained none l.logs
  numbered : Numbered l.logs
  anchored : l.anchors = l.logs.map (·.anchor)

def checkpointOf (rows : List AuditLogRow) : Option AuditLedgerCheckpoint := rows.getLast?.map (·.checkpoint)

def AuditLedger.checkpoint (l : AuditLedger) : Option AuditLedgerCheckpoint := checkpointOf l.logs

def sequenceOf (c : Option AuditLedgerCheckpoint) : Int := (c.map (·.sequence)).getD 0

theorem numbered_concat : Numbered (rows ++ [row]) ↔ Numbered rows ∧ row.ledgerSequence = rows.length + 1 := by
  unfold Numbered
  rw [List.length_append, List.length_singleton, List.range'_concat, List.map_append, List.map_append]
  constructor
  · intro h
    obtain ⟨hrows, hrow⟩ := List.append_inj h (by simp)
    refine ⟨hrows, ?_⟩
    simp only [List.map_cons, List.map_nil, List.cons.injEq, and_true] at hrow
    rw [hrow, Int.ofNat_eq_natCast]
    omega
  · rintro ⟨hrows, hrow⟩
    rw [hrows, List.map_singleton, List.map_singleton, hrow, Int.ofNat_eq_natCast]
    congr 2
    omega

theorem Numbered.below {p : List AuditLogRow} (h : Numbered rows) (hp : p <+: rows) : Numbered p := by
  obtain ⟨rest, rfl⟩ := hp
  induction rest using List.reverseRecOn with
  | nil => rwa [List.append_nil] at h
  | append_singleton rest r ih =>
    rw [← List.append_assoc] at h
    exact ih (numbered_concat.mp h).1

@[simp] theorem checkpointOf_nil : checkpointOf [] = none := rfl

@[simp] theorem checkpointOf_concat : checkpointOf (rows ++ [row]) = some row.checkpoint := by
  simp [checkpointOf]

theorem checkpointOf_eq_none : checkpointOf rows = none ↔ rows = [] := by
  simp [checkpointOf]

theorem Numbered.sequenceOf_checkpointOf (h : Numbered rows) : sequenceOf (checkpointOf rows) = rows.length := by
  cases rows using List.reverseRecOn with
  | nil => rfl
  | append_singleton rows r _ =>
    have hsequence := (numbered_concat.mp h).2
    rw [checkpointOf_concat, List.length_append]
    simpa [sequenceOf, AuditLogRow.checkpoint] using hsequence

theorem headHash_checkpointOf : (checkpointOf rows).map (·.headHash) = (links pg).head none rows := by
  simp only [checkpointOf, Links.head, Option.map_map, Option.or_none]
  rfl

theorem Sealed.ext {m : AuditLedger} (hl : Sealed pg l) (hm : Sealed pg m) (h : l.logs = m.logs) : l = m := by
  have hanchors : l.anchors = m.anchors := by rw [hl.anchored, hm.anchored, h]
  cases l
  cases m
  simp only [AuditLedger.mk.injEq]
  exact ⟨h, hanchors⟩

theorem chained_backfillRows {sequence : Int} {previous : Option String} {history : List AuditEntry} :
    (links pg).Chained previous (backfillRows pg sequence previous history) := by
  induction history generalizing sequence previous with
  | nil => trivial
  | cons e history ih => exact ⟨rfl, rfl, ih⟩

theorem sequences_backfillRows {n : Nat} {previous : Option String} {history : List AuditEntry} :
    (backfillRows pg n previous history).map (·.ledgerSequence) =
      (List.range' (n + 1) (backfillRows pg n previous history).length).map Int.ofNat := by
  induction history generalizing n previous with
  | nil => rfl
  | cons e history ih =>
    simp only [backfillRows, List.map_cons, List.length_cons, List.range'_succ, List.cons.injEq]
    exact ⟨rfl, ih⟩

theorem sealed_backfill (pg : Postgres) (history : List AuditEntry) : Sealed pg (backfill pg history) where
  chained := chained_backfillRows
  numbered := sequences_backfillRows (n := 0)
  anchored := rfl

/-- The row that a writer inserts on top of a checkpoint. -/
def RowAfter (pg : Postgres) (expected : Option AuditLedgerCheckpoint) (row : AuditLogRow) : Prop :=
  ∃ e, row = sealedRow pg (sequenceOf expected + 1) e (expected.map (·.headHash))

theorem append_eq_some {m : AuditLedger} (h : l.append row = some m) :
    m.logs = l.logs ++ [row] ∧ m.anchors = l.anchors ++ [row.anchor] := by
  unfold AuditLedger.append at h
  split at h
  · cases h
    exact ⟨rfl, rfl⟩
  · cases h

theorem anchors_lt_of_append {m : AuditLedger} (h : l.append row = some m) :
    ∀ anchor ∈ l.anchors, anchor.ledgerSequence < row.ledgerSequence := by
  unfold AuditLedger.append at h
  split at h
  · next hlater => exact hlater.2
  · cases h

theorem Sealed.append {m : AuditLedger} (hl : Sealed pg l) (hrow : RowAfter pg l.checkpoint row)
    (h : l.append row = some m) : Sealed pg m := by
  obtain ⟨hlogs, hanchors⟩ := append_eq_some h
  obtain ⟨e, rfl⟩ := hrow
  have hsequence : sequenceOf l.checkpoint = l.logs.length := hl.numbered.sequenceOf_checkpointOf
  refine ⟨?_, ?_, ?_⟩
  · rw [hlogs, Links.chained_concat]
    exact ⟨hl.chained, headHash_checkpointOf, by rw [← headHash_checkpointOf]; rfl⟩
  · rw [hlogs, numbered_concat]
    exact ⟨hl.numbered, congrArg (· + 1) hsequence⟩
  · rw [hlogs, hanchors, hl.anchored, List.map_append]
    rfl

theorem Sealed.anchorHead (hl : Sealed pg l) : l.anchorHead? = l.head?.map (·.anchor) := by
  rw [AuditLedger.anchorHead?, hl.anchored, List.getLast?_map]
  rfl

theorem Sealed.sealInsert (hl : Sealed pg l) (e : AuditEntry) :
    ∃ row, sealAuditLogInsert pg l e = some row ∧ RowAfter pg l.checkpoint row ∧ row.previousCheckpoint = l.checkpoint := by
  have hsequence := hl.numbered.sequenceOf_checkpointOf
  have hhead : l.head?.map (·.anchor) = l.anchorHead? := hl.anchorHead.symm
  refine ⟨sealedRow pg (sequenceOf l.checkpoint + 1) e (l.checkpoint.map (·.headHash)), ?_, ⟨e, rfl⟩, ?_⟩
  · simp only [sealAuditLogInsert, hhead, ne_eq, not_true_eq_false, if_false]
    rw [hl.anchorHead]
    simp only [AuditLedger.checkpoint, checkpointOf, sequenceOf, Option.map_map, AuditLedger.head?]
    rfl
  · cases hc : l.checkpoint with
    | none => rfl
    | some c =>
      have hne : l.logs ≠ [] := fun hnil => by simp [AuditLedger.checkpoint, hnil] at hc
      have hpositive := List.length_pos_of_ne_nil hne
      have hc' : c.sequence = l.logs.length := by
        unfold AuditLedger.checkpoint at hc
        rw [hc] at hsequence
        exact hsequence
      have hfirst : (sealedRow pg (sequenceOf (some c) + 1) e (some c.headHash)).ledgerSequence ≠ 1 := by
        change c.sequence + 1 ≠ 1
        omega
      rw [AuditLogRow.previousCheckpoint, Option.map_some, if_neg hfirst]
      change some (AuditLedgerCheckpoint.mk (c.sequence + 1 - 1) c.headHash) = some c
      rw [Int.add_sub_cancel]

/-! ## Steps -/

/-- How a writer moves on without a write that others see. -/
inductive Advances (pg : Postgres) (s : System) (n : Nat) : Phase → Phase → Prop
  | lock : Advances pg s n .idle .locked
  | readHead (hlock : s.lock = some n) : Advances pg s n .locked (.readHead (currentHead pg s.ledger))
  | settle {head : Option AuditLedgerHead} {expected : Option AuditLedgerCheckpoint}
      (h : reconcileExternalCheckpoint head s.external = .settled expected) :
      Advances pg s n (.readHead head) (.reconciled expected)
  | repair {head : Option AuditLedgerHead} {expected : AuditLedgerCheckpoint}
      (h : reconcileExternalCheckpoint head s.external = .repair expected) :
      Advances pg s n (.readHead head) (.repairing expected s.external)
  | reread {expected : AuditLedgerCheckpoint} (h : s.external = some (.finalized expected)) :
      Advances pg s n (.rereading expected) (.reconciled (some expected))
  | insert {expected : Option AuditLedgerCheckpoint} {row : AuditLogRow} (hlock : s.lock = some n)
      (hrow : sealAuditLogInsert pg s.ledger (s.entries n) = some row) (hprevious : row.previousCheckpoint = expected) :
      Advances pg s n (.reconciled expected) (.inserted expected row)
  | fail {phase : Phase} : Advances pg s n phase (.closing false)
  | close {returned : Bool} : Advances pg s n (.closing returned) (.done returned)

/-- Everything that a step can do. -/
inductive Moves (pg : Postgres) (s t : System) : Prop
  | drop (hledger : t.ledger = s.ledger) (hexternal : t.external = s.external) (hphases : t.phases = s.phases)
      (hlock : ∀ k, t.lock = some k → s.lock = some k)
  | advance (n : Nat) {phase : Phase} (h : Advances pg s n (s.phases n) phase) (hledger : t.ledger = s.ledger)
      (hexternal : t.external = s.external) (hphases : t.phases = Function.update s.phases n phase)
      (hlock : ∀ k, t.lock = some k → s.lock = some k ∨ k = n ∧ phase = .locked)
  | swap (n : Nat) {old new : Option CheckpointValue} {reply : Reply} (hscript : (s.phases n).script = some (old, new))
      (hold : s.external = old) (hledger : t.ledger = s.ledger) (hexternal : t.external = new)
      (hphases : t.phases = Function.update s.phases n ((s.phases n).afterScript reply)) (hlock : t.lock = s.lock)
  | keep (n : Nat) {reply : Reply} (hreply : reply ≠ .swapped) (hledger : t.ledger = s.ledger)
      (hexternal : t.external = s.external)
      (hphases : t.phases = Function.update s.phases n ((s.phases n).afterScript reply)) (hlock : t.lock = s.lock)
  | commit (n : Nat) {expected : Option AuditLedgerCheckpoint} {row : AuditLogRow} {phase : Phase}
      (hn : s.phases n = .witnessed expected row) (hheld : s.lock = some n)
      (happend : s.ledger.append row = some t.ledger)
      (hphase : phase = .committed expected row ∨ phase = .closing false) (hexternal : t.external = s.external)
      (hphases : t.phases = Function.update s.phases n phase) (hlock : ∀ k, t.lock = some k → k = n)
  | rollBack (n : Nat) {expected : Option AuditLedgerCheckpoint} {row : AuditLogRow}
      (hn : s.phases n = .witnessed expected row) (hledger : t.ledger = s.ledger) (hexternal : t.external = s.external)
      (hphases : t.phases = Function.update s.phases n (.rolledBack expected row)) (hlock : t.lock = s.lock)

variable {s t : System} {n : Nat}

theorem next_moves (h : s.next pg n = some t) : Moves pg s t := by
  unfold System.next at h
  split at h
  · next hn =>
    split at h
    · next hlock =>
      cases h
      exact .advance n (hn ▸ .readHead hlock) rfl rfl rfl fun _ => .inl
    · cases h
      exact .advance n .fail rfl rfl rfl fun _ => .inl
  · next hn =>
    split at h
    · next hsettled =>
      cases h
      exact .advance n (hn ▸ .settle hsettled) rfl rfl rfl fun _ => .inl
    · next hrepair =>
      cases h
      exact .advance n (hn ▸ .repair hrepair) rfl rfl rfl fun _ => .inl
    · cases h
      exact .advance n .fail rfl rfl rfl fun _ => .inl
  · next hn =>
    split at h
    · next hexternal =>
      cases h
      exact .advance n (hn ▸ .reread hexternal) rfl rfl rfl fun _ => .inl
    · cases h
      exact .advance n .fail rfl rfl rfl fun _ => .inl
  · next hn =>
    split at h
    · next hlock =>
      split at h
      · next hrow =>
        split at h
        · next hprevious =>
          cases h
          exact .advance n (hn ▸ .insert hlock hrow hprevious) rfl rfl rfl fun _ => .inl
        · cases h
          exact .advance n .fail rfl rfl rfl fun _ => .inl
      · cases h
        exact .advance n .fail rfl rfl rfl fun _ => .inl
    · cases h
      exact .advance n .fail rfl rfl rfl fun _ => .inl
  · next hn =>
    cases h
    refine .advance n (hn ▸ .close) rfl rfl rfl fun k hk => .inl ?_
    simp only [System.setPhase] at hk
    split at hk
    · cases hk
    · exact hk
  · cases h

theorem afterScript_kept (phase : Phase) {reply : Reply} (hreply : reply ≠ .swapped) :
    (∃ c read, phase = .repairing c read ∧ phase.afterScript reply = .rereading c) ∨
      phase.afterScript reply = .closing false := by
  cases phase <;> cases reply <;> simp_all [Phase.afterScript]

theorem script_moves {applied : Bool} {reply : Reply} (h : s.script n applied reply = some t) : Moves pg s t := by
  unfold System.script at h
  split at h
  · next old new hscript =>
    simp only [] at h
    split at h
    · cases h
    · next hreply =>
      cases hswaps : (applied && decide (s.external = old)) with
      | true =>
        simp only [hswaps, if_true, Option.some.injEq] at h
        subst h
        exact .swap n hscript (of_decide_eq_true (Bool.and_eq_true_iff.mp hswaps).2) rfl rfl rfl rfl
      | false =>
        rw [hswaps] at hreply
        simp only [hswaps, Bool.false_eq_true, if_false, Option.some.injEq] at h
        subst h
        exact .keep n (fun hswapped => hreply ⟨hswapped, rfl⟩) rfl rfl rfl rfl
  · cases h

theorem commit_moves {outcome : CommitOutcome} (h : s.commit n outcome = some t) : Moves pg s t := by
  unfold System.commit at h
  split at h
  · next expected row hn =>
    split at h
    · next hheld =>
      split at h
      · next ledger happend =>
        cases h
        exact .commit n hn hheld happend (.inl rfl) rfl rfl fun k hk => Option.some.inj (hk.symm.trans hheld)
      · cases h
        exact .rollBack n hn rfl rfl rfl rfl
      · cases h
        exact .rollBack n hn rfl rfl rfl rfl
      · next ledger happend =>
        cases h
        exact .commit n hn hheld happend (.inr rfl) rfl rfl (by simp [System.setPhase])
      · cases h
        exact .advance n .fail rfl rfl rfl (by simp [System.setPhase])
    · cases h
      exact .advance n .fail rfl rfl rfl fun _ => .inl
  · cases h

theorem step_moves {step : Step} (h : s.step pg step = some t) : Moves pg s t := by
  cases step with
  | acquire n =>
    simp only [System.step] at h
    split at h
    · next hn _ =>
      cases h
      exact .advance n (hn ▸ .lock) rfl rfl rfl fun k hk => .inr ⟨(Option.some.inj hk).symm, rfl⟩
    · cases h
  | next n => exact next_moves h
  | script n applied reply => exact script_moves h
  | commit n outcome => exact commit_moves h
  | throw n =>
    simp only [System.step, System.throw] at h
    split at h
    all_goals cases h
    all_goals exact .advance n .fail rfl rfl rfl fun _ => .inl
  | drop n =>
    simp only [System.step] at h
    split at h
    · cases h
      exact .drop rfl rfl rfl (by simp)
    · cases h

/-! ## What the key holds -/

/-- The external value is explained by the ledger: absent before any writer's entry, the finalized
checkpoint of the head, or a pending record before or after its commit. -/
inductive Agreement (start l : AuditLedger) (external : Option CheckpointValue) : Prop
  | absent (hexternal : external = none) (hledger : l = start)
  | finalized {c : AuditLedgerCheckpoint} (hexternal : external = some (.finalized c)) (hhead : l.checkpoint = some c)
  | uncommitted {next : AuditLedgerCheckpoint} (hexternal : external = some (.pending l.checkpoint next))
      (hnext : next.sequence = l.logs.length + 1)
  | committed {previous : Option AuditLedgerCheckpoint} {next : AuditLedgerCheckpoint}
      (hexternal : external = some (.pending previous next)) (hhead : l.checkpoint = some next)
      (hprevious : checkpointOf l.logs.dropLast = previous)

/-- The ledger had this checkpoint at some moment of the run. -/
def Seen (start l : AuditLedger) (c : Option AuditLedgerCheckpoint) : Prop :=
  ∃ rows, start.logs <+: rows ∧ rows <+: l.logs ∧ checkpointOf rows = c

/-- What a writer knows in a phase, with or without the lock. -/
def PhaseOk (pg : Postgres) (start l : AuditLedger) (external : Option CheckpointValue) : Phase → Prop
  | .readHead head => Seen start l (checkpointForHead head)
  | .repairing expected read =>
    Seen start l (some expected) ∧ (read = none ∨ ∃ previous, read = some (.pending previous expected))
  | .inserted expected row => RowAfter pg expected row ∧ (expected = none → start.logs = [])
  | .witnessed expected row | .rolledBack expected row =>
    RowAfter pg expected row ∧ external = some (pendingCheckpoint expected row) ∧ l.checkpoint = expected
  | .committed _ row => row.ledgerSequence ≤ l.logs.length
  | _ => True

/-- The writer's pending record is at the key. -/
def Phase.owns : Phase → Bool
  | .witnessed _ _ | .rolledBack _ _ => true
  | _ => false

structure Inv (pg : Postgres) (start : AuditLedger) (s : System) : Prop where
  sealed : Sealed pg s.ledger
  grown : start.logs <+: s.ledger.logs
  agreement : Agreement start s.ledger s.external
  phases : ∀ n, PhaseOk pg start s.ledger s.external (s.phases n)
  owner : ∀ n m, (s.phases n).owns = true → (s.phases m).owns = true → n = m

variable {start m : AuditLedger} {external external' : Option CheckpointValue} {phase : Phase}
  {expected : Option AuditLedgerCheckpoint}

theorem reconcile_settled {head : Option AuditLedgerHead}
    (h : reconcileExternalCheckpoint head external = .settled expected) :
    expected = checkpointForHead head ∧ external = expected.map .finalized := by
  unfold reconcileExternalCheckpoint at h
  split at h
  · split at h
    · next hexternal =>
      cases h
      exact ⟨rfl, hexternal⟩
    · split at h
      · split at h <;> cases h
      · cases h
      · cases h
  · cases h

theorem parsePending_eq_some {previous : Option AuditLedgerCheckpoint} {next : AuditLedgerCheckpoint}
    (h : parsePendingCheckpoint external = some (previous, next)) : external = some (.pending previous next) := by
  unfold parsePendingCheckpoint at h
  split at h
  · split at h
    · cases h
      rfl
    · cases h
  · cases h

theorem reconcile_repair {head : Option AuditLedgerHead} {c : AuditLedgerCheckpoint}
    (h : reconcileExternalCheckpoint head external = .repair c) :
    checkpointForHead head = some c ∧ (external = none ∨ ∃ previous, external = some (.pending previous c)) := by
  unfold reconcileExternalCheckpoint at h
  split at h
  · split at h
    · cases h
    · split at h
      · next head previous next _ hpending _ =>
        split at h
        · next hnext =>
          cases h
          exact ⟨congrArg some hnext.2.symm, .inr ⟨previous, parsePending_eq_some hpending⟩⟩
        · cases h
      · cases h
        exact ⟨rfl, .inl rfl⟩
      · cases h
  · cases h

theorem RowAfter.sequence (h : RowAfter pg expected row) : row.ledgerSequence = sequenceOf expected + 1 := by
  obtain ⟨e, rfl⟩ := h
  rfl

theorem Sealed.sequence (hl : Sealed pg l) : sequenceOf l.checkpoint = l.logs.length :=
  hl.numbered.sequenceOf_checkpointOf

theorem Sealed.sequence_some {c : AuditLedgerCheckpoint} (hl : Sealed pg l) (hc : l.checkpoint = some c) :
    c.sequence = l.logs.length := by
  have h := hl.sequence
  rwa [hc] at h

theorem Seen.sequence_le {c : AuditLedgerCheckpoint} (hl : Sealed pg l) (h : Seen start l (some c)) :
    c.sequence ≤ l.logs.length := by
  obtain ⟨rows, -, hrows, hc⟩ := h
  have hsequence := (hl.numbered.below hrows).sequenceOf_checkpointOf
  rw [hc] at hsequence
  have hlength := hrows.length_le
  simp only [sequenceOf, Option.map_some, Option.getD_some] at hsequence
  omega

theorem PhaseOk.mono (h : PhaseOk pg start l external phase) (howns : phase.owns = false) (hgrown : l.logs <+: m.logs) :
    PhaseOk pg start m external' phase := by
  have hseen {c : Option AuditLedgerCheckpoint} (hc : Seen start l c) : Seen start m c := by
    obtain ⟨rows, hstart, hrows, hc⟩ := hc
    exact ⟨rows, hstart, hrows.trans hgrown, hc⟩
  cases phase with
  | readHead head => exact hseen h
  | repairing expected read => exact ⟨hseen h.1, h.2⟩
  | committed expected row =>
    have hlength := hgrown.length_le
    simp only [PhaseOk] at h ⊢
    omega
  | witnessed expected row => cases howns
  | rolledBack expected row => cases howns
  | inserted expected row => exact h
  | _ => trivial

namespace Inv

theorem pending_of_owner (h : Inv pg start s) (howns : (s.phases n).owns = true) :
    ∃ previous next, s.external = some (.pending previous next) ∧ next.sequence = s.ledger.logs.length + 1 := by
  have hphase := h.phases n
  cases hn : s.phases n with
  | witnessed expected row | rolledBack expected row =>
    rw [hn] at hphase
    obtain ⟨hrow, hexternal, hhead⟩ := hphase
    refine ⟨expected, row.checkpoint, hexternal, ?_⟩
    rw [AuditLogRow.checkpoint, hrow.sequence, ← hhead, h.sealed.sequence]
  | _ =>
    rw [hn] at howns
    cases howns

theorem not_owned (h : Inv pg start s)
    (hno : ∀ previous next, s.external = some (.pending previous next) → next.sequence ≠ s.ledger.logs.length + 1)
    (n : Nat) : (s.phases n).owns = false := by
  refine Bool.eq_false_iff.mpr fun howns => ?_
  obtain ⟨previous, next, hexternal, hnext⟩ := h.pending_of_owner howns
  exact hno previous next hexternal hnext

theorem setPhase (h : Inv pg start s) (hledger : t.ledger = s.ledger) (hexternal : t.external = s.external)
    (hphases : t.phases = Function.update s.phases n phase) (hphase : PhaseOk pg start s.ledger s.external phase)
    (howns : phase.owns = true → (s.phases n).owns = true) : Inv pg start t := by
  refine ⟨hledger ▸ h.sealed, hledger ▸ h.grown, hledger ▸ hexternal ▸ h.agreement, ?_, ?_⟩
  · intro k
    rw [hledger, hexternal, hphases]
    by_cases hk : k = n
    · subst hk
      rwa [Function.update_self]
    · rw [Function.update_of_ne hk]
      exact h.phases k
  · have hbefore (k : Nat) (hk : (t.phases k).owns = true) : (s.phases k).owns = true := by
      rw [hphases] at hk
      by_cases hkn : k = n
      · subst hkn
        rw [Function.update_self] at hk
        exact howns hk
      · rwa [Function.update_of_ne hkn] at hk
    intro k j hk hj
    exact h.owner k j (hbefore k hk) (hbefore j hj)

theorem write (h : Inv pg start s) (hothers : ∀ k ≠ n, (s.phases k).owns = false) (hsealed : Sealed pg t.ledger)
    (hgrown : s.ledger.logs <+: t.ledger.logs) (hagreement : Agreement start t.ledger t.external)
    (hphases : t.phases = Function.update s.phases n phase) (hphase : PhaseOk pg start t.ledger t.external phase) :
    Inv pg start t := by
  have hother {k : Nat} (hk : k ≠ n) : t.phases k = s.phases k := by rw [hphases, Function.update_of_ne hk]
  have hself {k : Nat} (hk : (t.phases k).owns = true) : k = n := by
    by_contra hne
    rw [hother hne, hothers k hne] at hk
    cases hk
  refine ⟨hsealed, h.grown.trans hgrown, hagreement, ?_, ?_⟩
  · intro k
    by_cases hk : k = n
    · subst hk
      rwa [hphases, Function.update_self]
    · rw [hother hk]
      exact (h.phases k).mono (hothers k hk) hgrown
  · intro k j hk hj
    rw [hself hk, hself hj]

end Inv

theorem checkpointForHead_currentHead (pg : Postgres) (l : AuditLedger) :
    checkpointForHead (currentHead pg l) = l.checkpoint := by
  simp only [checkpointForHead, currentHead, AuditLedger.checkpoint, checkpointOf, AuditLedger.head?, Option.map_map]
  rfl

theorem eq_nil_of_checkpoint (h : l.checkpoint = none) (hgrown : start.logs <+: l.logs) : start.logs = [] := by
  rw [checkpointOf_eq_none.mp h] at hgrown
  exact List.prefix_nil.mp hgrown

namespace Inv

theorem advance (h : Inv pg start s) (ha : Advances pg s n (s.phases n) phase) :
    PhaseOk pg start s.ledger s.external phase ∧ phase.owns = false := by
  have hphase := h.phases n
  generalize s.phases n = before at ha hphase
  cases ha with
  | readHead hlock => exact ⟨⟨s.ledger.logs, h.grown, List.prefix_rfl, (checkpointForHead_currentHead _ _).symm⟩, rfl⟩
  | repair hrepair =>
    obtain ⟨hhead, hread⟩ := reconcile_repair hrepair
    rw [PhaseOk, hhead] at hphase
    exact ⟨⟨hphase, hread⟩, rfl⟩
  | insert hlock hrow hprevious =>
    obtain ⟨row, hsealed, hafter, hcheckpoint⟩ := h.sealed.sealInsert (s.entries n)
    cases hrow.symm.trans hsealed
    rw [hcheckpoint] at hprevious
    subst hprevious
    exact ⟨⟨hafter, fun hnone => eq_nil_of_checkpoint hnone h.grown⟩, rfl⟩
  | lock | settle _ | reread _ | fail | close => exact ⟨trivial, rfl⟩

theorem repaired (h : Inv pg start s) {c : AuditLedgerCheckpoint} {read : Option CheckpointValue}
    (hn : PhaseOk pg start s.ledger s.external (.repairing c read)) (hold : s.external = read) :
    s.ledger.checkpoint = some c ∧ ∀ k, (s.phases k).owns = false := by
  obtain ⟨hseen, hread⟩ := hn
  have hle := hseen.sequence_le h.sealed
  subst hold
  constructor
  · cases h.agreement with
    | absent hexternal hledger =>
      -- The ledger has not grown, so what the writer saw is what there is.
      obtain ⟨rows, hstart, hrows, hc⟩ := hseen
      rw [← hledger] at hstart
      rwa [hrows.eq_of_length (le_antisymm hrows.length_le hstart.length_le)] at hc
    | finalized hexternal hhead =>
      rcases hread with hread | ⟨previous, hread⟩ <;> cases hexternal.symm.trans hread
    | uncommitted hexternal hnext =>
      rcases hread with hread | ⟨previous, hread⟩
      · cases hexternal.symm.trans hread
      · cases hexternal.symm.trans hread
        omega
    | committed hexternal hhead =>
      rcases hread with hread | ⟨previous, hread⟩
      · cases hexternal.symm.trans hread
      · cases hexternal.symm.trans hread
        exact hhead
  · refine h.not_owned fun previous next hexternal => ?_
    rcases hread with hread | ⟨previous', hread⟩
    · cases hexternal.symm.trans hread
    · cases hexternal.symm.trans hread
      omega

theorem published (h : Inv pg start s) (hn : expected = none → start.logs = [])
    (hold : s.external = expected.map .finalized) :
    s.ledger.checkpoint = expected ∧ ∀ k, (s.phases k).owns = false := by
  constructor
  · cases h.agreement with
    | absent hexternal hledger =>
      cases expected with
      | none => rw [hledger, AuditLedger.checkpoint, hn rfl, checkpointOf_nil]
      | some c => cases hexternal.symm.trans hold
    | finalized hexternal hhead =>
      cases expected with
      | none => cases hexternal.symm.trans hold
      | some c =>
        cases hexternal.symm.trans hold
        exact hhead
    | uncommitted hexternal _ => cases expected <;> cases hexternal.symm.trans hold
    | committed hexternal _ _ => cases expected <;> cases hexternal.symm.trans hold
  · refine h.not_owned fun previous next hexternal => ?_
    cases expected <;> cases hexternal.symm.trans hold

theorem promoted (h : Inv pg start s) (hn : row.ledgerSequence ≤ s.ledger.logs.length)
    (hold : s.external = some (pendingCheckpoint expected row)) :
    s.ledger.checkpoint = some row.checkpoint ∧ ∀ k, (s.phases k).owns = false := by
  have hle : row.checkpoint.sequence ≤ s.ledger.logs.length := hn
  constructor
  · cases h.agreement with
    | absent hexternal _ => cases hexternal.symm.trans hold
    | finalized hexternal _ => cases hexternal.symm.trans hold
    | uncommitted hexternal hnext =>
      cases hexternal.symm.trans hold
      omega
    | committed hexternal hhead _ =>
      cases hexternal.symm.trans hold
      exact hhead
  · refine h.not_owned fun previous next hexternal => ?_
    cases hexternal.symm.trans hold
    omega

theorem agreement_of_checkpoint (h : Inv pg start s) (hstart : Sealed pg start) (hhead : s.ledger.checkpoint = expected) :
    Agreement start s.ledger (expected.map .finalized) := by
  cases expected with
  | none =>
    have hlogs : s.ledger.logs = start.logs :=
      (checkpointOf_eq_none.mp hhead).trans (eq_nil_of_checkpoint hhead h.grown).symm
    exact .absent rfl (h.sealed.ext hstart hlogs)
  | some c => exact .finalized rfl hhead

theorem swap (h : Inv pg start s) (hstart : Sealed pg start) {old new : Option CheckpointValue} {reply : Reply}
    (hscript : (s.phases n).script = some (old, new)) (hold : s.external = old) (hledger : t.ledger = s.ledger)
    (hexternal : t.external = new) (hphases : t.phases = Function.update s.phases n ((s.phases n).afterScript reply)) :
    Inv pg start t := by
  have hphase := h.phases n
  have hothers (hone : (s.phases n).owns = true) : ∀ k ≠ n, (s.phases k).owns = false := fun k hk =>
    Bool.eq_false_iff.mpr fun hk' => hk (h.owner k n hk' hone)
  cases hn : s.phases n with
  | repairing c read =>
    rw [hn] at hscript hphases hphase
    cases hscript
    obtain ⟨hhead, hnone⟩ := h.repaired hphase hold
    refine h.write (fun k _ => hnone k) (hledger ▸ h.sealed) (by rw [hledger]) ?_ hphases ?_
    · rw [hledger, hexternal]
      exact .finalized rfl hhead
    · cases reply <;> trivial
  | inserted expected row =>
    rw [hn] at hscript hphases hphase
    cases hscript
    obtain ⟨hhead, hnone⟩ := h.published hphase.2 hold
    refine h.write (fun k _ => hnone k) (hledger ▸ h.sealed) (by rw [hledger]) ?_ hphases ?_
    · rw [hledger, hexternal, pendingCheckpoint, ← hhead]
      refine .uncommitted rfl ?_
      rw [AuditLogRow.checkpoint, hphase.1.sequence, ← hhead, h.sealed.sequence]
    · cases reply with
      | swapped => exact ⟨hphase.1, hexternal, hledger ▸ hhead⟩
      | kept | lost => trivial
  | committed expected row =>
    rw [hn] at hscript hphases hphase
    cases hscript
    obtain ⟨hhead, hnone⟩ := h.promoted hphase hold
    refine h.write (fun k _ => hnone k) (hledger ▸ h.sealed) (by rw [hledger]) ?_ hphases ?_
    · rw [hledger, hexternal]
      exact .finalized rfl hhead
    · cases reply <;> trivial
  | rolledBack expected row =>
    have hnone := hothers (by rw [hn]; rfl)
    rw [hn] at hscript hphases hphase
    cases hscript
    refine h.write hnone (hledger ▸ h.sealed) (by rw [hledger]) ?_ hphases ?_
    · rw [hledger, hexternal]
      exact h.agreement_of_checkpoint hstart hphase.2.2
    · cases reply <;> trivial
  | _ =>
    rw [hn] at hscript
    cases hscript

theorem commit (h : Inv pg start s) (hn : s.phases n = .witnessed expected row)
    (happend : s.ledger.append row = some t.ledger) (hnew : phase = .committed expected row ∨ phase = .closing false)
    (hexternal : t.external = s.external) (hphases : t.phases = Function.update s.phases n phase) : Inv pg start t := by
  have hphase := h.phases n
  rw [hn] at hphase
  obtain ⟨hrow, hpending, hhead⟩ := hphase
  have hothers : ∀ k ≠ n, (s.phases k).owns = false := fun k hk =>
    Bool.eq_false_iff.mpr fun hk' => hk (h.owner k n hk' (by rw [hn]; rfl))
  have hlogs := (append_eq_some happend).1
  have hsequence : row.ledgerSequence = s.ledger.logs.length + 1 := by
    rw [hrow.sequence, ← hhead, h.sealed.sequence]
  refine h.write hothers (h.sealed.append (hhead ▸ hrow) happend) (hlogs ▸ List.prefix_append _ _) ?_ hphases ?_
  · rw [hexternal, hpending]
    refine .committed rfl ?_ ?_
    · rw [AuditLedger.checkpoint, hlogs, checkpointOf_concat]
    · rw [hlogs, List.dropLast_concat]
      exact hhead
  · rcases hnew with rfl | rfl
    · rw [PhaseOk, hlogs, List.length_append, List.length_singleton, hsequence]
      omega
    · trivial

end Inv

theorem inv_step (hstart : Sealed pg start) (h : Inv pg start s) (ht : Moves pg s t) : Inv pg start t := by
  cases ht with
  | drop hledger hexternal hphases _ =>
    refine ⟨hledger ▸ h.sealed, hledger ▸ h.grown, hledger ▸ hexternal ▸ h.agreement, ?_, ?_⟩
    · rw [hledger, hexternal, hphases]
      exact h.phases
    · rw [hphases]
      exact h.owner
  | advance n ha hledger hexternal hphases _ =>
    obtain ⟨hphase, howns⟩ := h.advance ha
    exact h.setPhase hledger hexternal hphases hphase fun hown => by rw [howns] at hown; cases hown
  | swap n hscript hold hledger hexternal hphases _ => exact h.swap hstart hscript hold hledger hexternal hphases
  | @keep n reply hreply hledger hexternal hphases _ =>
    rcases afterScript_kept (s.phases n) hreply with ⟨c, _, -, hnew⟩ | hnew
    · rw [hnew] at hphases
      exact h.setPhase hledger hexternal hphases trivial (by simp [Phase.owns])
    · rw [hnew] at hphases
      exact h.setPhase hledger hexternal hphases trivial (by simp [Phase.owns])
  | commit n hn _ happend hnew hexternal hphases _ => exact h.commit hn happend hnew hexternal hphases
  | rollBack n hn hledger hexternal hphases _ =>
    have hphase := h.phases n
    rw [hn] at hphase
    exact h.setPhase hledger hexternal hphases hphase fun _ => by rw [hn]; rfl

/-- What a whole run keeps. -/
theorem inv_of_reachable {history : List AuditEntry}
    (h : Reachable (System.step pg) (System.Initial pg history) anyStep s) : Inv pg (backfill pg history) s := by
  refine h.invariant ?_ fun s step t _ hs _ ht => inv_step (sealed_backfill pg history) hs (step_moves ht)
  rintro s ⟨hledger, hexternal, -, hphases⟩
  refine ⟨hledger ▸ sealed_backfill pg history, by rw [hledger], .absent hexternal hledger, ?_, ?_⟩
  · intro n
    rw [hphases n]
    trivial
  · intro n m hn
    rw [hphases n] at hn
    cases hn

/-! ## Reconciliation -/

theorem checkpoint_of_currentHead {head : AuditLedgerHead} (h : currentHead pg l = some head) :
    l.checkpoint = some ⟨head.ledgerSequence, head.entryHash⟩ := by
  rw [← checkpointForHead_currentHead pg l, h]
  rfl

theorem sequence_inj {r r' : AuditLogRow} (hr : r ∈ l.logs) (hr' : r' ∈ l.logs)
    (h : r.ledgerSequence = r'.ledgerSequence) : r = r' := by
  have hnodup : (l.logs.map (·.ledgerSequence)).Nodup := l.logsUnique.imp fun hlt => Int.ne_of_lt hlt
  exact List.inj_on_of_nodup_map hnodup hr hr' h

theorem Sealed.anchorAt (hl : Sealed pg l) (hrow : row ∈ l.logs) : l.anchorAt row.ledgerSequence = some row.anchor := by
  unfold AuditLedger.anchorAt
  rw [hl.anchored]
  cases hfound : (l.logs.map (·.anchor)).find? (·.ledgerSequence = row.ledgerSequence) with
  | none =>
    have hnone := List.find?_eq_none.mp hfound row.anchor (List.mem_map_of_mem hrow)
    exact absurd (decide_eq_true rfl) hnone
  | some anchor =>
    obtain ⟨r, hr, rfl⟩ := List.mem_map.mp (List.mem_of_find?_eq_some hfound)
    have hsequence : r.ledgerSequence = row.ledgerSequence := of_decide_eq_true (List.find?_some hfound :)
    rw [sequence_inj hr hrow hsequence]

theorem isHash_of_mem (hchained : (links pg).Chained none rows) (hrow : row ∈ rows) : isHash row.entryHash = true := by
  have hhash : row.entryHash = pg.sha256 _ := Links.hash_of_mem hchained hrow
  rw [hhash]
  exact pg.sha256_isHash _

theorem Sealed.validCheckpoint {c : AuditLedgerCheckpoint} (hl : Sealed pg l) {p : List AuditLogRow} (hp : p <+: l.logs)
    (hlength : l.logs.length < 2 ^ 53) (hc : checkpointOf p = some c) : isValidCheckpoint c = true := by
  have hsequence := (hl.numbered.below hp).sequenceOf_checkpointOf
  obtain ⟨row, hrow, rfl⟩ := Option.map_eq_some_iff.mp hc
  have hmem := List.mem_of_getLast? hrow
  have hpositive := List.length_pos_of_mem hmem
  have hle := hp.length_le
  rw [hc] at hsequence
  simp only [sequenceOf, Option.map_some, Option.getD_some] at hsequence
  simp only [isValidCheckpoint, isSafeInteger, Bool.and_eq_true, decide_eq_true_eq]
  refine ⟨⟨⟨?_, ?_⟩, ?_⟩, isHash_of_mem hl.chained (hp.subset hmem)⟩
  all_goals omega

theorem Sealed.predecessorMatches {head : AuditLedgerHead} (hl : Sealed pg l) (hhead : currentHead pg l = some head) :
    Audit.predecessorMatches (checkpointOf l.logs.dropLast) head = true ∧
      head.ledgerSequence = sequenceOf (checkpointOf l.logs.dropLast) + 1 := by
  obtain ⟨row, hrow, rfl⟩ := Option.map_eq_some_iff.mp hhead
  obtain ⟨rows, hlogs⟩ := List.getLast?_eq_some_iff.mp hrow
  have hnumbered := hl.numbered
  have hchained := hl.chained
  rw [hlogs, numbered_concat] at hnumbered
  rw [hlogs, Links.chained_concat] at hchained
  have hsequence := hnumbered.1.sequenceOf_checkpointOf
  have hprevious : row.previousEntryHash = (checkpointOf rows).map (·.headHash) :=
    hchained.2.1.trans headHash_checkpointOf.symm
  rw [hlogs, List.dropLast_concat]
  refine ⟨?_, by rw [hsequence]; exact hnumbered.2⟩
  cases hc : checkpointOf rows with
  | none =>
    rw [hc] at hprevious hsequence
    have hzero : (0 : Int) = rows.length := hsequence
    simp only [Audit.predecessorMatches, hprevious, Bool.and_eq_true, decide_eq_true_eq]
    exact ⟨by omega, rfl⟩
  | some c =>
    rw [hc] at hprevious hsequence
    have hlast : c.sequence = rows.length := hsequence
    simp only [Audit.predecessorMatches, hprevious, Bool.and_eq_true, decide_eq_true_eq]
    exact ⟨by omega, rfl⟩

theorem Sealed.validCurrentHead (hl : Sealed pg l) (hlength : l.logs.length < 2 ^ 53) :
    Audit.validCurrentHead (currentHead pg l) = true := by
  cases hhead : currentHead pg l with
  | none => rfl
  | some head =>
    obtain ⟨hpredecessor, -⟩ := hl.predecessorMatches hhead
    have hvalid := hl.validCheckpoint List.prefix_rfl hlength (checkpoint_of_currentHead hhead)
    obtain ⟨row, hrow, rfl⟩ := Option.map_eq_some_iff.mp hhead
    have hmem := List.mem_of_getLast? hrow
    have hhash : row.entryHash = auditLogHash pg row.ledgerSequence row.entry row.previousEntryHash :=
      Links.hash_of_mem hl.chained hmem
    have hprevious : (if row.ledgerSequence = 1 then row.previousEntryHash.isNone else row.previousEntryHash.any isHash) =
        true := by
      cases hbelow : checkpointOf l.logs.dropLast with
      | none =>
        rw [hbelow] at hpredecessor
        simp only [Audit.predecessorMatches, Bool.and_eq_true, decide_eq_true_eq] at hpredecessor
        rw [if_pos hpredecessor.1, hpredecessor.2]
      | some c =>
        have hbelowValid := hl.validCheckpoint (List.dropLast_prefix _) hlength hbelow
        rw [hbelow] at hpredecessor
        simp only [Audit.predecessorMatches, isValidCheckpoint, Bool.and_eq_true, decide_eq_true_eq] at hpredecessor hbelowValid
        rw [if_neg (by omega), hpredecessor.2]
        exact hbelowValid.2
    simp only [isValidCheckpoint, Bool.and_eq_true, decide_eq_true_eq] at hvalid
    simp only [Audit.validCurrentHead, hprevious, hl.anchorAt hmem, Option.map_some, Bool.and_eq_true, decide_eq_true_eq]
    exact ⟨⟨⟨⟨⟨hvalid.1.1, by omega⟩, hvalid.2⟩, trivial⟩, hhash⟩, rfl⟩

/-- A pending record on top of the ledger's head. -/
def stale (l : AuditLedger) : Option CheckpointValue → Bool
  | some (.pending previous _) => previous = l.checkpoint
  | _ => false

theorem reconcile_settles (hvalid : validCurrentHead (currentHead pg l) = true)
    (h : external = l.checkpoint.map .finalized) :
    reconcileExternalCheckpoint (currentHead pg l) external = .settled l.checkpoint := by
  unfold reconcileExternalCheckpoint
  rw [if_pos hvalid, checkpointForHead_currentHead, if_pos h]

theorem reconcile_stale (hl : Sealed pg l) (hlength : l.logs.length < 2 ^ 53) (h : stale l external = true) :
    reconcileExternalCheckpoint (currentHead pg l) external = .failed diverged := by
  cases external with
  | none => cases h
  | some value =>
    cases value with
    | finalized c => cases h
    | malformed text => cases h
    | pending previous next =>
      have hprevious : previous = l.checkpoint := of_decide_eq_true h
      have hne : some (CheckpointValue.pending previous next) ≠ l.checkpoint.map .finalized := by
        cases l.checkpoint <;> simp
      unfold reconcileExternalCheckpoint
      rw [if_pos (hl.validCurrentHead hlength), checkpointForHead_currentHead, if_neg hne]
      cases hhead : currentHead pg l with
      | none => rfl
      | some head =>
        cases hparsed : parsePendingCheckpoint (some (.pending previous next)) with
        | none => rfl
        | some parsed =>
          obtain ⟨previous', next'⟩ := parsed
          cases parsePending_eq_some hparsed
          rw [hprevious, checkpoint_of_currentHead hhead]
          refine if_neg fun hmatches => ?_
          simp only [predecessorMatches, Bool.and_eq_true, decide_eq_true_eq] at hmatches
          omega

theorem reconcile_repairs (hl : Sealed pg l) (hlength : l.logs.length < 2 ^ 53) (h : Agreement start l external)
    (hne : external ≠ l.checkpoint.map .finalized) (hstale : stale l external = false) :
    ∃ c, l.checkpoint = some c ∧ reconcileExternalCheckpoint (currentHead pg l) external = .repair c := by
  unfold reconcileExternalCheckpoint
  rw [if_pos (hl.validCurrentHead hlength), checkpointForHead_currentHead, if_neg hne]
  cases hhead : currentHead pg l with
  | none =>
    have hnone : l.checkpoint = none := by
      rw [← checkpointForHead_currentHead pg l, hhead]
      rfl
    rw [hnone] at hne
    cases h with
    | absent hexternal _ => exact absurd hexternal hne
    | finalized _ hc => cases hnone.symm.trans hc
    | uncommitted hexternal _ =>
      rw [hexternal] at hstale
      simp [stale] at hstale
    | committed _ hc _ => cases hnone.symm.trans hc
  | some head =>
    have hc := checkpoint_of_currentHead hhead
    refine ⟨_, hc, ?_⟩
    cases h with
    | absent hexternal _ =>
      subst hexternal
      rfl
    | finalized hexternal hfinal =>
      rw [hfinal] at hne
      exact absurd hexternal hne
    | uncommitted hexternal _ =>
      rw [hexternal] at hstale
      simp [stale] at hstale
    | @committed previous next hexternal hnext hprevious =>
      cases hnext.symm.trans hc
      obtain ⟨hmatches, hsequence⟩ := hl.predecessorMatches hhead
      rw [hprevious] at hmatches hsequence
      have hvalid := hl.validCheckpoint List.prefix_rfl hlength hc
      have hprevValid : previous.all isValidCheckpoint = true := by
        cases previous with
        | none => rfl
        | some p => exact hl.validCheckpoint (List.dropLast_prefix _) hlength hprevious
      have hparsed : parsePendingCheckpoint external = some (previous, ⟨head.ledgerSequence, head.entryHash⟩) := by
        rw [hexternal, parsePendingCheckpoint, if_pos]
        simp only [hprevValid, hvalid, Bool.and_eq_true, decide_eq_true_eq, true_and, and_true]
        exact hsequence
      rw [hparsed]
      exact if_pos ⟨hmatches, rfl⟩

/-- The steps of a writer that reconciles undisturbed. -/
def System.reconcileSteps (s : System) (n : Nat) : List Step :=
  if s.external = s.ledger.checkpoint.map .finalized then [.next n, .next n]
  else [.next n, .next n, .script n true .swapped]

theorem reads_head (hn : s.phases n = .locked) (hlock : s.lock = some n) :
    s.step pg (.next n) = some (s.setPhase n (.readHead (currentHead pg s.ledger))) := by
  simp only [System.step, System.next, hn, hlock, if_true]

theorem run_reconcileSteps (h : Inv pg start s) (hn : s.phases n = .locked) (hlock : s.lock = some n)
    (hlength : s.ledger.logs.length < 2 ^ 53) (hstale : stale s.ledger s.external = false) :
    run (System.step pg) s (s.reconcileSteps n) =
      some ({ s with external := s.ledger.checkpoint.map .finalized }.setPhase n (.reconciled s.ledger.checkpoint)) := by
  unfold System.reconcileSteps
  split
  · next hsettled =>
    have hreconcile := reconcile_settles (h.sealed.validCurrentHead hlength) hsettled
    rw [run, reads_head hn hlock]
    simp [run, System.step, System.next, System.setPhase, hreconcile, ← hsettled]
  · next hne =>
    obtain ⟨c, hc, hrepair⟩ := reconcile_repairs h.sealed hlength h.agreement hne hstale
    rw [run, reads_head hn hlock, hc]
    simp [run, System.step, System.next, System.script, System.setPhase, hrepair, Phase.script, Phase.afterScript]

/-- In every state of every run, the external value is explained by the ledger. A writer that has the lock
then reconciles, unless the value is a pending record on top of the head, which it leaves as it is. -/
theorem checkpoint_agrees (pg : Postgres) (history : List AuditEntry) (s : System)
    (h : Reachable (System.step pg) (System.Initial pg history) anyStep s) :
    Agreement (backfill pg history) s.ledger s.external ∧
    ∀ n, s.phases n = .locked → s.lock = some n → s.ledger.logs.length < 2 ^ 53 →
      if stale s.ledger s.external then
        run (System.step pg) s [.next n, .next n] = some (s.setPhase n (.closing false))
      else
        run (System.step pg) s (s.reconcileSteps n) =
          some ({ s with external := s.ledger.checkpoint.map .finalized }.setPhase n
            (.reconciled s.ledger.checkpoint)) := by
  have hinv := inv_of_reachable h
  refine ⟨hinv.agreement, fun n hn hlock hlength => ?_⟩
  split
  · next hstale =>
    have hfailed := reconcile_stale hinv.sealed hlength hstale
    rw [run, reads_head hn hlock]
    simp [run, System.step, System.next, System.setPhase, hfailed]
  · next hstale => exact run_reconcileSteps hinv hn hlock hlength (Bool.not_eq_true _ ▸ hstale)

/-! ## Two writers -/

def twoWriters : System where
  ledger := backfill recordedPostgres []
  external := none
  lock := none
  entries n := tokenEntry (if n = 0 then "aud_1" else "aud_2") "create" "success"
  phases _ := .idle

/-- The first writer's pending record is published. -/
def publishing : List Step := [.acquire 0, .next 0, .next 0, .next 0, .script 0 true .swapped]

/-- The answer to the commit is lost, and the next writer repairs the record. -/
theorem lost_commit_is_repaired : ∃ s,
    run (System.step recordedPostgres) twoWriters (publishing ++ [.commit 0 (.lost true), .acquire 1]) = some s ∧
    s.ledger.logs.length = 1 ∧
    run (System.step recordedPostgres) s [.next 1, .next 1, .script 1 true .swapped] =
      some ({ s with external := s.ledger.checkpoint.map .finalized }.setPhase 1 (.reconciled s.ledger.checkpoint)) := by
  obtain ⟨s, hs, hn, hlock, hlength, hstale, hne⟩ : ∃ s,
      run (System.step recordedPostgres) twoWriters (publishing ++ [.commit 0 (.lost true), .acquire 1]) = some s ∧
      s.phases 1 = .locked ∧ s.lock = some 1 ∧ s.ledger.logs.length = 1 ∧ stale s.ledger s.external = false ∧
      s.external ≠ s.ledger.checkpoint.map .finalized :=
    ⟨_, rfl, rfl, rfl, rfl, rfl, fun h => nomatch (h : some (CheckpointValue.pending _ _) = some (.finalized _))⟩
  have hreconciled := (checkpoint_agrees recordedPostgres [] s
    (.run (.start ⟨rfl, rfl, rfl, fun _ => rfl⟩) hs)).2 1 hn hlock (by rw [hlength]; decide)
  rw [hstale, if_neg Bool.false_ne_true, System.reconcileSteps, if_neg hne] at hreconciled
  exact ⟨s, hs, hlength, hreconciled⟩

/-- The first writer dies before its commit, and the next one cannot write. -/
theorem dead_writer_locks_writes : ∃ s t,
    Reachable (System.step recordedPostgres) (System.Initial recordedPostgres []) anyStep s ∧
    stale s.ledger s.external = true ∧ s.phases 1 = .locked ∧ s.lock = some 1 ∧
    run (System.step recordedPostgres) s [.next 1, .next 1] = some t ∧ t.phases 1 = .closing false := by
  refine ⟨_, _, .run (.start ⟨rfl, rfl, rfl, fun _ => rfl⟩)
    (by rfl : run _ twoWriters (publishing ++ [.drop 0, .acquire 1]) = some _), rfl, rfl, rfl, rfl, rfl⟩

end Sdp.Audit
