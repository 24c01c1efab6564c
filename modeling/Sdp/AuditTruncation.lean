import Sdp.AuditCheckpoints

/-!
# Truncated ledgers

Someone with access to the database deletes the newest entries with their anchors. The external
checkpoint still names the old head: no verification passes afterwards, and no writer writes unless
one had its row inserted by then.
-/

open Sdp.Lib

namespace Sdp.Audit

variable {pg : Postgres} {start l : AuditLedger} {s t u : System} {n : Nat} {phase : Phase}

/-! ## The lock's holder -/

/-- What a phase says about the ledger's head. -/
def Current (l : AuditLedger) : Phase → Prop
  | .readHead head => checkpointForHead head = l.checkpoint
  | .repairing expected _ | .rereading expected => l.checkpoint = some expected
  | .reconciled expected => expected = l.checkpoint
  | _ => True

/-- Nobody commits while a writer holds the lock, so what it read is current. -/
def Live (s : System) : Prop := ∀ n, s.lock = some n → Current s.ledger (s.phases n)

theorem Live.setPhase (h : Live s) (hledger : t.ledger = s.ledger)
    (hphases : t.phases = Function.update s.phases n phase)
    (hlock : ∀ k, t.lock = some k → s.lock = some k ∨ k = n ∧ Current s.ledger phase)
    (hphase : Current s.ledger (s.phases n) → Current s.ledger phase) : Live t := by
  intro k hk
  rw [hledger, hphases]
  by_cases hkn : k = n
  · subst hkn
    rw [Function.update_self]
    rcases hlock k hk with hheld | ⟨-, hcurrent⟩
    · exact hphase (h k hheld)
    · exact hcurrent
  · rw [Function.update_of_ne hkn]
    rcases hlock k hk with hheld | ⟨heq, -⟩
    · exact h k hheld
    · exact absurd heq hkn

theorem live_step (h : Live s) (ht : Moves pg s t) : Live t := by
  cases ht with
  | drop hledger hexternal hphases hlock =>
    intro k hk
    rw [hledger, hphases]
    exact h k (hlock k hk)
  | advance n ha hledger hexternal hphases hlock =>
    refine h.setPhase hledger hphases (fun k hk => (hlock k hk).imp_right ?_) ?_
    · rintro ⟨hkn, rfl⟩
      exact ⟨hkn, trivial⟩
    · intro hcurrent
      generalize s.phases n = before at ha hcurrent
      cases ha with
      | readHead _ => exact checkpointForHead_currentHead _ _
      | settle hsettled => exact (reconcile_settled hsettled).1.trans hcurrent
      | repair hrepair => exact hcurrent.symm.trans (reconcile_repair hrepair).1
      | reread _ => exact hcurrent.symm
      | lock | insert _ _ _ | fail | close => trivial
  | @swap n old new reply hscript hold hledger hexternal hphases hlock =>
    refine h.setPhase hledger hphases (fun k hk => .inl (hlock ▸ hk)) ?_
    intro hcurrent
    generalize s.phases n = before at hscript hcurrent
    cases before <;> cases reply <;> first | trivial | exact hcurrent | exact hcurrent.symm
  | @keep n reply hreply hledger hexternal hphases hlock =>
    refine h.setPhase hledger hphases (fun k hk => .inl (hlock ▸ hk)) ?_
    intro hcurrent
    rcases afterScript_kept (s.phases n) hreply with ⟨c, read, hn, hnew⟩ | hnew
    · rw [hnew]
      rw [hn] at hcurrent
      exact hcurrent
    · rw [hnew]
      trivial
  | commit n hn hheld happend hnew hexternal hphases hlock =>
    intro k hk
    rw [hphases, hlock k hk, Function.update_self]
    rcases hnew with rfl | rfl <;> trivial
  | rollBack n hn hledger hexternal hphases hlock =>
    exact h.setPhase hledger hphases (fun k hk => .inl (hlock ▸ hk)) fun _ => trivial

theorem live_of_reachable {history : List AuditEntry}
    (h : Reachable (System.step pg) (System.Initial pg history) anyStep s) : Live s := by
  refine h.invariant ?_ fun s step t _ hs _ ht => live_step hs (step_moves ht)
  rintro s ⟨-, -, hlock, -⟩ n hn
  rw [hlock] at hn
  cases hn

/-! ## After the deletion -/

def System.truncate (s : System) (m : Nat) : System := { s with ledger := s.ledger.truncate m }

theorem Sealed.truncate (hl : Sealed pg l) (m : Nat) : Sealed pg (l.truncate m) := by
  have hprefix : (l.truncate m).logs <+: l.logs := List.take_prefix m l.logs
  refine ⟨?_, hl.numbered.below hprefix, ?_⟩
  · have hchained := hl.chained
    rw [← List.take_append_drop m l.logs, Links.chained_append] at hchained
    exact hchained.1
  · simp only [AuditLedger.truncate, hl.anchored, List.map_take]

/-- The last anchor's sequence is higher than the count, as it is once an entry follows the deletion. -/
def Gap (l : AuditLedger) : Prop := ∃ anchor, l.anchorHead? = some anchor ∧ (l.anchors.length : Int) < anchor.ledgerSequence

theorem Gap.invalid (h : Gap l) (external : Option CheckpointValue) (now : Int) :
    (verifyIntegrity pg external l now).valid = false := by
  refine Bool.eq_false_iff.mpr fun hvalid => ?_
  obtain ⟨hcertified, -⟩ := verifyIntegrity_valid hvalid
  obtain ⟨anchor, hanchor, hlt⟩ := h
  have hlast := hcertified.last
  rw [hanchor, ← hcertified.count] at hlast
  split at hlast
  · cases hlast
  · simp only [Option.map_some, Option.some.injEq] at hlast
    omega

theorem gap_append {m : AuditLedger} {row : AuditLogRow} (happend : l.append row = some m)
    (hrow : (l.anchors.length : Int) + 1 < row.ledgerSequence) : Gap m := by
  obtain ⟨-, hanchors⟩ := append_eq_some happend
  refine ⟨row.anchor, ?_, ?_⟩
  · rw [AuditLedger.anchorHead?, hanchors, List.getLast?_concat]
  · rw [hanchors, List.length_append, List.length_singleton]
    exact_mod_cast hrow

theorem gap_step (h : Gap s.ledger) (ht : Moves pg s t) : Gap t.ledger := by
  cases ht with
  | drop hledger | advance _ _ hledger | swap _ _ _ hledger | keep _ _ hledger | rollBack _ _ hledger =>
    rwa [hledger]
  | commit n hn hheld happend =>
    obtain ⟨anchor, hanchor, hlt⟩ := h
    have hafter := anchors_lt_of_append happend anchor (List.mem_of_getLast? hanchor)
    exact gap_append happend (by omega)

/-- What a writer can still do with the old head `c` of sequence `k`. -/
def CutPhase (k : Int) : Phase → Prop
  | .readHead head => sequenceOf (checkpointForHead head) ≤ k
  | .repairing expected read =>
    expected.sequence ≤ k ∧ (read = none ∨ ∃ previous, read = some (.pending previous expected))
  | .inserted expected row => row.ledgerSequence = sequenceOf expected + 1
  | .witnessed _ row => row.ledgerSequence = k + 1
  | .committed _ row => row.ledgerSequence ≤ k
  | _ => True

/-- The writer returns, or is about to. -/
def Phase.returns : Phase → Bool
  | .closing returned | .done returned => returned
  | _ => false

/-- The writer's row is in its transaction. -/
def Phase.hasRow : Phase → Bool
  | .inserted _ _ | .witnessed _ _ | .rolledBack _ _ => true
  | _ => false

variable {c : AuditLedgerCheckpoint} {m : Nat}

/-- Nothing is appended yet to the `m` entries that are left. -/
structure Cut (c : AuditLedgerCheckpoint) (m : Nat) (l : AuditLedger) (s : System) : Prop where
  ledger : s.ledger = l
  external : s.external = some (.finalized c) ∨
    ∃ next, s.external = some (.pending (some c) next) ∧ next.sequence = c.sequence + 1
  phases : ∀ n, CutPhase c.sequence (s.phases n)
  live : ∀ n expected, s.lock = some n → s.phases n = .reconciled expected → sequenceOf expected ≠ m

namespace Cut

theorem setPhase (h : Cut c m l s) (hledger : t.ledger = s.ledger)
    (hexternal : t.external = some (.finalized c) ∨
      ∃ next, t.external = some (.pending (some c) next) ∧ next.sequence = c.sequence + 1)
    (hphases : t.phases = Function.update s.phases n phase)
    (hlock : ∀ k, t.lock = some k → s.lock = some k ∨ k = n ∧ phase = .locked)
    (hphase : CutPhase c.sequence phase)
    (hlive : ∀ expected, phase = .reconciled expected → sequenceOf expected ≠ m) : Cut c m l t := by
  refine ⟨hledger.trans h.ledger, hexternal, ?_, ?_⟩
  · intro k
    rw [hphases]
    by_cases hkn : k = n
    · subst hkn
      rwa [Function.update_self]
    · rw [Function.update_of_ne hkn]
      exact h.phases k
  · intro k expected hk hreconciled
    rw [hphases] at hreconciled
    by_cases hkn : k = n
    · subst hkn
      rw [Function.update_self] at hreconciled
      exact hlive expected hreconciled
    · rw [Function.update_of_ne hkn] at hreconciled
      rcases hlock k hk with hheld | ⟨heq, -⟩
      · exact h.live k expected hheld hreconciled
      · exact absurd heq hkn

theorem eq_of_finalized (h : Cut c m l s) {c' : AuditLedgerCheckpoint} (hc' : s.external = some (.finalized c')) :
    c' = c := by
  rcases h.external with hexternal | ⟨next, hexternal, -⟩
  · cases hexternal.symm.trans hc'
    rfl
  · cases hexternal.symm.trans hc'

theorem sequence_of_pending (h : Cut c m l s) {previous : Option AuditLedgerCheckpoint} {next : AuditLedgerCheckpoint}
    (hpending : s.external = some (.pending previous next)) : previous = some c ∧ next.sequence = c.sequence + 1 := by
  rcases h.external with hexternal | ⟨next', hexternal, hnext⟩
  · cases hexternal.symm.trans hpending
  · cases hexternal.symm.trans hpending
    exact ⟨rfl, hnext⟩

theorem external_ne_none (h : Cut c m l s) : s.external ≠ none := by
  rcases h.external with hexternal | ⟨next, hexternal, -⟩ <;> simp [hexternal]

theorem advance (h : Cut c m l s) (hl : Sealed pg l) (hm : l.logs.length = m) (hlt : (m : Int) < c.sequence)
    (ha : Advances pg s n (s.phases n) phase) :
    CutPhase c.sequence phase ∧ (∀ expected, phase = .reconciled expected → sequenceOf expected ≠ m) ∧
      phase.hasRow = false := by
  have hphase := h.phases n
  have hlive := h.live n
  generalize s.phases n = before at ha hphase hlive
  cases ha with
  | readHead hlock =>
    refine ⟨?_, nofun, rfl⟩
    rw [CutPhase, checkpointForHead_currentHead, h.ledger, hl.sequence]
    omega
  | settle hsettled =>
    refine ⟨trivial, fun expected hexpected => ?_, rfl⟩
    obtain ⟨-, hexternal⟩ := reconcile_settled hsettled
    rw [Phase.reconciled.inj hexpected] at hexternal
    cases expected with
    | none => exact absurd hexternal h.external_ne_none
    | some c' =>
      rw [h.eq_of_finalized hexternal]
      exact Int.ne_of_gt hlt
  | repair hrepair =>
    obtain ⟨hhead, hread⟩ := reconcile_repair hrepair
    rw [CutPhase, hhead] at hphase
    exact ⟨⟨hphase, hread⟩, nofun, rfl⟩
  | reread hexternal =>
    refine ⟨trivial, fun expected hexpected => ?_, rfl⟩
    cases hexpected
    rw [h.eq_of_finalized hexternal]
    exact Int.ne_of_gt hlt
  | insert hlock hrow hprevious =>
    -- What is left does not have the head that the writer reconciled with.
    obtain ⟨row, hsealed, -, hcheckpoint⟩ := hl.sealInsert (s.entries n)
    rw [h.ledger] at hrow
    cases hrow.symm.trans hsealed
    have hne := hlive _ hlock rfl
    rw [← hprevious, hcheckpoint, hl.sequence, hm] at hne
    exact absurd rfl hne
  | lock | fail | close => exact ⟨trivial, nofun, rfl⟩

theorem hasRow_of_swap (h : Cut c m l s) {old new : Option CheckpointValue}
    (hscript : (s.phases n).script = some (old, new)) (hold : s.external = old) : (s.phases n).hasRow = true := by
  have hphase := h.phases n
  generalize s.phases n = before at hscript hphase
  cases before with
  | repairing expected read =>
    cases hscript
    rcases hphase.2 with hread | ⟨previous, hread⟩
    · exact absurd (hold.trans hread) h.external_ne_none
    · have hnext := (h.sequence_of_pending (hold.trans hread)).2
      have hle := hphase.1
      omega
  | committed expected row =>
    cases hscript
    have hnext : row.ledgerSequence = c.sequence + 1 := (h.sequence_of_pending hold).2
    have hle : row.ledgerSequence ≤ c.sequence := hphase
    omega
  | inserted expected row | rolledBack expected row => rfl
  | _ => cases hscript

end Cut

theorem cut_step (hl : Sealed pg l) (hm : l.logs.length = m) (hlt : (m : Int) < c.sequence) (h : Cut c m l s)
    (ht : Moves pg s t) : Cut c m l t ∨ Gap t.ledger := by
  cases ht with
  | drop hledger hexternal hphases hlock =>
    refine .inl ⟨hledger.trans h.ledger, hexternal ▸ h.external, hphases ▸ h.phases, fun k expected hk => ?_⟩
    rw [hphases]
    exact h.live k expected (hlock k hk)
  | advance n ha hledger hexternal hphases hlock =>
    obtain ⟨hphase, hlive, -⟩ := h.advance hl hm hlt ha
    exact .inl (h.setPhase hledger (hexternal ▸ h.external) hphases hlock hphase hlive)
  | @swap n old new reply hscript hold hledger hexternal hphases hlock =>
    have hphase := h.phases n
    have hrow := h.hasRow_of_swap hscript hold
    cases hn : s.phases n with
    | inserted expected row =>
      rw [hn] at hscript hphases hphase
      cases hscript
      cases expected with
      | none => exact absurd hold h.external_ne_none
      | some c' =>
        obtain rfl := h.eq_of_finalized hold
        refine .inl (h.setPhase hledger (.inr ⟨row.checkpoint, hexternal, hphase⟩) hphases (fun k hk => .inl (hlock ▸ hk))
          ?_ ?_)
        · cases reply with
          | swapped => exact hphase
          | kept | lost => trivial
        · cases reply <;> nofun
    | rolledBack expected row =>
      rw [hn] at hscript hphases
      cases hscript
      rw [(h.sequence_of_pending hold).1] at hexternal
      refine .inl (h.setPhase hledger (.inl hexternal) hphases (fun k hk => .inl (hlock ▸ hk)) ?_ ?_)
      · cases reply <;> trivial
      · cases reply <;> nofun
    | witnessed expected row =>
      rw [hn] at hscript
      cases hscript
    | _ =>
      rw [hn] at hrow
      cases hrow
  | @keep n reply hreply hledger hexternal hphases hlock =>
    rcases afterScript_kept (s.phases n) hreply with ⟨c', _, -, hnew⟩ | hnew
    · rw [hnew] at hphases
      exact .inl (h.setPhase hledger (hexternal ▸ h.external) hphases (fun k hk => .inl (hlock ▸ hk)) trivial nofun)
    · rw [hnew] at hphases
      exact .inl (h.setPhase hledger (hexternal ▸ h.external) hphases (fun k hk => .inl (hlock ▸ hk)) trivial nofun)
  | commit n hn hheld happend hnew hexternal hphases hlock =>
    have hphase := h.phases n
    rw [hn, CutPhase] at hphase
    refine .inr (gap_append happend ?_)
    rw [h.ledger, hl.anchored, List.length_map, hm]
    omega
  | rollBack n hn hledger hexternal hphases hlock =>
    exact .inl (h.setPhase hledger (hexternal ▸ h.external) hphases (fun k hk => .inl (hlock ▸ hk)) trivial nofun)

/-! ## What follows a deletion -/

/-- What a whole run after the deletion keeps. -/
theorem cut_or_gap (hl : Sealed pg l) (hm : l.logs.length = m) (hlt : (m : Int) < c.sequence) (hs : Cut c m l s)
    (ht : Reachable (System.step pg) (· = s) anyStep t) : Cut c m l t ∨ Gap t.ledger := by
  refine ht.invariant (P := fun t => Cut c m l t ∨ Gap t.ledger) ?_ fun s step t _ h _ ht => ?_
  · rintro s rfl
    exact .inl hs
  · rcases h with h | h
    · exact cut_step hl hm hlt h (step_moves ht)
    · exact .inr (gap_step h (step_moves ht))

theorem gap_of_reachable (hs : Gap s.ledger) (ht : Reachable (System.step pg) (· = s) anyStep t) : Gap t.ledger := by
  refine ht.invariant ?_ fun s step t _ h _ ht => gap_step h (step_moves ht)
  rintro s rfl
  exact hs

theorem Cut.invalid (ht : Cut c m l t) (hu : Cut c m l u) (hm : l.logs.length = m) (hlt : (m : Int) < c.sequence)
    (now : Int) : (verifyIntegrity pg t.external u.ledger now).valid = false := by
  refine Bool.eq_false_iff.mpr fun hvalid => ?_
  obtain ⟨-, hsequence, -⟩ := verifyIntegrity_valid hvalid
  rw [hu.ledger, hm] at hsequence
  rcases ht.external with hexternal | ⟨next, hexternal, -⟩
  · rw [hexternal, parseCheckpoint] at hsequence
    split at hsequence
    · omega
    · simp only [] at hsequence
      omega
  · rw [hexternal, parseCheckpoint] at hsequence
    simp only [] at hsequence
    omega

theorem cut_of_reachable {history : List AuditEntry}
    (h : Reachable (System.step pg) (System.Initial pg history) anyStep s) (hc : s.external = some (.finalized c))
    (hm : m < s.ledger.logs.length) :
    Cut c m (s.ledger.truncate m) (s.truncate m) ∧ (m : Int) < c.sequence := by
  have hinv := inv_of_reachable h
  have hsequence : c.sequence = s.ledger.logs.length := by
    cases hinv.agreement with
    | absent hexternal _ => cases hexternal.symm.trans hc
    | finalized hexternal hhead =>
      cases hexternal.symm.trans hc
      exact hinv.sealed.sequence_some hhead
    | uncommitted hexternal _ => cases hexternal.symm.trans hc
    | committed hexternal _ _ => cases hexternal.symm.trans hc
  refine ⟨⟨rfl, .inl hc, ?_, ?_⟩, by omega⟩
  · intro n
    change CutPhase c.sequence (s.phases n)
    have hphase := hinv.phases n
    generalize s.phases n = phase at hphase
    cases phase with
    | readHead head =>
      obtain ⟨rows, -, hrows, hhead⟩ := hphase
      have hle := hrows.length_le
      rw [CutPhase, ← hhead, (hinv.sealed.numbered.below hrows).sequenceOf_checkpointOf, hsequence]
      omega
    | repairing expected read =>
      exact ⟨hsequence ▸ hphase.1.sequence_le hinv.sealed, hphase.2⟩
    | inserted expected row => exact hphase.1.sequence
    | witnessed expected row => cases hphase.2.1.symm.trans hc
    | committed expected row =>
      rw [CutPhase, hsequence]
      exact hphase
    | _ => trivial
  · intro n expected hlock hreconciled
    have hlive := live_of_reachable h n hlock
    change s.phases n = _ at hreconciled
    rw [hreconciled] at hlive
    rw [hlive, hinv.sealed.sequence]
    omega

/-- Without a row in some transaction nothing happens any more. -/
structure Frozen (c : AuditLedgerCheckpoint) (m : Nat) (s t : System) : Prop where
  cut : Cut c m s.ledger t
  external : t.external = s.external
  rows : ∀ n, (t.phases n).hasRow = false
  returned : ∀ n, (t.phases n).returns = true → (s.phases n).returns = true

theorem Frozen.setPhase {before : System} (h : Frozen c m s before) (hcut : Cut c m s.ledger t)
    (hexternal : t.external = before.external) (hphases : t.phases = Function.update before.phases n phase)
    (hrow : phase.hasRow = false) (hreturned : phase.returns = true → (before.phases n).returns = true) :
    Frozen c m s t := by
  refine ⟨hcut, hexternal.trans h.external, fun k => ?_, fun k hk => h.returned k ?_⟩
  · rw [hphases]
    by_cases hkn : k = n
    · subst hkn
      rwa [Function.update_self]
    · rw [Function.update_of_ne hkn]
      exact h.rows k
  · rw [hphases] at hk
    by_cases hkn : k = n
    · subst hkn
      rw [Function.update_self] at hk
      exact hreturned hk
    · rwa [Function.update_of_ne hkn] at hk

theorem Sealed.not_gap (hl : Sealed pg l) : ¬ Gap l := by
  rintro ⟨anchor, hanchor, hlt⟩
  rw [hl.anchorHead] at hanchor
  obtain ⟨row, hrow, rfl⟩ := Option.map_eq_some_iff.mp hanchor
  have hc : l.checkpoint = some row.checkpoint := congrArg (Option.map AuditLogRow.checkpoint) hrow
  have hsequence : row.ledgerSequence = l.logs.length := hl.sequence_some hc
  rw [hl.anchored, List.length_map, AuditLogRow.anchor, hsequence] at hlt
  exact Int.lt_irrefl _ hlt

theorem Advances.returns {before : Phase} (h : Advances pg s n before phase) (hphase : phase.returns = true) :
    before.returns = true := by
  cases h with
  | close => exact hphase
  | _ => cases hphase

theorem frozen_step {before : System} (hl : Sealed pg s.ledger) (hm : s.ledger.logs.length = m)
    (hlt : (m : Int) < c.sequence) (h : Frozen c m s before) (ht : Moves pg before t) : Frozen c m s t := by
  have hcut (hledger : t.ledger = before.ledger) : Cut c m s.ledger t := by
    refine (cut_step hl hm hlt h.cut ht).resolve_right fun hgap => hl.not_gap ?_
    rwa [hledger, h.cut.ledger] at hgap
  cases ht with
  | drop hledger hexternal hphases hlock =>
    refine ⟨hcut hledger, hexternal.trans h.external, ?_, ?_⟩
    · rw [hphases]
      exact h.rows
    · rw [hphases]
      exact h.returned
  | advance n ha hledger hexternal hphases hlock =>
    exact h.setPhase (hcut hledger) hexternal hphases (h.cut.advance hl hm hlt ha).2.2 ha.returns
  | swap n hscript hold =>
    have hrow := h.cut.hasRow_of_swap hscript hold
    rw [h.rows n] at hrow
    cases hrow
  | @keep n reply hreply hledger hexternal hphases hlock =>
    rcases afterScript_kept (before.phases n) hreply with ⟨c', _, -, hnew⟩ | hnew
    · rw [hnew] at hphases
      exact h.setPhase (hcut hledger) hexternal hphases rfl nofun
    · rw [hnew] at hphases
      exact h.setPhase (hcut hledger) hexternal hphases rfl nofun
  | commit n hn =>
    have hrow := h.rows n
    rw [hn] at hrow
    cases hrow
  | rollBack n hn =>
    have hrow := h.rows n
    rw [hn] at hrow
    cases hrow

/-- From a state with a finalized checkpoint, someone deletes the newest entries. No verification passes
from then on. If no writer has its row inserted, nothing is appended, the checkpoint stays, and no writer
returns that had not finished before. -/
theorem truncation_is_noticed (pg : Postgres) (history : List AuditEntry) (s : System) (c : AuditLedgerCheckpoint)
    (m : Nat) (h : Reachable (System.step pg) (System.Initial pg history) anyStep s)
    (hc : s.external = some (.finalized c)) (hm : m < s.ledger.logs.length) :
    (∀ t u now, Reachable (System.step pg) (· = s.truncate m) anyStep t → Reachable (System.step pg) (· = t) anyStep u →
      (verifyIntegrity pg t.external u.ledger now).valid = false) ∧
    ((∀ n expected row, s.phases n ≠ .inserted expected row) → ∀ t, Reachable (System.step pg) (· = s.truncate m) anyStep t →
      t.ledger = s.ledger.truncate m ∧ t.external = s.external ∧
        ∀ n, (t.phases n).returns = true → (s.phases n).returns = true) := by
  obtain ⟨hcut, hlt⟩ := cut_of_reachable h hc hm
  have hsealed := (inv_of_reachable h).sealed.truncate m
  have hlength : (s.ledger.truncate m).logs.length = m := List.length_take_of_le hm.le
  constructor
  · intro t u now ht hu
    rcases cut_or_gap hsealed hlength hlt hcut ht with ht | ht
    · rcases cut_or_gap hsealed hlength hlt ht hu with hu | hu
      · exact ht.invalid hu hlength hlt now
      · exact hu.invalid _ now
    · exact (gap_of_reachable ht hu).invalid _ now
  · intro hinserted t ht
    have howned := (inv_of_reachable h).not_owned fun previous next hpending => by cases hpending.symm.trans hc
    have hrows (n : Nat) : (s.phases n).hasRow = false := by
      have hno := howned n
      cases hn : s.phases n with
      | inserted expected row => exact absurd hn (hinserted n expected row)
      | witnessed expected row | rolledBack expected row =>
        rw [hn] at hno
        cases hno
      | _ => rfl
    have hfrozen : Frozen c m (s.truncate m) t := by
      refine ht.invariant ?_ fun before step t _ hs _ ht => frozen_step hsealed hlength hlt hs (step_moves ht)
      rintro t rfl
      exact ⟨hcut, rfl, hrows, fun _ => id⟩
    exact ⟨hfrozen.cut.ledger, hfrozen.external, hfrozen.returned⟩

/-! ## A writer with its row inserted -/

theorem Numbered.sequence_le {rows : List AuditLogRow} {row : AuditLogRow} (h : Numbered rows) (hrow : row ∈ rows) :
    row.ledgerSequence ≤ rows.length := by
  have hmem : row.ledgerSequence ∈ (List.range' 1 rows.length).map Int.ofNat := h ▸ List.mem_map_of_mem hrow
  obtain ⟨k, hk, hsequence⟩ := List.mem_map.mp hmem
  rw [List.mem_range'_1] at hk
  rw [← hsequence, Int.ofNat_eq_natCast]
  omega

theorem RowAfter.checks {row : AuditLogRow} (h : RowAfter pg (some c) row) :
    row.previousEntryHash = some c.headHash ∧
    row.entryHash = auditLogHash pg row.ledgerSequence row.entry row.previousEntryHash ∧ isHash row.entryHash = true := by
  obtain ⟨e, rfl⟩ := h
  exact ⟨rfl, rfl, pg.sha256_isHash _⟩

/-- Such a writer still commits its row on top of what is left. -/
theorem late_writer_returns {history : List AuditEntry}
    (h : Reachable (System.step pg) (System.Initial pg history) anyStep s) {row : AuditLogRow}
    (hn : s.phases n = .inserted (some c) row) (hlock : s.lock = some n) (hc : s.external = some (.finalized c))
    (m : Nat) :
    ∃ ledger, (s.ledger.truncate m).append row = some ledger ∧
      run (System.step pg) (s.truncate m)
          [.script n true .swapped, .commit n .answered, .script n true .swapped, .next n] =
        some ({ s with ledger, external := some (.finalized row.checkpoint), lock := none }.setPhase n (.done true)) := by
  have hinv := inv_of_reachable h
  have hphase := hinv.phases n
  rw [hn] at hphase
  obtain ⟨hhead, -⟩ := hinv.published hphase.2 hc
  have hsequence : row.ledgerSequence = s.ledger.logs.length + 1 := by
    rw [hphase.1.sequence, ← hhead, hinv.sealed.sequence]
  have hlater {r : AuditLogRow} (hr : r ∈ s.ledger.logs) : r.ledgerSequence < row.ledgerSequence := by
    have hle := hinv.sealed.numbered.sequence_le hr
    omega
  have happend : ∃ ledger, (s.ledger.truncate m).append row = some ledger := by
    refine ⟨_, dif_pos ⟨fun r hr => hlater (List.mem_of_mem_take hr), fun anchor hanchor => ?_⟩⟩
    have hmem := List.mem_of_mem_take hanchor
    rw [hinv.sealed.anchored] at hmem
    obtain ⟨r, hr, rfl⟩ := List.mem_map.mp hmem
    exact hlater hr
  obtain ⟨ledger, happend⟩ := happend
  refine ⟨ledger, happend, ?_⟩
  simp [run, System.step, System.next, System.script, System.commit, System.truncate, System.setPhase, hn, hlock, hc,
    happend, Phase.script, Phase.afterScript]

/-- The steps of a writer that nothing disturbs, when the checkpoint is the head's. -/
def undisturbed (n : Nat) : List Step :=
  [.acquire n, .next n, .next n, .next n, .script n true .swapped, .commit n .answered, .script n true .swapped]

theorem fresh_writer_returns (s : System) (n : Nat) (row : AuditLogRow) (hn : s.phases n = .idle) (hlock : s.lock = none)
    (hlogs : s.ledger.logs = [row]) (hanchors : s.ledger.anchors = [row.anchor])
    (hvalid : validCurrentHead (currentHead pg s.ledger) = true) (hsequence : row.ledgerSequence ≠ 0)
    (hc : s.external = some (.finalized row.checkpoint)) :
    ∃ t, run (System.step pg) s (undisturbed n) = some t ∧ t.phases n = .closing true ∧ t.ledger.logs.length = 2 := by
  have hcheckpoint : s.ledger.checkpoint = some row.checkpoint := by rw [AuditLedger.checkpoint, hlogs]; rfl
  have hexternal : some (.finalized row.checkpoint) = s.ledger.checkpoint.map CheckpointValue.finalized := by
    rw [hcheckpoint]
    rfl
  have hsettled := reconcile_settles hvalid hexternal
  rw [hcheckpoint] at hsettled
  obtain ⟨row', hrow', hprevious, hlater⟩ : ∃ row', sealAuditLogInsert pg s.ledger (s.entries n) = some row' ∧
      row'.previousCheckpoint = some row.checkpoint ∧ row.ledgerSequence < row'.ledgerSequence := by
    refine ⟨sealedRow pg (row.ledgerSequence + 1) (s.entries n) (some row.entryHash), ?_, ?_, Int.lt_succ _⟩
    · simp [sealAuditLogInsert, AuditLedger.head?, AuditLedger.anchorHead?, hlogs, hanchors, AuditLogRow.anchor]
    · have hnext : row.ledgerSequence + 1 ≠ 1 := by omega
      simp [AuditLogRow.previousCheckpoint, sealedRow, AuditLogRow.checkpoint, hnext]
  have happend : ∃ ledger, s.ledger.append row' = some ledger :=
    ⟨_, dif_pos (by simpa [hlogs, hanchors, AuditLogRow.anchor] using hlater)⟩
  obtain ⟨ledger, happend⟩ := happend
  refine ⟨{ s with
    ledger, external := some (.finalized row'.checkpoint), lock := some n }.setPhase n (.closing true), ?_, ?_, ?_⟩
  · simp [undisturbed, run, System.step, System.next, System.script, System.commit, System.setPhase, hn, hlock, hsettled,
      hrow', hprevious, hc, happend, Phase.script, Phase.afterScript]
  · simp [System.setPhase]
  · change ledger.logs.length = 2
    rw [(append_eq_some happend).1, hlogs]
    rfl

theorem inserts (hl : Sealed pg s.ledger) (hn : s.phases n = .reconciled s.ledger.checkpoint) (hlock : s.lock = some n) :
    ∃ row, s.step pg (.next n) = some (s.setPhase n (.inserted s.ledger.checkpoint row)) ∧
      RowAfter pg s.ledger.checkpoint row := by
  obtain ⟨row, hsealed, hafter, hprevious⟩ := hl.sealInsert (s.entries n)
  exact ⟨row, by simp only [System.step, System.next, hn, hlock, hsealed, hprevious, if_true], hafter⟩

def oneEntry : System where
  ledger := backfill recordedPostgres [tokenEntry "aud_1" "create" "success"]
  external := none
  lock := none
  entries _ := tokenEntry "aud_2" "delete" "success"
  phases _ := .idle

theorem oneEntry_reconciled : ∃ s c,
    Reachable (System.step recordedPostgres)
      (System.Initial recordedPostgres [tokenEntry "aud_1" "create" "success"]) anyStep s ∧
    s.ledger.logs.length = 1 ∧ s.ledger.checkpoint = some c ∧ s.external = some (.finalized c) ∧ s.lock = some 0 ∧
    ∀ n, s.phases n = if n = 0 then .reconciled (some c) else .idle := by
  obtain ⟨s, hs, hn, hlock, hledger, hexternal, hothers⟩ : ∃ s,
      run (System.step recordedPostgres) oneEntry [.acquire 0] = some s ∧ s.phases 0 = .locked ∧ s.lock = some 0 ∧
      s.ledger = oneEntry.ledger ∧ s.external = none ∧ ∀ n ≠ 0, s.phases n = .idle :=
    ⟨_, rfl, rfl, rfl, rfl, rfl, fun n hn => Function.update_of_ne hn _ _⟩
  have hreachable : Reachable (System.step recordedPostgres)
      (System.Initial recordedPostgres [tokenEntry "aud_1" "create" "success"]) anyStep s :=
    .run (.start ⟨rfl, rfl, rfl, fun _ => rfl⟩) hs
  have hlength : s.ledger.logs.length = 1 := by rw [hledger]; rfl
  have hreconciled := run_reconcileSteps (inv_of_reachable hreachable) hn hlock (by rw [hlength]; decide)
    (by rw [hexternal]; rfl)
  cases hc : s.ledger.checkpoint with
  | none =>
    rw [checkpointOf_eq_none.mp hc] at hlength
    cases hlength
  | some c =>
    refine ⟨_, c, hreachable.run hreconciled, hlength, hc, by rw [hc]; rfl, hlock, fun n => ?_⟩
    rw [hc]
    by_cases h0 : n = 0
    · subst h0
      rfl
    · rw [if_neg h0]
      exact (Function.update_of_ne h0 _ _).trans (hothers n h0)

theorem deleted_entry_is_noticed : ∃ s : System,
    s.ledger.logs.length = 1 ∧ (verifyIntegrity recordedPostgres s.external (s.ledger.truncate 0) 0).valid = false ∧
    ∀ t, Reachable (System.step recordedPostgres) (· = s.truncate 0) anyStep t → t.ledger = s.ledger.truncate 0 := by
  obtain ⟨s, c, hreachable, hlength, -, hc, -, hphases⟩ := oneEntry_reconciled
  obtain ⟨hinvalid, hfrozen⟩ := truncation_is_noticed recordedPostgres _ s c 0 hreachable hc (by rw [hlength]; decide)
  refine ⟨s, hlength, hinvalid _ _ 0 (.start rfl) (.start rfl), fun t ht => (hfrozen ?_ t ht).1⟩
  intro n expected row hinserted
  rw [hphases n] at hinserted
  split at hinserted <;> cases hinserted

theorem oneEntry_inserted : ∃ s c row,
    Reachable (System.step recordedPostgres)
      (System.Initial recordedPostgres [tokenEntry "aud_1" "create" "success"]) anyStep s ∧
    s.ledger.logs.length = 1 ∧ s.external = some (.finalized c) ∧ s.lock = some 0 ∧
    s.phases 0 = .inserted (some c) row ∧ s.phases 1 = .idle ∧ row.ledgerSequence = 2 ∧
    isHash c.headHash = true := by
  obtain ⟨s, c, hreachable, hlength, hcheckpoint, hc, hlock, hphases⟩ := oneEntry_reconciled
  have hsealed := (inv_of_reachable hreachable).sealed
  have hn : s.phases 0 = .reconciled s.ledger.checkpoint := by rw [hphases 0, hcheckpoint]; rfl
  obtain ⟨row, hrow, hafter⟩ := inserts hsealed hn hlock
  have hinserted := hreachable.step trivial hrow
  have hsequence := hafter.sequence
  rw [hsealed.sequence, hlength] at hsequence
  have hvalid := hsealed.validCheckpoint List.prefix_rfl (by rw [hlength]; decide) hcheckpoint
  simp only [isValidCheckpoint, Bool.and_eq_true] at hvalid
  refine ⟨_, c, row, hinserted, hlength, hc, hlock, ?_, ?_, hsequence, hvalid.2⟩
  · rw [hcheckpoint]
    simp [System.setPhase]
  · simp [System.setPhase, hphases 1]

/-- The deletion comes between a writer's insert and its pending record. A writer that starts later
then succeeds as well. -/
theorem late_writer_escapes : ∃ s t c,
    Reachable (System.step recordedPostgres)
      (System.Initial recordedPostgres [tokenEntry "aud_1" "create" "success"]) anyStep s ∧
    s.external = some (.finalized c) ∧ 0 < s.ledger.logs.length ∧ s.phases 1 = .idle ∧
    Reachable (System.step recordedPostgres) (· = s.truncate 0) anyStep t ∧
    t.phases 1 = .closing true ∧ t.ledger.logs.length = 2 := by
  obtain ⟨s, c, row, hreachable, hlength, hc, hlock, hn, hidle, hsequence, hisHash⟩ := oneEntry_inserted
  have hphase := (inv_of_reachable hreachable).phases 0
  rw [hn] at hphase
  obtain ⟨hprevious, hhash, hrowHash⟩ := hphase.1.checks
  obtain ⟨ledger, happend, hlate⟩ := late_writer_returns hreachable hn hlock hc 0
  have hlogs : ledger.logs = [row] := (append_eq_some happend).1
  have hanchors : ledger.anchors = [row.anchor] := (append_eq_some happend).2
  have hvalid : validCurrentHead (currentHead recordedPostgres ledger) = true := by
    rw [hsequence, hprevious] at hhash
    simp [validCurrentHead, currentHead, AuditLedger.head?, AuditLedger.anchorAt, hlogs, hanchors, AuditLogRow.anchor,
      isSafeInteger, hsequence, hrowHash, hprevious, hisHash, ← hhash]
  obtain ⟨t, ht, hreturned, hcount⟩ := fresh_writer_returns
    ({ s with ledger, external := some (.finalized row.checkpoint), lock := none }.setPhase 0 (.done true)) 1 row
    (by simp [System.setPhase, hidle]) rfl hlogs hanchors hvalid (by omega) rfl
  have hpositive : 0 < s.ledger.logs.length := by rw [hlength]; decide
  exact ⟨s, t, c, hreachable, hc, hpositive, hidle, .run (.run (.start rfl) hlate) ht, hreturned, hcount⟩

end Sdp.Audit
