import Sdp.RecurringStatements

/-!
# Collectors and recoverers over one database

What each caller knows of the rows that it read, which collector works on which attempt, and which
collectors can still broadcast. A step that is one of the `Moves` keeps it all.
-/

open Sdp.Lib

namespace Sdp.Collectors

open Payments Recurring

/-! ## What a caller knows -/

/-- An attempt and its transfer, as they were read at some time. -/
structure ReadPair (db : CollectionDatabase) (attempt : CollectionAttemptRow) (transfer : PaymentTransferRow) : Prop where
  link : attempt.transferId = some transfer.id
  attempt : Table.Seen AttemptLater db.attempts attempt
  transfer : Table.Seen TransferLater db.transfers transfer

structure KnowsSubmitting (db : CollectionDatabase) (c : Submitting) : Prop where
  pair : ReadPair db c.attempt c.transfer
  holds : Holds db.transfers c.transfer.id c.submission.signature
  row : c.row.id = c.transfer.id ∧ c.row.signature = some c.submission.signature

structure KnowsFailing (db : CollectionDatabase) (f : Failing) : Prop where
  markable : Markable db f.attempt f.transfer f.submittedSignature
  store : ∀ row σ, f.submissionStore.row = some row → row.signature = some σ → Signed db f.attempt.id row.id σ

def Knows (db : CollectionDatabase) : Worker → Prop
  | .recovering existing => Table.Seen AttemptLater db.attempts existing
  | .recovered existing transfer => ReadPair db existing transfer
  | .interrupting existing transfer submittedSignature _ => Markable db existing transfer submittedSignature
  | .claimed attempt => ∃ r, db.attempts.find? attempt.id = some r ∧ r.transferId = none
  | .linked attempt transfer => ReadPair db attempt transfer
  | .persisted c => KnowsSubmitting db c
  | .started c _ => KnowsSubmitting db c ∧ Started db c.transfer.id
  | .sent c | .recorded c | .submitted c => KnowsSubmitting db c
  | .finalizing input => Proved db input
  | .failing f => KnowsFailing db f
  | .journaling attempt transferId signature => Signed db attempt.id transferId signature
  | .idle | .done => True

theorem ReadPair.linkedTo {db : CollectionDatabase} {attempt : CollectionAttemptRow} {transfer : PaymentTransferRow}
    (h : ReadPair db attempt transfer) : LinkedTo db attempt.id transfer.id := by
  obtain ⟨r, hr, hlater⟩ := h.attempt
  exact ⟨r, hr, hlater.transferId _ h.link⟩

theorem KnowsSubmitting.signed {db : CollectionDatabase} {c : Submitting} (h : KnowsSubmitting db c) :
    Signed db c.attempt.id c.transfer.id c.submission.signature :=
  ⟨h.pair.linkedTo, h.holds⟩

theorem KnowsSubmitting.store {db : CollectionDatabase} {c : Submitting} (h : KnowsSubmitting db c) {σ : String}
    (hσ : c.row.signature = some σ) : Signed db c.attempt.id c.row.id σ := by
  obtain rfl := Option.some.inj (h.row.2.symm.trans hσ)
  rw [h.row.1]
  exact h.signed

section Later

variable {created linked marked : Option String} {db db' : CollectionDatabase} (hrows : RowsStep created linked marked db db')
include hrows

theorem ReadPair.later {attempt : CollectionAttemptRow} {transfer : PaymentTransferRow}
    (h : ReadPair db attempt transfer) : ReadPair db' attempt transfer :=
  ⟨h.link, h.attempt.evolves hrows.attempts, h.transfer.evolves hrows.transfers⟩

theorem KnowsSubmitting.later {c : Submitting} (h : KnowsSubmitting db c) : KnowsSubmitting db' c :=
  ⟨h.pair.later hrows, hrows.holds h.holds, h.row⟩

theorem started_later {transferId : String} (h : Started db transferId) : Started db' transferId := by
  obtain ⟨r, hr, hs⟩ := h
  obtain ⟨r', hr', hlater⟩ := hrows.transfers transferId r hr
  exact ⟨r', hr', hlater.started hs⟩

theorem Markable.later {attempt : CollectionAttemptRow} {transfer : Option PaymentTransferRow}
    {submittedSignature : Option String} (h : Markable db attempt transfer submittedSignature) :
    Markable db' attempt transfer submittedSignature := by
  refine ⟨fun r hr => hrows.linkedTo (h.linked r hr), fun σ hσ => ?_⟩
  obtain ⟨r, hr, hholds⟩ := h.signed σ hσ
  exact ⟨r, hr, hrows.holds hholds⟩

theorem KnowsFailing.later {f : Failing} (h : KnowsFailing db f) : KnowsFailing db' f :=
  ⟨h.markable.later hrows, fun row σ hr hσ => (h.store row σ hr hσ).later hrows⟩

theorem Knows.later {W : Worker} (h : Knows db W) (hlinked : ∀ attempt, W = .claimed attempt → linked ≠ some attempt.id) :
    Knows db' W := by
  cases W with
  | recovering existing => exact Table.Seen.evolves h hrows.attempts
  | recovered existing transfer => exact ReadPair.later hrows h
  | interrupting existing transfer submittedSignature message => exact Markable.later hrows h
  | claimed attempt =>
    obtain ⟨r, hr, hnone⟩ := h
    exact hrows.unlinked _ r hr hnone (hlinked attempt rfl)
  | linked attempt transfer => exact ReadPair.later hrows h
  | persisted c => exact KnowsSubmitting.later hrows h
  | started c _ => exact ⟨KnowsSubmitting.later hrows h.1, started_later hrows h.2⟩
  | sent c => exact KnowsSubmitting.later hrows h
  | recorded c => exact KnowsSubmitting.later hrows h
  | submitted c => exact KnowsSubmitting.later hrows h
  | finalizing input => exact ⟨h.ids, hrows.linkedTo h.linked, hrows.holds h.signed⟩
  | failing f => exact KnowsFailing.later hrows h
  | journaling attempt transferId signature => exact Signed.later h hrows
  | idle => trivial
  | done => trivial

end Later

/-! ## What a caller can still do -/

/-- The collector may go on to broadcast the transaction of the attempt. -/
def Armed (db : CollectionDatabase) (a : String) : Worker → Prop
  | .claimed attempt => attempt.id = a ∧ ∃ r, db.attempts.find? a = some r ∧ isOpen r.status = true
  | .linked attempt transfer => attempt.id = a ∧ Processing db transfer.id
  | .persisted c => c.attempt.id = a ∧ Processing db c.transfer.id
  | .started c _ => c.attempt.id = a
  | _ => False

/-- The attempt that a collector works on. -/
def Worker.attempt? : Worker → Option String
  | .claimed attempt | .linked attempt _ => some attempt.id
  | .persisted c | .started c _ | .sent c | .recorded c | .submitted c => some c.attempt.id
  | .failing f => some f.attempt.id
  | _ => none

theorem Armed.attempt? {db : CollectionDatabase} {a : String} {W : Worker} (h : Armed db a W) : W.attempt? = some a := by
  cases W with
  | claimed attempt => exact congrArg some h.1
  | linked attempt transfer => exact congrArg some h.1
  | persisted c => exact congrArg some h.1
  | started c _ => exact congrArg some h
  | _ => exact h.elim

theorem processing_back {created linked marked : Option String} {db db' : CollectionDatabase}
    (hrows : RowsStep created linked marked db db') {transferId : String} {r : PaymentTransferRow}
    (hr : db.transfers.find? transferId = some r) (h : Processing db' transferId) : Processing db transferId := by
  obtain ⟨r', hr', hprocessing⟩ := h
  obtain ⟨r₁, hr₁, hlater⟩ := hrows.transfers transferId r hr
  obtain rfl := Option.some.inj (hr₁.symm.trans hr')
  refine ⟨r, hr, ?_⟩
  by_contra hne
  exact (hlater.closed hne).1 hprocessing

theorem Armed.back {created linked marked : Option String} {db db' : CollectionDatabase}
    (hrows : RowsStep created linked marked db db') {a : String} {W : Worker} (hknows : Knows db W)
    (h : Armed db' a W) : Armed db a W := by
  cases W with
  | claimed attempt =>
    obtain ⟨rfl, r', hr', hopen⟩ := h
    obtain ⟨r, hr, -⟩ := hknows
    obtain ⟨r₁, hr₁, hlater⟩ := hrows.attempts _ r hr
    obtain rfl := Option.some.inj (hr₁.symm.trans hr')
    refine ⟨rfl, r, hr, ?_⟩
    by_contra hclosed
    rw [hlater.closed (by simpa using hclosed)] at hopen
    cases hopen
  | linked attempt transfer =>
    obtain ⟨r, hr, -⟩ := hknows.transfer
    exact ⟨h.1, processing_back hrows hr h.2⟩
  | persisted c =>
    obtain ⟨r, hr, -⟩ := hknows.holds
    exact ⟨h.1, processing_back hrows hr h.2⟩
  | started c _ => exact h
  | _ => exact h.elim

/-- The transaction of the attempt is on the chain, with an error. -/
def KnownFailed (s : System) (a : String) : Prop :=
  ∃ transferId σ err, Signed s.db a transferId σ ∧ s.chain.landed σ = some (some err)

/-- What a collector that may yet mark its attempt failed knows of its broadcast. -/
def Unsent (s : System) : Worker → Prop
  | .claimed attempt | .linked attempt _ => attempt.id ∉ s.broadcasts
  | .persisted c => c.attempt.id ∉ s.broadcasts
  | .started c sawTransientFailure => sawTransientFailure = false → c.attempt.id ∉ s.broadcasts
  | .failing f =>
    (f.submissionStore.startState = .started ∧ f.journaled.isSome) ∨ f.attempt.id ∉ s.broadcasts ∨
      KnownFailed s f.attempt.id
  | _ => True

theorem Unsent.mono {s t : System} {W : Worker} (h : Unsent s W)
    (hsent : ∀ a, W.attempt? = some a → a ∈ t.broadcasts → a ∈ s.broadcasts)
    (hfailed : ∀ a, KnownFailed s a → KnownFailed t a) : Unsent t W := by
  cases W with
  | claimed attempt => exact fun hmem => h (hsent _ rfl hmem)
  | linked attempt transfer => exact fun hmem => h (hsent _ rfl hmem)
  | persisted c => exact fun hmem => h (hsent _ rfl hmem)
  | started c _ => exact fun hsaw hmem => h hsaw (hsent _ rfl hmem)
  | failing f =>
    rcases h with h | h | h
    · exact .inl h
    · exact .inr (.inl fun hmem => h (hsent _ rfl hmem))
    · exact .inr (.inr (hfailed _ h))
  | _ => trivial

/-! ## The invariant -/

structure Inv (s : System) : Prop where
  consistent : Consistent s.db
  indexed : Indexed s.db
  knows : ∀ w, Knows s.db (s.workers w)
  /-- An attempt has one collector. -/
  collector : ∀ w w' a, (s.workers w).attempt? = some a → (s.workers w').attempt? = some a → w = w'
  exist : ∀ w a, (s.workers w).attempt? = some a → ∃ r, s.db.attempts.find? a = some r
  unsent : ∀ w, Unsent s (s.workers w)
  started : ∀ a ∈ s.broadcasts, ∃ transferId, LinkedTo s.db a transferId ∧ Started s.db transferId

theorem Inv.caller {s : System} (h : Inv s) {w : Nat} {W : Worker} (hw : s.workers w = W) : Knows s.db W ∧ Unsent s W :=
  hw ▸ ⟨h.knows w, h.unsent w⟩

/-- What a step of the caller `w`, who stands at `W` after it, does to the system. -/
structure Moves (created linked marked : Option String) (s t : System) (w : Nat) (W : Worker) : Prop where
  workers : t.workers = Function.update s.workers w W
  rows : RowsStep created linked marked s.db t.db
  indexed : Indexed t.db
  landed : ∀ σ err, s.chain.landed σ = some err → t.chain.landed σ = some err
  broadcasts : ∀ a ∈ t.broadcasts, a ∈ s.broadcasts ∨ ∃ c saw, s.workers w = .started c saw ∧ c.attempt.id = a
  attempt : ∀ a, W.attempt? = some a → (s.workers w).attempt? = some a ∨ created = some a
  new : ∀ a, created = some a → s.db.attempts.find? a = none ∧
    ∃ r, t.db.attempts.find? a = some r ∧ activeDue r.status = true
  linker : ∀ a, linked = some a → ∃ attempt, s.workers w = .claimed attempt ∧ attempt.id = a
  knows : Knows t.db W
  unsent : Unsent t W
  armed : ∀ a, Armed t.db a W → Armed s.db a (s.workers w) ∨ created = some a

namespace Moves

variable {created linked marked : Option String} {s t : System} {w : Nat} {W : Worker}

theorem knownFailed (h : Moves created linked marked s t w W) {a : String} (hf : KnownFailed s a) : KnownFailed t a := by
  obtain ⟨transferId, σ, err, hsigned, hlanded⟩ := hf
  exact ⟨transferId, σ, err, hsigned.later h.rows, h.landed σ _ hlanded⟩

theorem worker_self (h : Moves created linked marked s t w W) : t.workers w = W := by
  rw [h.workers, Function.update_self]

theorem worker_of_ne (h : Moves created linked marked s t w W) {w' : Nat} (hne : w' ≠ w) :
    t.workers w' = s.workers w' := by
  rw [h.workers, Function.update_of_ne hne]

theorem collector_eq (h : Moves created linked marked s t w W) (hinv : Inv s) {w' : Nat} {a : String}
    (hW : W.attempt? = some a) (hw' : (s.workers w').attempt? = some a) : w' = w := by
  rcases h.attempt a hW with hold | hcreated
  · exact hinv.collector w' w a hw' hold
  · obtain ⟨r, hr⟩ := hinv.exist w' a hw'
    rw [(h.new a hcreated).1] at hr
    cases hr

theorem inv (h : Moves created linked marked s t w W) (hinv : Inv s) : Inv t where
  consistent := h.rows.consistent
  indexed := h.indexed
  knows := fun w' => by
    by_cases hw : w' = w
    · rw [hw, h.worker_self]
      exact h.knows
    · rw [h.worker_of_ne hw]
      refine (hinv.knows w').later h.rows fun attempt hclaimed hlinked => ?_
      obtain ⟨attempt', hw', hid⟩ := h.linker _ hlinked
      refine hw (hinv.collector w' w attempt.id ?_ ?_)
      · rw [hclaimed]
        rfl
      · rw [hw']
        exact congrArg some hid
  collector := fun w₁ w₂ a h₁ h₂ => by
    by_cases hw₁ : w₁ = w <;> by_cases hw₂ : w₂ = w
    · rw [hw₁, hw₂]
    · rw [hw₁, h.worker_self] at h₁
      rw [h.worker_of_ne hw₂] at h₂
      exact absurd (h.collector_eq hinv h₁ h₂) hw₂
    · rw [hw₂, h.worker_self] at h₂
      rw [h.worker_of_ne hw₁] at h₁
      exact absurd (h.collector_eq hinv h₂ h₁) hw₁
    · rw [h.worker_of_ne hw₁] at h₁
      rw [h.worker_of_ne hw₂] at h₂
      exact hinv.collector w₁ w₂ a h₁ h₂
  exist := fun w' a ha => by
    have hold (w₁ : Nat) (hw₁ : (s.workers w₁).attempt? = some a) : ∃ r, t.db.attempts.find? a = some r := by
      obtain ⟨r, hr⟩ := hinv.exist w₁ a hw₁
      obtain ⟨r', hr', -⟩ := h.rows.attempts a r hr
      exact ⟨r', hr'⟩
    by_cases hw : w' = w
    · rw [hw, h.worker_self] at ha
      rcases h.attempt a ha with hs | hcreated
      · exact hold w hs
      · obtain ⟨r, hr, -⟩ := (h.new a hcreated).2
        exact ⟨r, hr⟩
    · rw [h.worker_of_ne hw] at ha
      exact hold w' ha
  unsent := fun w' => by
    by_cases hw : w' = w
    · rw [hw, h.worker_self]
      exact h.unsent
    · rw [h.worker_of_ne hw]
      refine (hinv.unsent w').mono (fun a ha hmem => ?_) fun a => h.knownFailed
      rcases h.broadcasts a hmem with hmem | ⟨c, saw, hstarted, hid⟩
      · exact hmem
      · refine absurd (hinv.collector w' w a ha ?_) hw
        rw [hstarted]
        exact congrArg some hid
  started := fun a hmem => by
    rcases h.broadcasts a hmem with hmem | ⟨c, saw, hstarted, hid⟩
    · obtain ⟨transferId, hlink, hs⟩ := hinv.started a hmem
      exact ⟨transferId, h.rows.linkedTo hlink, started_later h.rows hs⟩
    · have hknows := hinv.knows w
      rw [hstarted] at hknows
      exact ⟨c.transfer.id, h.rows.linkedTo (hid ▸ hknows.1.pair.linkedTo), started_later h.rows hknows.2⟩

end Moves

/-! ## Attempts that are never broadcast -/

/-- The attempt is not broadcast, and nobody can broadcast it. -/
structure Blocked (s : System) (a : String) : Prop where
  exist : ∃ r, s.db.attempts.find? a = some r
  unsent : a ∉ s.broadcasts
  disarmed : ∀ w, ¬ Armed s.db a (s.workers w)

theorem Moves.blocked {created linked marked : Option String} {s t : System} {w : Nat} {W : Worker}
    (h : Moves created linked marked s t w W) (hinv : Inv s) {a : String} (hb : Blocked s a) : Blocked t a := by
  obtain ⟨r, hr⟩ := hb.exist
  obtain ⟨r', hr', -⟩ := h.rows.attempts a r hr
  refine ⟨⟨r', hr'⟩, fun hmem => ?_, fun w' harmed => ?_⟩
  · rcases h.broadcasts a hmem with hmem | ⟨c, saw, hstarted, hid⟩
    · exact hb.unsent hmem
    · refine hb.disarmed w ?_
      rw [hstarted]
      exact hid
  · by_cases hw : w' = w
    · rw [hw, h.worker_self] at harmed
      rcases h.armed a harmed with harmed | hcreated
      · exact hb.disarmed w harmed
      · rw [(h.new a hcreated).1] at hr
        cases hr
    · rw [h.worker_of_ne hw] at harmed
      exact hb.disarmed w' (harmed.back h.rows (hinv.knows w'))

end Sdp.Collectors
