import Sdp.Code.RecurringCollections
import Sdp.Lib.Checks
import Sdp.Transfers

/-!
# How the rows of a collection move on

A signature and a link stay, and what is settled, closed or started stays so. Each statement on the
attempts or on the transfers is a `RowsStep`; it names the attempt that it creates, the one that it
links and the one that it may fail.
-/

open Sdp.Lib

namespace Sdp.Recurring

open Payments

/-! ## Later rows -/

def Settled (status : PaymentTransferStatus) : Prop := status = .confirmed ∨ status = .finalized

structure TransferLater (r r' : PaymentTransferRow) : Prop where
  signature : ∀ σ, r.signature = some σ → r'.signature = some σ
  settled : Settled r.status → Settled r'.status
  started : r.submissionStartedAt.isSome → r'.submissionStartedAt.isSome
  /-- Only a transfer that is processing is started. -/
  closed : r.status ≠ .processing → r'.status ≠ .processing ∧ r'.submissionStartedAt = r.submissionStartedAt

/-- A transfer may be linked to the attempt. -/
def isOpen (status : AttemptStatus) : Bool := status = .pending || status = .processing

structure AttemptLater (r r' : CollectionAttemptRow) : Prop where
  due : r'.subscriptionId = r.subscriptionId ∧ r'.dueAt = r.dueAt
  transferId : ∀ id, r.transferId = some id → r'.transferId = some id
  signature : ∀ σ, r.signature = some σ → r'.signature = some σ
  confirmed : r.status = .confirmed → r'.status = .confirmed
  closed : isOpen r.status = false → isOpen r'.status = false
  active : activeDue r'.status = true → activeDue r.status = true

instance : Std.Refl TransferLater := ⟨fun _ => ⟨fun _ h => h, fun h => h, fun h => h, fun h => ⟨h, rfl⟩⟩⟩

instance : IsTrans _ TransferLater where
  trans _ _ _ h h' := {
    signature := fun σ hσ => h'.signature σ (h.signature σ hσ)
    settled := fun hs => h'.settled (h.settled hs)
    started := fun hs => h'.started (h.started hs)
    closed := fun hc => ⟨(h'.closed (h.closed hc).1).1, (h'.closed (h.closed hc).1).2.trans (h.closed hc).2⟩ }

instance : Std.Refl AttemptLater :=
  ⟨fun _ => ⟨⟨rfl, rfl⟩, fun _ h => h, fun _ h => h, fun h => h, fun h => h, fun h => h⟩⟩

instance : IsTrans _ AttemptLater where
  trans _ _ _ h h' := {
    due := ⟨h'.due.1.trans h.due.1, h'.due.2.trans h.due.2⟩
    transferId := fun id hid => h'.transferId id (h.transferId id hid)
    signature := fun σ hσ => h'.signature σ (h.signature σ hσ)
    confirmed := fun hc => h'.confirmed (h.confirmed hc)
    closed := fun hc => h'.closed (h.closed hc)
    active := fun ha => h.active (h'.active ha) }

/-! ## Later databases -/

/-- The attempt is there and its transfer is this one. -/
def LinkedTo (db : CollectionDatabase) (attemptId transferId : String) : Prop :=
  ∃ r, db.attempts.find? attemptId = some r ∧ r.transferId = some transferId

theorem LinkedTo.unique {db : CollectionDatabase} {attemptId transferId transferId' : String}
    (h : LinkedTo db attemptId transferId) (h' : LinkedTo db attemptId transferId') : transferId = transferId' := by
  obtain ⟨r, hr, hlink⟩ := h
  obtain ⟨r', hr', hlink'⟩ := h'
  obtain rfl := Option.some.inj (hr.symm.trans hr')
  exact Option.some.inj (hlink.symm.trans hlink')

theorem holds_unique {t : TransferTable} {id σ σ' : String} (h : Holds t id σ) (h' : Holds t id σ') : σ = σ' := by
  obtain ⟨r, hr, hσ⟩ := h
  obtain ⟨r', hr', hσ'⟩ := h'
  obtain rfl := Option.some.inj (hr.symm.trans hr')
  exact Option.some.inj (hσ.symm.trans hσ')

/-- The signature of an attempt is the one of its transfer. -/
def Consistent (db : CollectionDatabase) : Prop :=
  ∀ id r σ, db.attempts.find? id = some r → r.signature = some σ →
    ∃ transferId, r.transferId = some transferId ∧ Holds db.transfers transferId σ

theorem Consistent.holds {db : CollectionDatabase} (h : Consistent db) {id transferId σ : String}
    {r : CollectionAttemptRow} (hr : db.attempts.find? id = some r) (hlink : r.transferId = some transferId)
    (hσ : r.signature = some σ) : Holds db.transfers transferId σ := by
  obtain ⟨transferId', hlink', hholds⟩ := h id r σ hr hσ
  obtain rfl := Option.some.inj (hlink.symm.trans hlink')
  exact hholds

structure RowsStep (created linked marked : Option String) (db db' : CollectionDatabase) : Prop where
  attempts : Table.Evolves AttemptLater db.attempts db'.attempts
  transfers : Table.Evolves TransferLater db.transfers db'.transfers
  fresh : ∀ id r', db'.attempts.find? id = some r' → (∃ r, db.attempts.find? id = some r) ∨ created = some id
  unlinked : ∀ id r, db.attempts.find? id = some r → r.transferId = none → linked ≠ some id →
    ∃ r', db'.attempts.find? id = some r' ∧ r'.transferId = none
  active : ∀ id r, db.attempts.find? id = some r → activeDue r.status = true → marked ≠ some id →
    ∃ r', db'.attempts.find? id = some r' ∧ activeDue r'.status = true
  consistent : Consistent db'

/-- A step that creates, links and fails no attempt. -/
abbrev QuietStep (db db' : CollectionDatabase) : Prop := RowsStep none none none db db'

namespace RowsStep

variable {created linked marked : Option String} {db db' db'' : CollectionDatabase}

theorem refl (h : Consistent db) : RowsStep created linked marked db db where
  attempts := .refl
  transfers := .refl
  fresh := fun _ r hr => .inl ⟨r, hr⟩
  unlinked := fun _ r hr hlink _ => ⟨r, hr, hlink⟩
  active := fun _ r hr ha _ => ⟨r, hr, ha⟩
  consistent := h

theorem after (h : QuietStep db db') (h' : RowsStep created linked marked db' db'') :
    RowsStep created linked marked db db'' where
  attempts := fun id r hr => by
    obtain ⟨r', hr', hl⟩ := h.attempts id r hr
    obtain ⟨r'', hr'', hl'⟩ := h'.attempts id r' hr'
    exact ⟨r'', hr'', IsTrans.trans r r' r'' hl hl'⟩
  transfers := fun id r hr => by
    obtain ⟨r', hr', hl⟩ := h.transfers id r hr
    obtain ⟨r'', hr'', hl'⟩ := h'.transfers id r' hr'
    exact ⟨r'', hr'', IsTrans.trans r r' r'' hl hl'⟩
  fresh := fun id r'' hr'' => by
    rcases h'.fresh id r'' hr'' with ⟨r', hr'⟩ | hcreated
    · rcases h.fresh id r' hr' with hr | hnone
      · exact .inl hr
      · cases hnone
    · exact .inr hcreated
  unlinked := fun id r hr hlink hne => by
    obtain ⟨r', hr', hlink'⟩ := h.unlinked id r hr hlink (by simp)
    exact h'.unlinked id r' hr' hlink' hne
  active := fun id r hr ha hne => by
    obtain ⟨r', hr', ha'⟩ := h.active id r hr ha (by simp)
    exact h'.active id r' hr' ha' hne
  consistent := h'.consistent

theorem congr (h : RowsStep created linked marked db db') (hattempts : db''.attempts = db'.attempts)
    (htransfers : db''.transfers = db'.transfers) : RowsStep created linked marked db db'' where
  attempts := by rw [hattempts]; exact h.attempts
  transfers := by rw [htransfers]; exact h.transfers
  fresh := by rw [hattempts]; exact h.fresh
  unlinked := by rw [hattempts]; exact h.unlinked
  active := by rw [hattempts]; exact h.active
  consistent := by
    unfold Consistent
    rw [hattempts, htransfers]
    exact h.consistent

theorem holds (h : RowsStep created linked marked db db') {id σ : String} (hσ : Holds db.transfers id σ) :
    Holds db'.transfers id σ := by
  obtain ⟨r, hr, hσ⟩ := hσ
  obtain ⟨r', hr', hl⟩ := h.transfers id r hr
  exact ⟨r', hr', hl.signature σ hσ⟩

theorem linkedTo (h : RowsStep created linked marked db db') {attemptId transferId : String}
    (hlink : LinkedTo db attemptId transferId) : LinkedTo db' attemptId transferId := by
  obtain ⟨r, hr, hlink⟩ := hlink
  obtain ⟨r', hr', hl⟩ := h.attempts attemptId r hr
  exact ⟨r', hr', hl.transferId _ hlink⟩

end RowsStep

theorem rowsStep_transfer {db : CollectionDatabase} (hdb : Consistent db) {id : String}
    {guard : PaymentTransferRow → Bool} {set : PaymentTransferRow → PaymentTransferRow} (hset : ∀ r, (set r).id = r.id)
    (h : ∀ r, db.transfers.find? id = some r → guard r = true → TransferLater r (set r)) :
    QuietStep db { db with transfers := db.transfers.update id guard set hset } := by
  have hevolves : Table.Evolves TransferLater db.transfers (db.transfers.update id guard set hset) :=
    Table.evolves_update hset h
  refine ⟨.refl, hevolves, fun _ r hr => .inl ⟨r, hr⟩, fun _ r hr hlink _ => ⟨r, hr, hlink⟩,
    fun _ r hr ha _ => ⟨r, hr, ha⟩, fun id r σ hr hσ => ?_⟩
  obtain ⟨transferId, hlink, r₀, hr₀, hσ₀⟩ := hdb id r σ hr hσ
  obtain ⟨r₁, hr₁, hl⟩ := hevolves transferId r₀ hr₀
  exact ⟨transferId, hlink, r₁, hr₁, hl.signature σ hσ₀⟩

theorem rowsStep_attempt {linked marked : Option String} {db : CollectionDatabase} (hdb : Consistent db) {id : String}
    {guard : CollectionAttemptRow → Bool} {set : CollectionAttemptRow → CollectionAttemptRow}
    (hset : ∀ r, (set r).id = r.id)
    (hlater : ∀ r, db.attempts.find? id = some r → guard r = true → AttemptLater r (set r))
    (hlink : ∀ r, db.attempts.find? id = some r → linked ≠ some id → r.transferId = none → (set r).transferId = none)
    (hactive : ∀ r, guard r = true → marked ≠ some id → activeDue r.status = true → activeDue (set r).status = true)
    (hsigned : ∀ r σ, db.attempts.find? id = some r → (set r).signature = some σ →
      ∃ transferId, (set r).transferId = some transferId ∧ Holds db.transfers transferId σ) :
    RowsStep none linked marked db { db with attempts := db.attempts.update id guard set hset } := by
  refine ⟨Table.evolves_update hset hlater, .refl, fun id' r' hr' => .inl ?_, fun id' r hr hnone hne => ?_,
    fun id' r hr ha hne => ?_, fun id' r' σ hr' hσ => ?_⟩
  · obtain ⟨r, hr, -⟩ := Table.row_of_update hset hr'
    exact ⟨r, hr⟩
  · obtain ⟨r', hr', rfl | ⟨rfl, -, rfl⟩⟩ := Table.row_update id guard hset hr
    · exact ⟨r', hr', hnone⟩
    · exact ⟨_, hr', hlink r hr hne hnone⟩
  · obtain ⟨r', hr', rfl | ⟨rfl, hg, rfl⟩⟩ := Table.row_update id guard hset hr
    · exact ⟨r', hr', ha⟩
    · exact ⟨_, hr', hactive r hg hne ha⟩
  · obtain ⟨r, hr, rfl | ⟨rfl, -, rfl⟩⟩ := Table.row_of_update hset hr'
    · exact hdb id' r' σ hr hσ
    · exact hsigned r σ hr hσ

theorem updateTransfer_step {db : CollectionDatabase} (hdb : Consistent db) {input : UpdatePaymentTransferInput}
    {transfers : TransferTable} {row : Option PaymentTransferRow}
    (h : updateTransfer db.transfers input = .ok (transfers, row))
    (hlater : ∀ r, db.transfers.find? input.transferId = some r → input.guard r = true → TransferLater r (input.set r)) :
    QuietStep db { db with transfers } := by
  unfold updateTransfer at h
  split at h
  · cases h
  · cases h
    exact rowsStep_transfer hdb _ hlater

theorem updateTransfer_returning {t t' : TransferTable} {input : UpdatePaymentTransferInput} {row : PaymentTransferRow}
    (h : updateTransfer t input = .ok (t', some row)) : t'.find? input.transferId = some row := by
  unfold updateTransfer at h
  split at h
  · cases h
  · obtain ⟨rfl, hrow⟩ := Prod.mk.inj (Except.ok.inj h)
    exact Table.find?_update_returning _ hrow

theorem transferLater_settled {input : UpdatePaymentTransferInput} {r : PaymentTransferRow}
    (hσ : ∀ σ, r.signature = some σ → (input.set r).signature = some σ)
    (hsettled : Settled r.status → Settled (input.set r).status) (hclosed : (input.set r).status ≠ .processing) :
    TransferLater r (input.set r) :=
  ⟨hσ, hsettled, fun hs => hs, fun _ => ⟨hclosed, rfl⟩⟩

theorem updateCollectionAttempt_eq_ok {t t' : AttemptTable} {input : UpdateCollectionAttemptInput}
    {row : Option CollectionAttemptRow} (h : updateCollectionAttempt t input = .ok (t', row)) :
    t' = t.update input.attemptId input.guard input.set (fun _ => rfl) := by
  unfold updateCollectionAttempt at h
  split at h
  · cases h
  · exact (Prod.mk.inj (Except.ok.inj h)).1.symm

theorem updateCollectionAttempt_returning {t t' : AttemptTable} {input : UpdateCollectionAttemptInput}
    {row : CollectionAttemptRow} (h : updateCollectionAttempt t input = .ok (t', some row)) :
    t'.find? input.attemptId = some row ∧
      ∃ r, t.find? input.attemptId = some r ∧ input.guard r = true ∧ row = input.set r := by
  unfold updateCollectionAttempt at h
  split at h
  · cases h
  · obtain ⟨rfl, hrow⟩ := Prod.mk.inj (Except.ok.inj h)
    refine ⟨Table.find?_update_returning _ hrow, ?_⟩
    obtain ⟨r, hr, hguard, rfl⟩ := Table.returning_eq_some.mp hrow
    exact ⟨r, hr, hguard, rfl⟩

theorem updateCollectionAttempt_step {linked marked : Option String} {db : CollectionDatabase} (hdb : Consistent db)
    {input : UpdateCollectionAttemptInput} {attempts : AttemptTable} {row : Option CollectionAttemptRow}
    (h : updateCollectionAttempt db.attempts input = .ok (attempts, row))
    (hlater : ∀ r, db.attempts.find? input.attemptId = some r → input.guard r = true → AttemptLater r (input.set r))
    (hlink : ∀ r, db.attempts.find? input.attemptId = some r → linked ≠ some input.attemptId → r.transferId = none →
      (input.set r).transferId = none)
    (hactive : ∀ r, input.guard r = true → marked ≠ some input.attemptId → activeDue r.status = true →
      activeDue (input.set r).status = true)
    (hsigned : ∀ r σ, db.attempts.find? input.attemptId = some r → (input.set r).signature = some σ →
      ∃ transferId, (input.set r).transferId = some transferId ∧ Holds db.transfers transferId σ) :
    RowsStep none linked marked db { db with attempts } := by
  rw [updateCollectionAttempt_eq_ok h]
  exact rowsStep_attempt hdb _ hlater hlink hactive hsigned

end Sdp.Recurring
