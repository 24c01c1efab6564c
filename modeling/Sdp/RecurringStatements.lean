import Sdp.Code.RecurringCollectors
import Sdp.RecurringFinalizations

/-!
# What the statements of collectors and recoverers write
-/

open Sdp.Lib

namespace Sdp.Collectors

open Payments Recurring

/-! ## Calls -/

theorem answer_eq_ok {α : Type} {outcome : CallOutcome} {db db' : CollectionDatabase}
    {result : Except RepositoryError (CollectionDatabase × α)} {a : α} (h : answer outcome db result = (db', .ok a)) :
    result = .ok (db', a) := by
  unfold answer at h
  split at h <;> simp_all

theorem answer_eq_error {α : Type} {outcome : CallOutcome} {db db' : CollectionDatabase}
    {result : Except RepositoryError (CollectionDatabase × α)} {e : ExecutionError}
    (h : answer outcome db result = (db', .error e)) : db' = db ∨ ∃ a, result = .ok (db', a) := by
  unfold answer at h
  split at h <;> simp_all

/-! ## Attempts -/

/-- The unique index on the due time. -/
def Indexed (db : CollectionDatabase) : Prop :=
  ∀ id id' r r', db.attempts.find? id = some r → db.attempts.find? id' = some r' →
    activeDue r.status = true → activeDue r'.status = true →
    r.subscriptionId = r'.subscriptionId → r.dueAt = r'.dueAt → id = id'

theorem indexed_of_rowsStep {linked marked : Option String} {db db' : CollectionDatabase}
    (h : RowsStep none linked marked db db') (hdb : Indexed db) : Indexed db' := by
  have hback {id : String} {r' : CollectionAttemptRow} (hr' : db'.attempts.find? id = some r')
      (ha : activeDue r'.status = true) : ∃ r, db.attempts.find? id = some r ∧ activeDue r.status = true ∧
        r'.subscriptionId = r.subscriptionId ∧ r'.dueAt = r.dueAt := by
    rcases h.fresh id r' hr' with ⟨r, hr⟩ | hcreated
    · obtain ⟨r₁, hr₁, hlater⟩ := h.attempts id r hr
      obtain rfl := Option.some.inj (hr₁.symm.trans hr')
      exact ⟨r, hr, hlater.active ha, hlater.due⟩
    · cases hcreated
  intro id id' r r' hr hr' ha ha' hsubscription hdue
  obtain ⟨r₀, hr₀, ha₀, hs, hd⟩ := hback hr ha
  obtain ⟨r₀', hr₀', ha₀', hs', hd'⟩ := hback hr' ha'
  exact hdb id id' r₀ r₀' hr₀ hr₀' ha₀ ha₀' (by rw [← hs, ← hs', hsubscription]) (by rw [← hd, ← hd', hdue])

theorem createCollectionAttempt_cases (t : AttemptTable) (row : CollectionAttemptRow) (hnew : t.find? row.id = none) :
    createCollectionAttempt t row = t ∨
      (∀ id, (createCollectionAttempt t row).find? id = if id = row.id then some row else t.find? id) ∧
      (activeDue row.status = true → ∀ r ∈ t.rows, activeDue r.status = true →
        r.subscriptionId = row.subscriptionId → r.dueAt ≠ row.dueAt) := by
  unfold createCollectionAttempt
  split
  · exact .inl rfl
  · next hfree =>
    refine .inr ⟨fun id => ?_, fun ha r hr hactive hsubscription hdue => hfree ?_⟩
    · rw [Table.find?_insertNew]
      split
      · next hid =>
        have hid : id = row.id := hid
        rw [hid, hnew]
        rfl
      · rfl
    · rw [ha, Bool.true_and]
      exact List.any_eq_true.mpr ⟨r, hr, by simp [hactive, hsubscription, hdue]⟩

theorem createCollectionAttempt_returns (t : AttemptTable) (row : CollectionAttemptRow) (hnew : t.find? row.id = none) :
    (∀ r, (createCollectionAttempt t row).find? row.id = some r → r = row) ∧
      ((createCollectionAttempt t row).find? row.id = none → createCollectionAttempt t row = t) := by
  rcases createCollectionAttempt_cases t row hnew with hsame | ⟨hrows, -⟩
  · refine ⟨fun r hr => ?_, fun _ => hsame⟩
    rw [hsame, hnew] at hr
    cases hr
  · rw [hrows, if_pos rfl]
    exact ⟨fun r hr => (Option.some.inj hr).symm, by simp⟩

theorem create_step {db : CollectionDatabase} (hdb : Consistent db) (row : CollectionAttemptRow)
    (hnew : db.attempts.find? row.id = none) (hσ : row.signature = none) :
    RowsStep (some row.id) none none db { db with attempts := createCollectionAttempt db.attempts row } := by
  rcases createCollectionAttempt_cases db.attempts row hnew with hsame | ⟨hrows, -⟩
  · rw [hsame]
    exact .refl hdb
  · -- No row but the new one is touched.
    have hold {id : String} {r : CollectionAttemptRow} (hr : db.attempts.find? id = some r) :
        (createCollectionAttempt db.attempts row).find? id = some r := by
      rw [hrows, if_neg (fun hid => by rw [hid, hnew] at hr; cases hr), hr]
    refine ⟨fun id r hr => ⟨r, hold hr, Std.Refl.refl r⟩, .refl, fun id r' hr' => ?_,
      fun id r hr hnone _ => ⟨r, hold hr, hnone⟩, fun id r hr ha _ => ⟨r, hold hr, ha⟩, fun id r σ hr hs => ?_⟩
    · rw [hrows] at hr'
      split at hr'
      · next hid => exact .inr (congrArg some hid.symm)
      · exact .inl ⟨r', hr'⟩
    · replace hr := (hrows id).symm.trans hr
      split at hr
      · cases hr
        rw [hσ] at hs
        cases hs
      · exact hdb id r σ hr hs

theorem create_indexed {db : CollectionDatabase} (hdb : Indexed db) (row : CollectionAttemptRow)
    (hnew : db.attempts.find? row.id = none) :
    Indexed { db with attempts := createCollectionAttempt db.attempts row } := by
  rcases createCollectionAttempt_cases db.attempts row hnew with hsame | ⟨hrows, hfree⟩
  · rw [hsame]
    exact hdb
  · intro id id' r r' hr hr' ha ha' hsubscription hdue
    replace hr := (hrows id).symm.trans hr
    replace hr' := (hrows id').symm.trans hr'
    split at hr <;> split at hr'
    · next hid hid' => rw [hid, hid']
    · cases hr
      exact absurd hdue.symm (hfree ha r' (Table.find?_eq_some_iff.mp hr').1 ha' hsubscription.symm)
    · cases hr'
      exact absurd hdue (hfree ha' r (Table.find?_eq_some_iff.mp hr).1 ha hsubscription)
    · exact hdb id id' r r' hr hr' ha ha' hsubscription hdue

theorem activeDue_of_isOpen {status : AttemptStatus} (h : isOpen status = true) : activeDue status = true := by
  cases status <;> simp_all [isOpen, activeDue]

theorem attemptLater_open {r r' : CollectionAttemptRow}
    (hstatus : r'.status = r.status ∨ r'.status = .processing ∧ isOpen r.status = true)
    (hdue : r'.subscriptionId = r.subscriptionId ∧ r'.dueAt = r.dueAt)
    (hlink : ∀ id, r.transferId = some id → r'.transferId = some id)
    (hσ : ∀ σ, r.signature = some σ → r'.signature = some σ) : AttemptLater r r' := by
  refine ⟨hdue, hlink, hσ, fun hc => ?_, fun hc => ?_, fun ha => ?_⟩
  · rcases hstatus with hsame | ⟨-, hopen⟩
    · rwa [hsame]
    · rw [hc] at hopen
      cases hopen
  · rcases hstatus with hsame | ⟨-, hopen⟩
    · rwa [hsame]
    · rw [hopen] at hc
      cases hc
  · rcases hstatus with hsame | ⟨-, hopen⟩
    · rwa [← hsame]
    · exact activeDue_of_isOpen hopen

/-! ## Transfers -/

def Processing (db : CollectionDatabase) (transferId : String) : Prop :=
  RowAt db.transfers transferId fun r => r.status = .processing

def Failed (db : CollectionDatabase) (transferId : String) : Prop :=
  RowAt db.transfers transferId fun r => r.status = .failed

def Started (db : CollectionDatabase) (transferId : String) : Prop :=
  RowAt db.transfers transferId fun r => r.submissionStartedAt.isSome

theorem createTransfer_quiet {db : CollectionDatabase} (hdb : Consistent db) (transferId : String)
    (input : CreatePaymentTransferInput) (now : Nat) :
    QuietStep db { db with transfers := createTransfer db.transfers transferId input now } := by
  have hevolves : Table.Evolves TransferLater db.transfers (createTransfer db.transfers transferId input now) :=
    Table.evolves_insertNew _
  refine ⟨.refl, hevolves, fun _ r hr => .inl ⟨r, hr⟩, fun _ r hr hlink _ => ⟨r, hr, hlink⟩,
    fun _ r hr ha _ => ⟨r, hr, ha⟩, fun id r σ hr hσ => ?_⟩
  obtain ⟨transferId, hlink, r₀, hr₀, hσ₀⟩ := hdb id r σ hr hσ
  obtain ⟨r₁, hr₁, hl⟩ := hevolves transferId r₀ hr₀
  exact ⟨transferId, hlink, r₁, hr₁, hl.signature σ hσ₀⟩

theorem link_step {db db' : CollectionDatabase} (hdb : Consistent db) {attempt attempt' : CollectionAttemptRow}
    {transfer' : PaymentTransferRow} {transferId : String} {now : Nat} (hnew : db.transfers.find? transferId = none)
    (hunlinked : ∃ r, db.attempts.find? attempt.id = some r ∧ r.transferId = none)
    (h : linkTransfer db attempt transferId now = .ok (db', attempt', transfer')) :
    RowsStep none (some attempt.id) none db db' ∧ db'.attempts.find? attempt.id = some attempt' ∧
      attempt'.transferId = some transferId ∧ db'.transfers.find? transferId = some transfer' ∧
      ∃ r, db.attempts.find? attempt.id = some r ∧ isOpen r.status = true := by
  unfold linkTransfer at h
  dsimp only at h
  split at h
  · cases h
  · cases h
  · next attempts row hupdate =>
    cases h
    obtain ⟨hrow, r, hr, hguard, rfl⟩ := updateCollectionAttempt_returning hupdate
    obtain ⟨r₀, hr₀, hnone⟩ := hunlinked
    obtain rfl : r = r₀ := Option.some.inj (hr.symm.trans hr₀)
    have hopen : isOpen r.status = true := by
      simp only [UpdateCollectionAttemptInput.guard, linkUpdate, Option.all_some] at hguard
      unfold isOpen
      grind
    have hcreate := createTransfer_quiet hdb transferId (newTransfer db) now
    refine ⟨?_, hrow, rfl, ?_, r, hr, hopen⟩
    · refine hcreate.after (updateCollectionAttempt_step hcreate.consistent hupdate (fun r' hr' _ => ?_)
        (fun _ _ hne => absurd rfl hne) (fun _ _ _ _ => rfl) fun r' σ hr' hσ => ?_)
      · obtain rfl : r' = r := Option.some.inj (hr'.symm.trans hr)
        refine attemptLater_open (.inr ⟨rfl, hopen⟩) ⟨rfl, rfl⟩ (fun id hid => ?_) fun σ hσ => hσ
        rw [hnone] at hid
        cases hid
      · obtain rfl : r' = r := Option.some.inj (hr'.symm.trans hr)
        obtain ⟨_, hlink, -⟩ := hdb _ r' σ hr hσ
        rw [hnone] at hlink
        cases hlink
    · unfold createTransfer
      rw [Table.find?_insertNew]
      simp [createdTransfer, hnew]

theorem persist_step {db db' : CollectionDatabase} (hdb : Consistent db) {transfer : PaymentTransferRow}
    {submission : SignedSubmission} {now : Nat} {row : Option PaymentTransferRow}
    (h : persistSigned db transfer submission now = .ok (db', row)) :
    QuietStep db db' ∧ ∀ r, row = some r → Processing db transfer.id ∧ db'.transfers.find? transfer.id = some r ∧
      r.signature = some submission.signature := by
  unfold persistSigned at h
  obtain ⟨⟨transfers, row'⟩, hpersist, h⟩ := map_eq_ok.mp h
  cases h
  unfold persistSignedTransfer at hpersist
  dsimp only at hpersist
  split at hpersist
  · cases hpersist
  · obtain ⟨rfl, rfl⟩ := Prod.mk.inj (Except.ok.inj hpersist)
    have hid : ∀ r, (persistSet submission now r).id = r.id := fun _ => rfl
    constructor
    · refine rowsStep_transfer hdb hid fun r _ hguard => ?_
      have hg : r.status = .processing ∧ r.signature = none := by
        unfold persistGuard at hguard
        simp_all
      refine ⟨fun σ hσ => ?_, fun hs => hs, fun hs => hs, fun hne => absurd hg.1 hne⟩
      rw [hg.2] at hσ
      cases hσ
    · intro r hr
      obtain ⟨r₀, hr₀, hguard, rfl⟩ := Table.returning_eq_some.mp hr
      refine ⟨⟨r₀, hr₀, ?_⟩, Table.find?_update_returning hid hr, rfl⟩
      unfold persistGuard at hguard
      simp_all

theorem start_step {db db' : CollectionDatabase} (hdb : Consistent db) {transfer : PaymentTransferRow} {now : Nat}
    {row : Option PaymentTransferRow} (h : markStarted db transfer now = .ok (db', row)) :
    QuietStep db db' ∧ ∀ r, row = some r → Processing db transfer.id ∧ db'.transfers.find? transfer.id = some r ∧
      r.submissionStartedAt.isSome := by
  obtain ⟨rfl, rfl⟩ := Prod.mk.inj (Except.ok.inj h)
  have hstart {r : PaymentTransferRow} (hguard : startGuard transfer.organizationId transfer.projectId r = true) :
      r.status = .processing ∧ r.signedTransaction.isSome = true := by
    unfold startGuard at hguard
    simp_all
  constructor
  · refine rowsStep_transfer hdb (startSet_id now) fun r _ hguard => ?_
    rw [startSet, dif_pos (hstart hguard).2]
    exact ⟨fun σ hσ => hσ, fun hs => hs, fun _ => rfl, fun hne => absurd (hstart hguard).1 hne⟩
  · intro r hr
    obtain ⟨r₀, hr₀, hguard, -⟩ := Table.returning_eq_some.mp hr
    exact ⟨⟨r₀, hr₀, (hstart hguard).1⟩, markTransferSubmissionStarted_returns hr⟩

/-! ## Signatures -/

/-- What is known of a transfer whose signature is written. -/
structure Signed (db : CollectionDatabase) (attemptId transferId signature : String) : Prop where
  linked : LinkedTo db attemptId transferId
  holds : Holds db.transfers transferId signature

theorem Signed.later {created linked marked : Option String} {db db' : CollectionDatabase}
    {attemptId transferId signature : String} (h : Signed db attemptId transferId signature)
    (hstep : RowsStep created linked marked db db') : Signed db' attemptId transferId signature :=
  ⟨hstep.linkedTo h.linked, hstep.holds h.holds⟩

theorem writeTransferSignature_step {db db' : CollectionDatabase} (hdb : Consistent db)
    {input : UpdatePaymentTransferInput} {row : Option PaymentTransferRow} (hstatus : input.status = none)
    (hσ : ∀ σ, input.signature = some σ → Holds db.transfers input.transferId σ)
    (h : writeTransferSignature db input = .ok (db', row)) :
    QuietStep db db' ∧ ∀ r, row = some r → db'.transfers.find? input.transferId = some r := by
  unfold writeTransferSignature at h
  obtain ⟨⟨transfers, row'⟩, hupdate, h⟩ := map_eq_ok.mp h
  cases h
  constructor
  · refine updateTransfer_step hdb hupdate fun r hr _ => ?_
    have hkeep : (input.set r).status = r.status := by
      unfold UpdatePaymentTransferInput.set
      rw [hstatus]
      rfl
    refine ⟨fun σ hr' => ?_, fun hs => by rwa [hkeep], fun hs => hs, fun hne => ⟨by rwa [hkeep], rfl⟩⟩
    show input.signature.or r.signature = some σ
    cases hs : input.signature with
    | none => exact hr'
    | some σ' => exact congrArg some (holds_unique (hσ σ' hs) ⟨r, hr, hr'⟩)
  · rintro r rfl
    exact updateTransfer_returning hupdate

theorem writeAttemptSignature_step {db db' : CollectionDatabase} (hdb : Consistent db) {transferId signature : String}
    {input : UpdateCollectionAttemptInput} {row : Option CollectionAttemptRow}
    (hsigned : Signed db input.attemptId transferId signature) (hlink : ∀ id, input.transferId = some id → id = transferId)
    (hstatus : ∀ status, input.status = some status → status = .processing)
    (hσ : input.signature = some signature) (h : writeAttemptSignature db input = .ok (db', row)) :
    QuietStep db db' ∧ ∀ r, row = some r → db'.attempts.find? input.attemptId = some r := by
  unfold writeAttemptSignature at h
  obtain ⟨⟨attempts, row'⟩, hupdate, h⟩ := map_eq_ok.mp h
  cases h
  obtain ⟨r₀, hr₀, hlink₀⟩ := hsigned.linked
  -- The row has this transfer before and after.
  have hrow {r : CollectionAttemptRow} (hr : db.attempts.find? input.attemptId = some r) :
      r.transferId = some transferId ∧ (input.set r).transferId = some transferId := by
    obtain rfl := Option.some.inj (hr₀.symm.trans hr)
    refine ⟨hlink₀, ?_⟩
    show input.transferId.or r₀.transferId = some transferId
    cases hid : input.transferId with
    | none => exact hlink₀
    | some id => rw [hlink id hid]; rfl
  have hnew (r : CollectionAttemptRow) : (input.set r).signature = some signature := by
    show input.signature.or r.signature = some signature
    rw [hσ]
    rfl
  have hopen {r : CollectionAttemptRow} (hg : input.guard r = true) : (input.set r).status = r.status ∨
      (input.set r).status = .processing ∧ isOpen r.status = true := by
    cases hs : input.status with
    | none => exact .inl (by simp [UpdateCollectionAttemptInput.set, hs])
    | some status =>
      obtain rfl := hstatus status hs
      simp only [UpdateCollectionAttemptInput.guard, hs, Option.all_some] at hg
      refine .inr ⟨by simp [UpdateCollectionAttemptInput.set, hs], ?_⟩
      unfold isOpen
      grind
  constructor
  · refine updateCollectionAttempt_step hdb hupdate (fun r hr hg => ?_) (fun r hr _ hnone => ?_) (fun r hg _ ha => ?_)
      fun r σ hr hs => ?_
    · refine attemptLater_open (hopen hg) ⟨rfl, rfl⟩ (fun id hid => ?_) fun σ hs => ?_
      · rw [(hrow hr).2, ← (hrow hr).1, hid]
      · rw [hnew r, holds_unique hsigned.holds (hdb.holds hr (hrow hr).1 hs)]
    · rw [(hrow hr).1] at hnone
      cases hnone
    · rcases hopen hg with hsame | ⟨hprocessing, -⟩
      · rwa [hsame]
      · rw [hprocessing]
        rfl
    · rw [hnew r] at hs
      cases hs
      exact ⟨transferId, (hrow hr).2, hsigned.holds⟩
  · rintro r rfl
    exact (updateCollectionAttempt_returning hupdate).1

/-! ## Failed collections -/

/-- What is known of the arguments of `markRecurringPaymentCollectionFailedAtomically`. -/
structure Markable (db : CollectionDatabase) (attempt : CollectionAttemptRow) (transfer : Option PaymentTransferRow)
    (submittedSignature : Option String) : Prop where
  linked : ∀ r, transfer = some r → LinkedTo db attempt.id r.id
  signed : ∀ σ, submittedSignature = some σ → ∃ r, transfer = some r ∧ Holds db.transfers r.id σ

theorem failTransferSet_later {organizationId projectId : String} {submittedSignature : Option String}
    {message : String} {now : Nat} {r : PaymentTransferRow} (hguard : failTransferGuard organizationId projectId r = true)
    (hσ : ∀ σ, submittedSignature = some σ → r.signature = some σ) :
    TransferLater r (failTransferSet submittedSignature message now r) := by
  refine ⟨fun σ hr => ?_, fun hs => ?_, fun hs => hs, fun _ => ⟨by simp [failTransferSet], rfl⟩⟩
  · show submittedSignature.or r.signature = some σ
    cases hs : submittedSignature with
    | none => exact hr
    | some σ' => exact (hσ σ' hs).symm.trans hr
  · unfold failTransferGuard at hguard
    unfold Settled at hs
    rcases hs with hs | hs <;> simp [hs] at hguard

theorem failTransfer_step {db : CollectionDatabase} (hdb : Consistent db)
    {organizationId projectId transferId : String} {submittedSignature : Option String} {message : String} {now : Nat}
    {transfers : TransferTable} {confirmed : Option String}
    (hσ : ∀ σ, submittedSignature = some σ → Holds db.transfers transferId σ)
    (h : failTransfer db.transfers organizationId projectId transferId submittedSignature message now =
      .ok (transfers, confirmed)) :
    QuietStep db { db with transfers } ∧ (∀ σ, confirmed = some σ → Holds transfers transferId σ) ∧
      (confirmed = none → Failed { db with transfers } transferId) := by
  unfold failTransfer at h
  split at h
  · next hmatch =>
    split at h
    · cases h
    · obtain ⟨rfl, rfl⟩ := Prod.mk.inj (Except.ok.inj h)
      have hid : ∀ r, (failTransferSet submittedSignature message now r).id = r.id := fun _ => rfl
      refine ⟨rowsStep_transfer hdb hid fun r hr hguard => ?_, by simp, fun _ => ?_⟩
      · refine failTransferSet_later hguard fun σ hs => ?_
        obtain ⟨r', hr', hσ'⟩ := hσ σ hs
        obtain rfl := Option.some.inj (hr'.symm.trans hr)
        exact hσ'
      · obtain ⟨r, hr, hguard⟩ := Table.matches?_iff.mp hmatch
        exact ⟨_, Table.find?_update_returning hid (Table.returning_eq_some.mpr ⟨r, hr, hguard, rfl⟩), rfl⟩
  · split at h
    · cases h
    · next current hcurrent =>
      split at h
      · cases h
      · next σ hσ' =>
        obtain ⟨rfl, rfl⟩ := Prod.mk.inj (Except.ok.inj h)
        refine ⟨.refl hdb, ?_, by simp⟩
        rintro σ' ⟨⟩
        have hfind := getTransferById_find? (Option.filter_eq_some_iff.mp hcurrent).1
        cases hs : current.signature with
        | none =>
          rw [hs] at hσ'
          exact hσ σ hσ'
        | some σ'' =>
          rw [hs] at hσ'
          exact ⟨current, hfind, hs.trans hσ'⟩

theorem settleAttempt_later {input : SettleAttemptInput} {r : CollectionAttemptRow} (hguard : input.guard r = true)
    (hlink : ∀ id, r.transferId = some id → (input.set r).transferId = some id)
    (hσ : ∀ σ, r.signature = some σ → (input.set r).signature = some σ) : AttemptLater r (input.set r) := by
  have hstatus : (input.set r).status = input.status := rfl
  unfold SettleAttemptInput.guard at hguard
  refine ⟨⟨rfl, rfl⟩, hlink, hσ, ?_, ?_, ?_⟩ <;> rw [hstatus]
  · grind
  · unfold isOpen
    grind
  · unfold activeDue
    grind

theorem settleAttempt_step {db : CollectionDatabase} (hdb : Consistent db) {input : SettleAttemptInput}
    {attempts : AttemptTable}
    (hlink : ∀ id, input.transferId = some id → LinkedTo db input.attemptId id)
    (hσ : ∀ σ, input.signature = some σ → ∃ id, input.transferId = some id ∧ Holds db.transfers id σ)
    (h : settleAttempt db.attempts input = .ok attempts) :
    RowsStep none none (some input.attemptId) db { db with attempts } ∧
      ∃ r, attempts.find? input.attemptId = some r ∧ r.status = input.status := by
  unfold settleAttempt at h
  split at h
  · next hmatch =>
    split at h
    · cases h
    · obtain rfl := Except.ok.inj h
      have hid : ∀ r, (input.set r).id = r.id := fun _ => rfl
      have hkeep {r : CollectionAttemptRow} (hr : db.attempts.find? input.attemptId = some r) {id : String}
          (hlinked : r.transferId = some id) : (input.set r).transferId = some id := by
        show input.transferId.or r.transferId = some id
        cases hs : input.transferId with
        | none => exact hlinked
        | some id' => exact congrArg some ((hlink id' hs).unique ⟨r, hr, hlinked⟩)
      constructor
      · refine rowsStep_attempt hdb hid (fun r hr hg => ?_) (fun r hr _ hnone => ?_) (fun _ _ hne => absurd rfl hne)
          fun r σ hr hs => ?_
        · refine settleAttempt_later hg (fun id hlinked => hkeep hr hlinked) fun σ hs => ?_
          show input.signature.or r.signature = some σ
          cases hi : input.signature with
          | none => exact hs
          | some σ' =>
            obtain ⟨id, hlinked, hholds⟩ := hdb _ r σ hr hs
            obtain ⟨id', hid', hholds'⟩ := hσ σ' hi
            obtain rfl := (hlink id' hid').unique ⟨r, hr, hlinked⟩
            exact congrArg some (holds_unique hholds' hholds)
        · show input.transferId.or r.transferId = none
          cases hs : input.transferId with
          | none => exact hnone
          | some id' =>
            obtain ⟨r', hr', hlinked⟩ := hlink id' hs
            obtain rfl := Option.some.inj (hr.symm.trans hr')
            rw [hnone] at hlinked
            cases hlinked
        · replace hs : input.signature.or r.signature = some σ := hs
          cases hi : input.signature with
          | none =>
            rw [hi] at hs
            obtain ⟨id, hlinked, hholds⟩ := hdb _ r σ hr hs
            exact ⟨id, hkeep hr hlinked, hholds⟩
          | some σ' =>
            rw [hi] at hs
            obtain rfl : σ' = σ := Option.some.inj hs
            obtain ⟨id, hid, hholds⟩ := hσ σ' hi
            exact ⟨id, by simp [SettleAttemptInput.set, hid], hholds⟩
      · obtain ⟨r, hr, hguard⟩ := Table.matches?_iff.mp hmatch
        exact ⟨input.set r, Table.find?_update_returning hid (Table.returning_eq_some.mpr ⟨r, hr, hguard, rfl⟩), rfl⟩
  · cases h

theorem failLinkedTransfer_step {db : CollectionDatabase} (hdb : Consistent db) {attempt : CollectionAttemptRow}
    {transfer : Option PaymentTransferRow} {submittedSignature : Option String} {message : String} {now : Nat}
    (hm : Markable db attempt transfer submittedSignature) {transfers : TransferTable} {confirmed : Option String}
    (h : failLinkedTransfer db transfer submittedSignature message now = .ok (transfers, confirmed)) :
    QuietStep db { db with transfers } ∧
      (∀ σ, confirmed = some σ → ∃ r, transfer = some r ∧ Holds transfers r.id σ) ∧
      ∀ r, transfer = some r → confirmed = none → Failed { db with transfers } r.id := by
  unfold failLinkedTransfer at h
  split at h
  · obtain ⟨rfl, rfl⟩ := Prod.mk.inj (Except.ok.inj h)
    exact ⟨.refl hdb, by simp, by simp⟩
  · next r =>
    have hσ (σ : String) (hσ : submittedSignature = some σ) : Holds db.transfers r.id σ := by
      obtain ⟨r', hr', hholds⟩ := hm.signed σ hσ
      obtain rfl := Option.some.inj hr'
      exact hholds
    obtain ⟨hquiet, hconfirmed, hfailed⟩ := failTransfer_step hdb hσ h
    refine ⟨hquiet, fun σ hσ => ⟨r, rfl, hconfirmed σ hσ⟩, ?_⟩
    rintro r' ⟨⟩ hnone
    exact hfailed hnone

theorem markFailed_step {db db' : CollectionDatabase} (hdb : Consistent db) {attempt : CollectionAttemptRow}
    {transfer : Option PaymentTransferRow} {submittedSignature : Option String} {message : String} {now : Nat}
    (hm : Markable db attempt transfer submittedSignature)
    (h : markRecurringPaymentCollectionFailedAtomically db attempt transfer submittedSignature message now = .ok db') :
    RowsStep none none (some attempt.id) db db' ∧ ∃ r, db'.attempts.find? attempt.id = some r ∧
      (r.status = .confirmed ∨ r.status = .failed ∧ ∀ r', transfer = some r' → Failed db' r'.id) := by
  unfold markRecurringPaymentCollectionFailedAtomically at h
  obtain ⟨⟨transfers, confirmed⟩, htransfer, h⟩ := bind_eq_ok.mp h
  obtain ⟨attempts, hattempt, h⟩ := bind_eq_ok.mp h
  obtain rfl := pure_eq_ok.mp h
  obtain ⟨hquiet, hconfirmed, hfailed⟩ := failLinkedTransfer_step hdb hm htransfer
  let input := failedAttempt attempt transfer confirmed submittedSignature message now
  have hlink (id : String) (hid : input.transferId = some id) : LinkedTo { db with transfers } input.attemptId id := by
    obtain ⟨r, hr, rfl⟩ := Option.map_eq_some_iff.mp hid
    exact hm.linked r hr
  have hσ (σ : String) (hσ : input.signature = some σ) : ∃ id, input.transferId = some id ∧ Holds transfers id σ := by
    rcases Option.or_eq_some_iff.mp hσ with hσ | ⟨-, hσ⟩
    · obtain ⟨r, rfl, hholds⟩ := hconfirmed σ hσ
      exact ⟨r.id, rfl, hholds⟩
    · obtain ⟨r, rfl, hholds⟩ := hm.signed σ hσ
      exact ⟨r.id, rfl, hquiet.holds hholds⟩
  obtain ⟨hsettle, r, hr, hstatus⟩ := settleAttempt_step hquiet.consistent hlink hσ hattempt
  refine ⟨hquiet.after hsettle, r, hr, ?_⟩
  rw [hstatus]
  cases confirmed with
  | some σ => exact .inl rfl
  | none => exact .inr ⟨rfl, fun r' hr' => hfailed r' hr' rfl⟩

end Sdp.Collectors
