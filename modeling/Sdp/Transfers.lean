import Sdp.Code.Transfers

/-!
# What a statement does to the transfers

A statement adds a row or changes one that is processing, and a row that is not processing stays as
it is. A signature is written once.
-/

open Sdp.Lib

namespace Sdp.Payments

/-- The transfer is there and `P` holds of its row. -/
def RowAt (t : TransferTable) (id : String) (P : PaymentTransferRow → Prop) : Prop :=
  ∃ r, t.find? id = some r ∧ P r

def Holds (t : TransferTable) (id signature : String) : Prop := RowAt t id fun r => r.signature = some signature

def UniqueSignatures (t : TransferTable) : Prop :=
  ∀ id id' σ, Holds t id σ → Holds t id' σ → id = id'

/-- How a statement changes a row. -/
structure RowChange (r r' : PaymentTransferRow) : Prop where
  processing : r.status = .processing
  signature : ∀ σ, r.signature = some σ → r'.signature = some σ
  signedTransaction : r.signature.isSome → r'.signedTransaction = r.signedTransaction
  started : r.submissionStartedAt.isSome → r'.submissionStartedAt.isSome

def SetsRow (t t' : TransferTable) (id : String) (r : PaymentTransferRow) : Prop :=
  ∀ id', t'.find? id' = if id' = id then some r else t.find? id'

inductive TableStep (t t' : TransferTable) : Prop
  | same (h : ∀ id, t'.find? id = t.find? id)
  | created (id : String) (r : PaymentTransferRow) (hnew : t.find? id = none) (hsig : r.signature = none)
      (h : SetsRow t t' id r)
  | changed (id : String) (r r' : PaymentTransferRow) (hr : t.find? id = some r) (hc : RowChange r r')
      (hfree : r'.signature = r.signature ∨ ∀ σ, r'.signature = some σ → signatureTaken t id σ = false)
      (h : SetsRow t t' id r')

namespace TableStep

variable {t t' : TransferTable}

theorem row (h : TableStep t t') {id : String} {r : PaymentTransferRow} (hr : t.find? id = some r) :
    ∃ r', t'.find? id = some r' ∧ (r' = r ∨ RowChange r r') := by
  cases h with
  | same h => exact ⟨r, by rw [h, hr], .inl rfl⟩
  | created id₀ r₀ hnew _ h =>
    have hne : id ≠ id₀ := by
      rintro rfl
      rw [hnew] at hr
      cases hr
    exact ⟨r, by rw [h, if_neg hne, hr], .inl rfl⟩
  | changed id₀ r₀ r₁ hr₀ hc _ h =>
    by_cases hid : id = id₀
    · subst hid
      obtain rfl : r₀ = r := Option.some.inj (hr₀.symm.trans hr)
      exact ⟨r₁, by rw [h, if_pos rfl], .inr hc⟩
    · exact ⟨r, by rw [h, if_neg hid, hr], .inl rfl⟩

theorem rowAt (h : TableStep t t') {id : String} {P : PaymentTransferRow → Prop}
    (hP : ∀ r r', P r → RowChange r r' → P r') (hr : RowAt t id P) : RowAt t' id P := by
  obtain ⟨r, hr, hp⟩ := hr
  obtain ⟨r', hr', rfl | hc⟩ := h.row hr
  · exact ⟨r', hr', hp⟩
  · exact ⟨r', hr', hP r r' hp hc⟩

theorem holds (h : TableStep t t') {id σ : String} (hσ : Holds t id σ) : Holds t' id σ :=
  h.rowAt (fun _ _ hr hc => hc.signature σ hr) hσ

theorem settled (h : TableStep t t') {id : String} {r : PaymentTransferRow} (hr : t.find? id = some r)
    (hs : r.status ≠ .processing) : t'.find? id = some r := by
  obtain ⟨r', hr', rfl | hc⟩ := h.row hr
  · exact hr'
  · exact absurd hc.processing hs

theorem signatureTaken_of_holds {id id' σ : String} (h : Holds t id' σ) (hne : id' ≠ id) :
    signatureTaken t id σ = true := by
  obtain ⟨r, hr, hσ⟩ := h
  obtain ⟨hmem, hid⟩ := Table.find?_eq_some_iff.mp hr
  refine List.any_eq_true.mpr ⟨r, hmem, ?_⟩
  have hne' : r.id ≠ id := by
    rw [hid]
    exact hne
  simp [hne', hσ]

theorem holds_cases (h : TableStep t t') :
    ∃ id₀, ∀ id σ, Holds t' id σ → Holds t id σ ∨ id = id₀ ∧ signatureTaken t id₀ σ = false := by
  cases h with
  | same h => exact ⟨"", fun id σ ⟨r, hr, hσ⟩ => .inl ⟨r, by rw [← h, hr], hσ⟩⟩
  | created id₀ r₀ _ hsig h =>
    refine ⟨id₀, fun id σ ⟨r, hr, hσ⟩ => ?_⟩
    rw [h] at hr
    split at hr
    · obtain rfl := Option.some.inj hr
      rw [hsig] at hσ
      cases hσ
    · exact .inl ⟨r, hr, hσ⟩
  | changed id₀ r₀ r₁ hr₀ hc hfree h =>
    refine ⟨id₀, fun id σ ⟨r, hr, hσ⟩ => ?_⟩
    rw [h] at hr
    split at hr
    · next hid =>
      subst hid
      obtain rfl := Option.some.inj hr
      rcases hfree with hsame | hfree
      · exact .inl ⟨r₀, hr₀, hsame.symm.trans hσ⟩
      · exact .inr ⟨rfl, hfree σ hσ⟩
    · exact .inl ⟨r, hr, hσ⟩

theorem unique (h : TableStep t t') (hu : UniqueSignatures t) : UniqueSignatures t' := by
  obtain ⟨id₀, hcases⟩ := h.holds_cases
  -- A signature that another row held was not free for the changed one.
  have new {id σ : String} (hσ : Holds t id σ) (hfree : signatureTaken t id₀ σ = false) : id = id₀ := by
    by_contra hne
    rw [signatureTaken_of_holds hσ hne] at hfree
    cases hfree
  intro id id' σ hid hid'
  rcases hcases id σ hid with hid | ⟨rfl, hfree⟩
  · rcases hcases id' σ hid' with hid' | ⟨rfl, hfree⟩
    · exact hu id id' σ hid hid'
    · exact new hid hfree
  · rcases hcases id' σ hid' with hid' | ⟨rfl, -⟩
    · exact (new hid' hfree).symm
    · rfl

end TableStep

/-! ## The statements -/

theorem createTransfer_step {t : TransferTable} {id : String} (hnew : t.find? id = none)
    (input : CreatePaymentTransferInput) (now : Nat) : TableStep t (createTransfer t id input now) := by
  refine .created id (createdTransfer id input now) hnew rfl fun id' => ?_
  unfold createTransfer
  rw [Table.find?_insertNew]
  split
  · next hid =>
    have hid : id' = id := hid
    rw [if_pos hid, hid, hnew]
    rfl
  · next hid =>
    have hid : ¬ id' = id := hid
    rw [if_neg hid]

/-- An update that keeps the outbox columns of a row that is processing. -/
structure Settles (r r' : PaymentTransferRow) : Prop where
  processing : r.status = .processing
  signature : r'.signature = r.signature
  signedTransaction : r'.signedTransaction = r.signedTransaction
  started : r'.submissionStartedAt = r.submissionStartedAt

theorem Settles.change {r r' : PaymentTransferRow} (h : Settles r r') : RowChange r r' where
  processing := h.processing
  signature := fun _ hσ => h.signature.trans hσ
  signedTransaction := fun _ => h.signedTransaction
  started := fun hs => by rwa [h.started]

theorem UpdatePaymentTransferInput.settles {t : TransferTable} {input : UpdatePaymentTransferInput}
    (hp : input.expectedStatus = some .processing) (hσ : ∀ σ ∈ input.signature, Holds t input.transferId σ)
    {r : PaymentTransferRow} (hr : t.find? input.transferId = some r) (hg : input.guard r = true) :
    Settles r (input.set r) where
  processing := by
    unfold UpdatePaymentTransferInput.guard at hg
    simp_all
  signature := by
    show input.signature.or r.signature = r.signature
    cases hi : input.signature with
    | none => rfl
    | some σ =>
      obtain ⟨r', hr', hσ⟩ := hσ σ hi
      obtain rfl : r' = r := Option.some.inj (hr'.symm.trans hr)
      exact hσ.symm
  signedTransaction := rfl
  started := rfl

/-- A call that does nothing, or settles one transfer into a row that meets `P`. -/
def SettlesTo (t t' : TransferTable) (id : String) (P : PaymentTransferRow → Prop) : Prop :=
  (∀ id', t'.find? id' = t.find? id') ∨
    ∃ r r', t.find? id = some r ∧ Settles r r' ∧ SetsRow t t' id r' ∧ P r'

namespace SettlesTo

variable {t t' : TransferTable} {id : String} {P Q : PaymentTransferRow → Prop}

theorem step (h : SettlesTo t t' id P) : TableStep t t' := by
  rcases h with h | ⟨r, r', hr, hs, hset, -⟩
  · exact .same h
  · exact .changed id r r' hr hs.change (.inl hs.signature) hset

theorem weaken (h : SettlesTo t t' id P) (hPQ : ∀ r, P r → Q r) : SettlesTo t t' id Q := by
  rcases h with h | ⟨r, r', hr, hs, hset, hP⟩
  · exact .inl h
  · exact .inr ⟨r, r', hr, hs, hset, hPQ r' hP⟩

end SettlesTo

theorem updateTransfer_settles {t : TransferTable} {input : UpdatePaymentTransferInput}
    (hp : input.expectedStatus = some .processing) (hσ : ∀ σ ∈ input.signature, Holds t input.transferId σ)
    {result : TransferTable × Option PaymentTransferRow} (h : updateTransfer t input = .ok result) :
    SettlesTo t result.1 input.transferId fun r' => ∃ r, r.status = .processing ∧ r' = input.set r := by
  unfold updateTransfer at h
  split at h
  · cases h
  · cases h
    rcases t.update_cases input.transferId input.guard input.set fun _ => rfl with hsame | ⟨r, hr, hg, hset⟩
    · exact .inl hsame
    · have hs := input.settles hp hσ hr hg
      exact .inr ⟨r, input.set r, hr, hs, hset, r, hs.processing, rfl⟩

theorem TransferDatabase.update_settles {db db' : TransferDatabase} {input : UpdatePaymentTransferInput}
    (hp : input.expectedStatus = some .processing)
    (hσ : ∀ σ ∈ input.signature, Holds db.transfers input.transferId σ)
    (h : db.update input = .ok db') :
    SettlesTo db.transfers db'.transfers input.transferId fun r' =>
      ∃ r, r.status = .processing ∧ r' = input.set r := by
  unfold TransferDatabase.update at h
  cases hu : updateTransfer db.transfers input with
  | error => rw [hu] at h; cases h
  | ok result =>
    rw [hu] at h
    cases h
    exact updateTransfer_settles hp hσ hu

theorem settleTransferBatch_settles {db db' : TransferDatabase} {input : SettlePaymentTransferBatchInput}
    (h : settleTransferBatch db input = .ok db') :
    SettlesTo db.transfers db'.transfers input.transferId fun r' => ∃ r, r' = input.set r := by
  unfold settleTransferBatch at h
  split at h
  · split at h
    · cases h
      rcases db.transfers.update_cases input.transferId input.guard input.set fun _ => rfl with
        hsame | ⟨r, hr, hg, hset⟩
      · exact .inl hsame
      · have hp : r.status = .processing := by
          unfold SettlePaymentTransferBatchInput.guard at hg
          simp_all
        exact .inr ⟨r, input.set r, hr, ⟨hp, rfl, rfl, rfl⟩, hset, r, rfl⟩
    · cases h
  · cases h
    exact .inl fun _ => rfl

theorem persistSignedTransfer_step {t : TransferTable} {id organizationId : String} {projectId : Option String}
    {submission : SignedSubmission} {now : Nat} {result : TransferTable × Option PaymentTransferRow}
    (h : persistSignedTransfer t id organizationId projectId submission now = .ok result) : TableStep t result.1 := by
  unfold persistSignedTransfer at h
  dsimp only at h
  split at h
  · cases h
  · next htaken =>
    cases h
    rcases t.update_cases id (persistGuard organizationId projectId) (persistSet submission now) fun _ => rfl with
      hsame | ⟨r, hr, hg, hset⟩
    · exact .same hsame
    · have hmatch : t.matches? id (persistGuard organizationId projectId) = true := by
        unfold Table.matches?
        rw [hr]
        exact hg
      have hg' : r.status = .processing ∧ r.signature = none ∧ r.submissionStartedAt = none := by
        unfold persistGuard at hg
        simp_all
      obtain ⟨hp, hsig, hstart⟩ := hg'
      refine .changed id r _ hr ⟨hp, ?_, ?_, ?_⟩ (.inr ?_) hset
      · simp [hsig]
      · simp [hsig]
      · simp [hstart]
      · intro σ hσ
        obtain rfl : submission.signature = σ := Option.some.inj hσ
        simpa [hmatch] using htaken

theorem persistSignedTransfer_returns {t : TransferTable} {id organizationId : String} {projectId : Option String}
    {submission : SignedSubmission} {now : Nat} {t' : TransferTable} {r : PaymentTransferRow}
    (h : persistSignedTransfer t id organizationId projectId submission now = .ok (t', some r)) :
    t'.find? id = some r ∧ r.signature = some submission.signature := by
  unfold persistSignedTransfer at h
  dsimp only at h
  split at h
  · cases h
  · obtain ⟨rfl, hr⟩ := Prod.mk.inj (Except.ok.inj h)
    refine ⟨Table.find?_update_returning _ hr, ?_⟩
    obtain ⟨r₀, -, rfl⟩ := Option.map_eq_some_iff.mp hr
    rfl

theorem markTransferSubmissionStarted_step (t : TransferTable) (id organizationId : String)
    (projectId : Option String) (now : Nat) :
    TableStep t (markTransferSubmissionStarted t id organizationId projectId now).1 := by
  rcases t.update_cases id (startGuard organizationId projectId) (startSet now) (startSet_id now) with
    hsame | ⟨r, hr, hg, hset⟩
  · exact .same hsame
  · have hg' : r.status = .processing ∧ r.signedTransaction.isSome = true := by
      unfold startGuard at hg
      simp_all
    obtain ⟨hp, hsigned⟩ := hg'
    rw [startSet, dif_pos hsigned] at hset
    refine .changed id r _ hr ?_ ?_ hset
    · exact ⟨hp, fun _ h => h, fun _ => rfl, fun _ => rfl⟩
    · exact .inl rfl

theorem markTransferSubmissionStarted_returns {t : TransferTable} {id organizationId : String}
    {projectId : Option String} {now : Nat} {r : PaymentTransferRow}
    (h : (markTransferSubmissionStarted t id organizationId projectId now).2 = some r) :
    (markTransferSubmissionStarted t id organizationId projectId now).1.find? id = some r ∧
      r.submissionStartedAt.isSome := by
  refine ⟨Table.find?_update_returning (startSet_id now) h, ?_⟩
  obtain ⟨r₀, hr₀, rfl⟩ := Option.map_eq_some_iff.mp h
  obtain ⟨-, hg⟩ := Option.filter_eq_some_iff.mp hr₀
  have hsigned : r₀.signedTransaction.isSome = true := by
    unfold startGuard at hg
    simp_all
  rw [startSet, dif_pos hsigned]
  rfl

end Sdp.Payments
