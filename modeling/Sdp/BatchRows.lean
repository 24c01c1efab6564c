import Sdp.Code.TransferBatches

/-!
# The rows of a transfer batch

A recipient has the status of the transfer that it is linked to, and each statement of the request
or of a settlement keeps it so.
-/

open Sdp.Lib

namespace Sdp.Batches

open Payments

/-! ## Chunks -/

section Chunks

variable {α : Type} {fits : List α → Bool}

theorem flush_eq_some {chunks result : List (List α)} {pending : List α} (h : flush fits chunks pending = some result) :
    result.flatten = chunks.flatten ++ pending ∧ ((∀ c ∈ chunks, c ≠ []) → ∀ c ∈ result, c ≠ []) := by
  unfold flush at h
  split at h
  · next hempty =>
    cases h
    exact ⟨by rw [hempty, List.append_nil], fun h => h⟩
  · next hne =>
    split at h
    · cases h
      refine ⟨by simp, fun hchunks c hc => ?_⟩
      rcases List.mem_append.mp hc with hc | hc
      · exact hchunks c hc
      · rw [List.mem_singleton.mp hc]
        exact hne
    · cases h

theorem chunkLoop_eq_some {max : Nat} {groups : List α} :
    ∀ {chunks result : List (List α)} {pending : List α}, chunkLoop fits max groups chunks pending = some result →
      result.flatten = chunks.flatten ++ pending ++ groups ∧ ((∀ c ∈ chunks, c ≠ []) → ∀ c ∈ result, c ≠ []) := by
  induction groups with
  | nil =>
    intro chunks result pending h
    rw [List.append_nil]
    exact flush_eq_some h
  | cons group groups ih =>
    intro chunks result pending h
    simp only [chunkLoop, Option.bind_eq_some_iff] at h
    obtain ⟨chunks₁, hflush, h⟩ := h
    generalize (decide (max ≤ pending.length)) = full at hflush h
    have hfull : chunks₁.flatten ++ (bif full then [] else pending) = chunks.flatten ++ pending ∧
        ((∀ c ∈ chunks, c ≠ []) → ∀ c ∈ chunks₁, c ≠ []) := by
      cases full with
      | true =>
        rw [cond_true, List.append_nil]
        exact flush_eq_some hflush
      | false =>
        cases hflush
        exact ⟨rfl, fun h => h⟩
    split at h
    · obtain ⟨hflatten, hne⟩ := ih h
      refine ⟨?_, fun hchunks => hne (hfull.2 hchunks)⟩
      rw [hflatten, ← List.append_assoc, hfull.1]
      simp
    · simp only [Option.bind_eq_some_iff] at h
      obtain ⟨chunks₂, hflush₂, h⟩ := h
      obtain ⟨hflatten₂, hne₂⟩ := flush_eq_some hflush₂
      split at h
      · obtain ⟨hflatten, hne⟩ := ih h
        refine ⟨?_, fun hchunks => hne (hne₂ (hfull.2 hchunks))⟩
        rw [hflatten, hflatten₂, hfull.1]
        simp
      · cases h

/-- Every group is in exactly one chunk, and no chunk is empty. -/
theorem chunkInstructionGroups_eq_some {max : Nat} {groups : List α} {chunks : List (List α)}
    (h : chunkInstructionGroups fits max groups = some chunks) : chunks.flatten = groups ∧ ∀ c ∈ chunks, c ≠ [] := by
  obtain ⟨hflatten, hne⟩ := chunkLoop_eq_some h
  exact ⟨by simpa using hflatten, hne (by simp)⟩

end Chunks

/-! ## The status of a batch -/

def Settled (status : RecipientStatus) : Prop := status ≠ .pending ∧ status ≠ .processing

theorem settled_of_derive {statuses : List RecipientStatus} (h : deriveTransferBatchStatus statuses ≠ .processing) :
    ∀ status ∈ statuses, Settled status := by
  intro status hmem
  unfold deriveTransferBatchStatus at h
  split at h
  · exact absurd rfl h
  · next hnone =>
    simp only [List.any_eq_true, not_exists, not_and] at hnone
    have hstatus := hnone status hmem
    simp only [Bool.or_eq_true, decide_eq_true_eq, not_or] at hstatus
    exact hstatus

theorem settled_of_scan {t : RecipientTable} (h : deriveTransferBatchStatus (recipientStatuses t) ≠ .processing)
    {id : String} {r : PaymentTransferRecipientRow} (hr : t.find? id = some r) : Settled r.status := by
  by_cases harchived : r.status = .archived
  · rw [harchived]
    exact ⟨nofun, nofun⟩
  · refine settled_of_derive h _ (List.mem_filter.mpr ⟨?_, by simpa using harchived⟩)
    exact List.mem_map_of_mem (Table.find?_eq_some_iff.mp hr).1

/-! ## Rows that agree -/

def agrees : PaymentTransferStatus → RecipientStatus → Bool
  | .processing, .processing | .confirmed, .confirmed | .finalized, .confirmed | .failed, .failed => true
  | _, _ => false

/-- A recipient has the status of its transfer, and is pending or failed without one. -/
def RowOk (transfers : TransferTable) (r : PaymentTransferRecipientRow) : Prop :=
  (r.transferId = none → r.status = .pending ∨ r.status = .failed) ∧
    ∀ transferId, r.transferId = some transferId →
      ∃ t, transfers.find? transferId = some t ∧ agrees t.status r.status = true

structure DbOk (db : Database) : Prop where
  rows : ∀ id r, db.recipients.find? id = some r → RowOk db.transfers r
  /-- A transfer that is processing pays somebody. -/
  paid : ∀ transferId t, db.transfers.find? transferId = some t → t.status = .processing →
    ∃ id r, db.recipients.find? id = some r ∧ r.transferId = some transferId

theorem agrees_processing {r : PaymentTransferRecipientRow} {t : PaymentTransferRow} (h : agrees t.status r.status = true)
    (ht : t.status = .processing) : r.status = .processing := by
  rw [ht] at h
  generalize r.status = status at h
  cases status <;> first | rfl | cases h

theorem agrees_settled {transferStatus : PaymentTransferStatus} (h : transferStatus ∈ terminalStatuses) :
    agrees transferStatus (settledStatus transferStatus) = true := by
  cases transferStatus <;> first | rfl | simp [terminalStatuses] at h

theorem settled_settledStatus (transferStatus : PaymentTransferStatus) : Settled (settledStatus transferStatus) := by
  unfold settledStatus
  split
  · exact ⟨nofun, nofun⟩
  · exact ⟨nofun, nofun⟩

/-! ## Later rows -/

/-- A link stays, a new one is to a transfer that was not there, and what is settled stays so. -/
structure RowLater (db : Database) (r r' : PaymentTransferRecipientRow) : Prop where
  link : r'.transferId = r.transferId ∨
    r.transferId = none ∧ ∃ transferId, r'.transferId = some transferId ∧ db.transfers.find? transferId = none
  settled : Settled r.status → Settled r'.status

/-- What each statement does to the recipients. -/
def Later (db db' : Database) : Prop :=
  ∃ f : PaymentTransferRecipientRow → PaymentTransferRecipientRow,
    (∀ id, db'.recipients.find? id = (db.recipients.find? id).map f) ∧
      ∀ id r, db.recipients.find? id = some r → RowLater db r (f r)

theorem RowLater.refl {db : Database} (r : PaymentTransferRecipientRow) : RowLater db r r := ⟨.inl rfl, fun h => h⟩

theorem Later.of_recipients {db db' : Database} (h : db'.recipients = db.recipients) : Later db db' :=
  ⟨id, fun _ => by rw [h, Option.map_id_fun, id], fun _ r _ => .refl r⟩

theorem Later.forward {db db' : Database} (h : Later db db') {id : String} {r : PaymentTransferRecipientRow}
    (hr : db.recipients.find? id = some r) : ∃ r', db'.recipients.find? id = some r' ∧ RowLater db r r' := by
  obtain ⟨f, hf, hlater⟩ := h
  exact ⟨f r, by rw [hf, hr]; rfl, hlater id r hr⟩

theorem Later.back {db db' : Database} (h : Later db db') {id : String} {r' : PaymentTransferRecipientRow}
    (hr' : db'.recipients.find? id = some r') : ∃ r, db.recipients.find? id = some r ∧ RowLater db r r' := by
  obtain ⟨f, hf, hlater⟩ := h
  rw [hf] at hr'
  obtain ⟨r, hr, rfl⟩ := Option.map_eq_some_iff.mp hr'
  exact ⟨r, hr, hlater id r hr⟩

/-! ## Linking a chunk -/

section Link

variable {db : Database} {transferId : String} {recipientIds : List String} {now : Nat}

theorem find?_link (hfresh : db.transfers.find? transferId = none) (id : String) :
    (linkChunk db transferId recipientIds now).transfers.find? id =
      if id = transferId then some (createdTransfer transferId (chunkTransfer db) now) else db.transfers.find? id := by
  unfold linkChunk createTransfer
  rw [Table.find?_insertNew]
  change (if id = transferId then _ else _) = _
  split
  · next hid =>
    rw [hid, hfresh]
    rfl
  · rfl

theorem find?_linkRecipients (id : String) : (linkChunk db transferId recipientIds now).recipients.find? id =
    (db.recipients.find? id).map fun r =>
      if r.id ∈ recipientIds ∧ r.status ≠ .archived then
        { r with transferId := some transferId, status := .processing, error := none }
      else r := by
  unfold linkChunk updateTransferRecipientsStatus
  rw [Table.find?_updateAll]
  simp

/-- The recipients that the chunk asks for are all pending. -/
def Unlinked (db : Database) (recipientIds : List String) : Prop :=
  ∀ id ∈ recipientIds, ∃ r, db.recipients.find? id = some r ∧ r.transferId = none ∧ r.status = .pending

theorem later_link (hids : Unlinked db recipientIds) (hfresh : db.transfers.find? transferId = none) :
    Later db (linkChunk db transferId recipientIds now) := by
  refine ⟨_, find?_linkRecipients, fun id r hr => ?_⟩
  split
  · next hmem =>
    obtain rfl : r.id = id := Table.key_of_find? hr
    obtain ⟨r', hr', hnone, hpending⟩ := hids _ hmem.1
    obtain rfl := Option.some.inj (hr.symm.trans hr')
    exact ⟨.inr ⟨hnone, transferId, rfl, hfresh⟩, fun h => absurd hpending h.1⟩
  · exact .refl r

theorem dbOk_link (h : DbOk db) (hids : Unlinked db recipientIds) (hne : recipientIds ≠ [])
    (hfresh : db.transfers.find? transferId = none) : DbOk (linkChunk db transferId recipientIds now) := by
  have hold {id : String} {t : PaymentTransferRow} (ht : db.transfers.find? id = some t) :
      (linkChunk db transferId recipientIds now).transfers.find? id = some t := by
    rw [find?_link hfresh, if_neg (fun hid => by rw [hid, hfresh] at ht; cases ht), ht]
  refine ⟨fun id r' hr' => ?_, fun id t ht hprocessing => ?_⟩
  · rw [find?_linkRecipients] at hr'
    obtain ⟨r, hr, rfl⟩ := Option.map_eq_some_iff.mp hr'
    split
    · refine ⟨by simp, ?_⟩
      rintro transferId' ⟨⟩
      exact ⟨_, by rw [find?_link hfresh, if_pos rfl], rfl⟩
    · obtain ⟨hnone, hsome⟩ := h.rows id r hr
      refine ⟨hnone, fun transferId' hlink => ?_⟩
      obtain ⟨t, ht, hagrees⟩ := hsome transferId' hlink
      exact ⟨t, hold ht, hagrees⟩
  · rw [find?_link hfresh] at ht
    split at ht
    · next hid =>
      obtain ⟨id₀, hid₀⟩ := List.exists_mem_of_ne_nil _ hne
      obtain ⟨r, hr, -, hpending⟩ := hids id₀ hid₀
      have hguard : r.id ∈ recipientIds ∧ r.status ≠ .archived := by
        rw [Table.key_of_find? hr, hpending]
        exact ⟨hid₀, by simp⟩
      exact ⟨id₀, _, by rw [find?_linkRecipients, hr, Option.map_some, if_pos hguard], congrArg some hid.symm⟩
    · obtain ⟨id', r, hr, hlink⟩ := h.paid id t ht hprocessing
      obtain ⟨r', hr', hlater⟩ := (later_link hids hfresh).forward hr
      refine ⟨id', r', hr', ?_⟩
      rcases hlater.link with hsame | ⟨hnone, -⟩
      · exact hsame.trans hlink
      · rw [hnone] at hlink
        cases hlink

end Link

/-! ## Settling a transfer -/

section Settle

variable {db : Database} {input : SettlePaymentTransferBatchInput} {recipientIds : List String}
  {status : PaymentTransferBatchStatus}

/-- The recipients that the settlement holds are those of its transfer. -/
def Holds (db : Database) (transferId : String) (recipientIds : List String) : Prop :=
  ∀ id r, db.recipients.find? id = some r → (id ∈ recipientIds ↔ r.transferId = some transferId)

theorem find?_settleRecipients (t : RecipientTable) (id : String) : (settleRecipients t input recipientIds).find? id =
    (t.find? id).map fun r =>
      if r.id ∈ recipientIds then
        { r with
          status := settledStatus input.transferStatus
          error := if settledStatus input.transferStatus = .failed then input.error else none }
      else r := by
  unfold settleRecipients
  rw [Table.find?_updateAll]
  simp

theorem find?_settle {t : PaymentTransferRow} (ht : db.transfers.find? input.transferId = some t)
    (hguard : input.guard t = true) (id : String) : (settle db input recipientIds status).transfers.find? id =
      if id = input.transferId then some (input.set t) else db.transfers.find? id := by
  refine (Table.find?_update db.transfers input.transferId input.guard input.set (fun _ => rfl) id).trans ?_
  simp only [ht, Option.map_some, hguard, if_true]

theorem later_settle (db : Database) (input : SettlePaymentTransferBatchInput) (recipientIds : List String)
    (status : PaymentTransferBatchStatus) : Later db (settle db input recipientIds status) := by
  refine ⟨_, find?_settleRecipients db.recipients, fun id r hr => ?_⟩
  split
  · exact ⟨.inl rfl, fun _ => settled_settledStatus _⟩
  · exact .refl r

theorem dbOk_settle (h : DbOk db) (hterminal : input.transferStatus ∈ terminalStatuses) {t : PaymentTransferRow}
    (ht : db.transfers.find? input.transferId = some t) (hguard : input.guard t = true)
    (hids : Holds db input.transferId recipientIds) : DbOk (settle db input recipientIds status) := by
  refine ⟨fun id r' hr' => ?_, fun id t' ht' hprocessing => ?_⟩
  · replace hr' := (find?_settleRecipients db.recipients id).symm.trans hr'
    obtain ⟨r, hr, rfl⟩ := Option.map_eq_some_iff.mp hr'
    have hid : r.id = id := Table.key_of_find? hr
    obtain ⟨hnone, hsome⟩ := h.rows id r hr
    split
    · next hmem =>
      have hlink := (hids id r hr).mp (hid ▸ hmem)
      refine ⟨fun hn => ?_, fun transferId' hlink' => ?_⟩
      · rw [show r.transferId = none from hn] at hlink
        cases hlink
      · obtain rfl : input.transferId = transferId' := Option.some.inj (hlink.symm.trans hlink')
        exact ⟨_, by rw [find?_settle ht hguard, if_pos rfl], agrees_settled hterminal⟩
    · next hmem =>
      refine ⟨hnone, fun transferId' hlink' => ?_⟩
      obtain ⟨t', ht', hagrees⟩ := hsome transferId' hlink'
      refine ⟨t', ?_, hagrees⟩
      rw [find?_settle ht hguard, if_neg (fun heq => hmem ?_), ht']
      rw [hid]
      exact (hids id r hr).mpr (heq ▸ hlink')
  · rw [find?_settle ht hguard] at ht'
    split at ht'
    · cases ht'
      rw [show input.transferStatus = .processing from hprocessing] at hterminal
      simp [terminalStatuses] at hterminal
    · obtain ⟨id', r, hr, hlink⟩ := h.paid id t' ht' hprocessing
      obtain ⟨r', hr', hlater⟩ := (later_settle db input recipientIds status).forward hr
      refine ⟨id', r', hr', ?_⟩
      rcases hlater.link with hsame | ⟨hnone, -⟩
      · exact hsame.trans hlink
      · rw [hnone] at hlink
        cases hlink

theorem holds_settledRecipients (h : DbOk db) {t : PaymentTransferRow}
    (ht : db.transfers.find? input.transferId = some t) (hguard : input.guard t = true) :
    Holds db input.transferId (settledRecipients db.recipients input.transferId) := by
  intro id r hr
  have hprocessing : t.status = .processing := by
    unfold SettlePaymentTransferBatchInput.guard at hguard
    simp only [decide_eq_true_eq] at hguard
    exact hguard.2.2
  simp only [settledRecipients, List.mem_map, List.mem_filter, decide_eq_true_eq]
  constructor
  · rintro ⟨r', ⟨hmem, hlink, -⟩, hid⟩
    have hr' := Table.find?_eq_some_iff.mpr ⟨hmem, hid⟩
    obtain rfl := Option.some.inj (hr'.symm.trans hr)
    exact hlink
  · intro hlink
    obtain ⟨t', ht', hagrees⟩ := (h.rows id r hr).2 _ hlink
    obtain rfl := Option.some.inj (ht'.symm.trans ht)
    exact ⟨r, ⟨(Table.find?_eq_some_iff.mp hr).1, hlink, agrees_processing hagrees hprocessing⟩,
      Table.key_of_find? hr⟩

theorem Holds.later {transferId : String} (h : Holds db transferId recipientIds) {db' : Database} (hlater : Later db db')
    {t : PaymentTransferRow} (ht : db.transfers.find? transferId = some t) : Holds db' transferId recipientIds := by
  intro id r' hr'
  obtain ⟨r, hr, hrow⟩ := hlater.back hr'
  rw [h id r hr]
  rcases hrow.link with hsame | ⟨hnone, transferId', hlink, hfresh⟩
  · rw [hsame]
  · rw [hnone, hlink]
    refine ⟨nofun, fun heq => ?_⟩
    obtain rfl := Option.some.inj heq
    rw [hfresh] at ht
    cases ht

end Settle

/-! ## Cleaning up and finalizing -/

theorem find?_failRecipients (t : RecipientTable) (recipientIds : List String) (reason : String) (id : String) :
    (updateTransferRecipientsStatus t recipientIds none .failed (some reason)).find? id = (t.find? id).map fun r =>
      if r.id ∈ recipientIds ∧ r.status ≠ .archived then
        { r with transferId := none, status := .failed, error := some reason }
      else r := by
  unfold updateTransferRecipientsStatus
  rw [Table.find?_updateAll]
  simp

section CleanUp

variable {db : Database} {recipientIds : List String} (hids : ∀ id ∈ recipientIds, ∃ r, db.recipients.find? id = some r ∧
  r.transferId = none) (reason : String)
include hids

theorem later_cleanUp : Later db { db with
    recipients := updateTransferRecipientsStatus db.recipients recipientIds none .failed (some reason) } := by
  refine ⟨_, find?_failRecipients db.recipients recipientIds reason, fun id r hr => ?_⟩
  split
  · next hmem =>
    obtain rfl : r.id = id := Table.key_of_find? hr
    obtain ⟨r', hr', hnone⟩ := hids _ hmem.1
    obtain rfl := Option.some.inj (hr.symm.trans hr')
    exact ⟨.inl hnone.symm, fun _ => ⟨nofun, nofun⟩⟩
  · exact .refl r

theorem dbOk_cleanUp (h : DbOk db) : DbOk { db with
    recipients := updateTransferRecipientsStatus db.recipients recipientIds none .failed (some reason) } := by
  refine ⟨fun id r' hr' => ?_, fun id t ht hprocessing => ?_⟩
  · replace hr' := (find?_failRecipients db.recipients recipientIds reason id).symm.trans hr'
    obtain ⟨r, hr, rfl⟩ := Option.map_eq_some_iff.mp hr'
    split
    · exact ⟨fun _ => .inr rfl, nofun⟩
    · exact h.rows id r hr
  · obtain ⟨id', r, hr, hlink⟩ := h.paid id t ht hprocessing
    obtain ⟨r', hr', hlater⟩ := (later_cleanUp hids reason).forward hr
    refine ⟨id', r', hr', ?_⟩
    rcases hlater.link with hsame | ⟨hnone, -⟩
    · exact hsame.trans hlink
    · rw [hnone] at hlink
      cases hlink

end CleanUp

theorem finalized_rows {db : Database} {transferId : String} {now : Nat} {transfers : TransferTable}
    {row : Option PaymentTransferRow}
    (h : updateTransfer db.transfers (System.finalizedTransfer transferId now) = .ok (transfers, row)) {id : String}
    {t' : PaymentTransferRow} (ht' : transfers.find? id = some t') : ∃ t, db.transfers.find? id = some t ∧
      (t' = t ∨ t.status = .confirmed ∧ t'.status = .finalized) := by
  unfold updateTransfer at h
  split at h
  · cases h
  · cases h
    obtain ⟨t, ht, rfl | ⟨-, hguard, rfl⟩⟩ := Table.row_of_update _ ht'
    · exact ⟨_, ht, .inl rfl⟩
    · refine ⟨t, ht, .inr ⟨?_, rfl⟩⟩
      simpa [UpdatePaymentTransferInput.guard, System.finalizedTransfer] using hguard

theorem finalized_forward {db : Database} {transferId : String} {now : Nat} {transfers : TransferTable}
    {row : Option PaymentTransferRow}
    (h : updateTransfer db.transfers (System.finalizedTransfer transferId now) = .ok (transfers, row)) {id : String}
    {t : PaymentTransferRow} (ht : db.transfers.find? id = some t) : ∃ t', transfers.find? id = some t' ∧
      (t' = t ∨ t.status = .confirmed ∧ t'.status = .finalized) := by
  unfold updateTransfer at h
  split at h
  · cases h
  · cases h
    have hid (r : PaymentTransferRow) : ((System.finalizedTransfer transferId now).set r).id = r.id := rfl
    obtain ⟨t', ht', rfl | ⟨-, hguard, rfl⟩⟩ := Table.row_update transferId
      (System.finalizedTransfer transferId now).guard hid ht
    · exact ⟨_, ht', .inl rfl⟩
    · refine ⟨_, ht', .inr ⟨?_, rfl⟩⟩
      simpa [UpdatePaymentTransferInput.guard, System.finalizedTransfer] using hguard

theorem dbOk_finalize {db : Database} (hdb : DbOk db) {transferId : String} {now : Nat} {transfers : TransferTable}
    {row : Option PaymentTransferRow}
    (h : updateTransfer db.transfers (System.finalizedTransfer transferId now) = .ok (transfers, row)) :
    DbOk { db with transfers } := by
  refine ⟨fun id r hr => ?_, fun id t' ht' hprocessing => ?_⟩
  · obtain ⟨hnone, hsome⟩ := hdb.rows id r hr
    refine ⟨hnone, fun transferId' hlink => ?_⟩
    obtain ⟨t, ht, hagrees⟩ := hsome transferId' hlink
    obtain ⟨t', ht', rfl | ⟨hconfirmed, hfinalized⟩⟩ := finalized_forward h ht
    · exact ⟨t', ht', hagrees⟩
    · refine ⟨t', ht', ?_⟩
      rw [hconfirmed] at hagrees
      rw [hfinalized]
      generalize r.status = status at hagrees
      cases status <;> first | rfl | cases hagrees
  · obtain ⟨t, ht, rfl | ⟨-, hfinalized⟩⟩ := finalized_rows h ht'
    · exact hdb.paid id t' ht hprocessing
    · rw [hfinalized] at hprocessing
      cases hprocessing

end Sdp.Batches
