import Sdp.BatchRows
import Sdp.Lib.Run

/-!
# A transfer batch under concurrent settlements

The request and any number of settlements write the same rows. As long as the request learns of
every link that is committed, recipients, transfers and the batch agree.
-/

open Sdp.Lib

namespace Sdp.Batches

open Payments

/-! ## What a settlement relies on -/

/-- The transfer is claimed and locked. -/
structure Claims (db : Database) (locks : Locks Resource Owner) (n : Nat) (input : SettlePaymentTransferBatchInput) :
    Prop where
  terminal : input.transferStatus ∈ terminalStatuses
  lock : locks (.transfer input.transferId) = some (.settlement n)
  row : ∃ t, db.transfers.find? input.transferId = some t ∧ input.guard t = true

structure Updates (db : Database) (locks : Locks Resource Owner) (n : Nat) (input : SettlePaymentTransferBatchInput)
    (recipientIds : List String) : Prop where
  claims : Claims db locks n input
  holds : Holds db input.transferId recipientIds

/-- What was scanned. Once the request has finished, it is what would be scanned now. -/
structure Scanned (db : Database) (locks : Locks Resource Owner) (finished : Prop) (n : Nat)
    (input : SettlePaymentTransferBatchInput) (recipientIds : List String) (status : PaymentTransferBatchStatus) :
    Prop where
  updates : Updates db locks n input recipientIds
  lock : locks .batch = some (.settlement n)
  settled : status ≠ .processing → ∀ id r, db.recipients.find? id = some r → id ∈ recipientIds ∨ Settled r.status
  current : finished → status = deriveTransferBatchStatus (recipientStatuses (settleRecipients db.recipients input recipientIds))

def SettlementOk (db : Database) (locks : Locks Resource Owner) (finished : Prop) (n : Nat) : Settlement → Prop
  | .idle | .done _ => True
  | .started input => input.transferStatus ∈ terminalStatuses
  | .claimed input => Claims db locks n input
  | .settled input recipientIds => Updates db locks n input recipientIds
  | .locked input recipientIds => Updates db locks n input recipientIds ∧ locks .batch = some (.settlement n)
  | .scanned input recipientIds status => Scanned db locks finished n input recipientIds status

/-- The owner gains and loses locks, and nobody else does. -/
def KeepsOthers (locks locks' : Locks Resource Owner) (o : Owner) : Prop :=
  ∀ r o', o' ≠ o → locks r = some o' → locks' r = some o'

theorem keepsOthers_refl (locks : Locks Resource Owner) (o : Owner) : KeepsOthers locks locks o := fun _ _ _ h => h

theorem keepsOthers_acquire {locks : Locks Resource Owner} {o : Owner} {rs : List Resource}
    (h : locks.free o rs = true) : KeepsOthers locks (locks.acquire o rs) o :=
  fun _ _ _ hr => Locks.acquire_held h hr

theorem keepsOthers_release (locks : Locks Resource Owner) (o : Owner) : KeepsOthers locks (locks.release o) o :=
  fun _ _ hne hr => Locks.release_held hne hr

section Later

variable {db db' : Database} {locks locks' : Locks Resource Owner} {n : Nat} (hlater : Later db db')
  (hlocks : ∀ r, locks r = some (.settlement n) → locks' r = some (.settlement n))
  (hrows : ∀ transferId t, locks (.transfer transferId) = some (.settlement n) →
    db.transfers.find? transferId = some t → t.status = .processing → db'.transfers.find? transferId = some t)
include hlocks hrows

omit hlater in
theorem Claims.later {input : SettlePaymentTransferBatchInput} (h : Claims db locks n input) : Claims db' locks' n input := by
  obtain ⟨t, ht, hguard⟩ := h.row
  refine ⟨h.terminal, hlocks _ h.lock, t, hrows _ t h.lock ht ?_, hguard⟩
  simp only [SettlePaymentTransferBatchInput.guard, decide_eq_true_eq] at hguard
  exact hguard.2.2

include hlater

theorem Updates.later {input : SettlePaymentTransferBatchInput} {recipientIds : List String}
    (h : Updates db locks n input recipientIds) : Updates db' locks' n input recipientIds := by
  obtain ⟨t, ht, -⟩ := h.claims.row
  exact ⟨h.claims.later hlocks hrows, h.holds.later hlater ht⟩

theorem SettlementOk.later {finished finished' : Prop}
    (hfinished : locks .batch = some (.settlement n) → finished' → finished ∧ db'.recipients = db.recipients)
    {W : Settlement} (h : SettlementOk db locks finished n W) : SettlementOk db' locks' finished' n W := by
  cases W with
  | idle => trivial
  | started input => exact h
  | claimed input => exact Claims.later hlocks hrows h
  | settled input recipientIds => exact Updates.later hlater hlocks hrows h
  | locked input recipientIds => exact ⟨h.1.later hlater hlocks hrows, hlocks _ h.2⟩
  | scanned input recipientIds status =>
    refine ⟨h.updates.later hlater hlocks hrows, hlocks _ h.lock, fun hstatus id r' hr' => ?_, fun hf => ?_⟩
    · obtain ⟨r, hr, hrow⟩ := hlater.back hr'
      exact (h.settled hstatus id r hr).imp_right hrow.settled
    · obtain ⟨hfin, hsame⟩ := hfinished h.lock hf
      rw [hsame]
      exact h.current hfin
  | done returned => trivial

end Later

/-! ## What a chunk relies on -/

/-- A chunk that is not linked yet has pending recipients; one that threw without a link that the request knows of has
recipients without one. -/
def ChunkOk (db : Database) (recipientsByIndex : String → Option String) (recipientIds : List String) :
    ChunkPhase → Prop
  | .waiting => Unlinked db recipientIds
  | .linking _ => Unlinked db recipientIds ∧ recipientIds ≠ []
  | .linked _ | .failing _ => ∀ id ∈ recipientIds, recipientsByIndex id ≠ none
  | .fulfilled => True
  | .rejected _ => ∀ id ∈ recipientIds, recipientsByIndex id = none →
      ∃ r, db.recipients.find? id = some r ∧ r.transferId = none

theorem ChunkOk.keep {db db' : Database} {known known' : String → Option String} {recipientIds : List String}
    {phase : ChunkPhase} (h : ChunkOk db known recipientIds phase)
    (hrows : ∀ id ∈ recipientIds, ∀ r, db.recipients.find? id = some r → r.transferId = none →
      db'.recipients.find? id = some r)
    (hknown : ∀ id ∈ recipientIds, known' id = known id) : ChunkOk db' known' recipientIds phase := by
  have hunlinked (h : Unlinked db recipientIds) : Unlinked db' recipientIds := by
    intro id hid
    obtain ⟨r, hr, hnone, hpending⟩ := h id hid
    exact ⟨r, hrows id hid r hr hnone, hnone, hpending⟩
  cases phase with
  | waiting => exact hunlinked h
  | linking transferId => exact ⟨hunlinked h.1, h.2⟩
  | linked transferId =>
    intro id hid
    rw [hknown id hid]
    exact h id hid
  | failing n =>
    intro id hid
    rw [hknown id hid]
    exact h id hid
  | fulfilled => trivial
  | rejected reason =>
    intro id hid hnone
    rw [hknown id hid] at hnone
    obtain ⟨r, hr, hlink⟩ := h id hid hnone
    exact ⟨r, hrows id hid r hr hlink, hlink⟩

theorem chunkOk_rejected_of_unlinked {db : Database} {known : String → Option String} {recipientIds : List String}
    (h : Unlinked db recipientIds) (reason : String) : ChunkOk db known recipientIds (.rejected reason) := by
  intro id hid _
  obtain ⟨r, hr, hnone, -⟩ := h id hid
  exact ⟨r, hr, hnone⟩

theorem chunkOk_rejected_of_known {db : Database} {known : String → Option String} {recipientIds : List String}
    (h : ∀ id ∈ recipientIds, known id ≠ none) (reason : String) : ChunkOk db known recipientIds (.rejected reason) :=
  fun id hid hnone => absurd hnone (h id hid)

/-! ## The invariant -/

def Ended (s : System) : Prop := ∀ position < s.chunks.length, (s.phases position).ended = true

/-- Once all chunks have ended, the request recomputes the batch under its lock. -/
def RequestOk (ended : Prop) (batchLock : Option Owner) (db : Database) : RequestPhase → Prop
  | .executing | .aborted => True
  | .cleaning _ => ended
  | .recomputing => ended ∧ batchLock = some .request
  | .scanned status => ended ∧ batchLock = some .request ∧
      status = deriveTransferBatchStatus (recipientStatuses db.recipients)
  | .finished => ended ∧ db.batch.status = deriveTransferBatchStatus (recipientStatuses db.recipients)

theorem RequestOk.keep {ended ended' : Prop} {batchLock batchLock' : Option Owner} {db db' : Database}
    {phase : RequestPhase} (h : RequestOk ended batchLock db phase) (hended : ended → ended')
    (hlock : batchLock = some .request → batchLock' = some .request) (hrecipients : db'.recipients = db.recipients)
    (hbatch : db'.batch = db.batch) : RequestOk ended' batchLock' db' phase := by
  cases phase with
  | executing => trivial
  | cleaning position => exact hended h
  | recomputing => exact ⟨hended h.1, hlock h.2⟩
  | scanned status => exact ⟨hended h.1, hlock h.2.1, hrecipients ▸ h.2.2⟩
  | finished =>
    refine ⟨hended h.1, ?_⟩
    rw [hbatch, hrecipients]
    exact h.2
  | aborted => trivial

structure Inv (s : System) : Prop where
  nodup : s.chunks.flatten.Nodup
  nonempty : ∀ c ∈ s.chunks, c ≠ []
  db : DbOk s.db
  settlements : ∀ n, SettlementOk s.db s.locks (s.request = .finished) n (s.settlements n)
  chunks : ∀ position, ChunkOk s.db s.recipientsByIndex (s.chunk position) (s.phases position)
  request : RequestOk (Ended s) (s.locks .batch) s.db s.request
  batch : s.db.batch.status ≠ .processing → ∀ id r, s.db.recipients.find? id = some r → Settled r.status
  links : ∀ id transferId, (id, transferId) ∈ s.links →
    ∃ r, s.db.recipients.find? id = some r ∧ r.transferId = some transferId

theorem chunk_unique {s : System} (h : s.chunks.flatten.Nodup) {i j : Nat} {id : String} (hi : id ∈ s.chunk i)
    (hj : id ∈ s.chunk j) : i = j := by
  have hget {k : Nat} (hk : id ∈ s.chunk k) : ∃ c, s.chunks[k]? = some c ∧ id ∈ c := by
    unfold System.chunk at hk
    cases hc : s.chunks[k]? with
    | none => simp [hc] at hk
    | some c => exact ⟨c, rfl, by simpa [hc] using hk⟩
  obtain ⟨ci, hci, hmi⟩ := hget hi
  obtain ⟨cj, hcj, hmj⟩ := hget hj
  obtain ⟨hli, rfl⟩ := List.getElem?_eq_some_iff.mp hci
  obtain ⟨hlj, rfl⟩ := List.getElem?_eq_some_iff.mp hcj
  have hpair := (List.nodup_flatten.mp h).2
  by_contra hne
  rcases Nat.lt_or_gt_of_ne hne with hlt | hlt
  · exact List.pairwise_iff_getElem.mp hpair i j hli hlj hlt hmi hmj
  · exact List.pairwise_iff_getElem.mp hpair j i hlj hli hlt hmj hmi

theorem request_of_open {s : System} (h : RequestOk (Ended s) (s.locks .batch) s.db s.request) {position : Nat}
    (hopen : (s.phases position).ended = false) (hne : s.chunk position ≠ []) :
    s.request = .executing ∨ s.request = .aborted := by
  have hlt : position < s.chunks.length := by
    by_contra hge
    exact hne (by rw [System.chunk, List.getElem?_eq_none (by omega)]; rfl)
  have hnot : ¬ Ended s := fun hended => by
    rw [hended position hlt] at hopen
    cases hopen
  generalize s.request = phase at h
  cases phase with
  | executing => exact .inl rfl
  | cleaning _ => exact absurd h hnot
  | recomputing => exact absurd h.1 hnot
  | scanned _ => exact absurd h.1 hnot
  | finished => exact absurd h.1 hnot
  | aborted => exact .inr rfl

/-! ## Steps that write no row -/

section Control

variable {s : System} (h : Inv s)
include h

omit h in
theorem Ended.setPhase {locks : Locks Resource Owner} {position : Nat} {phase : ChunkPhase} (hended : Ended s)
    (hopen : (s.phases position).ended = false) : Ended ({ s with locks }.setPhase position phase) := by
  intro i hi
  have hne : i ≠ position := by
    rintro rfl
    rw [hended i hi] at hopen
    cases hopen
  have hphase : ({ s with locks }.setPhase position phase).phases i = s.phases i := Function.update_of_ne hne _ _
  rw [hphase]
  exact hended i hi

theorem settlement_keep {locks : Locks Resource Owner} {o : Owner} (hlocks : KeepsOthers s.locks locks o) {n : Nat}
    (hne : .settlement n ≠ o) : SettlementOk s.db locks (s.request = .finished) n (s.settlements n) :=
  (h.settlements n).later (.of_recipients rfl) (fun r hr => hlocks r _ hne hr) (fun _ _ _ ht _ => ht)
    fun _ hf => ⟨hf, rfl⟩

theorem inv_settlement {locks : Locks Resource Owner} {n : Nat} (hlocks : KeepsOthers s.locks locks (.settlement n))
    {W : Settlement} (hW : SettlementOk s.db locks (s.request = .finished) n W) :
    Inv ({ s with locks }.setSettlement n W) where
  nodup := h.nodup
  nonempty := h.nonempty
  db := h.db
  settlements := fun m => by
    show SettlementOk s.db locks (s.request = .finished) m (Function.update s.settlements n W m)
    by_cases hm : m = n
    · rw [hm, Function.update_self]
      exact hW
    · rw [Function.update_of_ne hm]
      exact settlement_keep h hlocks fun heq => hm (Owner.settlement.inj heq)
  chunks := h.chunks
  request := h.request.keep (fun hended => hended) (hlocks .batch .request nofun) rfl rfl
  batch := h.batch
  links := h.links

theorem inv_chunk {locks : Locks Resource Owner} {position : Nat} (hlocks : KeepsOthers s.locks locks (.chunk position))
    (hopen : (s.phases position).ended = false) {phase : ChunkPhase}
    (hphase : ChunkOk s.db s.recipientsByIndex (s.chunk position) phase) :
    Inv ({ s with locks }.setPhase position phase) where
  nodup := h.nodup
  nonempty := h.nonempty
  db := h.db
  settlements := fun m => settlement_keep h hlocks nofun
  chunks := fun i => by
    show ChunkOk s.db s.recipientsByIndex (s.chunk i) (Function.update s.phases position phase i)
    by_cases hi : i = position
    · rw [hi, Function.update_self]
      exact hphase
    · rw [Function.update_of_ne hi]
      exact h.chunks i
  request := h.request.keep (fun hended => hended.setPhase hopen) (hlocks .batch .request nofun) rfl rfl
  batch := h.batch
  links := h.links

theorem inv_request {locks : Locks Resource Owner} (hlocks : KeepsOthers s.locks locks .request) {phase : RequestPhase}
    (hphase : RequestOk (Ended s) (locks .batch) s.db phase) (hfinished : phase ≠ .finished) :
    Inv { s with locks, request := phase } where
  nodup := h.nodup
  nonempty := h.nonempty
  db := h.db
  settlements := fun n => by
    refine (h.settlements n).later (.of_recipients rfl) (fun r hr => hlocks r _ (by simp) hr) (fun _ _ _ ht _ => ht) ?_
    exact fun _ hf => absurd hf hfinished
  chunks := h.chunks
  request := hphase
  batch := h.batch
  links := h.links

end Control

/-! ## Steps that write rows -/

theorem Later.linked {db db' : Database} (h : Later db db') {id transferId : String}
    (hlink : ∃ r, db.recipients.find? id = some r ∧ r.transferId = some transferId) :
    ∃ r, db'.recipients.find? id = some r ∧ r.transferId = some transferId := by
  obtain ⟨r, hr, hlink⟩ := hlink
  obtain ⟨r', hr', hrow⟩ := h.forward hr
  refine ⟨r', hr', ?_⟩
  rcases hrow.link with hsame | ⟨hnone, -⟩
  · exact hsame.trans hlink
  · rw [hnone] at hlink
    cases hlink

theorem Later.all_settled {db db' : Database} (h : Later db db')
    (hall : ∀ id r, db.recipients.find? id = some r → Settled r.status) :
    ∀ id r, db'.recipients.find? id = some r → Settled r.status := by
  intro id r' hr'
  obtain ⟨r, hr, hrow⟩ := h.back hr'
  exact hrow.settled (hall id r hr)

section Write

variable {s : System} (h : Inv s)
include h

theorem inv_link {position : Nat} {transferId : String} (hphase : s.phases position = .linking transferId)
    (hfresh : s.db.transfers.find? transferId = none) :
    Inv ({ { s with
      db := linkChunk s.db transferId (s.chunk position) s.now
      links := (s.chunk position).map (·, transferId) ++ s.links }.release (.chunk position) with
        recipientsByIndex := fun id => if id ∈ s.chunk position then some transferId else s.recipientsByIndex id }.setPhase
          position (.linked transferId)) := by
  have hchunk := h.chunks position
  rw [hphase] at hchunk
  obtain ⟨hunlinked, hne⟩ := hchunk
  have hlater : Later s.db (linkChunk s.db transferId (s.chunk position) s.now) := later_link hunlinked hfresh
  have hopen := request_of_open h.request (by rw [hphase]; rfl) hne
  have hnot : s.request ≠ .finished := by
    rcases hopen with heq | heq <;> rw [heq] <;> simp
  refine ⟨h.nodup, h.nonempty, dbOk_link h.db hunlinked hne hfresh, fun n => ?_, fun i => ?_, ?_, ?_, ?_⟩
  · refine (h.settlements n).later hlater (fun r hr => Locks.release_held (by simp) hr) ?_ fun _ hf => absurd hf hnot
    intro transferId' t _ ht _
    exact (find?_link hfresh transferId').trans ((if_neg fun heq => by rw [heq, hfresh] at ht; cases ht).trans ht)
  · by_cases hi : i = position
    · subst hi
      have hself : Function.update s.phases i (.linked transferId) i = .linked transferId := Function.update_self ..
      show ChunkOk _ _ (s.chunk i) (Function.update s.phases i (.linked transferId) i)
      rw [hself]
      intro id hid
      have hknown : (if id ∈ s.chunk i then some transferId else s.recipientsByIndex id) ≠ none := by
        rw [if_pos hid]
        simp
      exact hknown
    · have hother : Function.update s.phases position (.linked transferId) i = s.phases i := Function.update_of_ne hi _ _
      show ChunkOk _ _ (s.chunk i) (Function.update s.phases position (.linked transferId) i)
      rw [hother]
      have hdisjoint (id : String) (hid : id ∈ s.chunk i) : id ∉ s.chunk position :=
        fun hmem => hi (chunk_unique h.nodup hid hmem)
      refine (h.chunks i).keep (fun id hid r hr _ => ?_) fun id hid => if_neg (hdisjoint id hid)
      refine find?_linkRecipients id |>.trans ?_
      rw [hr, Option.map_some, if_neg fun hmem => hdisjoint id hid (Table.key_of_find? hr ▸ hmem.1)]
  · show RequestOk _ _ _ s.request
    rcases hopen with heq | heq <;> rw [heq] <;> trivial
  · exact fun hstatus => hlater.all_settled (h.batch hstatus)
  · intro id transferId' hmem
    rcases List.mem_append.mp hmem with hmem | hmem
    · obtain ⟨id', hid', heq⟩ := List.mem_map.mp hmem
      obtain ⟨rfl, rfl⟩ := Prod.mk.inj heq
      obtain ⟨r, hr, -, hpending⟩ := hunlinked id' hid'
      refine ⟨_, (find?_linkRecipients id').trans (by rw [hr, Option.map_some]), ?_⟩
      rw [if_pos ⟨by rwa [Table.key_of_find? hr], by rw [hpending]; simp⟩]
    · exact hlater.linked (h.links id transferId' hmem)

theorem inv_settle {n : Nat} {input : SettlePaymentTransferBatchInput} {recipientIds : List String}
    {status : PaymentTransferBatchStatus} (hn : s.settlements n = .scanned input recipientIds status) (returned : Bool) :
    Inv (({ s with db := settle s.db input recipientIds status }.release (.settlement n)).setSettlement n
      (.done returned)) := by
  have hscanned := h.settlements n
  rw [hn] at hscanned
  obtain ⟨⟨⟨hterminal, hlock, t, ht, hguard⟩, hholds⟩, hbatch, hsettled, hcurrent⟩ := hscanned
  have hlater := later_settle s.db input recipientIds status
  refine ⟨h.nodup, h.nonempty, dbOk_settle h.db hterminal ht hguard hholds, fun m => ?_, fun i => ?_, ?_, ?_, ?_⟩
  · show SettlementOk _ _ _ m (Function.update s.settlements n (.done returned) m)
    by_cases hm : m = n
    · rw [hm, Function.update_self]
      trivial
    · rw [Function.update_of_ne hm]
      have howner : Owner.settlement m ≠ .settlement n := fun heq => hm (Owner.settlement.inj heq)
      refine (h.settlements m).later hlater (fun r hr => Locks.release_held howner hr) ?_ fun hm' _ => ?_
      · intro transferId t' hlock' ht' _
        refine (find?_settle ht hguard transferId).trans ((if_neg fun heq => howner ?_).trans ht')
        rw [heq] at hlock'
        exact Option.some.inj (hlock'.symm.trans hlock)
      · exact absurd (Option.some.inj (hm'.symm.trans hbatch)) howner
  · refine (h.chunks i).keep (fun id hid r hr hnone => ?_) fun _ _ => rfl
    refine (find?_settleRecipients s.db.recipients id).trans ?_
    rw [hr, Option.map_some, if_neg fun hmem => ?_]
    rw [Table.key_of_find? hr, hholds id r hr, hnone] at hmem
    cases hmem
  · have hrequest := h.request
    show RequestOk (Ended s) _ _ s.request
    generalize s.request = phase at hrequest hcurrent
    cases phase with
    | executing => trivial
    | cleaning position => exact hrequest
    | recomputing => cases hbatch.symm.trans hrequest.2
    | scanned status' => cases hbatch.symm.trans hrequest.2.1
    | finished => exact ⟨hrequest.1, hcurrent rfl⟩
    | aborted => trivial
  · intro hstatus id r' hr'
    replace hr' := (find?_settleRecipients s.db.recipients id).symm.trans hr'
    obtain ⟨r, hr, rfl⟩ := Option.map_eq_some_iff.mp hr'
    split
    · exact settled_settledStatus _
    · next hmem =>
      rw [Table.key_of_find? hr] at hmem
      exact (hsettled hstatus id r hr).resolve_left hmem
  · exact fun id transferId hmem => hlater.linked (h.links id transferId hmem)

theorem inv_finalize {transferId : String} {transfers : TransferTable} {row : Option PaymentTransferRow}
    (hupdate : updateTransfer s.db.transfers (System.finalizedTransfer transferId s.now) = .ok (transfers, row)) :
    Inv { s with db := { s.db with transfers } } := by
  have hlater : Later s.db { s.db with transfers } := .of_recipients rfl
  refine ⟨h.nodup, h.nonempty, dbOk_finalize h.db hupdate, fun n => ?_, fun i => ?_, ?_, h.batch, h.links⟩
  · refine (h.settlements n).later hlater (fun _ hr => hr) (fun id t _ ht hprocessing => ?_) fun _ hf => ⟨hf, rfl⟩
    obtain ⟨t', ht', rfl | ⟨hconfirmed, -⟩⟩ := finalized_forward hupdate ht
    · exact ht'
    · rw [hconfirmed] at hprocessing
      cases hprocessing
  · exact (h.chunks i).keep (fun _ _ _ hr _ => hr) fun _ _ => rfl
  · exact h.request.keep (fun hended => hended) (fun hlock => hlock) rfl rfl

theorem inv_cleanUp {position : Nat} {reason : String} (hphase : s.phases position = .rejected reason)
    {phase : RequestPhase} (hrequest : RequestOk (Ended s) (s.locks .batch) s.db phase)
    (hphases : phase = .cleaning (position + 1) ∨ phase = .aborted) {recipientIds : List String}
    (hrecipientIds : recipientIds = (s.chunk position).filter fun id => s.recipientsByIndex id = none)
    {recipients : RecipientTable} (hrecipients : recipients =
      updateTransferRecipientsStatus s.db.recipients recipientIds none .failed (some reason)) :
    Inv { s with db := { s.db with recipients }, request := phase } := by
  subst hrecipients
  have hchunk := h.chunks position
  rw [hphase] at hchunk
  have hids : ∀ id ∈ recipientIds, ∃ r, s.db.recipients.find? id = some r ∧ r.transferId = none := by
    intro id hid
    rw [hrecipientIds] at hid
    obtain ⟨hmem, hnone⟩ := List.mem_filter.mp hid
    exact hchunk id hmem (of_decide_eq_true hnone)
  have hlater := later_cleanUp hids reason
  have hnot : phase ≠ .finished := by
    rcases hphases with heq | heq <;> rw [heq] <;> simp
  refine ⟨h.nodup, h.nonempty, dbOk_cleanUp hids reason h.db, fun n => ?_, fun i => ?_, ?_, ?_, ?_⟩
  · exact (h.settlements n).later hlater (fun _ hr => hr) (fun _ _ _ ht _ => ht) fun _ hf => absurd hf hnot
  · show ChunkOk _ _ (s.chunk i) (s.phases i)
    by_cases hi : i = position
    · rw [hi, hphase]
      intro id hid hnone
      obtain ⟨r, hr, hlink⟩ := hchunk id hid hnone
      refine ⟨_, (find?_failRecipients _ _ _ _).trans (by rw [hr, Option.map_some]), ?_⟩
      split
      · rfl
      · exact hlink
    · refine (h.chunks i).keep (fun id hid r hr _ => ?_) fun _ _ => rfl
      refine (find?_failRecipients _ _ _ _).trans ?_
      rw [hr, Option.map_some, if_neg fun hmem => hi (chunk_unique h.nodup hid ?_)]
      have hid' := Table.key_of_find? hr ▸ hmem.1
      rw [hrecipientIds] at hid'
      exact (List.mem_filter.mp hid').1
  · rcases hphases with heq | heq <;> subst heq
    · exact hrequest
    · trivial
  · exact fun hstatus => hlater.all_settled (h.batch hstatus)
  · exact fun id transferId hmem => hlater.linked (h.links id transferId hmem)

theorem inv_recompute {status : PaymentTransferBatchStatus} (hrequest : s.request = .scanned status)
    {phase : RequestPhase} (hphases : phase = .finished ∨ phase = .aborted) :
    Inv { s.release .request with db := { s.db with batch := recomputed status }, request := phase } := by
  have hscanned := h.request
  rw [hrequest] at hscanned
  obtain ⟨hended, hlock, hstatus⟩ := hscanned
  have hlater : Later s.db { s.db with batch := recomputed status } := .of_recipients rfl
  refine ⟨h.nodup, h.nonempty, ⟨h.db.rows, h.db.paid⟩, fun n => ?_, fun i => ?_, ?_, ?_, h.links⟩
  · have hlocks (r : Resource) (hr : s.locks r = some (.settlement n)) :
        s.locks.release .request r = some (.settlement n) := Locks.release_held (by simp) hr
    refine (h.settlements n).later hlater hlocks (fun _ _ _ ht _ => ht) fun hbatch _ => ?_
    cases hlock.symm.trans hbatch
  · exact (h.chunks i).keep (fun _ _ _ hr _ => hr) fun _ _ => rfl
  · rcases hphases with heq | heq <;> subst heq
    · exact ⟨hended, hstatus⟩
    · trivial
  · intro hne id r hr
    refine settled_of_scan ?_ hr
    rw [← hstatus]
    exact hne

end Write

/-! ## Every step -/

/-- The request is told of every link that is committed. -/
def linksAnswered (_ : System) : Step → Prop
  | .commitLink _ outcome _ => outcome ≠ .lost
  | _ => True

theorem lock?_map_eq_some {s t : System} {o : Owner} {rs : List Resource} {f : System → System}
    (h : (s.lock? o rs).map f = some t) :
    s.locks.free o rs = true ∧ f { s with locks := s.locks.acquire o rs } = t := by
  unfold System.lock? at h
  split at h
  · next hfree => exact ⟨hfree, Option.some.inj h⟩
  · cases h

section Step

variable {s t : System} (h : Inv s)
include h

theorem inv_beginLink {position : Nat} {transferId : String}
    (hstep : s.stepRequest (.beginLink position transferId) = some t) : Inv t := by
  unfold System.stepRequest at hstep
  dsimp only at hstep
  split at hstep
  · next recipientIds hrequest hphase hget =>
    have hchunk := h.chunks position
    rw [hphase] at hchunk
    have hids : s.chunk position = recipientIds := by rw [System.chunk, hget, Option.getD_some]
    have hopen : (s.phases position).ended = false := by
      rw [hphase]
      rfl
    split at hstep
    · obtain ⟨hfree, rfl⟩ := lock?_map_eq_some hstep
      refine inv_chunk h (keepsOthers_acquire hfree) hopen ⟨hchunk, ?_⟩
      rw [hids]
      exact h.nonempty _ (List.mem_of_getElem? hget)
    · cases hstep
      exact inv_chunk h (keepsOthers_refl _ _) hopen (chunkOk_rejected_of_unlinked hchunk _)
  · cases hstep

theorem inv_commitLink {position : Nat} {outcome : CallOutcome} {message : String} (hok : outcome ≠ .lost)
    (hstep : s.stepRequest (.commitLink position outcome message) = some t) : Inv t := by
  unfold System.stepRequest at hstep
  dsimp only at hstep
  split at hstep
  · next transferId hphase =>
    split at hstep
    · next hfresh =>
      cases outcome with
      | answered =>
        cases hstep
        exact inv_link h hphase hfresh
      | lost => exact absurd rfl hok
      | failed =>
        cases hstep
        have hchunk := h.chunks position
        rw [hphase] at hchunk
        exact inv_chunk h (keepsOthers_release _ _) (by rw [hphase]; rfl) (chunkOk_rejected_of_unlinked hchunk.1 _)
    · cases hstep
  · cases hstep

theorem inv_reject {position : Nat} {message : String} (hstep : s.stepRequest (.reject position message) = some t) :
    Inv t := by
  unfold System.stepRequest at hstep
  dsimp only at hstep
  have hchunk := h.chunks position
  split at hstep
  · next hphase =>
    cases hstep
    rw [hphase] at hchunk
    exact inv_chunk h (keepsOthers_refl _ _) (by rw [hphase]; rfl) (chunkOk_rejected_of_unlinked hchunk _)
  · next transferId hphase =>
    cases hstep
    rw [hphase] at hchunk
    exact inv_chunk h (keepsOthers_refl _ _) (by rw [hphase]; rfl) (chunkOk_rejected_of_known hchunk _)
  · next transferId hphase =>
    cases hstep
    rw [hphase] at hchunk
    exact inv_chunk h (keepsOthers_release _ _) (by rw [hphase]; rfl) (chunkOk_rejected_of_unlinked hchunk.1 _)
  · cases hstep

theorem inv_failChunk {position n : Nat} {error : String} (hstep : s.stepRequest (.failChunk position n error) = some t) :
    Inv t := by
  unfold System.stepRequest at hstep
  dsimp only at hstep
  split at hstep
  · next transferId hphase hidle =>
    cases hstep
    have hchunk := h.chunks position
    rw [hphase] at hchunk
    have hstarted := inv_settlement h (keepsOthers_refl s.locks (.settlement n))
      (W := .started ⟨transferId, s.db.organizationId, some s.db.projectId, .failed, some error, none, s.now⟩)
      (by decide : PaymentTransferStatus.failed ∈ terminalStatuses)
    exact inv_chunk hstarted (keepsOthers_refl _ _) (by
      show (s.phases position).ended = false
      rw [hphase]
      rfl) hchunk
  · cases hstep

theorem inv_failedChunk {position : Nat} {message : String}
    (hstep : s.stepRequest (.failedChunk position message) = some t) : Inv t := by
  unfold System.stepRequest at hstep
  dsimp only at hstep
  split at hstep
  · next n hphase =>
    have hchunk := h.chunks position
    rw [hphase] at hchunk
    have hopen : (s.phases position).ended = false := by
      rw [hphase]
      rfl
    split at hstep
    · cases hstep
      exact inv_chunk h (keepsOthers_refl _ _) hopen trivial
    · cases hstep
      exact inv_chunk h (keepsOthers_refl _ _) hopen (chunkOk_rejected_of_known hchunk _)
    · cases hstep
  · cases hstep

theorem inv_clean {outcome : CallOutcome} (hstep : s.stepRequest (.cleanUp outcome) = some t) : Inv t := by
  unfold System.stepRequest at hstep
  dsimp only at hstep
  split at hstep
  · next position hrequest =>
    have hcleaning := h.request
    rw [hrequest] at hcleaning
    have hnextOk : RequestOk (Ended s) (s.locks .batch) s.db (.cleaning (position + 1)) := hcleaning
    have habortedOk : RequestOk (Ended s) (s.locks .batch) s.db .aborted := trivial
    have hnext : Inv { s with request := .cleaning (position + 1) } :=
      inv_request h (keepsOthers_refl _ _) hnextOk (by simp)
    split at hstep
    · split at hstep
      · next reason hphase =>
        split at hstep
        · cases hstep
          exact hnext
        · split at hstep
          · cases outcome with
            | answered =>
              cases hstep
              exact inv_cleanUp h hphase hnextOk (.inl rfl) rfl rfl
            | lost =>
              cases hstep
              exact inv_cleanUp h hphase habortedOk (.inr rfl) rfl rfl
            | failed =>
              cases hstep
              exact inv_request h (keepsOthers_refl _ _) trivial (by simp)
          · cases hstep
      · cases hstep
        exact hnext
    · cases hstep
  · cases hstep

theorem inv_stepRequest {l : Step} (hok : linksAnswered s l) (hstep : s.stepRequest l = some t) : Inv t := by
  cases l with
  | beginLink position transferId => exact inv_beginLink h hstep
  | commitLink position outcome message => exact inv_commitLink h hok hstep
  | reject position message => exact inv_reject h hstep
  | fulfill position =>
    unfold System.stepRequest at hstep
    dsimp only at hstep
    split at hstep
    · next transferId hphase =>
      cases hstep
      exact inv_chunk h (keepsOthers_refl _ _) (by rw [hphase]; rfl) trivial
    · cases hstep
  | failChunk position n error => exact inv_failChunk h hstep
  | failedChunk position message => exact inv_failedChunk h hstep
  | beginCleanup =>
    unfold System.stepRequest at hstep
    dsimp only at hstep
    split at hstep
    · split at hstep
      · next hended =>
        cases hstep
        refine inv_request h (keepsOthers_refl _ _) (fun position hlt => ?_) (by simp)
        exact List.all_eq_true.mp hended position (List.mem_range.mpr hlt)
      · cases hstep
    · cases hstep
  | cleanUp outcome => exact inv_clean h hstep
  | lockForRecompute =>
    unfold System.stepRequest at hstep
    dsimp only at hstep
    split at hstep
    · next hrequest =>
      obtain ⟨hfree, rfl⟩ := lock?_map_eq_some hstep
      have hcleaning := h.request
      rw [hrequest] at hcleaning
      exact inv_request h (keepsOthers_acquire hfree) ⟨hcleaning, Locks.acquire_mem (by simp)⟩ (by simp)
    · cases hstep
  | scanForRecompute =>
    unfold System.stepRequest at hstep
    dsimp only at hstep
    split at hstep
    · next hrequest =>
      cases hstep
      have hrecomputing := h.request
      rw [hrequest] at hrecomputing
      exact inv_request h (keepsOthers_refl _ _) ⟨hrecomputing.1, hrecomputing.2, rfl⟩ (by simp)
    · cases hstep
  | commitRecompute outcome =>
    unfold System.stepRequest at hstep
    dsimp only at hstep
    split at hstep
    · next status hrequest =>
      cases outcome with
      | answered =>
        cases hstep
        exact inv_recompute h hrequest (.inl rfl)
      | lost =>
        cases hstep
        exact inv_recompute h hrequest (.inr rfl)
      | failed =>
        cases hstep
        exact inv_request h (keepsOthers_release _ _) trivial (by simp)
    · cases hstep
  | abort =>
    unfold System.stepRequest at hstep
    dsimp only at hstep
    split at hstep
    · cases hstep
    · cases hstep
    · cases hstep
      exact inv_request h (keepsOthers_release _ _) trivial (by simp)
  | _ => cases hstep

theorem inv_stepSettlement {l : Step} (hstep : s.stepSettlement l = some t) : Inv t := by
  cases l with
  | startSettlement n input =>
    unfold System.stepSettlement at hstep
    dsimp only at hstep
    split at hstep
    · split at hstep
      · next hterminal =>
        cases hstep
        exact inv_settlement h (keepsOthers_refl _ _) hterminal
      · cases hstep
    · cases hstep
  | claimTransfer n =>
    unfold System.stepSettlement at hstep
    dsimp only at hstep
    split at hstep
    · next input hn =>
      have hterminal := h.settlements n
      rw [hn] at hterminal
      split at hstep
      · next hmatch =>
        obtain ⟨hfree, rfl⟩ := lock?_map_eq_some hstep
        exact inv_settlement h (keepsOthers_acquire hfree)
          ⟨hterminal, Locks.acquire_mem (by simp), Table.matches?_iff.mp hmatch⟩
      · split at hstep
        · cases hstep
          exact inv_settlement h (keepsOthers_refl _ _) trivial
        · cases hstep
    · cases hstep
  | updateRecipients n =>
    unfold System.stepSettlement at hstep
    dsimp only at hstep
    split at hstep
    · next input hn =>
      have hclaims := h.settlements n
      rw [hn] at hclaims
      split at hstep
      · cases hstep
        exact inv_settlement h (keepsOthers_release _ _) trivial
      · obtain ⟨hfree, rfl⟩ := lock?_map_eq_some hstep
        obtain ⟨t, ht, hguard⟩ := hclaims.row
        refine inv_settlement h (keepsOthers_acquire hfree) ⟨?_, holds_settledRecipients h.db ht hguard⟩
        exact ⟨hclaims.terminal, Locks.acquire_held hfree hclaims.lock, t, ht, hguard⟩
    · cases hstep
  | lockBatch n =>
    unfold System.stepSettlement at hstep
    dsimp only at hstep
    split at hstep
    · next input recipientIds hn =>
      have hupdates := h.settlements n
      rw [hn] at hupdates
      obtain ⟨hfree, rfl⟩ := lock?_map_eq_some hstep
      obtain ⟨⟨hterminal, hlock, hrow⟩, hholds⟩ := hupdates
      exact inv_settlement h (keepsOthers_acquire hfree)
        ⟨⟨⟨hterminal, Locks.acquire_held hfree hlock, hrow⟩, hholds⟩, Locks.acquire_mem (by simp)⟩
    · cases hstep
  | scan n =>
    unfold System.stepSettlement at hstep
    dsimp only at hstep
    split at hstep
    · next input recipientIds hn =>
      have hlocked := h.settlements n
      rw [hn] at hlocked
      cases hstep
      refine inv_settlement h (keepsOthers_refl _ _) ⟨hlocked.1, hlocked.2, fun hstatus id r hr => ?_, fun _ => rfl⟩
      -- The scan saw the row as the settlement leaves it.
      have hseen := settled_of_scan hstatus ((find?_settleRecipients s.db.recipients id).trans (by rw [hr, Option.map_some]))
      split at hseen
      · next hmem => exact .inl (Table.key_of_find? hr ▸ hmem)
      · exact .inr hseen
    · cases hstep
  | commitSettlement n outcome =>
    unfold System.stepSettlement at hstep
    dsimp only at hstep
    split at hstep
    · next input recipientIds status hn =>
      cases outcome with
      | answered =>
        cases hstep
        exact inv_settle h hn true
      | lost =>
        cases hstep
        exact inv_settle h hn false
      | failed =>
        cases hstep
        exact inv_settlement h (keepsOthers_release _ _) trivial
    · cases hstep
  | rollBackSettlement n =>
    unfold System.stepSettlement at hstep
    dsimp only at hstep
    split at hstep
    · cases hstep
    · cases hstep
    · cases hstep
      exact inv_settlement h (keepsOthers_release _ _) trivial
  | _ => cases hstep

theorem inv_step {l : Step} (hok : linksAnswered s l) (hstep : s.step l = some t) : Inv t := by
  have hor (hstep : (s.stepRequest l).or (s.stepSettlement l) = some t) : Inv t := by
    rcases Option.or_eq_some_iff.mp hstep with hrequest | ⟨-, hsettlement⟩
    · exact inv_stepRequest h hok hrequest
    · exact inv_stepSettlement h hsettlement
  cases l with
  | elapse ms =>
    cases hstep
    exact ⟨h.nodup, h.nonempty, h.db, h.settlements, h.chunks, h.request, h.batch, h.links⟩
  | finalize transferId =>
    unfold System.step at hstep
    dsimp only at hstep
    split at hstep
    · next transfers row hupdate =>
      cases hstep
      exact inv_finalize h hupdate
    · cases hstep
  | _ => exact hor hstep

end Step

/-! ## Every run -/

/-- The batch has just been created, with the chunks of its recipients. -/
structure Opening (s : System) : Prop where
  processing : s.db.batch.status = .processing
  recipients : ∀ r ∈ s.db.recipients.rows, r.transferId = none ∧ r.status = .pending
  transfers : s.db.transfers = Table.empty
  chunks : ∃ fits max, chunkInstructionGroups fits max (s.db.recipients.rows.map (·.id)) = some s.chunks
  phases : ∀ position, s.phases position = .waiting
  settlements : ∀ n, s.settlements n = .idle
  request : s.request = .executing
  links : s.links = []

theorem inv_opening {s : System} (h : Opening s) : Inv s := by
  obtain ⟨fits, max, hchunks⟩ := h.chunks
  obtain ⟨hflatten, hnonempty⟩ := chunkInstructionGroups_eq_some hchunks
  refine ⟨hflatten ▸ s.db.recipients.primaryKey, hnonempty, ⟨fun id r hr => ?_, fun id t ht => ?_⟩, fun n => ?_,
    fun position => ?_, ?_, fun hstatus => absurd h.processing hstatus, fun id transferId hmem => ?_⟩
  · obtain ⟨hnone, hpending⟩ := h.recipients r (Table.find?_eq_some_iff.mp hr).1
    refine ⟨fun _ => .inl hpending, fun transferId hlink => ?_⟩
    rw [hnone] at hlink
    cases hlink
  · rw [h.transfers, Table.find?_empty] at ht
    cases ht
  · rw [h.settlements n]
    trivial
  · rw [h.phases position]
    intro id hid
    unfold System.chunk at hid
    cases hc : s.chunks[position]? with
    | none => simp [hc] at hid
    | some c =>
      rw [hc, Option.getD_some] at hid
      have hmem : id ∈ s.chunks.flatten := List.mem_flatten.mpr ⟨c, List.mem_of_getElem? hc, hid⟩
      rw [hflatten] at hmem
      obtain ⟨r, hr, hrid⟩ := List.mem_map.mp hmem
      exact ⟨r, Table.find?_eq_some_iff.mpr ⟨hr, hrid⟩, h.recipients r hr⟩
  · rw [h.request]
    trivial
  · rw [h.links] at hmem
    cases hmem

theorem inv_reachable {s : System} (h : Reachable System.step Opening linksAnswered s) : Inv s :=
  h.invariant (fun _ => inv_opening) fun _ _ _ _ hinv hok hstep => inv_step hinv hok hstep

/-- What recipients, transfers and the batch say of each other. -/
structure Consistent (s : System) : Prop where
  /-- A link is the only one that its recipient ever has, and it stays. -/
  linked : ∀ id transferId, (id, transferId) ∈ s.links →
    (∀ transferId', (id, transferId') ∈ s.links → transferId' = transferId) ∧
    ∃ r, s.db.recipients.find? id = some r ∧ r.transferId = some transferId
  terminal : ∀ id r transferId t, s.db.recipients.find? id = some r → r.transferId = some transferId →
    s.db.transfers.find? transferId = some t → t.status ∈ terminalStatuses → r.status = settledStatus t.status
  paid : ∀ transferId t, s.db.transfers.find? transferId = some t → t.status = .processing →
    ∃ id r, s.db.recipients.find? id = some r ∧ r.transferId = some transferId
  batch : s.db.batch.status ≠ .processing → ∀ id r, s.db.recipients.find? id = some r →
    r.status ≠ .pending ∧ r.status ≠ .processing
  finished : s.request = .finished → s.db.batch.status = deriveTransferBatchStatus (recipientStatuses s.db.recipients)

theorem agrees_terminal {transferStatus : PaymentTransferStatus} {status : RecipientStatus}
    (h : agrees transferStatus status = true) (hterminal : transferStatus ∈ terminalStatuses) :
    status = settledStatus transferStatus := by
  cases transferStatus <;> cases status <;> simp_all [agrees, terminalStatuses, settledStatus]

/-- Requests that are told of every link leave a consistent batch behind, whatever settles it meanwhile. -/
theorem batch_consistent {s : System} (h : Reachable System.step Opening linksAnswered s) : Consistent s := by
  have hinv := inv_reachable h
  refine ⟨fun id transferId hmem => ⟨fun transferId' hmem' => ?_, hinv.links id transferId hmem⟩, ?_, hinv.db.paid,
    hinv.batch, fun hfinished => ?_⟩
  · obtain ⟨r, hr, hlink⟩ := hinv.links id transferId hmem
    obtain ⟨r', hr', hlink'⟩ := hinv.links id transferId' hmem'
    obtain rfl := Option.some.inj (hr.symm.trans hr')
    exact Option.some.inj (hlink'.symm.trans hlink)
  · intro id r transferId t hr hlink ht hterminal
    obtain ⟨t', ht', hagrees⟩ := (hinv.db.rows id r hr).2 transferId hlink
    obtain rfl := Option.some.inj (ht'.symm.trans ht)
    exact agrees_terminal hagrees hterminal
  · have hrequest := hinv.request
    rw [hfinished] at hrequest
    exact hrequest.2

/-! Two recipients, each in a chunk of its own. -/

def twoRecipients : System where
  now := 0
  db := {
    organizationId := "organization"
    projectId := "project"
    batch := ⟨.processing, none⟩
    recipients := ⟨[⟨"a", none, .pending, none⟩, ⟨"b", none, .pending, none⟩], by decide⟩
    transfers := Table.empty }
  locks := Locks.none
  settlements := fun _ => .idle
  chunks := [["a"], ["b"]]
  phases := fun _ => .waiting
  recipientsByIndex := fun _ => none
  request := .executing
  links := []

theorem twoRecipients_opening : Opening twoRecipients where
  processing := rfl
  recipients := by decide
  transfers := rfl
  chunks := ⟨fun _ => true, 1, rfl⟩
  phases := fun _ => rfl
  settlements := fun _ => rfl
  request := rfl
  links := rfl

def confirmed (transferId : String) : SettlePaymentTransferBatchInput :=
  ⟨transferId, "organization", some "project", .confirmed, none, some 7, 0⟩

/-- A tracker confirms the first chunk while the link of the second fails. -/
def partlyConfirmed : List Step :=
  [.beginLink 0 "ta", .beginLink 1 "tb", .commitLink 0 .answered "", .startSettlement 0 (confirmed "ta"),
    .claimTransfer 0, .updateRecipients 0, .commitLink 1 .failed "timeout", .fulfill 0, .beginCleanup, .lockBatch 0,
    .scan 0, .cleanUp .answered, .cleanUp .answered, .commitSettlement 0 .answered, .lockForRecompute,
    .scanForRecompute, .commitRecompute .answered]

theorem partlyConfirmed_consistent : ∃ s, run System.step twoRecipients partlyConfirmed = some s ∧
    s.request = .finished ∧ s.db.batch.status = .partiallyFailed ∧ s.links = [("a", "ta")] ∧ Consistent s := by
  refine ⟨_, rfl, by decide, by decide, by decide, batch_consistent ?_⟩
  exact (Reachable.start twoRecipients_opening).run_of (by simp [partlyConfirmed, linksAnswered])
    (by rfl : run System.step twoRecipients partlyConfirmed = some _)

/-- The link of the first chunk is committed, and its request sees an error. -/
def answerLost : List Step :=
  [.beginLink 0 "ta", .commitLink 0 .lost "timeout", .beginLink 1 "tb", .commitLink 1 .answered "", .fulfill 1,
    .beginCleanup, .cleanUp .answered]

/-- The recipient is taken from a transfer that is still processing, and that pays nobody then. -/
theorem linked_recipient_is_cleaned : ∃ s, Reachable System.step Opening anyStep s ∧ ("a", "ta") ∈ s.links ∧
    (s.db.recipients.find? "a").map (fun r => (r.transferId, r.status)) = some (none, .failed) ∧
    (s.db.transfers.find? "ta").map (·.status) = some .processing ∧
    ∀ r ∈ s.db.recipients.rows, r.transferId ≠ some "ta" :=
  ⟨_, .run (.start twoRecipients_opening) (by rfl : run System.step _ answerLost = some _), by decide, by decide,
    by decide, by decide⟩

end Sdp.Batches
