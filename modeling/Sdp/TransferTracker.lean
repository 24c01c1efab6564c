import Sdp.Code.TransferTracker
import Sdp.Transfers

/-!
# What requests and tracker runs keep

Whatever was sent has a row that has started, or that is from before the outbox. A run decides from
rows that it read earlier: their signatures are still there when it writes, and its verdicts are what
the chain said.
-/

open Sdp.Lib

namespace Sdp.Payments

/-! ## The rows after a write -/

theorem CallOutcome.apply_cases {α β : Type} (outcome : CallOutcome) (db : TransferDatabase)
    (result : Except RepositoryError α) (f : α → TransferDatabase × β) :
    outcome.apply db (result.map f) = (db, none) ∨
      ∃ a, result = .ok a ∧
        (outcome.apply db (result.map f) = ((f a).1, some (f a).2) ∨
          outcome.apply db (result.map f) = ((f a).1, none)) := by
  cases result with
  | error => cases outcome <;> exact .inl rfl
  | ok a =>
    cases outcome with
    | answered => exact .inr ⟨a, rfl, .inl rfl⟩
    | failed => exact .inl rfl
    | lost => exact .inr ⟨a, rfl, .inr rfl⟩

theorem CallOutcome.apply_db (outcome : CallOutcome) (db : TransferDatabase)
    (result : Except RepositoryError TransferDatabase) :
    (outcome.apply db (result.map (·, ()))).1 = db ∨ result = .ok (outcome.apply db (result.map (·, ()))).1 := by
  rcases outcome.apply_cases db result (·, ()) with h | ⟨db', hr, h | h⟩
  · exact .inl (by rw [h])
  · exact .inr (by rw [h, hr])
  · exact .inr (by rw [h, hr])

theorem updateTerminalTransfer_settles {db db' : TransferDatabase} {transfer : PaymentTransferRow}
    {input : TerminalUpdate} {now : Nat} (h : updateTerminalTransfer db transfer input now = .ok db') :
    SettlesTo db.transfers db'.transfers transfer.id fun r' =>
      r'.status = input.status ∧ (input.status = .failed → ∀ e ∈ input.error, r'.error = some e) := by
  unfold updateTerminalTransfer at h
  split at h
  · split at h
    · cases h
    · refine (settleTransferBatch_settles h).weaken ?_
      rintro _ ⟨r, rfl⟩
      refine ⟨rfl, fun hf e he => ?_⟩
      simp [SettlePaymentTransferBatchInput.set, hf, Option.mem_def.mp he]
  · refine (TransferDatabase.update_settles (by rfl) (by rintro σ ⟨⟩) h).weaken ?_
    rintro _ ⟨r, -, rfl⟩
    refine ⟨rfl, fun _ e he => ?_⟩
    simp [UpdatePaymentTransferInput.set, Option.mem_def.mp he]

/-- A write that fails the transfer without a word from the chain. -/
def TrackerWrite.blind : TrackerWrite → Bool
  | .timeOut _ | .verdict _ none => true
  | .verdict _ (some _) | .keep _ => false

/-- The row after a write. It is failed only blindly or with the error of the verdict. -/
def TrackerWrite.Leaves (w : TrackerWrite) (r' : PaymentTransferRow) : Prop :=
  r'.status = .failed → w.blind = true ∨
    ∃ info e, w = .verdict w.transfer (some info) ∧ info.err = some e ∧ r'.error = some e

theorem TrackerWrite.exec_settles {db db' : TransferDatabase} {now : Nat} {w : TrackerWrite}
    (h : w.exec db now = some (.ok db')) : SettlesTo db.transfers db'.transfers w.transfer.id w.Leaves := by
  cases w with
  | timeOut transfer =>
    exact (updateTerminalTransfer_settles (Option.some.inj h)).weaken fun _ _ _ => .inl rfl
  | verdict transfer status =>
    obtain ⟨input, hinput, h⟩ := Option.map_eq_some_iff.mp h
    refine (updateTerminalTransfer_settles h).weaken fun r' hr' hf => ?_
    obtain ⟨hstatus, herror⟩ := hr'
    cases status with
    | none => exact .inl rfl
    | some info =>
      cases he : info.err with
      | some e =>
        simp only [onChainVerdict, he, Option.some.injEq] at hinput
        subst hinput
        exact .inr ⟨info, e, rfl, he, herror rfl e rfl⟩
      | none =>
        -- Without an error the verdict is a success.
        rw [hf] at hstatus
        simp only [onChainVerdict, he] at hinput
        split at hinput
        · cases hinput; cases hstatus
        · cases hinput; cases hstatus
        · cases hinput
  | keep transfer =>
    refine (TransferDatabase.update_settles (by rfl) (by rintro σ ⟨⟩) (Option.some.inj h)).weaken ?_
    rintro _ ⟨r, hp, rfl⟩ hf
    have hstatus : r.status = .failed := hf
    rw [hp] at hstatus
    cases hstatus

/-! ## The invariant -/

/-- A transaction that may be on its way: its row has started, or is from before the outbox. -/
def Sendable (σ : String) (r : PaymentTransferRow) : Prop :=
  r.signature = some σ ∧ (r.submissionStartedAt.isSome ∨ r.signedTransaction = none)

theorem Sendable.change {σ : String} {r r' : PaymentTransferRow} (h : Sendable σ r) (hc : RowChange r r') :
    Sendable σ r' := by
  obtain ⟨hσ, hstarted | hlegacy⟩ := h
  · exact ⟨hc.signature σ hσ, .inl (hc.started hstarted)⟩
  · exact ⟨hc.signature σ hσ, .inr (by rw [hc.signedTransaction (by simp [hσ]), hlegacy])⟩

/-- The signature of a row that was read is still on the row. -/
def ReadOk (t : TransferTable) (row : PaymentTransferRow) : Prop := ∀ σ ∈ row.signature, Holds t row.id σ

theorem ReadOk.step {t t' : TransferTable} {row : PaymentTransferRow} (h : ReadOk t row) (ht : TableStep t t') :
    ReadOk t' row := fun σ hσ => ht.holds (h σ hσ)

theorem readOk_of_find? {t : TransferTable} {id : String} {r : PaymentTransferRow} (h : t.find? id = some r) :
    ReadOk t r := by
  intro σ hσ
  obtain rfl := Table.key_of_find? h
  exact ⟨r, h, hσ⟩

def StoreOk (t : TransferTable) (id : String) (store : SubmissionStore) : Prop :=
  ∀ row ∈ store.row, row.id = id ∧ ReadOk t row

def RequestOk (t : TransferTable) (id : String) : Submission → Prop
  | .idle | .done => True
  | .created transfer => transfer.id = id
  | .persisted transfer submission store => transfer.id = id ∧ Holds t id submission.signature ∧ StoreOk t id store
  | .started transfer submission store =>
    transfer.id = id ∧
      RowAt t id (fun r => r.signature = some submission.signature ∧ r.submissionStartedAt.isSome) ∧
      StoreOk t id store
  | .failing transfer store _ => transfer.id = id ∧ StoreOk t id store

theorem StoreOk.step {t t' : TransferTable} {id : String} {store : SubmissionStore} (h : StoreOk t id store)
    (ht : TableStep t t') : StoreOk t' id store := fun row hrow => ⟨(h row hrow).1, (h row hrow).2.step ht⟩

theorem RequestOk.step {t t' : TransferTable} {id : String} {request : Submission} (h : RequestOk t id request)
    (ht : TableStep t t') : RequestOk t' id request := by
  cases request with
  | idle | done => trivial
  | created => exact h
  | persisted transfer submission store => exact ⟨h.1, ht.holds h.2.1, h.2.2.step ht⟩
  | started transfer submission store =>
    refine ⟨h.1, ht.rowAt ?_ h.2.1, h.2.2.step ht⟩
    exact fun r r' hr hc => ⟨hc.signature _ hr.1, hc.started hr.2⟩
  | failing transfer store error => exact ⟨h.1, h.2.step ht⟩

def TrackerPhase.rows : TrackerPhase → List PaymentTransferRow
  | .poll rows | .sweep rows | .measure rows | .archive rows => rows
  | .listSigned | .finish => []

/-- The transfer of a write was read, and its verdict is what the chain says. -/
structure WriteOk (t : TransferTable) (c : Chain) (w : TrackerWrite) : Prop where
  read : ReadOk t w.transfer
  reported : ∀ info, w = .verdict w.transfer (some info) → c.reports w.transfer.signature (some info) = true

structure RunOk (t : TransferTable) (c : Chain) (run : TrackerRun) : Prop where
  writes : ∀ w ∈ run.writes, WriteOk t c w
  rows : ∀ row ∈ run.next.rows, ReadOk t row

/-- What landed stays. -/
def Chain.Extends (c c' : Chain) : Prop := ∀ σ err, c.landed σ = some err → c'.landed σ = some err

theorem Chain.Extends.reports {c c' : Chain} (h : c.Extends c') {signature : Option String}
    {status : Option SignatureStatusInfo} (hr : c.reports signature status = true) :
    c'.reports signature status = true := by
  cases status with
  | none => rfl
  | some info =>
    unfold Chain.reports at hr ⊢
    rw [Option.any_eq_true] at hr ⊢
    obtain ⟨σ, hσ, hr⟩ := hr
    exact ⟨σ, hσ, decide_eq_true (h σ _ (of_decide_eq_true hr))⟩

theorem RunOk.step {t t' : TransferTable} {c c' : Chain} {run : TrackerRun} (h : RunOk t c run)
    (ht : TableStep t t') (hc : c.Extends c') : RunOk t' c' run where
  writes := fun w hw => ⟨(h.writes w hw).read.step ht, fun info hi => hc.reports ((h.writes w hw).reported info hi)⟩
  rows := fun row hrow => (h.rows row hrow).step ht

structure Sound (s : System) : Prop where
  unique : UniqueSignatures s.db.transfers
  requests : ∀ id, RequestOk s.db.transfers id (s.requests id)
  sent : ∀ σ, (s.chain.sent σ).isSome → ∃ id, RowAt s.db.transfers id (Sendable σ)
  landed : ∀ σ, (s.chain.landed σ).isSome → (s.chain.sent σ).isSome
  runs : ∀ j, ∀ run ∈ s.runs j, RunOk s.db.transfers s.chain run

/-- What a step does, as far as the invariant is concerned. -/
structure Advances (s s' : System) : Prop where
  table : TableStep s.db.transfers s'.db.transfers
  chain : s.chain.Extends s'.chain
  requests : ∀ id, s'.requests id = s.requests id ∨ RequestOk s'.db.transfers id (s'.requests id)
  sent : ∀ σ, (s'.chain.sent σ).isSome →
    (s.chain.sent σ).isSome ∨ ∃ id, RowAt s'.db.transfers id (Sendable σ)
  landed : ∀ σ, (s'.chain.landed σ).isSome → (s'.chain.sent σ).isSome
  runs : ∀ j, s'.runs j = s.runs j ∨ ∀ run ∈ s'.runs j, RunOk s'.db.transfers s'.chain run

theorem Sound.step {s s' : System} (hs : Sound s) (h : Advances s s') : Sound s' where
  unique := h.table.unique hs.unique
  requests := fun id => by
    rcases h.requests id with heq | hok
    · rw [heq]
      exact (hs.requests id).step h.table
    · exact hok
  sent := fun σ hσ => by
    rcases h.sent σ hσ with hσ | hnew
    · obtain ⟨id, hid⟩ := hs.sent σ hσ
      exact ⟨id, h.table.rowAt (fun _ _ hr hc => hr.change hc) hid⟩
    · exact hnew
  landed := h.landed
  runs := fun j run hrun => by
    rcases h.runs j with heq | hok
    · rw [heq] at hrun
      exact (hs.runs j run hrun).step h.table h.chain
    · exact hok run hrun

/-! ## The steps keep it -/

theorem TableStep.refl (t : TransferTable) : TableStep t t := .same fun _ => rfl

section Steps

variable {s s' : System}

theorem Sound.setRequest (hs : Sound s) {db : TransferDatabase} (ht : TableStep s.db.transfers db.transfers)
    {id : String} {request : Submission} (hok : RequestOk db.transfers id request) :
    Advances s ({ s with db }.setRequest id request) where
  table := ht
  chain := fun _ _ h => h
  requests := fun id' => by
    by_cases hid : id' = id
    · subst hid
      exact .inr (by simpa [System.setRequest] using hok)
    · exact .inl (by simp [System.setRequest, hid])
  sent := fun _ h => .inl h
  landed := hs.landed
  runs := fun _ => .inl rfl

theorem Sound.setRun (hs : Sound s) {db : TransferDatabase} (ht : TableStep s.db.transfers db.transfers)
    (markedFailed : String → Bool) {j : Nat} {run : Option TrackerRun}
    (hok : ∀ run' ∈ run, RunOk db.transfers s.chain run') :
    Advances s ({ s with db, markedFailed }.setRun j run) where
  table := ht
  chain := fun _ _ h => h
  requests := fun _ => .inl rfl
  sent := fun _ h => .inl h
  landed := hs.landed
  runs := fun j' => by
    by_cases hj : j' = j
    · subst hj
      exact .inr (by simpa [System.setRun] using hok)
    · exact .inl (by simp [System.setRun, hj])

theorem Sound.request (hs : Sound s) {id : String} {request : Submission} (h : s.requests id = request) :
    RequestOk s.db.transfers id request := h ▸ hs.requests id

theorem storeOk_fresh (t : TransferTable) (id : String) : StoreOk t id .fresh := by
  rintro row ⟨⟩

theorem storeOk_of_find? {t : TransferTable} {id : String} {row : PaymentTransferRow} (h : t.find? id = some row)
    (startState : StartState) : StoreOk t id ⟨some row, startState⟩ := by
  rintro _ ⟨⟩
  exact ⟨Table.key_of_find? h, readOk_of_find? h⟩

theorem persistSigned_advances (hs : Sound s) {id : String} {submission : SignedSubmission} {now : Nat}
    {outcome : CallOutcome} (h : requestStep s id (.persistSigned submission now outcome) = some s') :
    Advances s s' := by
  unfold requestStep at h
  dsimp only at h
  split at h
  · next transfer hreq =>
    cases h
    obtain rfl : transfer.id = id := hs.request hreq
    rcases outcome.apply_cases s.db _ fun result : TransferTable × Option PaymentTransferRow =>
      ({ s.db with transfers := result.1 }, result.2) with hnone | ⟨⟨t, row⟩, hpersist, hresult | hresult⟩
    · rw [hnone]
      exact hs.setRequest (.refl _) ⟨rfl, storeOk_fresh _ _⟩
    · rw [hresult]
      refine hs.setRequest (persistSignedTransfer_step hpersist) ?_
      cases row with
      | none => exact ⟨rfl, storeOk_fresh _ _⟩
      | some row =>
        obtain ⟨hrow, hσ⟩ := persistSignedTransfer_returns hpersist
        exact ⟨rfl, ⟨row, hrow, hσ⟩, storeOk_of_find? hrow _⟩
    · rw [hresult]
      exact hs.setRequest (persistSignedTransfer_step hpersist) ⟨rfl, storeOk_fresh _ _⟩
  · cases h

theorem markStarted_advances (hs : Sound s) {id : String} {now : Nat} {outcome : CallOutcome}
    (h : requestStep s id (.markStarted now outcome) = some s') : Advances s s' := by
  unfold requestStep at h
  dsimp only at h
  split at h
  · next transfer submission store hreq =>
    cases h
    obtain ⟨rfl, hσ, hstore⟩ : _ ∧ _ ∧ _ := hs.request hreq
    have ht := markTransferSubmissionStarted_step s.db.transfers transfer.id transfer.organizationId
      transfer.projectId now
    have hreturns (row : PaymentTransferRow)
        (h : (markTransferSubmissionStarted s.db.transfers transfer.id transfer.organizationId transfer.projectId
          now).2 = some row) := markTransferSubmissionStarted_returns h
    generalize markTransferSubmissionStarted s.db.transfers transfer.id transfer.organizationId
      transfer.projectId now = started at ht hreturns ⊢
    have hfailing (error : ExecutionError) :
        RequestOk started.1 transfer.id (.failing transfer { store with startState := .unknown } error) :=
      ⟨rfl, hstore.step ht⟩
    cases outcome with
    | failed => exact hs.setRequest (.refl _) ⟨rfl, hstore⟩
    | lost => exact hs.setRequest ht (hfailing callFailed)
    | answered =>
      refine hs.setRequest ht ?_
      obtain ⟨t, row⟩ := started
      cases row with
      | none => exact hfailing notStarted
      | some row =>
        obtain ⟨hrow, hstarted⟩ := hreturns row rfl
        obtain ⟨row', hrow', hσ⟩ := ht.holds hσ
        obtain rfl : row' = row := Option.some.inj (hrow'.symm.trans hrow)
        exact ⟨rfl, ⟨row', hrow, hσ, hstarted⟩, storeOk_of_find? hrow _⟩
  · cases h

theorem hasStarted_advances (hs : Sound s) {id : String} (h : requestStep s id .hasStarted = some s') :
    Advances s s' := by
  unfold requestStep at h
  dsimp only at h
  split at h
  · next transfer store error hreq =>
    split at h
    · cases h
      obtain ⟨rfl, hstore⟩ : _ ∧ _ := hs.request hreq
      refine hs.setRequest (.refl _) ⟨rfl, ?_⟩
      cases hget : getTransferById s.db.transfers transfer.id transfer.organizationId transfer.projectId with
      | none => exact hstore
      | some row => exact storeOk_of_find? (Option.filter_eq_some_iff.mp hget).1 _
    · cases h
  · cases h

theorem broadcast_advances (hs : Sound s) {id : String} (h : requestStep s id .broadcast = some s') :
    Advances s s' := by
  unfold requestStep at h
  dsimp only at h
  split at h
  · next transfer submission store hreq =>
    cases h
    obtain ⟨-, ⟨r, hr, hσ, hstarted⟩, -⟩ : _ ∧ _ ∧ _ := hs.request hreq
    have hsent (σ : String) (h : (s.chain.sent σ).isSome) : ((s.chain.send submission).sent σ).isSome := by
      unfold Chain.send
      by_cases hσ' : σ = submission.signature
      · simp [hσ']
      · simpa [hσ'] using h
    exact {
      table := .refl _
      chain := fun _ _ h => h
      requests := fun _ => .inl rfl
      sent := fun σ hsome => by
        by_cases hσ' : σ = submission.signature
        · exact .inr ⟨id, r, hr, hσ' ▸ hσ, .inl hstarted⟩
        · exact .inl (by simpa [Chain.send, hσ'] using hsome)
      landed := fun σ hl => hsent σ (hs.landed σ hl)
      runs := fun _ => .inl rfl }
  · cases h

theorem confirm_advances (hs : Sound s) {id : String} {slot now : Nat} {outcome : CallOutcome}
    (h : requestStep s id (.confirm slot now outcome) = some s') : Advances s s' := by
  unfold requestStep at h
  dsimp only at h
  split at h
  · next transfer submission store hreq =>
    split at h
    · cases h
      obtain ⟨rfl, ⟨r, hr, hσ, -⟩, hstore⟩ : _ ∧ _ ∧ _ := hs.request hreq
      generalize hupdate : updateTransferRecord s.db transfer .confirmed (some submission.signature) (some slot)
        none now = result
      have ht : TableStep s.db.transfers (outcome.apply s.db (result.map (·, ()))).1.transfers := by
        rcases outcome.apply_db s.db result with hsame | hok
        · rw [hsame]
          exact .refl _
        · subst hupdate
          refine (TransferDatabase.update_settles (by rfl) ?_ hok).step
          rintro _ ⟨⟩
          exact ⟨r, hr, hσ⟩
      refine hs.setRequest ht ?_
      split
      · trivial
      · exact ⟨rfl, hstore.step ht⟩
    · cases h
  · cases h

theorem settleTransferExecutionFailure_step {db db' : TransferDatabase} {transfer : PaymentTransferRow}
    {store : SubmissionStore} {error : ExecutionError} {now : Nat} (hstore : StoreOk db.transfers transfer.id store)
    (h : settleTransferExecutionFailure db transfer store error now = .ok db') :
    TableStep db.transfers db'.transfers := by
  unfold settleTransferExecutionFailure at h
  dsimp only at h
  split at h
  · cases h
    exact .refl _
  · split at h
    · exact (settleTransferBatch_settles h).step
    · refine (TransferDatabase.update_settles (by rfl) ?_ h).step
      -- The signature that it writes is the one of a row that it read.
      intro σ hσ
      obtain ⟨row, hrow, hσ⟩ := Option.bind_eq_some_iff.mp hσ
      unfold SubmissionStore.submittedRow at hrow
      split at hrow
      · cases hrow
      · obtain ⟨hid, hread⟩ := hstore row hrow
        exact hid ▸ hread σ hσ

theorem settleFailure_advances (hs : Sound s) {id : String} {now : Nat} {outcome : CallOutcome}
    (h : requestStep s id (.settleFailure now outcome) = some s') : Advances s s' := by
  unfold requestStep at h
  dsimp only at h
  split at h
  · next transfer store error hreq =>
    cases h
    obtain ⟨rfl, hstore⟩ : _ ∧ _ := hs.request hreq
    refine hs.setRequest ?_ trivial
    rcases outcome.apply_db s.db (settleTransferExecutionFailure s.db transfer store error now) with hsame | hok
    · rw [hsame]
      exact .refl _
    · exact settleTransferExecutionFailure_step hstore hok
  · cases h

theorem requestStep_advances (hs : Sound s) {id : String} {e : RequestEvent} (h : requestStep s id e = some s') :
    Advances s s' := by
  cases e with
  | create input recipients now =>
    unfold requestStep at h
    dsimp only at h
    split at h
    · next hreq hnew =>
      cases h
      exact hs.setRequest (createTransfer_step hnew input now) rfl
    · cases h
  | persistSigned submission now outcome => exact persistSigned_advances hs h
  | markStarted now outcome => exact markStarted_advances hs h
  | hasStarted => exact hasStarted_advances hs h
  | broadcast => exact broadcast_advances hs h
  | confirm slot now outcome => exact confirm_advances hs h
  | fail error =>
    unfold requestStep at h
    dsimp only at h
    split at h
    · next hreq =>
      cases h
      exact hs.setRequest (.refl _) ⟨hs.request hreq, storeOk_fresh _ _⟩
    · next hreq =>
      cases h
      obtain ⟨hid, -, hstore⟩ : _ ∧ _ ∧ _ := hs.request hreq
      exact hs.setRequest (.refl _) ⟨hid, hstore⟩
    · next hreq =>
      cases h
      obtain ⟨hid, -, hstore⟩ : _ ∧ _ ∧ _ := hs.request hreq
      exact hs.setRequest (.refl _) ⟨hid, hstore⟩
    · cases h
  | settleFailure now outcome => exact settleFailure_advances hs h
  | stop =>
    unfold requestStep at h
    dsimp only at h
    split at h
    · cases h
    · cases h
      exact hs.setRequest (.refl _) trivial

theorem chainStep_advances (hs : Sound s) {e : ChainEvent} {c : Chain} (h : chainStep s.chain e = some c) :
    Advances s { s with chain := c } := by
  cases e with
  | grow blocks =>
    cases h
    exact ⟨.refl _, fun _ _ h => h, fun _ => .inl rfl, fun _ h => .inl h, hs.landed, fun _ => .inl rfl⟩
  | land signature err =>
    simp only [chainStep, Chain.land?] at h
    split at h
    · next hland =>
      cases h
      obtain ⟨hsent, hnew⟩ := hland
      refine ⟨.refl _, ?_, fun _ => .inl rfl, fun _ h => .inl h, ?_, fun _ => .inl rfl⟩
      · intro σ e hl
        have hne : σ ≠ signature := by
          rintro rfl
          rw [hnew] at hl
          cases hl
        simpa [hne] using hl
      · intro σ hl
        by_cases hσ : σ = signature
        · subst hσ
          exact Option.isSome_of_any hsent
        · exact hs.landed σ (by simpa [hσ] using hl)
    · cases h

end Steps

/-! ## The runs keep it -/

section Runs

variable {t : TransferTable} {c : Chain} {run : TrackerRun}

theorem listTransfersByStatus_read {input : ListTransfersByStatusInput} {row : PaymentTransferRow}
    (h : row ∈ listTransfersByStatus t input) : ReadOk t row := by
  have hlisted := (List.mem_insertionSort _).mp (List.mem_of_mem_take h)
  exact readOk_of_find? (Table.mem_rows_iff.mp (List.mem_filter.mp hlisted).1)

theorem mem_of_withStatuses {rows : List PaymentTransferRow} {statuses : List (Option SignatureStatusInfo)}
    {row : PaymentTransferRow × Option SignatureStatusInfo} (h : row ∈ withStatuses rows statuses) :
    row.1 ∈ rows := by
  induction rows generalizing statuses with
  | nil => cases h
  | cons r rows ih =>
    cases statuses with
    | nil =>
      rcases List.mem_cons.mp h with rfl | h
      · exact List.mem_cons_self
      · exact List.mem_cons_of_mem _ (ih h)
    | cons status statuses =>
      rcases List.mem_cons.mp h with rfl | h
      · exact List.mem_cons_self
      · exact List.mem_cons_of_mem _ (ih h)

theorem writeOk_timeOut {row : PaymentTransferRow} (h : ReadOk t row) : WriteOk t c (.timeOut row) := ⟨h, nofun⟩

theorem writeOk_keep {row : PaymentTransferRow} (h : ReadOk t row) : WriteOk t c (.keep row) := ⟨h, nofun⟩

theorem writeOk_verdict {row : PaymentTransferRow} {status : Option SignatureStatusInfo} (h : ReadOk t row)
    (hr : c.reports row.signature status = true) : WriteOk t c (.verdict row status) := by
  refine ⟨h, fun info hinfo => ?_⟩
  obtain rfl : status = some info := (TrackerWrite.verdict.inj hinfo).2
  exact hr

theorem WriteOk.unresolved {w w' : TrackerWrite} (h : WriteOk t c w) (hw : w' ∈ w.unresolved) : WriteOk t c w' := by
  cases w with
  | timeOut | keep => cases hw
  | verdict row status =>
    simp only [TrackerWrite.unresolved] at hw
    split at hw
    · cases hw
    · obtain rfl := List.mem_singleton.mp hw
      exact writeOk_keep h.read

theorem TrackerRun.start_ok (now : Nat) : RunOk t c (.start t now) where
  writes := by
    intro w hw
    obtain ⟨row, hrow, rfl⟩ := List.mem_map.mp hw
    exact writeOk_timeOut (listTransfersByStatus_read hrow)
  rows := by rintro _ ⟨⟩

theorem TrackerRun.afterList_ok (isSignature : String → Bool) : RunOk t c (run.afterList isSignature t) where
  writes := by
    intro w hw
    obtain ⟨row, hrow, rfl⟩ := List.mem_map.mp hw
    exact writeOk_keep (listTransfersByStatus_read (List.mem_of_mem_filter hrow))
  rows := by
    intro row hrow
    unfold afterList at hrow
    dsimp only at hrow
    split at hrow
    · cases hrow
    · exact listTransfersByStatus_read (List.mem_of_mem_filter hrow)

theorem TrackerRun.afterPoll_ok {rows : List (PaymentTransferRow × Option SignatureStatusInfo)}
    (hread : ∀ row ∈ rows, ReadOk t row.1) (hr : ∀ row ∈ rows, c.reports row.1.signature row.2 = true) :
    RunOk t c (run.afterPoll rows) where
  writes := by
    intro w hw
    obtain ⟨row, hrow, rfl⟩ := List.mem_map.mp hw
    have hrow := List.mem_of_mem_filter hrow
    exact writeOk_verdict (hread row hrow) (hr row hrow)
  rows := by
    intro _ hmiss
    obtain ⟨row, hrow, rfl⟩ := List.mem_map.mp hmiss
    exact hread row (List.mem_of_mem_filter hrow)

theorem TrackerRun.afterSweep_ok {rows : List PaymentTransferRow} (hread : ∀ row ∈ rows, ReadOk t row) (now : Nat) :
    RunOk t c (run.afterSweep rows now) where
  writes := by
    intro w hw
    obtain ⟨row, hrow, rfl⟩ := List.mem_map.mp hw
    exact writeOk_verdict (hread row (List.mem_of_mem_filter hrow)) rfl
  rows := by
    intro row hrow
    unfold afterSweep at hrow
    dsimp only at hrow
    split at hrow
    · cases hrow
    · exact hread row (List.mem_of_mem_filter hrow)

theorem TrackerRun.afterMeasure_ok {rows : List PaymentTransferRow} (hread : ∀ row ∈ rows, ReadOk t row)
    (currentBlockHeight : Option Nat) : RunOk t c (run.afterMeasure rows currentBlockHeight) := by
  cases currentBlockHeight with
  | none =>
    refine ⟨fun w hw => ?_, by rintro _ ⟨⟩⟩
    obtain ⟨row, hrow, rfl⟩ := List.mem_map.mp hw
    exact writeOk_keep (hread row hrow)
  | some height =>
    constructor
    · intro w hw
      obtain ⟨row, hrow, rfl⟩ := List.mem_map.mp hw
      exact writeOk_verdict (hread row (List.mem_of_mem_filter (List.mem_of_mem_filter hrow))) rfl
    · intro row hrow
      exact hread row (List.mem_of_mem_filter (List.mem_of_mem_filter hrow))

theorem TrackerRun.afterArchive_ok {candidates : List PaymentTransferRow}
    (hread : ∀ row ∈ candidates, ReadOk t row)
    {rows : Option (List (PaymentTransferRow × Option SignatureStatusInfo))}
    (hrows : ∀ rows' ∈ rows, ∀ row ∈ rows', row.1 ∈ candidates ∧ c.archives row.1.signature row.2 = true) :
    RunOk t c (run.afterArchive candidates rows) := by
  cases rows with
  | none =>
    refine ⟨fun w hw => ?_, by rintro _ ⟨⟩⟩
    obtain ⟨row, hrow, rfl⟩ := List.mem_map.mp hw
    exact writeOk_keep (hread row hrow)
  | some rows =>
    refine ⟨fun w hw => ?_, by rintro _ ⟨⟩⟩
    obtain ⟨row, hrow, rfl⟩ := List.mem_map.mp hw
    obtain ⟨hcandidate, harchives⟩ := hrows rows rfl row hrow
    split
    · exact writeOk_verdict (hread _ hcandidate) (Bool.and_eq_true_iff.mp harchives).1
    · exact writeOk_keep (hread _ hcandidate)

end Runs

theorem phaseStep_ok {s : System} {isSignature : String → Bool} {run run' : TrackerRun} {e : TrackerEvent}
    (hrun : RunOk s.db.transfers s.chain run) (h : phaseStep isSignature s run e = some run') :
    RunOk s.db.transfers s.chain run' := by
  obtain ⟨nowIso, writes, next⟩ := run
  have hread := hrun.rows
  cases e with
  | listSigned =>
    unfold phaseStep at h
    dsimp only at h
    split at h
    · cases h
      exact TrackerRun.afterList_ok isSignature
    · cases h
  | poll statuses =>
    unfold phaseStep at h
    dsimp only at h
    split at h
    · next rows =>
      cases statuses with
      | none =>
        cases h
        exact ⟨hrun.writes, by rintro _ ⟨⟩⟩
      | some statuses =>
        dsimp only at h
        split at h
        · next hall =>
          cases h
          exact TrackerRun.afterPoll_ok (fun row hrow => hread _ (mem_of_withStatuses hrow))
            (List.all_eq_true.mp hall)
        · cases h
    · cases h
  | sweep now =>
    unfold phaseStep at h
    dsimp only at h
    split at h
    · cases h
      exact TrackerRun.afterSweep_ok hread now
    · cases h
  | measure currentBlockHeight =>
    unfold phaseStep at h
    dsimp only at h
    split at h
    · split at h
      · cases h
        exact TrackerRun.afterMeasure_ok hread currentBlockHeight
      · cases h
    · cases h
  | archive statuses =>
    unfold phaseStep at h
    dsimp only at h
    split at h
    · next candidates =>
      cases statuses with
      | none =>
        cases h
        exact TrackerRun.afterArchive_ok hread (by rintro _ ⟨⟩)
      | some statuses =>
        dsimp only at h
        split at h
        · next hall =>
          cases h
          refine TrackerRun.afterArchive_ok hread ?_
          rintro _ ⟨⟩ row hrow
          exact ⟨mem_of_withStatuses hrow, List.all_eq_true.mp hall.2 row hrow⟩
        · cases h
    · cases h
  | track | write | abort => cases h

section Tracker

variable {s s' : System} {isSignature : String → Bool} {j : Nat}

theorem trackerStep_cases (hs : Sound s) {e : TrackerEvent} (h : trackerStep isSignature s j e = some s') :
    (∃ run, s' = s.setRun j run ∧ ∀ run' ∈ run, RunOk s.db.transfers s.chain run') ∨
      ∃ run w writes outcome, e = .write outcome ∧ s.runs j = some run ∧ run.writes = w :: writes ∧
        s' = writeStep s j run w writes outcome := by
  unfold trackerStep at h
  split at h
  · next now _ =>
    cases h
    refine .inl ⟨_, rfl, ?_⟩
    rintro _ ⟨⟩
    exact TrackerRun.start_ok now
  · cases h
    exact .inl ⟨none, rfl, by rintro _ ⟨⟩⟩
  · next run outcome hrun =>
    split at h
    · next w writes hwrites =>
      cases h
      exact .inr ⟨run, w, writes, outcome, rfl, hrun, hwrites, rfl⟩
    · cases h
  · next run hrun _ _ =>
    split at h
    · obtain ⟨run', hphase, rfl⟩ := Option.map_eq_some_iff.mp h
      refine .inl ⟨some run', rfl, ?_⟩
      rintro _ ⟨⟩
      exact phaseStep_ok (hs.runs j run hrun) hphase
    · cases h
  · cases h

theorem writeStep_settles (run : TrackerRun) (w : TrackerWrite) (writes : List TrackerWrite)
    (outcome : CallOutcome) :
    SettlesTo s.db.transfers (writeStep s j run w writes outcome).db.transfers w.transfer.id w.Leaves := by
  unfold writeStep
  split
  · exact .inl fun _ => rfl
  · next written hexec =>
    rcases outcome.apply_db s.db written with hsame | hok
    · exact .inl fun id => by simp only [System.setRun, hsame]
    · exact TrackerWrite.exec_settles (hok ▸ hexec)

theorem writeStep_advances (hs : Sound s) {run : TrackerRun} {w : TrackerWrite} {writes : List TrackerWrite}
    (hrun : s.runs j = some run) (hwrites : run.writes = w :: writes) (outcome : CallOutcome) :
    Advances s (writeStep s j run w writes outcome) := by
  have ht := (writeStep_settles (s := s) (j := j) run w writes outcome).step
  have hok := hs.runs j run hrun
  -- What is left of the run, with or without the write that follows a failed one.
  have hrest (writes' : List TrackerWrite) (h : writes' = writes ∨ writes' = w.unresolved ++ writes) :
      RunOk s.db.transfers s.chain { run with writes := writes' } := by
    refine ⟨fun w' hw' => ?_, hok.rows⟩
    have hcons {w'} (hw' : w' ∈ writes) : WriteOk s.db.transfers s.chain w' :=
      hok.writes w' (hwrites ▸ List.mem_cons_of_mem _ hw')
    rcases h with rfl | rfl
    · exact hcons hw'
    · rcases List.mem_append.mp hw' with hw' | hw'
      · exact (hok.writes w (hwrites ▸ List.mem_cons_self)).unresolved hw'
      · exact hcons hw'
  unfold writeStep at ht ⊢
  split at ht
  · next hexec =>
    refine hs.setRun (.refl _) s.markedFailed ?_
    rintro _ ⟨⟩
    exact hrest _ (.inr rfl)
  · next hexec =>
    refine hs.setRun ht _ ?_
    rintro _ ⟨⟩
    refine (hrest _ ?_).step ht fun _ _ h => h
    split
    · exact .inl rfl
    · exact .inr rfl

theorem transferStep_advances (hs : Sound s) {e : TransferEvent} (h : transferStep isSignature s e = some s') :
    Advances s s' := by
  cases e with
  | request id e => exact requestStep_advances hs h
  | chain e =>
    obtain ⟨c, hc, rfl⟩ := Option.map_eq_some_iff.mp h
    exact chainStep_advances hs hc
  | run j e =>
    rcases trackerStep_cases hs h with ⟨run, rfl, hok⟩ | ⟨run, w, writes, outcome, -, hrun, hwrites, rfl⟩
    · exact hs.setRun (.refl _) s.markedFailed hok
    · exact writeStep_advances hs hrun hwrites outcome

end Tracker

end Sdp.Payments
