import Sdp.TransferTracker
import Sdp.Lib.Run

/-!
# When reconciliation fails a transfer

A tracker run fails a transfer without a word from the chain when the row that it read had not
started. The write only asks that the row is still processing, so the request may have started and
broadcast in between. When every such write finds a row that has still not started, a transfer that
a run failed did not land and never will.
-/

open Sdp.Lib

namespace Sdp.Payments

/-- No request and no run is under way. Rows from before the outbox may be there, and the chain may know their
transactions. -/
structure Start (s : System) : Prop where
  requests : ∀ id, s.requests id = .idle
  runs : ∀ j, s.runs j = none
  unmarked : ∀ id, s.markedFailed id = false
  unique : UniqueSignatures s.db.transfers
  unsigned : ∀ id, ∀ r ∈ s.db.transfers.find? id, r.signedTransaction = none
  sent : ∀ σ, (s.chain.sent σ).isSome → ∃ id, Holds s.db.transfers id σ
  landed : ∀ σ, (s.chain.landed σ).isSome → (s.chain.sent σ).isSome

theorem Start.sound {s : System} (h : Start s) : Sound s where
  unique := h.unique
  requests := fun id => by
    rw [h.requests id]
    trivial
  sent := fun σ hσ => by
    obtain ⟨id, r, hr, hσ⟩ := h.sent σ hσ
    exact ⟨id, r, hr, hσ, .inr (h.unsigned id r hr)⟩
  landed := h.landed
  runs := fun j run hrun => by
    rw [h.runs j] at hrun
    cases hrun

/-- A transfer that has neither started nor is from before the outbox. -/
def Unstarted (r : PaymentTransferRow) : Prop :=
  r.submissionStartedAt = none ∧ (r.signature.isSome → r.signedTransaction.isSome)

instance (r : PaymentTransferRow) : Decidable (Unstarted r) :=
  inferInstanceAs (Decidable (_ ∧ (_ → _)))

/-- The transfer that a run is about to fail blindly has still not started. -/
def StillUnstarted (s : System) : TransferEvent → Prop
  | .run j (.write _) =>
    ∀ run ∈ s.runs j, ∀ w ∈ run.writes.head?, w.blind = true →
      ∀ r ∈ s.db.transfers.find? w.transfer.id, r.status = .processing → Unstarted r
  | _ => True

/-- Failed before it started, or with the error that the chain reported. -/
def FailedSafely (s : System) (id : String) : Prop :=
  RowAt s.db.transfers id fun r => r.status = .failed ∧
    (Unstarted r ∨ ∃ σ e, r.signature = some σ ∧ s.chain.landed σ = some (some e) ∧ r.error = some e)

section Failed

variable {s s' : System} {isSignature : String → Bool} {id : String}

theorem FailedSafely.step (h : FailedSafely s id) (ha : Advances s s') : FailedSafely s' id := by
  obtain ⟨r, hr, hfailed, hsafe⟩ := h
  refine ⟨r, ha.table.settled hr (by simp [hfailed]), hfailed, ?_⟩
  rcases hsafe with hsafe | ⟨σ, e, hσ, hl, he⟩
  · exact .inl hsafe
  · exact .inr ⟨σ, e, hσ, ha.chain σ _ hl, he⟩

theorem requestStep_markedFailed {e : RequestEvent} (h : requestStep s id e = some s') :
    s'.markedFailed = s.markedFailed := by
  cases e
  all_goals
    simp only [requestStep] at h
    repeat' split at h
    all_goals first | cases h; rfl | cases h

theorem writeStep_marks (hs : Sound s) {j : Nat} {run : TrackerRun} {w : TrackerWrite} {writes : List TrackerWrite}
    {outcome : CallOutcome} (hrun : s.runs j = some run) (hwrites : run.writes = w :: writes)
    (hok : StillUnstarted s (.run j (.write outcome)))
    (hm : (writeStep s j run w writes outcome).markedFailed id = true) :
    s.markedFailed id = true ∨ FailedSafely (writeStep s j run w writes outcome) id := by
  have hsettles := writeStep_settles (s := s) (j := j) run w writes outcome
  have hchain : (writeStep s j run w writes outcome).chain = s.chain := by
    unfold writeStep
    split <;> rfl
  have hnew : s.markedFailed id = true ∨
      isFailed (writeStep s j run w writes outcome).db.transfers id = true ∧ isFailed s.db.transfers id = false := by
    unfold writeStep at hm ⊢
    split at hm
    · exact .inl hm
    · simpa [System.setRun] using hm
  rcases hnew with hm | ⟨hafter, hbefore⟩
  · exact .inl hm
  · refine .inr ?_
    rcases hsettles with hsame | ⟨r, r', hr, hset, hrow, hleaves⟩
    · unfold isFailed at hafter hbefore
      rw [hsame, hbefore] at hafter
      cases hafter
    · -- Only the row of the write changed.
      obtain rfl : id = w.transfer.id := by
        by_contra hid
        unfold isFailed at hafter hbefore
        rw [hrow, if_neg hid, hbefore] at hafter
        cases hafter
      have hr' := hrow w.transfer.id
      rw [if_pos rfl] at hr'
      have hfailed : r'.status = .failed := by simpa [isFailed, hr'] using hafter
      refine ⟨r', hr', hfailed, ?_⟩
      rcases hleaves hfailed with hblind | ⟨info, e, hw, he, hre⟩
      · have hstill := hok run hrun w (by simp [hwrites]) hblind r hr hset.processing
        exact .inl ⟨hset.started.trans hstill.1, by rw [hset.signature, hset.signedTransaction]; exact hstill.2⟩
      · have hwok := (hs.runs j run hrun).writes w (hwrites ▸ List.mem_cons_self)
        obtain ⟨σ, hσ, hl⟩ := Option.any_eq_true _ _ |>.mp (hwok.reported info hw)
        obtain ⟨r₀, hr₀, hσ₀⟩ := hwok.read σ hσ
        obtain rfl : r₀ = r := Option.some.inj (hr₀.symm.trans hr)
        refine .inr ⟨σ, e, hset.signature.trans hσ₀, ?_, hre⟩
        rw [hchain, of_decide_eq_true hl, he]

theorem transferStep_marks (hs : Sound s) {e : TransferEvent} (h : transferStep isSignature s e = some s')
    (hok : StillUnstarted s e) (hm : s'.markedFailed id = true) : s.markedFailed id = true ∨ FailedSafely s' id := by
  cases e with
  | request id' e => exact .inl (requestStep_markedFailed h ▸ hm)
  | chain e =>
    obtain ⟨c, -, rfl⟩ := Option.map_eq_some_iff.mp h
    exact .inl hm
  | run j e =>
    rcases trackerStep_cases hs h with ⟨run, rfl, -⟩ | ⟨run, w, writes, outcome, rfl, hrun, hwrites, rfl⟩
    · exact .inl hm
    · exact writeStep_marks hs hrun hwrites hok hm

/-- The transfer is failed, its request can send no other transaction than the one on its row, and that one has not
landed, or with the execution error that its row names. -/
def Undelivered (s : System) (id : String) : Prop :=
  RowAt s.db.transfers id fun r => r.status = .failed ∧
    (∀ transfer submission store, s.requests id = .started transfer submission store →
      r.signature = some submission.signature) ∧
    ∀ σ ∈ r.signature, ∀ err, s.chain.landed σ = some err → ∃ e, err = some e ∧ r.error = some e

theorem FailedSafely.undelivered (hs : Sound s) (h : FailedSafely s id) : Undelivered s id := by
  obtain ⟨r, hr, hfailed, hsafe⟩ := h
  refine ⟨r, hr, hfailed, fun transfer submission store hreq => ?_, fun σ hσ err hl => ?_⟩
  · obtain ⟨-, ⟨r', hr', hσ, -⟩, -⟩ : _ ∧ _ ∧ _ := hs.request hreq
    obtain rfl : r' = r := Option.some.inj (hr'.symm.trans hr)
    exact hσ
  · rcases hsafe with ⟨hstarted, hsigned⟩ | ⟨σ', e, hσ', hl', he⟩
    · -- Whatever landed was sent, and the row of what was sent has started.
      obtain ⟨id', r', hr', hσ', hsendable⟩ := hs.sent σ (hs.landed σ (by rw [hl]; rfl))
      obtain rfl : id' = id := hs.unique id' id σ ⟨r', hr', hσ'⟩ ⟨r, hr, hσ⟩
      obtain rfl : r' = r := Option.some.inj (hr'.symm.trans hr)
      rcases hsendable with h | h
      · rw [hstarted] at h
        cases h
      · have hsome := hsigned (by rw [hσ']; rfl)
        rw [h] at hsome
        cases hsome
    · obtain rfl : σ' = σ := Option.some.inj (hσ'.symm.trans hσ)
      obtain rfl : some e = err := Option.some.inj (hl'.symm.trans hl)
      exact ⟨e, rfl, he⟩

theorem reachable_failedSafely (h : Reachable (transferStep isSignature) Start StillUnstarted s) :
    Sound s ∧ ∀ id, s.markedFailed id = true → FailedSafely s id := by
  induction h with
  | start h => exact ⟨h.sound, fun id hm => by rw [h.unmarked id] at hm; cases hm⟩
  | step _ hok ht ih =>
    have ha := transferStep_advances ih.1 ht
    refine ⟨ih.1.step ha, fun id hm => ?_⟩
    rcases transferStep_marks ih.1 ht hok hm with hm | hsafe
    · exact (ih.2 id hm).step ha
    · exact hsafe

end Failed

/-- In a run whose blind failures all find a transfer that has still not started, a transfer that a tracker run marked
failed stays undelivered, whatever happens next. -/
theorem tracker_failure_stays_undelivered {isSignature : String → Bool} {s s' : System} {id : String}
    (h : Reachable (transferStep isSignature) Start StillUnstarted s) (hm : s.markedFailed id = true)
    (h' : Reachable (transferStep isSignature) (· = s) anyStep s') : Undelivered s' id := by
  obtain ⟨hs, hsafe⟩ := reachable_failedSafely h
  have hlater : Sound s' ∧ FailedSafely s' id := by
    refine h'.invariant (P := fun u => Sound u ∧ FailedSafely u id) ?_ ?_
    · rintro _ rfl
      exact ⟨hs, hsafe id hm⟩
    · intro u e u' _ hu _ ht
      have ha := transferStep_advances hu.1 ht
      exact ⟨hu.1.step ha, hu.2.step ha⟩
  exact hlater.2.undelivered hlater.1

/-! ## A transfer that times out -/

def emptySystem : System where
  db := ⟨Table.empty, fun _ => []⟩
  chain := ⟨0, fun _ => none, fun _ => none⟩
  requests := fun _ => .idle
  runs := fun _ => none
  markedFailed := fun _ => false

theorem emptySystem_start : Start emptySystem where
  requests := fun _ => rfl
  runs := fun _ => rfl
  unmarked := fun _ => rfl
  unique := by rintro id id' σ ⟨r, hr, -⟩; cases hr
  unsigned := by rintro id r ⟨⟩
  sent := fun _ h => by cases h
  landed := fun _ h => by cases h

def anySignature (_ : String) : Bool := true

/-- A transfer whose request died, five minutes later. -/
def stuckTransfer : List TransferEvent :=
  [.request "xfr_1" (.create ⟨"org_1", some "prj_1", .transfer⟩ 0 0), .run 0 (.track 300001)]

def sampleSubmission : SignedSubmission := ⟨"sig_1", "AQID", 150⟩

/-- A request that still goes on. -/
def submitTransfer : List TransferEvent :=
  [.request "xfr_1" (.persistSigned sampleSubmission 300002 .answered),
    .request "xfr_1" (.markStarted 300003 .answered), .request "xfr_1" .broadcast, .chain (.land "sig_1" none)]

def stuckSystem : System := (run (transferStep anySignature) emptySystem stuckTransfer).getD emptySystem

def timedOutSystem : System :=
  (transferStep anySignature stuckSystem (.run 0 (.write .answered))).getD emptySystem

/-- The request comes back and finds its transfer failed. -/
def lateSystem : System :=
  (transferStep anySignature timedOutSystem
    (.request "xfr_1" (.persistSigned sampleSubmission 300002 .answered))).getD emptySystem

theorem timedOutSystem_undelivered :
    timedOutSystem.markedFailed "xfr_1" = true ∧ Undelivered lateSystem "xfr_1" := by
  have hstuck : Reachable (transferStep anySignature) Start StillUnstarted stuckSystem := by
    refine Reachable.run_of (.start emptySystem_start) (fun u e he => ?_) (by rfl : run _ _ stuckTransfer = _)
    rcases List.mem_pair.mp he with rfl | rfl <;> trivial
  have hstill : StillUnstarted stuckSystem (.run 0 (.write .answered)) := by
    rintro _ ⟨⟩ w ⟨⟩ - r hr -
    obtain rfl : createdTransfer "xfr_1" ⟨"org_1", some "prj_1", .transfer⟩ 0 = r := Option.some.inj hr
    decide
  have htimedOut : Reachable (transferStep anySignature) Start StillUnstarted timedOutSystem :=
    hstuck.step hstill rfl
  have hpersist : transferStep anySignature timedOutSystem
      (.request "xfr_1" (.persistSigned sampleSubmission 300002 .answered)) = some lateSystem := rfl
  have hlate : Reachable (transferStep anySignature) (· = timedOutSystem) anyStep lateSystem :=
    .step (.start rfl) trivial hpersist
  exact ⟨by decide, tracker_failure_stays_undelivered htimedOut (by decide) hlate⟩

def landedSystem : System :=
  (run (transferStep anySignature) emptySystem
    (stuckTransfer ++ submitTransfer ++ [.run 0 (.write .answered)])).getD emptySystem

/-- The request signs, starts and lands between the read and the write of a tracker run. -/
theorem stale_timeOut_fails_landed_payment :
    ¬ ∀ (isSignature : String → Bool) (s : System) (id : String),
      Reachable (transferStep isSignature) Start anyStep s → s.markedFailed id = true → Undelivered s id := by
  intro h
  have hreach : Reachable (transferStep anySignature) Start anyStep landedSystem :=
    Reachable.run (.start emptySystem_start)
      (by rfl : run _ _ (stuckTransfer ++ submitTransfer ++ [.run 0 (.write .answered)]) = _)
  obtain ⟨r, hr, -, -, hlanded⟩ := h anySignature landedSystem "xfr_1" hreach (by decide)
  have hσ : (landedSystem.db.transfers.find? "xfr_1").bind (·.signature) = some "sig_1" := by decide
  rw [hr] at hσ
  obtain ⟨e, he, -⟩ := hlanded "sig_1" hσ none (by decide)
  cases he

-- The request starts between the read of a signed row and the block height that expires it.
example :
    (run (transferStep anySignature) emptySystem
      ([.request "xfr_1" (.create ⟨"org_1", some "prj_1", .transfer⟩ 0 0),
        .request "xfr_1" (.persistSigned sampleSubmission 1 .answered),
        .run 0 (.track 2), .run 0 .listSigned, .run 0 (.poll (some [none])), .run 0 (.sweep 3),
        .request "xfr_1" (.markStarted 4 .answered), .request "xfr_1" .broadcast, .chain (.land "sig_1" none),
        .chain (.grow 151), .run 0 (.measure (some 151)), .run 0 (.write .answered)])).any
      (fun s => s.markedFailed "xfr_1" && s.chain.landed "sig_1" = some none) = true := by decide

/-- A row from before the outbox whose transaction landed. -/
def legacySystem : System :=
  { emptySystem with
    db := ⟨⟨[{ createdTransfer "xfr_0" ⟨"org_1", some "prj_1", .transfer⟩ 0 with
      signature := some "sig_0", outbox_signature := fun _ => rfl }], List.nodup_singleton _⟩, fun _ => []⟩
    chain :=
      ⟨9, fun σ => if σ = "sig_0" then some 9 else none, fun σ => if σ = "sig_0" then some none else none⟩ }

-- A cache miss alone fails it.
example :
    (run (transferStep anySignature) legacySystem
      [.run 0 (.track 300001), .run 0 .listSigned, .run 0 (.poll (some [none])), .run 0 (.sweep 300001),
        .run 0 (.write .answered)]).any
      (fun s => s.markedFailed "xfr_0" && s.chain.landed "sig_0" = some none) = true := by decide

end Sdp.Payments
