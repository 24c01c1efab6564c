import Sdp.RecurringCollectors

/-!
# The steps of collectors and recoverers

Each step is one of the `Moves`. It marks an attempt failed only for a `Cause`.
-/

open Sdp.Lib

namespace Sdp.Collectors

open Payments Recurring

/-! ## Building moves -/

section Build

variable {s : System} (hinv : Inv s)
include hinv

theorem moves_rows {linked : Option String} {db : CollectionDatabase} (hrows : RowsStep none linked none s.db db)
    {w : Nat} {W : Worker} (hlinker : ∀ a, linked = some a → ∃ attempt, s.workers w = .claimed attempt ∧ attempt.id = a)
    (hattempt : ∀ a, W.attempt? = some a → (s.workers w).attempt? = some a) (hknows : Knows db W)
    (hunsent : Unsent { s with db } W) (harmed : ∀ a, Armed db a W → Armed s.db a (s.workers w)) :
    Moves none linked none s ({ s with db }.setWorker w W) w W where
  workers := rfl
  rows := hrows
  indexed := indexed_of_rowsStep hrows hinv.indexed
  landed := fun _ _ h => h
  broadcasts := fun _ h => .inl h
  attempt := fun a ha => .inl (hattempt a ha)
  new := by simp
  linker := hlinker
  knows := hknows
  unsent := hunsent.mono (fun _ _ h => h) fun _ h => h
  armed := fun a ha => .inl (harmed a ha)

theorem moves_worker {w : Nat} {W : Worker} (hattempt : ∀ a, W.attempt? = some a → (s.workers w).attempt? = some a)
    (hknows : Knows s.db W) (hunsent : Unsent s W) (harmed : ∀ a, Armed s.db a W → Armed s.db a (s.workers w)) :
    Moves none none none s (s.setWorker w W) w W :=
  moves_rows hinv (.refl hinv.consistent) (by simp) hattempt hknows hunsent harmed

theorem moves_none {t : System} (hworkers : t.workers = s.workers) (hrows : QuietStep s.db t.db)
    (hlanded : ∀ σ err, s.chain.landed σ = some err → t.chain.landed σ = some err)
    (hbroadcasts : t.broadcasts = s.broadcasts) : Moves none none none s t 0 (s.workers 0) where
  workers := by rw [hworkers, Function.update_eq_self]
  rows := hrows
  indexed := indexed_of_rowsStep hrows hinv.indexed
  landed := hlanded
  broadcasts := fun a ha => .inl (hbroadcasts ▸ ha)
  attempt := fun _ ha => .inl ha
  new := by simp
  linker := by simp
  knows := (hinv.knows 0).later hrows (by simp)
  unsent := (hinv.unsent 0).mono (fun a _ hmem => hbroadcasts ▸ hmem) fun a hf => by
    obtain ⟨transferId, σ, err, hsigned, hl⟩ := hf
    exact ⟨transferId, σ, err, hsigned.later hrows, hlanded σ _ hl⟩
  armed := fun _ ha => .inl (ha.back hrows (hinv.knows 0))

end Build

/-! ## What a step does -/

/-- Why a caller marks an attempt failed. -/
inductive Cause (s : System) (l : Step) (t : System) (w : Nat) (attempt : CollectionAttemptRow)
    (transfer : Option PaymentTransferRow) : Prop
  /-- The collection of the caller failed. -/
  | own (f : Failing) (hw : s.workers w = .failing f) (hf : f.attempt = attempt) (hjournaled : f.journaled = none)
      (hinterrupted : t.interrupted = s.interrupted)
  | onChain (r : PaymentTransferRow) (σ err : String) (hsigned : Signed s.db attempt.id r.id σ)
      (hlanded : s.chain.landed σ = some (some err)) (hinterrupted : t.interrupted = s.interrupted)
  | interrupted (submittedSignature : Option String) (message : String) (hl : l = .interrupt w)
      (hw : s.workers w = .interrupting attempt transfer submittedSignature message)
      (hinterrupted : t.interrupted =
        if (t.db.attempts.find? attempt.id).any (·.status = .failed) then attempt.id :: s.interrupted else s.interrupted)

inductive Effect (s : System) (l : Step) (t : System) : Prop
  /-- No attempt is marked failed. -/
  | quiet (created linked : Option String) (w : Nat) (W : Worker) (h : Moves created linked none s t w W)
      (hinterrupted : t.interrupted = s.interrupted)
  | marked (w : Nat) (attempt : CollectionAttemptRow) (transfer : Option PaymentTransferRow)
      (h : Moves none none (some attempt.id) s t w .done) (hbroadcasts : t.broadcasts = s.broadcasts)
      (hlinked : ∀ r, transfer = some r → LinkedTo s.db attempt.id r.id)
      (hrow : ∃ r, t.db.attempts.find? attempt.id = some r ∧
        (r.status = .confirmed ∨ r.status = .failed ∧ ∀ r', transfer = some r' → Failed t.db r'.id))
      (hcause : Cause s l t w attempt transfer)

section Step

variable {s t : System} (hinv : Inv s)
include hinv

theorem effect_mark {l : Step} {w : Nat} {attempt : CollectionAttemptRow} {transfer : Option PaymentTransferRow}
    {submittedSignature : Option String} {message : String} (hm : Markable s.db attempt transfer submittedSignature)
    {db : CollectionDatabase} (hmark : markRecurringPaymentCollectionFailedAtomically s.db attempt transfer
      submittedSignature message s.now = .ok db) {interrupted : List String}
    (hcause : Cause s l ({ s with db, interrupted }.setWorker w .done) w attempt transfer) :
    Effect s l ({ s with db, interrupted }.setWorker w .done) := by
  obtain ⟨hrows, hrow⟩ := markFailed_step hinv.consistent hm hmark
  refine .marked w attempt transfer ?_ rfl hm.linked hrow hcause
  refine ⟨rfl, hrows, indexed_of_rowsStep hrows hinv.indexed, fun _ _ h => h, fun _ h => .inl h, ?_, by simp, by simp,
    trivial, trivial, fun _ h => h.elim⟩
  intro a ha
  cases ha

theorem effect_done (l : Step) (w : Nat) : Effect s l (s.setWorker w .done) :=
  .quiet none none w .done (moves_worker hinv (fun a ha => by cases ha) trivial trivial fun _ h => h.elim) rfl

theorem effect_markFailed {l : Step} {w : Nat} {attempt : CollectionAttemptRow} {transfer : Option PaymentTransferRow}
    {submittedSignature : Option String} {message : String} (hm : Markable s.db attempt transfer submittedSignature)
    (hcause : ∀ db, Cause s l ({ s with db }.setWorker w .done) w attempt transfer) :
    Effect s l (s.markFailed w attempt transfer submittedSignature message) := by
  unfold System.markFailed
  split
  · next db hmark => exact effect_mark hinv hm hmark (hcause db)
  · exact effect_done hinv l w

/-! ## The steps -/

theorem effect_environment {l : Step} (hworkers : t.workers = s.workers) (hrows : QuietStep s.db t.db)
    (hlanded : ∀ σ err, s.chain.landed σ = some err → t.chain.landed σ = some err)
    (hbroadcasts : t.broadcasts = s.broadcasts) (hinterrupted : t.interrupted = s.interrupted) : Effect s l t :=
  .quiet none none 0 (s.workers 0) (moves_none hinv hworkers hrows hlanded hbroadcasts) hinterrupted

theorem effect_unarmed {l : Step} {db : CollectionDatabase} (hrows : QuietStep s.db db) {w : Nat} {W : Worker}
    (hattempt : ∀ a, W.attempt? = some a → (s.workers w).attempt? = some a) (hknows : Knows db W)
    (hunsent : Unsent { s with db } W) (harmed : ∀ a, ¬ Armed db a W) :
    Effect s l ({ s with db }.setWorker w W) :=
  .quiet none none w W (moves_rows hinv hrows (by simp) hattempt hknows hunsent fun a h => absurd h (harmed a)) rfl

theorem effect_land {signature : String} {err : Option String} (h : s.step (.land signature err) = some t) :
    Effect s (.land signature err) t := by
  obtain ⟨chain, hland, rfl⟩ := Option.map_eq_some_iff.mp h
  refine effect_environment hinv rfl (.refl hinv.consistent) (fun σ err' hσ => ?_) rfl rfl
  unfold Chain.land? at hland
  split at hland
  · next hnew =>
    cases hland
    have hne : σ ≠ signature := by
      rintro rfl
      rw [hnew.2] at hσ
      cases hσ
    exact (Function.update_of_ne hne _ _).trans hσ
  · cases hland

theorem effect_track {transferId : String} {expectedStatus status : PaymentTransferStatus}
    (h : s.step (.track transferId expectedStatus status) = some t) :
    Effect s (.track transferId expectedStatus status) t := by
  unfold System.step at h
  dsimp only at h
  split at h
  · next hstatus =>
    split at h
    · next transfers row hupdate =>
      cases h
      exact effect_environment hinv rfl (track_step hinv.consistent hstatus hupdate) (fun _ _ h => h) rfl rfl
    · cases h
  · cases h

theorem effect_create {w : Nat} {attemptId : String} {dueAt : Nat} (h : s.step (.create w attemptId dueAt) = some t) :
    Effect s (.create w attemptId dueAt) t := by
  unfold System.step at h
  dsimp only at h
  split at h
  · next hidle hnew =>
    let row := newAttempt s.db attemptId dueAt s.now
    obtain ⟨hreturns, hconflict⟩ := createCollectionAttempt_returns s.db.attempts row hnew
    split at h
    · next attempt hattempt =>
      cases h
      obtain rfl := hreturns attempt hattempt
      refine .quiet (some attemptId) none w _ ⟨rfl, create_step hinv.consistent row hnew rfl,
        create_indexed hinv.indexed row hnew, fun _ _ h => h, fun _ h => .inl h, fun a ha => .inr ha, ?_, by simp,
        ⟨_, hattempt, rfl⟩, ?_, fun a ha => .inr (congrArg some ha.1)⟩ rfl
      · rintro a ⟨⟩
        exact ⟨hnew, _, hattempt, rfl⟩
      · intro hmem
        obtain ⟨transferId, ⟨r, hr, -⟩, -⟩ := hinv.started _ hmem
        cases hnew.symm.trans hr
    · next hattempt =>
      cases h
      refine effect_environment hinv rfl ?_ (fun _ _ h => h) rfl rfl
      rw [hconflict hattempt]
      exact .refl hinv.consistent
  · cases h

omit hinv in
theorem knowsFailing_unsent {db : CollectionDatabase} {attempt : CollectionAttemptRow}
    {transfer : Option PaymentTransferRow} {store : SubmissionStore} {error : ExecutionError}
    (hlinked : ∀ r, transfer = some r → LinkedTo db attempt.id r.id)
    (hstore : ∀ row σ, store.row = some row → row.signature = some σ → Signed db attempt.id row.id σ) :
    Knows db (failingUnsent attempt transfer store error) :=
  ⟨⟨hlinked, by simp⟩, hstore⟩

theorem effect_link {w : Nat} {transferId : String} {outcome : CallOutcome}
    (h : s.step (.link w transferId outcome) = some t) : Effect s (.link w transferId outcome) t := by
  unfold System.step at h
  dsimp only at h
  split at h
  · next attempt hw hnew =>
    obtain ⟨hunlinked, hunsent⟩ := hinv.caller hw
    have hlinker : ∀ a, some attempt.id = some a → ∃ attempt, s.workers w = .claimed attempt ∧ attempt.id = a :=
      fun a ha => ⟨attempt, hw, Option.some.inj ha⟩
    split at h
    · next db attempt' transfer' hanswer =>
      cases h
      obtain ⟨hrows, hattempt, hlink, htransfer, hopen⟩ :=
        link_step hinv.consistent hnew hunlinked (answer_eq_ok hanswer)
      have hid : attempt'.id = attempt.id := Table.key_of_find? hattempt
      refine .quiet none _ w _ (moves_rows hinv hrows hlinker ?_ ?_ ?_ ?_) rfl
      · rw [hw]
        exact fun a ha => (congrArg some hid.symm).trans ha
      · refine ⟨?_, Table.seen_of_find? hattempt, Table.seen_of_find? htransfer⟩
        rw [hlink, Table.key_of_find? htransfer]
      · exact fun hmem => hunsent (hid ▸ hmem)
      · rw [hw]
        rintro a ⟨rfl, -⟩
        exact ⟨hid.symm, hid ▸ hopen⟩
    · next db error hanswer =>
      cases h
      have hrows : RowsStep none (some attempt.id) none s.db db := by
        rcases answer_eq_error hanswer with rfl | ⟨_, hlinked⟩
        · exact .refl hinv.consistent
        · exact (link_step hinv.consistent hnew hunlinked hlinked).1
      refine .quiet none _ w _ (moves_rows hinv hrows hlinker ?_ (knowsFailing_unsent (by simp) (by simp [SubmissionStore.fresh])) ?_
        fun a h => h.elim) rfl
      · rw [hw]
        exact fun a ha => ha
      · exact .inr (.inl hunsent)
  · cases h

theorem effect_persist {w : Nat} {submission : SignedSubmission} {outcome : CallOutcome}
    (h : s.step (.persist w submission outcome) = some t) : Effect s (.persist w submission outcome) t := by
  unfold System.step at h
  dsimp only at h
  split at h
  · next attempt transfer hw =>
    obtain ⟨hknows, hunsent⟩ := hinv.caller hw
    have hpair : ReadPair s.db attempt transfer := hknows
    have failing {db : CollectionDatabase} (hrows : QuietStep s.db db) (error : ExecutionError) :
        Effect s (.persist w submission outcome)
          ({ s with db }.setWorker w (failingUnsent attempt (some transfer) .fresh error)) := by
      refine effect_unarmed hinv hrows ?_ (knowsFailing_unsent ?_ (by simp [SubmissionStore.fresh])) (.inr (.inl hunsent))
        fun a h => h.elim
      · rw [hw]
        exact fun a ha => ha
      · rintro r ⟨⟩
        exact hrows.linkedTo hpair.linkedTo
    split at h
    · next db row hanswer =>
      cases h
      obtain ⟨hrows, hrow⟩ := persist_step hinv.consistent (answer_eq_ok hanswer)
      obtain ⟨hprocessing, hfind, hσ⟩ := hrow row rfl
      refine .quiet none none w _ (moves_rows hinv hrows (by simp) ?_ ?_ hunsent ?_) rfl
      · rw [hw]
        exact fun a ha => ha
      · exact ⟨hpair.later hrows, ⟨row, hfind, hσ⟩, Table.key_of_find? hfind, hσ⟩
      · rw [hw]
        exact fun a ha => ⟨ha.1, hprocessing⟩
    · next db hanswer =>
      cases h
      exact failing (persist_step hinv.consistent (answer_eq_ok hanswer)).1 notPersisted
    · next db error hanswer =>
      cases h
      rcases answer_eq_error hanswer with rfl | ⟨_, hpersist⟩
      · exact failing (.refl hinv.consistent) error
      · exact failing (persist_step hinv.consistent hpersist).1 error
  · cases h

theorem effect_start {w : Nat} {outcome : CallOutcome} (h : s.step (.start w outcome) = some t) :
    Effect s (.start w outcome) t := by
  unfold System.step at h
  dsimp only at h
  split at h
  · next c hw =>
    obtain ⟨hknows, hunsent⟩ := hinv.caller hw
    have hsubmitting : KnowsSubmitting s.db c := hknows
    have failing {db : CollectionDatabase} (hrows : QuietStep s.db db) (error : ExecutionError) :
        Effect s (.start w outcome)
          ({ s with db }.setWorker w (failingUnsent c.attempt (some c.transfer) ⟨some c.row, .unknown⟩ error)) := by
      refine effect_unarmed hinv hrows ?_ (knowsFailing_unsent ?_ ?_) (.inr (.inl hunsent)) fun a h => h.elim
      · rw [hw]
        exact fun a ha => ha
      · rintro r ⟨⟩
        exact hrows.linkedTo hsubmitting.pair.linkedTo
      · rintro row σ ⟨⟩ hσ
        exact (hsubmitting.store hσ).later hrows
    split at h
    · next db row hanswer =>
      cases h
      obtain ⟨hrows, hrow⟩ := start_step hinv.consistent (answer_eq_ok hanswer)
      obtain ⟨hprocessing, hfind, hstarted⟩ := hrow row rfl
      refine .quiet none none w _ (moves_rows hinv hrows (by simp) ?_ ?_ (fun _ => hunsent) ?_) rfl
      · rw [hw]
        exact fun a ha => ha
      · have hlater := hsubmitting.later hrows
        obtain ⟨r, hr, hσ⟩ := hlater.holds
        obtain rfl := Option.some.inj (hr.symm.trans hfind)
        exact ⟨⟨hlater.pair, ⟨r, hr, hσ⟩, Table.key_of_find? hr, hσ⟩, r, hr, hstarted⟩
      · rw [hw]
        exact fun a ha => ⟨ha, hprocessing⟩
    · next db hanswer =>
      cases h
      exact failing (start_step hinv.consistent (answer_eq_ok hanswer)).1 notStarted
    · next db error hanswer =>
      cases h
      rcases answer_eq_error hanswer with rfl | ⟨_, hstart⟩
      · exact failing (.refl hinv.consistent) error
      · exact failing (start_step hinv.consistent hstart).1 error
  · cases h

omit hinv in
theorem broadcast_fields (c : Submitting) (reached : Bool) :
    (s.broadcast c reached).db = s.db ∧ (s.broadcast c reached).chain.landed = s.chain.landed ∧
      (s.broadcast c reached).workers = s.workers ∧ (s.broadcast c reached).interrupted = s.interrupted ∧
      ∀ a ∈ (s.broadcast c reached).broadcasts, a ∈ s.broadcasts ∨ c.attempt.id = a := by
  unfold System.broadcast
  split
  · refine ⟨rfl, rfl, rfl, rfl, fun a ha => ?_⟩
    rcases List.mem_cons.mp ha with rfl | ha
    · exact .inr rfl
    · exact .inl ha
  · exact ⟨rfl, rfl, rfl, rfl, fun a ha => .inl ha⟩

theorem effect_broadcast {l : Step} {w : Nat} {c : Submitting} {saw : Bool} (hw : s.workers w = .started c saw)
    (reached : Bool) {W : Worker} (hattempt : W.attempt? = some c.attempt.id) (hknows : Knows s.db W)
    (hunsent : ∀ t, Unsent t W) : Effect s l ((s.broadcast c reached).setWorker w W) := by
  obtain ⟨hdb, hlanded, hworkers, hinterrupted, hbroadcasts⟩ := broadcast_fields (s := s) c reached
  have hrows : QuietStep s.db ((s.broadcast c reached).setWorker w W).db := by
    show QuietStep s.db (s.broadcast c reached).db
    rw [hdb]
    exact .refl hinv.consistent
  refine .quiet none none w W ⟨?_, hrows, indexed_of_rowsStep hrows hinv.indexed, fun σ err hσ => ?_, fun a ha => ?_,
    fun a ha => ?_, by simp, by simp, ?_, hunsent _, fun a ha => ?_⟩ hinterrupted
  · show Function.update (s.broadcast c reached).workers w W = _
    rw [hworkers]
  · show (s.broadcast c reached).chain.landed σ = some err
    rw [hlanded, hσ]
  · rcases hbroadcasts a ha with ha | ha
    · exact .inl ha
    · exact .inr ⟨c, saw, hw, ha⟩
  · rw [hw]
    exact .inl (hattempt.symm.trans ha)
  · show Knows (s.broadcast c reached).db W
    rw [hdb]
    exact hknows
  · rw [hw]
    exact .inl (Option.some.inj (hattempt.symm.trans ha.attempt?))

omit hinv in
theorem journaled_started {c : Submitting} {db : CollectionDatabase} (h : KnowsSubmitting db c)
    (submittedSignature : Option String) (message : String) :
    (Failing.mk c.attempt (some c.transfer) c.started submittedSignature ⟨message, false⟩).journaled =
      some (c.row.id, c.submission.signature) := by
  simp [Failing.journaled, Submitting.started, SubmissionStore.submittedRow, h.row.2]

theorem effect_send {w : Nat} {outcome : SendOutcome} (h : s.step (.send w outcome) = some t) :
    Effect s (.send w outcome) t := by
  unfold System.step at h
  dsimp only at h
  split at h
  · next c saw hw =>
    obtain ⟨⟨hknows, hstarted⟩, hunsent⟩ := hinv.caller hw
    have hfailing (error : ExecutionError) : Knows s.db (failingUnsent c.attempt (some c.transfer) c.started error) := by
      refine knowsFailing_unsent ?_ ?_
      · rintro r ⟨⟩
        exact hknows.pair.linkedTo
      · rintro row σ ⟨⟩ hσ
        exact hknows.store hσ
    split at h
    · cases h
      exact effect_broadcast hinv hw true rfl hknows fun _ => trivial
    · cases h
      exact effect_broadcast hinv hw _ rfl ⟨hknows, hstarted⟩ fun _ hfalse => by cases hfalse
    · next message =>
      cases h
      refine effect_unarmed hinv (.refl hinv.consistent) ?_ (hfailing _) ?_ fun a h => h.elim
      · rw [hw]
        exact fun a ha => ha
      · cases saw with
        | false => exact .inr (.inl (hunsent rfl))
        | true => exact .inl ⟨rfl, by rw [Bool.not_true, journaled_started hknows]; rfl⟩
    · next reached message =>
      cases h
      refine effect_broadcast hinv hw _ rfl (hfailing _) fun _ => .inl ⟨rfl, ?_⟩
      rw [journaled_started hknows]
      rfl
  · cases h

omit hinv in
theorem knowsFailing_sent {db : CollectionDatabase} {c : Submitting} (h : KnowsSubmitting db c) (error : ExecutionError) :
    Knows db (c.failing error) := by
  refine ⟨⟨?_, ?_⟩, ?_⟩
  · rintro r ⟨⟩
    exact h.pair.linkedTo
  · rintro σ ⟨⟩
    exact ⟨c.transfer, rfl, h.holds⟩
  · rintro row σ ⟨⟩ hσ
    exact h.store hσ

theorem effect_sentFailing {l : Step} {w : Nat} {c : Submitting} (hw : (s.workers w).attempt? = some c.attempt.id)
    (h : KnowsSubmitting s.db c) {error : ExecutionError} (herror : error.definite = false ∨ KnownFailed s c.attempt.id) :
    Effect s l (s.setWorker w (c.failing error)) := by
  refine effect_unarmed hinv (.refl hinv.consistent) (fun a ha => hw.trans ha) (knowsFailing_sent h error) ?_
    fun a h => h.elim
  rcases herror with hdefinite | hfailed
  · obtain ⟨message, definite⟩ := error
    obtain rfl : definite = false := hdefinite
    exact .inl ⟨rfl, by rw [journaled_started h]; rfl⟩
  · exact .inr (.inr hfailed)

theorem effect_recordAttempt {w : Nat} (h : s.step (.recordAttempt w) = some t) : Effect s (.recordAttempt w) t := by
  unfold System.step at h
  dsimp only at h
  split at h
  · next c hw =>
    have hknows : KnowsSubmitting s.db c := (hinv.caller hw).1
    split at h
    · next db row hwrite =>
      cases h
      obtain ⟨hrows, hrow⟩ := writeAttemptSignature_step hinv.consistent hknows.signed (by simp [recordUpdate])
        (by simp [recordUpdate]) rfl hwrite
      have hlater := hknows.later hrows
      -- The row that the update returned is the linked attempt as it is now.
      have hattempt : (row.getD c.attempt).id = c.attempt.id ∧ ReadPair db (row.getD c.attempt) c.transfer := by
        cases row with
        | none => exact ⟨rfl, hlater.pair⟩
        | some r =>
          have hr : db.attempts.find? c.attempt.id = some r := hrow r rfl
          obtain ⟨r', hr', hlink⟩ := hlater.pair.linkedTo
          obtain rfl := Option.some.inj (hr'.symm.trans hr)
          exact ⟨Table.key_of_find? hr, hlink, Table.seen_of_find? hr, hlater.pair.transfer⟩
      refine effect_unarmed hinv hrows ?_ ⟨hattempt.2, hlater.holds, hlater.row⟩ trivial fun a h => h.elim
      rw [hw]
      exact fun a ha => (congrArg some hattempt.1.symm).trans ha
    · cases h
      exact effect_sentFailing hinv (by rw [hw]; rfl) hknows (.inl rfl)
  · cases h

theorem effect_recordTransfer {w : Nat} (h : s.step (.recordTransfer w) = some t) : Effect s (.recordTransfer w) t := by
  unfold System.step at h
  dsimp only at h
  split at h
  · next c hw =>
    have hknows : KnowsSubmitting s.db c := (hinv.caller hw).1
    split at h
    · next db transfer hwrite =>
      cases h
      obtain ⟨hrows, hrow⟩ := writeTransferSignature_step hinv.consistent rfl
        (fun σ hσ => Option.some.inj hσ ▸ hknows.holds) hwrite
      have hlater := hknows.later hrows
      have hfind : db.transfers.find? c.transfer.id = some transfer := hrow transfer rfl
      have hid : transfer.id = c.transfer.id := Table.key_of_find? hfind
      refine effect_unarmed hinv hrows ?_ ⟨⟨?_, hlater.pair.attempt, Table.seen_of_find? hfind⟩, ?_, ?_, hlater.row.2⟩
        trivial fun a h => h.elim
      · rw [hw]
        exact fun a ha => ha
      · rw [hid]
        exact hlater.pair.link
      · rw [hid]
        exact hlater.holds
      · rw [hid]
        exact hlater.row.1
    · cases h
      exact effect_sentFailing hinv (by rw [hw]; rfl) hknows (.inl rfl)
    · cases h
      exact effect_sentFailing hinv (by rw [hw]; rfl) hknows (.inl rfl)
  · cases h

theorem effect_verify {w : Nat} {destinationTokenAccount : String}
    (h : s.step (.verify w destinationTokenAccount) = some t) : Effect s (.verify w destinationTokenAccount) t := by
  have hverified {attempt : CollectionAttemptRow} {transfer : PaymentTransferRow} (hpair : ReadPair s.db attempt transfer)
      (h : (verifyStoredRows s.db attempt transfer destinationTokenAccount).map
        (fun input => s.setWorker w (.finalizing input)) = some t) : Effect s (.verify w destinationTokenAccount) t := by
    obtain ⟨input, hverify, rfl⟩ := Option.map_eq_some_iff.mp h
    exact effect_unarmed hinv (.refl hinv.consistent) (fun a ha => by cases ha)
      (proved_of_verify hinv.consistent hpair.attempt hpair.transfer hverify).1 trivial fun a h => h.elim
  unfold System.step at h
  dsimp only at h
  split at h
  · next c hw =>
    have hknows : KnowsSubmitting s.db c := (hinv.caller hw).1
    exact hverified hknows.pair h
  · next existing transfer hw =>
    split at h
    · cases h
    · exact hverified (hinv.caller hw).1 h
  · cases h

theorem effect_finalize {w : Nat} {fallbacks : Fallbacks} (h : s.step (.finalize w fallbacks) = some t) :
    Effect s (.finalize w fallbacks) t := by
  unfold System.step at h
  dsimp only at h
  split at h
  · next input hw =>
    have hproved : Proved s.db input := (hinv.caller hw).1
    obtain ⟨result, hresult, rfl⟩ := Option.map_eq_some_iff.mp h
    cases result with
    | ok db =>
      obtain ⟨found, hcommits⟩ := finalize_eq_ok hresult
      exact effect_unarmed hinv (hcommits.rows_step hinv.consistent hproved) (fun a ha => by cases ha) trivial trivial
        fun a h => h.elim
    | error e =>
      exact effect_unarmed hinv (.refl hinv.consistent) (fun a ha => by cases ha) ⟨hproved.linked, hproved.signed⟩ trivial
        fun a h => h.elim
  · cases h

omit hinv in
theorem holds_of_storedSignature {attempt : CollectionAttemptRow} {transfer : PaymentTransferRow} {σ : String}
    (hdb : Consistent s.db) (hpair : ReadPair s.db attempt transfer) (hσ : storedSignature attempt transfer = some σ) :
    Signed s.db attempt.id transfer.id σ := by
  unfold storedSignature at hσ
  exact ⟨hpair.linkedTo,
    holds_of_stored hdb hpair.attempt hpair.transfer hpair.link (Option.filter_eq_some_iff.mp hσ).1⟩

theorem effect_fail {w : Nat} {message : String} (h : s.step (.fail w message) = some t) :
    Effect s (.fail w message) t := by
  unfold System.step at h
  dsimp only at h
  split at h
  · next attempt hw =>
    cases h
    exact effect_unarmed hinv (.refl hinv.consistent) (by rw [hw]; exact fun a ha => ha)
      (knowsFailing_unsent (by simp) (by simp [SubmissionStore.fresh])) (.inr (.inl (hinv.caller hw).2)) fun a h => h.elim
  · next attempt transfer hw =>
    cases h
    have hpair : ReadPair s.db attempt transfer := (hinv.caller hw).1
    refine effect_unarmed hinv (.refl hinv.consistent) (by rw [hw]; exact fun a ha => ha)
      (knowsFailing_unsent ?_ (by simp [SubmissionStore.fresh])) (.inr (.inl (hinv.caller hw).2)) fun a h => h.elim
    rintro r ⟨⟩
    exact hpair.linkedTo
  · next c hw =>
    cases h
    have hknows : KnowsSubmitting s.db c := (hinv.caller hw).1
    refine effect_unarmed hinv (.refl hinv.consistent) (by rw [hw]; exact fun a ha => ha) (knowsFailing_unsent ?_ ?_)
      (.inr (.inl (hinv.caller hw).2)) fun a h => h.elim
    · rintro r ⟨⟩
      exact hknows.pair.linkedTo
    · rintro row σ ⟨⟩ hσ
      exact hknows.store hσ
  · next c hw =>
    cases h
    exact effect_sentFailing hinv (by rw [hw]; rfl) (hinv.caller hw).1 (.inl rfl)
  · next c hw =>
    cases h
    exact effect_sentFailing hinv (by rw [hw]; rfl) (hinv.caller hw).1 (.inl rfl)
  · next c hw =>
    cases h
    exact effect_sentFailing hinv (by rw [hw]; rfl) (hinv.caller hw).1 (.inl rfl)
  · next existing transfer hw =>
    split at h
    · cases h
    · obtain ⟨σ, hσ, rfl⟩ := Option.map_eq_some_iff.mp h
      exact effect_unarmed hinv (.refl hinv.consistent) (fun a ha => by cases ha)
        (holds_of_storedSignature hinv.consistent (hinv.caller hw).1 hσ) trivial fun a h => h.elim
  · cases h

theorem effect_hasStarted {w : Nat} (h : s.step (.hasStarted w) = some t) : Effect s (.hasStarted w) t := by
  unfold System.step at h
  dsimp only at h
  split at h
  · next f hw =>
    obtain ⟨hknows, hunsent⟩ := hinv.caller hw
    have hfailing : KnowsFailing s.db f := hknows
    split at h
    · next transfer htransfer hunknown =>
      cases h
      refine effect_unarmed hinv (.refl hinv.consistent) (by rw [hw]; exact fun a ha => ha) ⟨hfailing.markable, ?_⟩ ?_
        fun a h => h.elim
      · intro row σ hrow hσ
        rcases Option.or_eq_some_iff.mp hrow with hcurrent | ⟨-, hrow⟩
        · have hfind := getTransferById_find? hcurrent
          have hid : row.id = transfer.id := Table.key_of_find? hfind
          rw [hid]
          exact ⟨hfailing.markable.linked transfer htransfer, row, hfind, hσ⟩
        · exact hfailing.store row σ hrow hσ
      · rcases hunsent with ⟨hstarted, -⟩ | hunsent
        · rw [hunknown] at hstarted
          cases hstarted
        · exact .inr hunsent
    · cases h
  · cases h

omit hinv in
theorem signed_of_journaled {db : CollectionDatabase} {f : Failing} (h : KnowsFailing db f) {transferId σ : String}
    (hjournaled : f.journaled = some (transferId, σ)) : Signed db f.attempt.id transferId σ := by
  unfold Failing.journaled at hjournaled
  split at hjournaled
  · cases hjournaled
  · rcases Option.or_eq_some_iff.mp hjournaled with hsubmitted | ⟨-, hsubmitted⟩
    · obtain ⟨row, hrow, hsignature⟩ := Option.bind_eq_some_iff.mp hsubmitted
      obtain ⟨σ', hσ, heq⟩ := Option.map_eq_some_iff.mp hsignature
      obtain ⟨rfl, rfl⟩ := Prod.mk.inj heq
      refine h.store row σ' ?_ hσ
      unfold SubmissionStore.submittedRow at hrow
      split at hrow
      · cases hrow
      · exact hrow
    · obtain ⟨transfer, htransfer, hsignature⟩ := Option.bind_eq_some_iff.mp hsubmitted
      obtain ⟨σ', hσ, heq⟩ := Option.map_eq_some_iff.mp hsignature
      obtain ⟨rfl, rfl⟩ := Prod.mk.inj heq
      refine ⟨h.markable.linked transfer htransfer, ?_⟩
      obtain ⟨transfer', htransfer', hholds⟩ := h.markable.signed σ' hσ
      obtain rfl := Option.some.inj (htransfer.symm.trans htransfer')
      exact hholds

omit hinv in
theorem landed_of_any {o : Option (Option String)} (h : o.any (·.isSome) = true) : ∃ err, o = some (some err) := by
  rcases o with _ | _ | err
  · cases h
  · cases h
  · exact ⟨err, rfl⟩

omit hinv in
theorem markable_of_signed {db : CollectionDatabase} {attempt : CollectionAttemptRow} {transfer : PaymentTransferRow}
    {σ : String} (h : Signed db attempt.id transfer.id σ) : Markable db attempt (some transfer) (some σ) := by
  refine ⟨?_, ?_⟩
  · rintro r ⟨⟩
    exact h.linked
  · rintro σ' ⟨⟩
    exact ⟨transfer, rfl, h.holds⟩

theorem effect_handle {w : Nat} (h : s.step (.handle w) = some t) : Effect s (.handle w) t := by
  unfold System.step at h
  dsimp only at h
  split at h
  · next f hw =>
    have hfailing : KnowsFailing s.db f := (hinv.caller hw).1
    split at h
    · next transferId σ hjournaled =>
      cases h
      refine effect_unarmed hinv (.refl hinv.consistent) (fun a ha => by cases ha) ?_ trivial fun a h => h.elim
      exact signed_of_journaled hfailing hjournaled
    · next hjournaled =>
      cases h
      exact effect_markFailed hinv hfailing.markable fun db => .own f hw rfl hjournaled rfl
  · cases h

theorem effect_failOnChain {w : Nat} (h : s.step (.failOnChain w) = some t) : Effect s (.failOnChain w) t := by
  unfold System.step at h
  dsimp only at h
  split at h
  · next c hw =>
    split at h
    · next hlanded =>
      cases h
      have hknows : KnowsSubmitting s.db c := (hinv.caller hw).1
      obtain ⟨err, herr⟩ := landed_of_any hlanded
      exact effect_sentFailing hinv (by rw [hw]; rfl) hknows (.inr ⟨_, _, err, hknows.signed, herr⟩)
    · cases h
  · next existing transfer hw =>
    split at h
    · next σ hσ =>
      split at h
      · next hfailed =>
        cases h
        have hsigned := holds_of_storedSignature hinv.consistent (hinv.caller hw).1 hσ
        obtain ⟨err, herr⟩ := landed_of_any (Bool.and_eq_true_iff.mp hfailed).2
        exact effect_markFailed hinv (markable_of_signed hsigned) fun db => .onChain transfer σ err hsigned herr rfl
      · cases h
    · cases h
  · cases h

theorem effect_journalAttempt {w : Nat} (h : s.step (.journalAttempt w) = some t) : Effect s (.journalAttempt w) t := by
  unfold System.step at h
  dsimp only at h
  split at h
  · next attempt transferId σ hw =>
    have hsigned : Signed s.db attempt.id transferId σ := (hinv.caller hw).1
    split at h
    · next db row hwrite =>
      cases h
      have hrows := (writeAttemptSignature_step hinv.consistent hsigned (by simp [journalUpdate])
        (by simp [journalUpdate]) rfl hwrite).1
      exact effect_environment hinv rfl hrows (fun _ _ h => h) rfl rfl
    · cases h
      exact effect_environment hinv rfl (.refl hinv.consistent) (fun _ _ h => h) rfl rfl
  · cases h

theorem effect_journalTransfer {w : Nat} (h : s.step (.journalTransfer w) = some t) :
    Effect s (.journalTransfer w) t := by
  unfold System.step at h
  dsimp only at h
  split at h
  · next attempt transferId σ hw =>
    have hsigned : Signed s.db attempt.id transferId σ := (hinv.caller hw).1
    split at h
    · next db row hwrite =>
      cases h
      have hrows := (writeTransferSignature_step hinv.consistent rfl
        (fun σ' hσ => Option.some.inj hσ ▸ hsigned.holds) hwrite).1
      exact effect_environment hinv rfl hrows (fun _ _ h => h) rfl rfl
    · cases h
      exact effect_environment hinv rfl (.refl hinv.consistent) (fun _ _ h => h) rfl rfl
  · cases h

/-! ## Recovery -/

theorem effect_recover {w : Nat} {dueAt : Nat} (h : s.step (.recover w dueAt) = some t) :
    Effect s (.recover w dueAt) t := by
  unfold System.step at h
  dsimp only at h
  split at h
  · next existing hw hexisting =>
    cases h
    have hfind : s.db.attempts.find? existing.id = some existing :=
      Table.mem_rows_iff.mp (List.mem_of_find?_eq_some hexisting)
    exact effect_unarmed hinv (.refl hinv.consistent) (fun a ha => by cases ha) (Table.seen_of_find? hfind) trivial
      fun a h => h.elim
  · cases h

theorem effect_readTransfer {w : Nat} (h : s.step (.readTransfer w) = some t) : Effect s (.readTransfer w) t := by
  unfold System.step at h
  dsimp only at h
  split at h
  · next existing hw =>
    simp only [Option.bind_eq_bind, Option.bind_eq_some_iff] at h
    obtain ⟨transferId, hlink, transfer, htransfer, h⟩ := h
    cases h
    have hfind := getTransferById_find? htransfer
    refine effect_unarmed hinv (.refl hinv.consistent) (fun a ha => by cases ha)
      ⟨?_, (hinv.caller hw).1, Table.seen_of_find? hfind⟩ trivial fun a h => h.elim
    rw [hlink, Table.key_of_find? hfind]
  · cases h

theorem effect_judge {w : Nat} (h : s.step (.judge w) = some t) : Effect s (.judge w) t := by
  have hjudged {existing : CollectionAttemptRow} {transfer : Option PaymentTransferRow} {σ : Option String}
      (hm : Markable s.db existing transfer σ) (message : String) :
      Effect s (.judge w) (s.setWorker w (.interrupting existing transfer σ message)) :=
    effect_unarmed hinv (.refl hinv.consistent) (fun a ha => by cases ha) hm trivial fun a h => h.elim
  unfold System.step at h
  dsimp only at h
  split at h
  · next existing hw =>
    split at h
    · cases h
      exact hjudged ⟨by simp, by simp⟩ _
    · cases h
  · next existing transfer hw =>
    have hpair : ReadPair s.db existing transfer := (hinv.caller hw).1
    split at h
    · cases h
    · split at h
      · cases h
        refine hjudged ⟨?_, by simp⟩ _
        rintro r ⟨⟩
        exact hpair.linkedTo
      · split at h
        · obtain ⟨σ, hσ, rfl⟩ := Option.map_eq_some_iff.mp h
          exact hjudged (markable_of_signed (holds_of_storedSignature hinv.consistent hpair hσ)) _
        · cases h
  · cases h

theorem effect_interrupt {w : Nat} (h : s.step (.interrupt w) = some t) : Effect s (.interrupt w) t := by
  unfold System.step at h
  dsimp only at h
  split at h
  · next existing transfer σ message hw =>
    cases h
    unfold System.markInterrupted
    split
    · next db hmark => exact effect_mark hinv (hinv.caller hw).1 hmark (.interrupted σ message rfl hw rfl)
    · exact effect_done hinv _ w
  · cases h

theorem effect_of_step {l : Step} (h : s.step l = some t) : Effect s l t := by
  cases l with
  | elapse ms blocks =>
    cases h
    exact effect_environment hinv rfl (.refl hinv.consistent) (fun _ _ h => h) rfl rfl
  | land signature err => exact effect_land hinv h
  | track transferId expectedStatus status => exact effect_track hinv h
  | create w attemptId dueAt => exact effect_create hinv h
  | link w transferId outcome => exact effect_link hinv h
  | persist w submission outcome => exact effect_persist hinv h
  | start w outcome => exact effect_start hinv h
  | send w outcome => exact effect_send hinv h
  | recordAttempt w => exact effect_recordAttempt hinv h
  | recordTransfer w => exact effect_recordTransfer hinv h
  | verify w destinationTokenAccount => exact effect_verify hinv h
  | failOnChain w => exact effect_failOnChain hinv h
  | finalize w fallbacks => exact effect_finalize hinv h
  | fail w message => exact effect_fail hinv h
  | hasStarted w => exact effect_hasStarted hinv h
  | handle w => exact effect_handle hinv h
  | journalAttempt w => exact effect_journalAttempt hinv h
  | journalTransfer w => exact effect_journalTransfer hinv h
  | recover w dueAt => exact effect_recover hinv h
  | readTransfer w => exact effect_readTransfer hinv h
  | judge w => exact effect_judge hinv h
  | interrupt w => exact effect_interrupt hinv h
  | crash w =>
    cases h
    exact effect_done hinv _ w

end Step

end Sdp.Collectors
