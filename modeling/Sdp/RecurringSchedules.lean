import Sdp.Lib.Advances
import Sdp.Lib.Run
import Sdp.RecurringFinalizations

/-!
# The schedule of a recurring payment

However finalizations interleave, a due time moves on by one period, once, and a finalization that
commits leaves both rows past its due time.
-/

open Sdp.Lib

namespace Sdp.Recurring

open Payments

/-! ## What a finalization has read -/

theorem Runs.later {db db' : CollectionDatabase} {input : FinalizeInput} {fallbacks : Fallbacks}
    (h : Runs db input fallbacks) (hl : Later db db') : Runs db' input fallbacks where
  ids := h.ids
  linked := hl.rows.linkedTo h.linked
  signed := hl.rows.holds h.signed
  period := h.period.trans hl.period.symm
  transfer := fun r hr => (h.transfer r hr).evolves hl.rows.transfers
  attempt := fun r hr => (h.attempt r hr).evolves hl.rows.attempts
  subscription := fun r hr => (h.subscription r hr).trans hl.subscription
  recurringPayment := fun r hr => (h.recurringPayment r hr).trans hl.recurringPayment

/-- What is known of a collector or recoverer. -/
def Captured (db : CollectionDatabase) : Finalization → Prop
  | .readAttempt attempt => Table.Seen AttemptLater db.attempts attempt
  | .running input fallbacks => Runs db input fallbacks
  | _ => True

theorem Captured.later {db db' : CollectionDatabase} {f : Finalization} (h : Captured db f) (hl : Later db db') :
    Captured db' f := by
  cases f with
  | readAttempt attempt => exact Table.Seen.evolves h hl.rows.attempts
  | running input fallbacks => exact Runs.later h hl
  | _ => trivial

theorem unusedRead {ρ : Type} {P : ρ → Prop} (r : ρ) (h : Fallback.unused = .read (some r)) : P r := by cases h

theorem missedRead {ρ : Type} {P : ρ → Prop} (r : ρ) (h : Fallback.missed = .read (some r)) : P r := by cases h

theorem runs_of_verify {db : CollectionDatabase} {input : FinalizeInput} (h : Proved db input)
    (hpayment : input.recurringPayment = db.recurringPayment) : Runs db input {} where
  toProved := h
  period := by rw [hpayment]
  transfer := unusedRead
  attempt := unusedRead
  subscription := unusedRead
  recurringPayment := unusedRead

theorem Runs.miss {db : CollectionDatabase} {input : FinalizeInput} {fallbacks fallbacks' : Fallbacks}
    {row : FinalizedRow} (h : Runs db input fallbacks) (hmiss : fallbacks.miss? row = some fallbacks') :
    Runs db input fallbacks' := by
  cases row with
  | transfer =>
    simp only [Fallbacks.miss?] at hmiss
    split at hmiss
    · cases hmiss
      exact { h with transfer := missedRead }
    · cases hmiss
  | attempt =>
    simp only [Fallbacks.miss?] at hmiss
    split at hmiss
    · cases hmiss
      exact { h with attempt := missedRead }
    · cases hmiss
  | subscription =>
    simp only [Fallbacks.miss?] at hmiss
    split at hmiss
    · cases hmiss
      exact { h with subscription := missedRead }
    · cases hmiss
  | recurringPayment =>
    simp only [Fallbacks.miss?] at hmiss
    split at hmiss
    · cases hmiss
      exact { h with recurringPayment := missedRead }
    · cases hmiss

theorem Runs.reread {db : CollectionDatabase} {input : FinalizeInput} {fallbacks fallbacks' : Fallbacks}
    {row : FinalizedRow} (h : Runs db input fallbacks) (hread : fallbacks.reread? input db row = some fallbacks') :
    Runs db input fallbacks' := by
  cases row with
  | transfer =>
    simp only [Fallbacks.reread?] at hread
    split at hread
    · cases hread
      refine { h with transfer := fun r hr => ?_ }
      exact Table.seen_of_find? (getTransferById_find? (Fallback.read.inj hr))
    · cases hread
  | attempt =>
    simp only [Fallbacks.reread?] at hread
    split at hread
    · cases hread
      refine { h with attempt := fun r hr => ?_ }
      exact Table.seen_of_find? (Fallback.read.inj hr)
    · cases hread
  | subscription =>
    simp only [Fallbacks.reread?] at hread
    split at hread
    · cases hread
      refine { h with subscription := fun r hr => ?_ }
      obtain rfl := Option.some.inj (Fallback.read.inj hr)
      exact .refl _
    · cases hread
  | recurringPayment =>
    simp only [Fallbacks.reread?] at hread
    split at hread
    · cases hread
      refine { h with recurringPayment := fun r hr => ?_ }
      obtain rfl := Option.some.inj (Fallback.read.inj hr)
      exact .refl _
    · cases hread

/-! ## One step -/

/-- What a step does. -/
inductive Effect (s t : System) : Prop
  /-- A collector or recoverer moves on and commits nothing. -/
  | moved (worker : Nat) (f : Finalization) (hdb : t.db = s.db)
      (hf : t.finalizations = Function.update s.finalizations worker f) (hcommitted : ∀ input, f ≠ .committed input)
      (hcaptured : Consistent s.db → Captured s.db (s.finalizations worker) → Captured s.db f)
  | committed (worker : Nat) (input : FinalizeInput) (fallbacks : Fallbacks) (now : Nat) (found : FoundRows)
      (hrun : s.finalizations worker = .running input fallbacks) (hcommits : Commits s.db input fallbacks now t.db found)
      (hf : t.finalizations = Function.update s.finalizations worker (.committed input))
  /-- The rows are written by others, who leave the due times alone. -/
  | other (hf : t.finalizations = s.finalizations) (hlater : Consistent s.db → Later s.db t.db)
      (hpayment : t.db.recurringPayment.nextCollectionDueAt = s.db.recurringPayment.nextCollectionDueAt)
      (hsubscription : t.db.subscription.nextCollectionDueAt = s.db.subscription.nextCollectionDueAt)

theorem effect_of_act {s t : System} {l : Step} (h : s.act l = some t) : Effect s t := by
  cases l with
  | readAttempt worker attemptId =>
    simp only [System.act] at h
    split at h
    · next attempt _ hattempt =>
      cases h
      exact .moved worker _ rfl rfl (fun _ => by simp) fun _ _ => Table.seen_of_find? hattempt
    · cases h
  | verify worker destinationTokenAccount =>
    simp only [System.act] at h
    split at h
    · next attempt hworker =>
      simp only [Option.bind_eq_bind, Option.bind_eq_some_iff] at h
      obtain ⟨transferId, htransferId, transfer, htransfer, input, hverify, h⟩ := h
      cases h
      refine .moved worker _ rfl rfl (fun _ => by simp) fun hdb hattempt => ?_
      rw [hworker] at hattempt
      obtain ⟨hproved, hpayment⟩ :=
        proved_of_verify hdb hattempt (Table.seen_of_find? (getTransferById_find? htransfer)) hverify
      exact runs_of_verify hproved hpayment
    · cases h
  | miss worker row =>
    simp only [System.act] at h
    split at h
    · next input fallbacks hworker =>
      split at h
      · obtain ⟨fallbacks', hmiss, rfl⟩ := Option.map_eq_some_iff.mp h
        refine .moved worker _ rfl rfl (fun _ => by simp) fun _ hrun => ?_
        rw [hworker] at hrun
        exact Runs.miss hrun hmiss
      · cases h
    · cases h
  | reread worker row =>
    simp only [System.act] at h
    split at h
    · next input fallbacks hworker =>
      obtain ⟨fallbacks', hread, rfl⟩ := Option.map_eq_some_iff.mp h
      refine .moved worker _ rfl rfl (fun _ => by simp) fun _ hrun => ?_
      rw [hworker] at hrun
      exact Runs.reread hrun hread
    · cases h
  | commit worker finalizedAt =>
    simp only [System.act] at h
    split at h
    · next input fallbacks hworker =>
      obtain ⟨result, hresult, rfl⟩ := Option.map_eq_some_iff.mp h
      cases result with
      | ok db =>
        obtain ⟨found, hcommits⟩ := finalize_eq_ok hresult
        exact .committed worker input fallbacks finalizedAt found hworker hcommits rfl
      | error e => exact .moved worker .failed rfl rfl (fun _ => by simp) fun _ _ => trivial
    · cases h
  | abort worker =>
    simp only [System.act] at h
    split at h
    · cases h
      exact .moved worker .failed rfl rfl (fun _ => by simp) fun _ _ => trivial
    · cases h
      exact .moved worker .failed rfl rfl (fun _ => by simp) fun _ _ => trivial
    · cases h
  | stopRecurringPayment status updatedAt =>
    simp only [System.act] at h
    split at h
    · cases h
    · next hstatus =>
      cases h
      refine .other rfl (fun hdb => ⟨rfl, ⟨fun _ => ?_, fun _ hd => hd⟩, .refl _, (RowsStep.refl hdb).congr rfl rfl⟩) rfl rfl
      simpa [RecurringPaymentRow.schedule, isRecurringPaymentCollectionActive] using hstatus
  | stopSubscription status updatedAt =>
    simp only [System.act] at h
    split at h
    · cases h
    · next hstatus =>
      cases h
      refine .other rfl (fun hdb => ⟨rfl, .refl _, ⟨fun _ => ?_, fun _ hd => hd⟩, (RowsStep.refl hdb).congr rfl rfl⟩) rfl rfl
      simpa [SubscriptionRow.schedule, hasStoppedSubscriptionCollections] using hstatus
  | track transferId expectedStatus status updatedAt =>
    simp only [System.act] at h
    split at h
    · next hstatus =>
      split at h
      · next transfers row hupdate =>
        cases h
        exact .other rfl (fun hdb => ⟨rfl, .refl _, .refl _, track_step hdb hstatus hupdate⟩) rfl rfl
      · cases h
    · cases h

theorem effect_of_step {s t : System} {l : Step} (h : s.step l = some t) : Effect s t := by
  obtain ⟨u, hu, rfl⟩ := Option.map_eq_some_iff.mp h
  cases effect_of_act hu with
  | moved worker f hdb hf hcommitted hcaptured => exact .moved worker f hdb hf hcommitted hcaptured
  | committed worker input fallbacks now found hrun hcommits hf =>
    exact .committed worker input fallbacks now found hrun hcommits hf
  | other hf hlater hpayment hsubscription => exact .other hf hlater hpayment hsubscription

/-! ## Every run -/

/-- Nothing runs yet, and the rows are as collectors leave them. -/
structure Opening (s : System) : Prop where
  idle : ∀ worker, s.finalizations worker = .idle
  recurringPaymentMoves : s.recurringPaymentMoves = []
  subscriptionMoves : s.subscriptionMoves = []
  consistent : Consistent s.db

structure Inv (s : System) : Prop where
  consistent : Consistent s.db
  captured : ∀ worker, Captured s.db (s.finalizations worker)

theorem inv_opening {s : System} (h : Opening s) : Inv s where
  consistent := h.consistent
  captured := fun worker => by
    rw [h.idle worker]
    trivial

theorem captured_update {db : CollectionDatabase} {finalizations : Nat → Finalization} {worker : Nat} {f : Finalization}
    (h : ∀ w, Captured db (finalizations w)) (hf : Captured db f) (w : Nat) :
    Captured db (Function.update finalizations worker f w) := by
  by_cases hw : w = worker
  · rw [hw, Function.update_self]
    exact hf
  · rw [Function.update_of_ne hw]
    exact h w

theorem inv_step {s t : System} {l : Step} (h : Inv s) (hstep : s.step l = some t) : Inv t := by
  cases effect_of_step hstep with
  | moved worker f hdb hf _ hcaptured =>
    constructor
    · rw [hdb]
      exact h.consistent
    · intro w
      rw [hdb, hf]
      exact captured_update h.captured (hcaptured h.consistent (h.captured worker)) w
  | committed worker input fallbacks now found hrun hcommits hf =>
    have hruns : Runs s.db input fallbacks := by simpa [hrun, Captured] using h.captured worker
    have hlater := hcommits.later h.consistent hruns
    refine ⟨hlater.rows.consistent, fun w => ?_⟩
    rw [hf]
    exact captured_update (f := .committed input) (fun w => (h.captured w).later hlater) trivial w
  | other hf hlater _ _ =>
    have hlater := hlater h.consistent
    refine ⟨hlater.rows.consistent, fun w => ?_⟩
    rw [hf]
    exact (h.captured w).later hlater

theorem inv_reachable {s₀ s : System} (h₀ : Opening s₀) (h : Reachable System.step (· = s₀) anyStep s) : Inv s :=
  h.invariant (fun _ hs => hs ▸ inv_opening h₀) fun _ _ _ _ hinv _ hstep => inv_step hinv hstep

/-- A due time that moves by whole periods, from no time twice and never back. -/
structure AdvancesByPeriod (periodHours : Nat) (start : Option Nat) (moves : List Nat) (current : Option Nat) : Prop where
  advances : Advances (nextRecurringPaymentCollectionDueAt · periodHours) start moves current
  once : moves.Nodup
  onward : ∀ d ∈ moves, ∀ d', current = some d' → d < d'

theorem advancesByPeriod {periodHours : Nat} (hperiod : 0 < periodHours) {start current : Option Nat} {moves : List Nat}
    (h : Advances (nextRecurringPaymentCollectionDueAt · periodHours) start moves current) :
    AdvancesByPeriod periodHours start moves current := by
  have hnext : ∀ d, d < nextRecurringPaymentCollectionDueAt d periodHours := by
    intro d
    unfold nextRecurringPaymentCollectionDueAt
    omega
  refine ⟨h, h.nodup hnext, fun d hd d' hd' => ?_⟩
  rw [hd'] at h
  exact h.lt_of_mem hnext hd

/-- The due times of the payment and of the subscription so far. -/
structure OnSchedule (s₀ s : System) : Prop where
  period : s.db.recurringPayment.periodHours = s₀.db.recurringPayment.periodHours
  recurringPayment : Advances (nextRecurringPaymentCollectionDueAt · s₀.db.recurringPayment.periodHours)
    s₀.db.recurringPayment.nextCollectionDueAt s.recurringPaymentMoves s.db.recurringPayment.nextCollectionDueAt
  subscription : Advances (nextRecurringPaymentCollectionDueAt · s₀.db.recurringPayment.periodHours)
    s₀.db.subscription.nextCollectionDueAt s.subscriptionMoves s.db.subscription.nextCollectionDueAt

theorem advances_moved {input : FinalizeInput} {periodHours : Nat}
    (hperiod : input.recurringPayment.periodHours = periodHours) {s s' : Schedule} (h : s.Moves input s')
    {start : Option Nat} {moves : List Nat}
    (hmoves : Advances (nextRecurringPaymentCollectionDueAt · periodHours) start moves s.nextCollectionDueAt) :
    Advances (nextRecurringPaymentCollectionDueAt · periodHours) start
      (System.moved s.nextCollectionDueAt s'.nextCollectionDueAt ++ moves) s'.nextCollectionDueAt := by
  rcases h.due with hsame | ⟨hdue, hnext⟩
  · rw [hsame]
    simpa [System.moved] using hmoves
  · have hne : ¬ input.nextDueAt = input.proof.dueAt := (dueAt_lt_nextDueAt input).ne'
    rw [hdue] at hmoves ⊢
    rw [hnext]
    simp only [System.moved, Option.some.injEq, hne, if_false, Option.toList_some, List.singleton_append]
    refine ⟨?_, hmoves⟩
    unfold FinalizeInput.nextDueAt
    rw [hperiod]

theorem advances_kept {next : Nat → Nat} {start before after : Option Nat} (h : after = before) {moves : List Nat}
    (hmoves : Advances next start moves before) : Advances next start (System.moved before after ++ moves) after := by
  subst h
  simpa [System.moved] using hmoves

theorem onSchedule_step {s₀ s t : System} {l : Step} (hinv : Inv s) (h : OnSchedule s₀ s)
    (hstep : s.step l = some t) : OnSchedule s₀ t := by
  obtain ⟨u, hu, rfl⟩ := Option.map_eq_some_iff.mp hstep
  cases effect_of_act hu with
  | moved worker f hdb _ _ _ =>
    refine ⟨?_, advances_kept ?_ h.recurringPayment, advances_kept ?_ h.subscription⟩
    · simpa only [hdb] using h.period
    · rw [hdb]
    · rw [hdb]
  | committed worker input fallbacks now found hrun hcommits _ =>
    have hruns : Runs s.db input fallbacks := by simpa [hrun, Captured] using hinv.captured worker
    have hperiod := hruns.period.trans h.period
    refine ⟨hcommits.period.trans h.period, ?_, ?_⟩
    · exact advances_moved hperiod hcommits.recurringPayment_moves h.recurringPayment
    · exact advances_moved hperiod hcommits.subscription_moves h.subscription
  | other _ hlater hpayment hsubscription =>
    exact ⟨(hlater hinv.consistent).period.trans h.period, advances_kept hpayment h.recurringPayment,
      advances_kept hsubscription h.subscription⟩

theorem onSchedule_reachable {s₀ s : System} (h₀ : Opening s₀) (h : Reachable System.step (· = s₀) anyStep s) :
    OnSchedule s₀ s := by
  refine h.invariant (fun s hs => ?_) fun s l t hreach hs _ hstep => onSchedule_step (inv_reachable h₀ hreach) hs hstep
  obtain rfl : s = s₀ := hs
  refine ⟨rfl, ?_, ?_⟩
  · rw [h₀.recurringPaymentMoves]
    rfl
  · rw [h₀.subscriptionMoves]
    rfl

/-- What a finalization leaves when it commits. -/
structure Collected (db : CollectionDatabase) (proof : VerifiedRecurringPaymentCollection) : Prop where
  past : db.recurringPayment.status = .active → db.subscription.status = .active →
    (∃ d, db.recurringPayment.nextCollectionDueAt = some d ∧ proof.dueAt < d) ∧
      ∃ d, db.subscription.nextCollectionDueAt = some d ∧ proof.dueAt < d
  attempt : ∃ r, db.attempts.find? proof.attemptId = some r ∧ r.status = .confirmed ∧
    r.signature = some proof.signature
  transfer : ∃ r, db.transfers.find? proof.transferId = some r ∧ (r.status = .confirmed ∨ r.status = .finalized) ∧
    r.signature = some proof.signature

theorem Schedule.past_iff {s : Schedule} {d : Nat} : s.Past d ↔ ∃ d', s.nextCollectionDueAt = some d' ∧ d < d' := by
  simp [Past, hasRecurringPaymentAdvancedPastDueAt, Option.any_eq_true]

theorem Commits.collected {db db' : CollectionDatabase} {input : FinalizeInput} {fallbacks : Fallbacks} {now : Nat}
    {found : FoundRows} (h : Commits db input fallbacks now db' found) (hrun : Runs db input fallbacks) :
    Collected db' input.proof where
  past := by
    intro hpayment hsubscription
    constructor
    · exact Schedule.past_iff.mp (h.recurringPayment_past hrun
        (by simp [RecurringPaymentRow.schedule, isRecurringPaymentCollectionActive, hpayment]))
    · exact Schedule.past_iff.mp (h.subscription_past hrun
        (by simp [SubscriptionRow.schedule, hasStoppedSubscriptionCollections, hsubscription]))
  attempt := h.attempt_confirmed hrun
  transfer := h.transfer_settled hrun

/-- In every interleaving, each due time moves from `d` to one period later at most once for each `d`, and in no other
way; a finalization that commits leaves its collection recorded, and one that fails leaves every row. -/
theorem schedules_advance_once {s₀ s : System} (h₀ : Opening s₀) (h : Reachable System.step (· = s₀) anyStep s) :
    AdvancesByPeriod s₀.db.recurringPayment.periodHours s₀.db.recurringPayment.nextCollectionDueAt
      s.recurringPaymentMoves s.db.recurringPayment.nextCollectionDueAt ∧
    AdvancesByPeriod s₀.db.recurringPayment.periodHours s₀.db.subscription.nextCollectionDueAt
      s.subscriptionMoves s.db.subscription.nextCollectionDueAt ∧
    ∀ l t worker, s.step l = some t → t.finalizations worker ≠ s.finalizations worker →
      (∀ input, t.finalizations worker = .committed input → Collected t.db input.proof) ∧
      (t.finalizations worker = .failed → t.db = s.db) := by
  have hschedule := onSchedule_reachable h₀ h
  have hperiod := s₀.db.recurringPayment.period_hours_positive
  refine ⟨advancesByPeriod hperiod hschedule.recurringPayment, advancesByPeriod hperiod hschedule.subscription, ?_⟩
  intro l t worker hstep hne
  have hinv := inv_reachable h₀ h
  cases effect_of_step hstep with
  | moved w f hdb hf hcommitted _ =>
    refine ⟨fun input hinput => ?_, fun _ => hdb⟩
    rw [hf] at hinput hne
    by_cases hw : worker = w
    · rw [hw, Function.update_self] at hinput
      exact absurd hinput (hcommitted input)
    · exact absurd (Function.update_of_ne hw _ _) hne
  | committed w input fallbacks now found hrun hcommits hf =>
    have hruns : Runs s.db input fallbacks := by simpa [hrun, Captured] using hinv.captured w
    by_cases hw : worker = w
    · rw [hf, hw, Function.update_self]
      refine ⟨fun input' hinput => ?_, fun hfailed => by cases hfailed⟩
      obtain rfl := Finalization.committed.inj hinput
      exact hcommits.collected hruns
    · rw [hf] at hne
      exact absurd (Function.update_of_ne hw _ _) hne
  | other hf _ _ _ => exact absurd (congrFun hf worker) hne

/-! A collector and a recoverer finalize one collection, the recoverer after its updates have missed. -/

def collectedTransfer : PaymentTransferRow where
  id := "transfer"
  organizationId := "organization"
  projectId := some "project"
  type := .transfer
  status := .processing
  signature := some "signature"
  signedTransaction := none
  lastValidBlockHeight := none
  submissionStartedAt := none
  slot := none
  error := none
  confirmedAt := none
  updatedAt := 0
  outbox_pair := outbox_empty
  outbox_signature := nofun
  submission_started := submission_empty

def dailyCollection : System where
  db := {
    recurringPayment := ⟨"payment", "organization", "project", .active, 24, some 0, none, 0, day_positive⟩
    subscription := ⟨"subscription", .active, none, some 0, 0⟩
    attempts := Table.empty.insertNew
      ⟨"attempt", "subscription", some "transfer", 0, .processing, some "signature", none, 0⟩
    transfers := Table.empty.insertNew collectedTransfer }
  finalizations := fun _ => .idle
  recurringPaymentMoves := []
  subscriptionMoves := []

theorem dailyCollection_opening : Opening dailyCollection where
  idle := fun _ => rfl
  recurringPaymentMoves := rfl
  subscriptionMoves := rfl
  consistent := by
    intro id r σ hr hσ
    have hmem := (Table.find?_eq_some_iff.mp hr).1
    obtain rfl : r = ⟨"attempt", "subscription", some "transfer", 0, .processing, some "signature", none, 0⟩ := by
      simpa [dailyCollection, Table.insertNew, Table.empty] using hmem
    exact ⟨"transfer", rfl, collectedTransfer, rfl, hσ⟩

def finalizedTwice : List Step :=
  [.readAttempt 0 "attempt", .readAttempt 1 "attempt", .verify 0 "account", .verify 1 "account", .commit 0 1,
    .miss 1 .transfer, .reread 1 .transfer, .miss 1 .subscription, .reread 1 .subscription,
    .miss 1 .recurringPayment, .reread 1 .recurringPayment, .commit 1 2]

theorem finalized_twice_moves_once : ∃ s, run System.step dailyCollection finalizedTwice = some s ∧
    (s.finalizations 1 matches .committed _) = true ∧ s.recurringPaymentMoves = [0] ∧
    AdvancesByPeriod 24 (some 0) s.recurringPaymentMoves (some 86400000) :=
  ⟨_, rfl, rfl, rfl, (schedules_advance_once dailyCollection_opening
    (.run (.start rfl) (by rfl : run System.step dailyCollection finalizedTwice = some _))).1⟩

end Sdp.Recurring
