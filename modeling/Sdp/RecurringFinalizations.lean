import Sdp.Code.RecurringFinalizations
import Sdp.RecurringRows

/-!
# What a finalization commits

A row that a finalization read is no later than the one that is there when it commits, so what it
accepted still holds then.
-/

open Sdp.Lib

namespace Sdp.Recurring

open Payments

/-! ## The two due times -/

/-- What a finalization asks of the payment and of the subscription. -/
structure Schedule where
  active : Bool
  nextCollectionDueAt : Option Nat

def RecurringPaymentRow.schedule (r : RecurringPaymentRow) : Schedule :=
  ⟨isRecurringPaymentCollectionActive r.status, r.nextCollectionDueAt⟩

def SubscriptionRow.schedule (r : SubscriptionRow) : Schedule :=
  ⟨!hasStoppedSubscriptionCollections r, r.nextCollectionDueAt⟩

namespace Schedule

def Past (s : Schedule) (d : Nat) : Prop := hasRecurringPaymentAdvancedPastDueAt s.nextCollectionDueAt d = true

structure Later (s s' : Schedule) : Prop where
  stopped : s.active = false → s'.active = false
  past : ∀ d, s.Past d → s'.Past d

theorem Later.refl (s : Schedule) : Later s s := ⟨fun h => h, fun _ h => h⟩

theorem Later.trans {s s' s'' : Schedule} (h : Later s s') (h' : Later s' s'') : Later s s'' :=
  ⟨fun hs => h'.stopped (h.stopped hs), fun d hd => h'.past d (h.past d hd)⟩

end Schedule

theorem dueAt_lt_nextDueAt (input : FinalizeInput) : input.proof.dueAt < input.nextDueAt := by
  have hperiod := input.recurringPayment.period_hours_positive
  unfold FinalizeInput.nextDueAt nextRecurringPaymentCollectionDueAt
  omega

/-- How a finalization leaves a schedule. -/
structure Schedule.Moves (input : FinalizeInput) (s s' : Schedule) : Prop where
  active : s'.active = s.active
  due : s'.nextCollectionDueAt = s.nextCollectionDueAt ∨
    s.nextCollectionDueAt = some input.proof.dueAt ∧ s'.nextCollectionDueAt = some input.nextDueAt

theorem Schedule.Moves.later {input : FinalizeInput} {s s' : Schedule} (h : Moves input s s') : s.Later s' := by
  refine ⟨fun hs => h.active.trans hs, fun d hd => ?_⟩
  unfold Past at hd ⊢
  rcases h.due with hsame | ⟨hdue, hnext⟩
  · rw [hsame]
    exact hd
  · rw [hdue] at hd
    rw [hnext]
    have hlt : d < input.proof.dueAt := by simpa [hasRecurringPaymentAdvancedPastDueAt] using hd
    simpa [hasRecurringPaymentAdvancedPastDueAt] using hlt.trans (dueAt_lt_nextDueAt input)

/-- An update that takes the row from the due time to the next one. -/
def Schedule.Updates {ρ : Type} (input : FinalizeInput) (schedule : ρ → Schedule) (row row' : ρ) : Prop :=
  (schedule row').active = (schedule row).active ∧ (schedule row).nextCollectionDueAt = some input.proof.dueAt ∧
    (schedule row').nextCollectionDueAt = some input.nextDueAt

theorem updatedSubscription_eq_some {input : FinalizeInput} {now : Nat} {row row' : SubscriptionRow}
    (h : input.updatedSubscription now row = some row') : Schedule.Updates input (·.schedule) row row' := by
  unfold FinalizeInput.updatedSubscription updateSubscription at h
  split at h
  · next hg =>
    cases h
    exact ⟨rfl, hg.1, rfl⟩
  · cases h

theorem updatedRecurringPayment_eq_some {input : FinalizeInput} {now : Nat} {row row' : RecurringPaymentRow}
    (h : input.updatedRecurringPayment now row = some row') :
    Schedule.Updates input (·.schedule) row row' ∧ row'.periodHours = row.periodHours := by
  unfold FinalizeInput.updatedRecurringPayment updateRecurringPaymentCollection at h
  split at h
  · next hg =>
    cases h
    exact ⟨⟨rfl, hg.1, rfl⟩, rfl⟩
  · cases h

/-- What the writes of a database come to. -/
structure Later (db db' : CollectionDatabase) : Prop where
  period : db'.recurringPayment.periodHours = db.recurringPayment.periodHours
  recurringPayment : db.recurringPayment.schedule.Later db'.recurringPayment.schedule
  subscription : db.subscription.schedule.Later db'.subscription.schedule
  rows : QuietStep db db'

/-! ## The commit -/

theorem Fallback.commit_eq_ok {ρ σ : Type} {fallback : Fallback ρ} {rows rows' : σ} {found : Found ρ}
    {update : Except RepositoryError (σ × Option ρ)} (h : fallback.commit rows update = some (.ok (rows', found))) :
    (∃ row, fallback = .unused ∧ update = .ok (rows', some row) ∧ found = ⟨some row, true⟩) ∨
      ∃ row, fallback = .read row ∧ rows' = rows ∧ found = ⟨row, false⟩ := by
  unfold Fallback.commit at h
  split at h
  · cases h
  · cases h
    exact .inl ⟨_, rfl, rfl, rfl⟩
  · cases h
  · cases h
  · cases h
    exact .inr ⟨_, rfl, rfl, rfl⟩

section

variable {ρ : Type} {fallback : Fallback ρ} {row row' : ρ} {updated : Option ρ} {found : Found ρ}

theorem commit_onlyRow (h : fallback.commit row (onlyRow row updated) = some (.ok (row', found))) :
    (updated = some row' ∧ found = ⟨some row', true⟩) ∨ ∃ r, fallback = .read r ∧ row' = row ∧ found = ⟨r, false⟩ := by
  rcases Fallback.commit_eq_ok h with ⟨r, -, hupdate, hfound⟩ | hread
  · obtain ⟨hrow, rfl⟩ := Prod.mk.inj (Except.ok.inj hupdate)
    obtain rfl : r = row' := hrow
    exact .inl ⟨rfl, hfound⟩
  · exact .inr hread

variable {input : FinalizeInput} {schedule : ρ → Schedule}

theorem Schedule.moves_of_commit (h : fallback.commit row (onlyRow row updated) = some (.ok (row', found)))
    (hupdate : ∀ r, updated = some r → Updates input schedule row r) : Moves input (schedule row) (schedule row') := by
  rcases commit_onlyRow h with ⟨hrow, -⟩ | ⟨_, -, rfl, -⟩
  · obtain ⟨hactive, hdue, hnext⟩ := hupdate row' hrow
    exact ⟨hactive, .inr ⟨hdue, hnext⟩⟩
  · exact ⟨rfl, .inl rfl⟩

/-- The error at the end does not come for this row. -/
def Schedule.Accepts (input : FinalizeInput) (schedule : ρ → Schedule) (found : Found ρ) : Prop :=
  ∃ r, found.row = some r ∧
    (found.updated = true ∨ (schedule r).active = false ∨ (schedule r).Past input.proof.dueAt)

theorem Schedule.past_of_commit (h : fallback.commit row (onlyRow row updated) = some (.ok (row', found)))
    (hupdate : ∀ r, updated = some r → Updates input schedule row r)
    (hread : ∀ r, fallback = .read (some r) → (schedule r).Later (schedule row)) (haccepts : Accepts input schedule found)
    (hactive : (schedule row').active = true) : (schedule row').Past input.proof.dueAt := by
  rcases commit_onlyRow h with ⟨hrow, -⟩ | ⟨r, hfallback, rfl, rfl⟩
  · unfold Past
    rw [(hupdate row' hrow).2.2]
    simpa [hasRecurringPaymentAdvancedPastDueAt] using dueAt_lt_nextDueAt input
  · obtain ⟨r, rfl, hcase⟩ := haccepts
    have hlater := hread r hfallback
    rcases hcase with hfalse | hstopped | hpast
    · cases hfalse
    · rw [hlater.stopped hstopped] at hactive
      cases hactive
    · exact hlater.past _ hpast

end

/-- What `updated ?? get` gave for each row. -/
structure FoundRows where
  recurringPayment : Found RecurringPaymentRow
  subscription : Found SubscriptionRow
  attempt : Found CollectionAttemptRow
  transfer : Found PaymentTransferRow

structure Commits (db : CollectionDatabase) (input : FinalizeInput) (fallbacks : Fallbacks) (now : Nat)
    (db' : CollectionDatabase) (found : FoundRows) : Prop where
  transfer : fallbacks.transfer.commit db.transfers (updateTransfer db.transfers (input.transferUpdate now)) =
    some (.ok (db'.transfers, found.transfer))
  attempt : fallbacks.attempt.commit db.attempts (updateCollectionAttempt db.attempts (input.attemptUpdate now)) =
    some (.ok (db'.attempts, found.attempt))
  subscription : fallbacks.subscription.commit db.subscription
      (onlyRow db.subscription (input.updatedSubscription now db.subscription)) =
    some (.ok (db'.subscription, found.subscription))
  recurringPayment : fallbacks.recurringPayment.commit db.recurringPayment
      (onlyRow db.recurringPayment (input.updatedRecurringPayment now db.recurringPayment)) =
    some (.ok (db'.recurringPayment, found.recurringPayment))
  accepted : input.rejects found.recurringPayment found.subscription found.attempt found.transfer = false

theorem finalize_eq_ok {db db' : CollectionDatabase} {input : FinalizeInput} {fallbacks : Fallbacks} {now : Nat}
    (h : finalizeRecurringPaymentCollection db input fallbacks now = some (.ok db')) :
    ∃ found, Commits db input fallbacks now db' found := by
  unfold finalizeRecurringPaymentCollection at h
  simp only [Option.bind_eq_bind, Option.bind_eq_some_iff, Option.some.injEq] at h
  obtain ⟨transfer, htransfer, attempt, hattempt, subscription, hsubscription, payment, hpayment, h⟩ := h
  simp only [bind_eq_ok] at h
  obtain ⟨⟨transfers, foundTransfer⟩, rfl, h⟩ := h
  obtain ⟨⟨attempts, foundAttempt⟩, rfl, h⟩ := h
  obtain ⟨⟨subscriptionRow, foundSubscription⟩, rfl, h⟩ := h
  obtain ⟨⟨paymentRow, foundPayment⟩, rfl, h⟩ := h
  simp only [check_eq_ok, pure_eq_ok] at h
  obtain ⟨hrejects, rfl⟩ := h
  exact ⟨⟨foundPayment, foundSubscription, foundAttempt, foundTransfer⟩, htransfer, hattempt, hsubscription, hpayment,
    by simpa using hrejects⟩

/-- The proof is of the attempt and of its transfer, and its signature is on the transfer. -/
structure Proved (db : CollectionDatabase) (input : FinalizeInput) : Prop where
  ids : input.proof.attemptId = input.attempt.id ∧ input.proof.transferId = input.transfer.id
  linked : LinkedTo db input.attempt.id input.transfer.id
  signed : Holds db.transfers input.transfer.id input.proof.signature

/-- What is known of a finalization that runs. -/
structure Runs (db : CollectionDatabase) (input : FinalizeInput) (fallbacks : Fallbacks) : Prop extends
    Proved db input where
  period : input.recurringPayment.periodHours = db.recurringPayment.periodHours
  transfer : ∀ r, fallbacks.transfer = .read (some r) → Table.Seen TransferLater db.transfers r
  attempt : ∀ r, fallbacks.attempt = .read (some r) → Table.Seen AttemptLater db.attempts r
  subscription : ∀ r, fallbacks.subscription = .read (some r) → r.schedule.Later db.subscription.schedule
  recurringPayment : ∀ r, fallbacks.recurringPayment = .read (some r) → r.schedule.Later db.recurringPayment.schedule

theorem FinalizeInput.transferUpdate_settled (input : FinalizeInput) (now : Nat) (r : PaymentTransferRow) :
    Settled ((input.transferUpdate now).set r).status := by
  show Settled (if input.transfer.status = .finalized then .finalized else .confirmed)
  unfold Settled
  split <;> simp

namespace Commits

variable {db db' : CollectionDatabase} {input : FinalizeInput} {fallbacks : Fallbacks} {now : Nat} {found : FoundRows}

theorem accepts (h : Commits db input fallbacks now db' found) :
    Schedule.Accepts input (·.schedule) found.recurringPayment ∧ Schedule.Accepts input (·.schedule) found.subscription ∧
    (∃ r, found.attempt.row = some r ∧ r.status = .confirmed ∧ r.signature = some input.proof.signature ∧
      r.id = input.proof.attemptId) ∧
    ∃ r, found.transfer.row = some r ∧ Settled r.status ∧ r.signature = some input.proof.signature ∧
      r.id = input.proof.transferId := by
  have haccepted := h.accepted
  unfold FinalizeInput.rejects at haccepted
  simp only [Bool.or_eq_false_iff, Option.all_eq_false] at haccepted
  obtain ⟨⟨⟨⟨r₁, hr₁, h₁⟩, r₂, hr₂, h₂⟩, r₃, hr₃, h₃⟩, r₄, hr₄, h₄⟩ := haccepted
  refine ⟨⟨r₁, hr₁, ?_⟩, ⟨r₂, hr₂, ?_⟩, ⟨r₃, hr₃, ?_⟩, r₄, hr₄, ?_⟩
  · simp only [RecurringPaymentRow.schedule, Schedule.Past]
    grind
  · simp only [SubscriptionRow.schedule, Schedule.Past]
    grind
  · simp only [decide_eq_false_iff_not, not_or, Decidable.not_not] at h₃
    exact ⟨h₃.1, h₃.2.1, h₃.2.2.1⟩
  · unfold Settled
    grind

/-! Each row after the commit. -/

theorem recurringPayment_moves (h : Commits db input fallbacks now db' found) :
    Schedule.Moves input db.recurringPayment.schedule db'.recurringPayment.schedule :=
  Schedule.moves_of_commit h.recurringPayment fun _ hr => (updatedRecurringPayment_eq_some hr).1

theorem subscription_moves (h : Commits db input fallbacks now db' found) :
    Schedule.Moves input db.subscription.schedule db'.subscription.schedule :=
  Schedule.moves_of_commit h.subscription fun _ hr => updatedSubscription_eq_some hr

theorem recurringPayment_past (h : Commits db input fallbacks now db' found) (hrun : Runs db input fallbacks)
    (hactive : db'.recurringPayment.schedule.active = true) : db'.recurringPayment.schedule.Past input.proof.dueAt :=
  Schedule.past_of_commit h.recurringPayment (fun _ hr => (updatedRecurringPayment_eq_some hr).1) hrun.recurringPayment
    h.accepts.1 hactive

theorem subscription_past (h : Commits db input fallbacks now db' found) (hrun : Runs db input fallbacks)
    (hactive : db'.subscription.schedule.active = true) : db'.subscription.schedule.Past input.proof.dueAt :=
  Schedule.past_of_commit h.subscription (fun _ hr => updatedSubscription_eq_some hr) hrun.subscription h.accepts.2.1
    hactive

theorem period (h : Commits db input fallbacks now db' found) :
    db'.recurringPayment.periodHours = db.recurringPayment.periodHours := by
  rcases commit_onlyRow h.recurringPayment with ⟨hrow, -⟩ | ⟨_, -, hsame, -⟩
  · exact (updatedRecurringPayment_eq_some hrow).2
  · rw [hsame]

theorem transfers_step (h : Commits db input fallbacks now db' found) (hdb : Consistent db) (hproved : Proved db input) :
    QuietStep db { db with transfers := db'.transfers } := by
  rcases Fallback.commit_eq_ok h.transfer with ⟨row, -, hupdate, -⟩ | ⟨_, -, hsame, -⟩
  · refine updateTransfer_step hdb hupdate fun r hr _ => ?_
    have hset := input.transferUpdate_settled now r
    refine transferLater_settled (fun σ hσ => ?_) (fun _ => hset) ?_
    · exact congrArg some (holds_unique hproved.signed ⟨r, hr, hσ⟩)
    · rcases hset with hset | hset <;> simp [hset]
  · rw [hsame]
    exact .refl hdb

theorem transfer_settled (h : Commits db input fallbacks now db' found) (hrun : Runs db input fallbacks) :
    RowAt db'.transfers input.proof.transferId fun r => Settled r.status ∧ r.signature = some input.proof.signature := by
  obtain ⟨-, -, -, r, hr, hsettled, hsignature, hid⟩ := h.accepts
  rcases Fallback.commit_eq_ok h.transfer with ⟨row, -, hupdate, hfound⟩ | ⟨row, hread, hsame, hfound⟩
  · have hrow := updateTransfer_returning hupdate
    rw [hfound] at hr
    obtain rfl := Option.some.inj hr
    exact ⟨row, by rw [hrun.ids.2]; exact hrow, hsettled, hsignature⟩
  · rw [hfound] at hr
    obtain rfl : row = some r := hr
    obtain ⟨r', hr', hlater⟩ := hrun.transfer r hread
    rw [hsame, ← hid]
    exact ⟨r', hr', hlater.settled hsettled, hlater.signature _ hsignature⟩

theorem attempts_step (h : Commits db input fallbacks now db' found) {transfers : TransferTable}
    (hdb : Consistent { db with transfers }) (hproved : Proved { db with transfers } input) :
    QuietStep { db with transfers } { db with transfers, attempts := db'.attempts } := by
  rcases Fallback.commit_eq_ok h.attempt with ⟨row, -, hupdate, -⟩ | ⟨_, -, hsame, -⟩
  · refine updateCollectionAttempt_step hdb hupdate (fun r hr hg => ?_) (fun r hr _ hnone => ?_) (fun _ _ _ _ => rfl)
      fun r σ hr hσ => ?_
    · refine ⟨⟨rfl, rfl⟩, fun id hid => ?_, fun σ hσ => ?_, fun _ => rfl, fun _ => rfl, fun _ => ?_⟩
      · exact congrArg some (hproved.linked.unique ⟨r, hr, hid⟩)
      · obtain ⟨transferId, hlink, hholds⟩ := hdb _ r σ hr hσ
        obtain rfl := hproved.linked.unique ⟨r, hr, hlink⟩
        exact congrArg some (holds_unique hproved.signed hholds)
      · simp only [UpdateCollectionAttemptInput.guard, FinalizeInput.attemptUpdate, Option.all_some] at hg
        unfold activeDue
        grind
    · obtain ⟨r', hr', hlink⟩ := hproved.linked
      obtain rfl := Option.some.inj (hr.symm.trans hr')
      rw [hnone] at hlink
      cases hlink
    · obtain rfl : input.proof.signature = σ := Option.some.inj hσ
      exact ⟨input.transfer.id, rfl, hproved.signed⟩
  · rw [hsame]
    exact .refl hdb

theorem rows_step (h : Commits db input fallbacks now db' found) (hdb : Consistent db) (hproved : Proved db input) :
    QuietStep db db' := by
  have htransfers := h.transfers_step hdb hproved
  have hproved' : Proved { db with transfers := db'.transfers } input :=
    ⟨hproved.ids, hproved.linked, htransfers.holds hproved.signed⟩
  exact (htransfers.after (h.attempts_step htransfers.consistent hproved')).congr rfl rfl

theorem attempt_confirmed (h : Commits db input fallbacks now db' found) (hrun : Runs db input fallbacks) :
    ∃ r, db'.attempts.find? input.proof.attemptId = some r ∧ r.status = .confirmed ∧
      r.signature = some input.proof.signature := by
  obtain ⟨-, -, ⟨r, hr, hconfirmed, hsignature, hid⟩, -⟩ := h.accepts
  rcases Fallback.commit_eq_ok h.attempt with ⟨row, -, hupdate, hfound⟩ | ⟨row, hread, hsame, hfound⟩
  · obtain ⟨hrow, -⟩ := updateCollectionAttempt_returning hupdate
    rw [hfound] at hr
    obtain rfl := Option.some.inj hr
    exact ⟨row, by rw [hrun.ids.1]; exact hrow, hconfirmed, hsignature⟩
  · rw [hfound] at hr
    obtain rfl : row = some r := hr
    obtain ⟨r', hr', hlater⟩ := hrun.attempt r hread
    rw [hsame, ← hid]
    exact ⟨r', hr', hlater.confirmed hconfirmed, hlater.signature _ hsignature⟩

theorem later (h : Commits db input fallbacks now db' found) (hdb : Consistent db) (hrun : Runs db input fallbacks) :
    Later db db' where
  period := h.period
  recurringPayment := h.recurringPayment_moves.later
  subscription := h.subscription_moves.later
  rows := h.rows_step hdb hrun.toProved

end Commits

/-! ## Before the commit -/

theorem getTransferById_find? {t : TransferTable} {id organizationId : String} {projectId : Option String}
    {r : PaymentTransferRow} (h : getTransferById t id organizationId projectId = some r) : t.find? id = some r := by
  unfold getTransferById at h
  exact (Option.filter_eq_some_iff.mp h).1

theorem holds_of_stored {db : CollectionDatabase} (hdb : Consistent db) {attempt : CollectionAttemptRow}
    (hattempt : Table.Seen AttemptLater db.attempts attempt) {transfer : PaymentTransferRow}
    (htransfer : Table.Seen TransferLater db.transfers transfer) (hlink : attempt.transferId = some transfer.id)
    {σ : String} (hσ : attempt.signature.or transfer.signature = some σ) : Holds db.transfers transfer.id σ := by
  obtain ⟨r, hr, hlater⟩ := hattempt
  obtain ⟨r', hr', hlater'⟩ := htransfer
  cases hs : attempt.signature with
  | none =>
    rw [hs] at hσ
    exact ⟨r', hr', hlater'.signature σ hσ⟩
  | some σ' =>
    rw [hs] at hσ
    obtain rfl : σ' = σ := Option.some.inj hσ
    exact hdb.holds hr (hlater.transferId _ hlink) (hlater.signature σ' hs)

theorem proved_of_verify {db : CollectionDatabase} (hdb : Consistent db) {attempt : CollectionAttemptRow}
    (hattempt : Table.Seen AttemptLater db.attempts attempt) {transfer : PaymentTransferRow}
    (htransfer : Table.Seen TransferLater db.transfers transfer) {destinationTokenAccount : String}
    {input : FinalizeInput} (h : verifyStoredRows db attempt transfer destinationTokenAccount = some input) :
    Proved db input ∧ input.recurringPayment = db.recurringPayment := by
  unfold verifyStoredRows at h
  obtain ⟨σ, hσ, h⟩ := Option.bind_eq_some_iff.mp h
  split at h
  · next hmatch =>
    obtain ⟨-, hlink, -⟩ := hmatch
    cases h
    obtain ⟨r, hr, hlater⟩ := hattempt
    exact ⟨⟨⟨rfl, rfl⟩, ⟨r, hr, hlater.transferId _ hlink⟩, holds_of_stored hdb ⟨r, hr, hlater⟩ htransfer hlink hσ⟩, rfl⟩
  · cases h

/-! ## The tracking job -/

theorem trackedStatuses_settled {status status' : PaymentTransferStatus} (h : (status, status') ∈ trackedStatuses) :
    (Settled status → Settled status') ∧ status' ≠ .processing := by
  unfold trackedStatuses at h
  unfold Settled
  simp only [List.mem_cons, Prod.mk.injEq, List.not_mem_nil, or_false] at h
  rcases h with ⟨rfl, rfl⟩ | ⟨rfl, rfl⟩ | ⟨rfl, rfl⟩ | ⟨rfl, rfl⟩ <;> simp

theorem track_step {db : CollectionDatabase} (hdb : Consistent db) {transfers : TransferTable}
    {row : Option PaymentTransferRow} {transferId : String} {expectedStatus status : PaymentTransferStatus} {now : Nat}
    (hstatus : (expectedStatus, status) ∈ trackedStatuses)
    (h : updateTransfer db.transfers
      { transferId, expectedStatus := some expectedStatus, status := some status, updatedAt := now } =
        .ok (transfers, row)) : QuietStep db { db with transfers } := by
  obtain ⟨hsettled, hclosed⟩ := trackedStatuses_settled hstatus
  refine updateTransfer_step hdb h fun r _ hguard => transferLater_settled (fun σ hσ => hσ) (fun hs => ?_) hclosed
  have hr : r.status = expectedStatus := by simpa [UpdatePaymentTransferInput.guard] using hguard
  rw [hr] at hs
  exact hsettled hs

end Sdp.Recurring
