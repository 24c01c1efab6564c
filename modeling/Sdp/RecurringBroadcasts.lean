import Sdp.Lib.Run
import Sdp.RecurringEffects

/-!
# A period is not collected twice

Recovery marks an attempt failed on the strength of rows that it read before. When these rows still
say what it read, the attempt is never broadcast, and each due time has at most one attempt whose
transaction may count.
-/

open Sdp.Lib

namespace Sdp.Collectors

open Payments Recurring

/-! ## Every run -/

/-- Nothing has been collected yet. -/
structure Opening (s : System) : Prop where
  attempts : s.db.attempts.rows = []
  idle : ∀ w, s.workers w = .idle
  broadcasts : s.broadcasts = []
  interrupted : s.interrupted = []

theorem Opening.find?_ne {s : System} (h : Opening s) (id : String) (r : CollectionAttemptRow) :
    s.db.attempts.find? id ≠ some r := by
  intro hr
  have hmem := (Table.find?_eq_some_iff.mp hr).1
  rw [h.attempts] at hmem
  cases hmem

theorem inv_opening {s : System} (h : Opening s) : Inv s := by
  refine ⟨fun id r σ hr => absurd hr (h.find?_ne id r), fun id id' r r' hr => absurd hr (h.find?_ne id r),
    ?_, ?_, ?_, ?_, ?_⟩
  · intro w
    rw [h.idle w]
    trivial
  · intro w w' a ha
    rw [h.idle w] at ha
    cases ha
  · intro w a ha
    rw [h.idle w] at ha
    cases ha
  · intro w
    rw [h.idle w]
    trivial
  · intro a ha
    rw [h.broadcasts] at ha
    cases ha

theorem inv_step {s t : System} {l : Step} (h : Inv s) (hstep : s.step l = some t) : Inv t := by
  cases effect_of_step h hstep with
  | quiet created linked w W hm _ => exact hm.inv h
  | marked w attempt transfer hm _ _ _ _ => exact hm.inv h

theorem blocked_step {s t : System} {l : Step} (h : Inv s) (hstep : s.step l = some t) {a : String} (hb : Blocked s a) :
    Blocked t a := by
  cases effect_of_step h hstep with
  | quiet created linked w W hm _ => exact hm.blocked h hb
  | marked w attempt transfer hm _ _ _ _ => exact hm.blocked h hb

theorem inv_reachable {ok : System → Step → Prop} {s : System} (h : Reachable System.step Opening ok s) : Inv s :=
  h.invariant (fun _ => inv_opening) fun _ _ _ _ hinv _ hstep => inv_step hinv hstep

/-- An attempt that is blocked is not broadcast later on, whatever happens. -/
theorem Blocked.never_broadcast {s t : System} (hinv : Inv s) {a : String} (hb : Blocked s a)
    (h : Reachable System.step (· = s) anyStep t) : a ∉ t.broadcasts := by
  have hall : Inv t ∧ Blocked t a := by
    refine h.invariant (P := fun t => Inv t ∧ Blocked t a) ?_ ?_
    · rintro _ rfl
      exact ⟨hinv, hb⟩
    · rintro _ _ _ _ ⟨hinv, hb⟩ _ hstep
      exact ⟨inv_step hinv hstep, blocked_step hinv hstep hb⟩
  exact hall.2.unsent

/-! ## Marked attempts -/

/-- What recovery judged still holds when it fails the attempt. A row that is confirmed by then is not failed. -/
def Judged (db : CollectionDatabase) (existing : CollectionAttemptRow) : Option PaymentTransferRow → Prop
  | none => ∀ r, db.attempts.find? existing.id = some r → r.status ≠ .confirmed → r.transferId = none
  | some transfer => ∀ r, db.transfers.find? transfer.id = some r → ¬ Settled r.status → r.submissionStartedAt = none

/-- Recovery marks an attempt as interrupted only while it has no transfer, or one whose submission has not started. -/
def judgedRowsHold (s : System) : Step → Prop
  | .interrupt w =>
    match s.workers w with
    | .interrupting existing transfer _ _ => Judged s.db existing transfer
    | _ => True
  | _ => True

theorem unstarted_of_judged {created linked marked : Option String} {db db' : CollectionDatabase}
    {attempt : CollectionAttemptRow} {transfer : Option PaymentTransferRow} (hjudged : Judged db attempt transfer)
    (hrows : RowsStep created linked marked db db')
    (hlinked : ∀ r, transfer = some r → LinkedTo db attempt.id r.id) {r : CollectionAttemptRow}
    (hr : db'.attempts.find? attempt.id = some r) (hfailed : r.status = .failed)
    (htransfer : ∀ r', transfer = some r' → Failed db' r'.id) {transferId : String}
    (h : LinkedTo db attempt.id transferId) : ¬ Started db transferId ∧ ¬ Processing db' transferId := by
  cases transfer with
  | none =>
    obtain ⟨r₀, hr₀, hlink⟩ := h
    obtain ⟨r₁, hr₁, hlater⟩ := hrows.attempts _ r₀ hr₀
    obtain rfl := Option.some.inj (hr₁.symm.trans hr)
    have hnot : r₀.status ≠ .confirmed := by
      intro hconfirmed
      rw [hlater.confirmed hconfirmed] at hfailed
      cases hfailed
    rw [hjudged r₀ hr₀ hnot] at hlink
    cases hlink
  | some transfer =>
    obtain rfl := (hlinked transfer rfl).unique h
    obtain ⟨r', hr', hfailed'⟩ := htransfer transfer rfl
    constructor
    · rintro ⟨r₀, hr₀, hstarted⟩
      obtain ⟨r₁, hr₁, hlater⟩ := hrows.transfers _ r₀ hr₀
      obtain rfl := Option.some.inj (hr₁.symm.trans hr')
      have hnot : ¬ Settled r₀.status := by
        intro hsettled
        rcases hlater.settled hsettled with hs | hs <;> rw [hs] at hfailed' <;> cases hfailed'
      rw [hjudged r₀ hr₀ hnot] at hstarted
      cases hstarted
    · rintro ⟨r₁, hr₁, hprocessing⟩
      obtain rfl := Option.some.inj (hr₁.symm.trans hr')
      rw [hprocessing] at hfailed'
      cases hfailed'

theorem blocked_interrupted {s t : System} (hinv : Inv s) {w : Nat} {attempt : CollectionAttemptRow}
    {transfer : Option PaymentTransferRow} (hjudged : Judged s.db attempt transfer)
    (hm : Moves none none (some attempt.id) s t w .done) (hbroadcasts : t.broadcasts = s.broadcasts)
    (hlinked : ∀ r, transfer = some r → LinkedTo s.db attempt.id r.id) {r : CollectionAttemptRow}
    (hr : t.db.attempts.find? attempt.id = some r) (hfailed : r.status = .failed)
    (htransfer : ∀ r', transfer = some r' → Failed t.db r'.id) : Blocked t attempt.id := by
  have hlink (transferId : String) (h : LinkedTo s.db attempt.id transferId) :
      ¬ Started s.db transferId ∧ ¬ Processing t.db transferId :=
    unstarted_of_judged hjudged hm.rows hlinked hr hfailed htransfer h
  refine ⟨⟨r, hr⟩, fun hmem => ?_, fun w' harmed => ?_⟩
  · rw [hbroadcasts] at hmem
    obtain ⟨transferId, h, hstarted⟩ := hinv.started _ hmem
    exact (hlink transferId h).1 hstarted
  · by_cases hww : w' = w
    · rw [hww, hm.worker_self] at harmed
      exact harmed
    · rw [hm.worker_of_ne hww] at harmed
      have hknows := hinv.knows w'
      generalize s.workers w' = W at harmed hknows
      cases W with
      | claimed attempt' =>
        obtain ⟨-, r', hr', hopen⟩ := harmed
        obtain rfl := Option.some.inj (hr.symm.trans hr')
        rw [hfailed] at hopen
        cases hopen
      | linked attempt' transfer' =>
        obtain ⟨hid, hprocessing⟩ := harmed
        exact (hlink _ (hid ▸ hknows.linkedTo)).2 hprocessing
      | persisted c =>
        obtain ⟨hid, hprocessing⟩ := harmed
        exact (hlink _ (hid ▸ hknows.pair.linkedTo)).2 hprocessing
      | started c _ =>
        have hid : c.attempt.id = attempt.id := harmed
        exact (hlink _ (hid ▸ hknows.1.pair.linkedTo)).1 hknows.2
      | _ => exact harmed

theorem blocked_own {s t : System} (hinv : Inv s) {w : Nat} {f : Failing} (hw : s.workers w = .failing f)
    (hunsent : f.attempt.id ∉ s.broadcasts) {marked : Option String} (hm : Moves none none marked s t w .done)
    (hbroadcasts : t.broadcasts = s.broadcasts) : Blocked t f.attempt.id := by
  have hcollects : (s.workers w).attempt? = some f.attempt.id := by
    rw [hw]
    rfl
  obtain ⟨r, hr⟩ := hinv.exist w _ hcollects
  obtain ⟨r', hr', -⟩ := hm.rows.attempts _ r hr
  refine ⟨⟨r', hr'⟩, hbroadcasts ▸ hunsent, fun w' harmed => ?_⟩
  by_cases hww : w' = w
  · rw [hww, hm.worker_self] at harmed
    exact harmed
  · rw [hm.worker_of_ne hww] at harmed
    exact hww (hinv.collector w' w _ harmed.attempt? hcollects)

/-! ## Every attempt is accounted for -/

/-- The attempt takes up its due time, is never broadcast, or failed on the chain. -/
def Accounted (s : System) (a : String) : Prop :=
  (∃ r, s.db.attempts.find? a = some r ∧ activeDue r.status = true) ∨ Blocked s a ∨ KnownFailed s a

structure Safe (s : System) : Prop where
  accounted : ∀ a r, s.db.attempts.find? a = some r → Accounted s a
  interrupted : ∀ a ∈ s.interrupted, Blocked s a

theorem Moves.accounted {created linked marked : Option String} {s t : System} {w : Nat} {W : Worker}
    (h : Moves created linked marked s t w W) (hinv : Inv s) {a : String} (hne : marked ≠ some a)
    (ha : Accounted s a) : Accounted t a := by
  rcases ha with ⟨r, hr, hactive⟩ | hb | hf
  · exact .inl (h.rows.active a r hr hactive hne)
  · exact .inr (.inl (h.blocked hinv hb))
  · exact .inr (.inr (h.knownFailed hf))

theorem accounted_of_cause {s t : System} {l : Step} (hinv : Inv s) (hok : judgedRowsHold s l) {w : Nat}
    {attempt : CollectionAttemptRow} {transfer : Option PaymentTransferRow}
    (hm : Moves none none (some attempt.id) s t w .done) (hbroadcasts : t.broadcasts = s.broadcasts)
    (hlinked : ∀ r, transfer = some r → LinkedTo s.db attempt.id r.id) {r : CollectionAttemptRow}
    (hr : t.db.attempts.find? attempt.id = some r) (hfailed : r.status = .failed)
    (htransfer : ∀ r', transfer = some r' → Failed t.db r'.id) (hcause : Cause s l t w attempt transfer) :
    Accounted t attempt.id := by
  cases hcause with
  | own f hw hf hjournaled _ =>
    obtain rfl := hf
    rcases (hinv.caller hw).2 with ⟨-, hsome⟩ | hunsent | hknown
    · rw [hjournaled] at hsome
      cases hsome
    · exact .inr (.inl (blocked_own hinv hw hunsent hm hbroadcasts))
    · exact .inr (.inr (hm.knownFailed hknown))
  | onChain transfer' σ err hsigned hlanded _ =>
    exact .inr (.inr (hm.knownFailed ⟨transfer'.id, σ, err, hsigned, hlanded⟩))
  | interrupted submittedSignature message hl hw _ =>
    subst hl
    simp only [judgedRowsHold, hw] at hok
    exact .inr (.inl (blocked_interrupted hinv hok hm hbroadcasts hlinked hr hfailed htransfer))

theorem safe_opening {s : System} (h : Opening s) : Safe s := by
  refine ⟨fun a r hr => absurd hr (h.find?_ne a r), fun a ha => ?_⟩
  rw [h.interrupted] at ha
  cases ha

theorem safe_step {s t : System} {l : Step} (hinv : Inv s) (hsafe : Safe s) (hok : judgedRowsHold s l)
    (hstep : s.step l = some t) : Safe t := by
  cases effect_of_step hinv hstep with
  | quiet created linked w W hm hinterrupted =>
    refine ⟨fun a r' hr' => ?_, fun a ha => ?_⟩
    · rcases hm.rows.fresh a r' hr' with ⟨r, hr⟩ | hcreated
      · exact hm.accounted hinv (by simp) (hsafe.accounted a r hr)
      · exact .inl (hm.new a hcreated).2
    · exact hm.blocked hinv (hsafe.interrupted a (hinterrupted ▸ ha))
  | marked w attempt transfer hm hbroadcasts hlinked hrow hcause =>
    obtain ⟨r, hr, hstatus⟩ := hrow
    refine ⟨fun a r' hr' => ?_, fun a ha => ?_⟩
    · by_cases ha : a = attempt.id
      · subst ha
        rcases hstatus with hconfirmed | ⟨hfailed, htransfer⟩
        · exact .inl ⟨r, hr, by rw [hconfirmed]; rfl⟩
        · exact accounted_of_cause hinv hok hm hbroadcasts hlinked hr hfailed htransfer hcause
      · rcases hm.rows.fresh a r' hr' with ⟨r₀, hr₀⟩ | hcreated
        · exact hm.accounted hinv (fun h => ha (Option.some.inj h).symm) (hsafe.accounted a r₀ hr₀)
        · cases hcreated
    · cases hcause with
      | own f _ _ _ hinterrupted => exact hm.blocked hinv (hsafe.interrupted a (hinterrupted ▸ ha))
      | onChain _ _ _ _ _ hinterrupted => exact hm.blocked hinv (hsafe.interrupted a (hinterrupted ▸ ha))
      | interrupted submittedSignature message hl hw hinterrupted =>
        rw [hinterrupted] at ha
        subst hl
        simp only [judgedRowsHold, hw] at hok
        split at ha
        · next hany =>
          rw [hr] at hany
          have hfailed : r.status = .failed := of_decide_eq_true hany
          rcases List.mem_cons.mp ha with rfl | ha
          · rcases hstatus with hconfirmed | ⟨-, htransfer⟩
            · cases hfailed.symm.trans hconfirmed
            · exact blocked_interrupted hinv hok hm hbroadcasts hlinked hr hfailed htransfer
          · exact hm.blocked hinv (hsafe.interrupted a ha)
        · exact hm.blocked hinv (hsafe.interrupted a ha)

theorem safe_reachable {s : System} (h : Reachable System.step Opening judgedRowsHold s) : Safe s :=
  h.invariant (fun _ => safe_opening) fun _ _ _ hs hsafe hok hstep => safe_step (inv_reachable hs) hsafe hok hstep

/-- The transaction of the attempt was or can still be broadcast, and is not known to have failed. -/
def Live (s : System) (a : String) : Prop :=
  (∃ t, Reachable System.step (· = s) anyStep t ∧ a ∈ t.broadcasts) ∧ ¬ KnownFailed s a

theorem active_of_live {s : System} (hinv : Inv s) (hsafe : Safe s) {a : String} {r : CollectionAttemptRow}
    (hr : s.db.attempts.find? a = some r) (hlive : Live s a) : activeDue r.status = true := by
  obtain ⟨⟨t, ht, hmem⟩, hknown⟩ := hlive
  rcases hsafe.accounted a r hr with ⟨r', hr', hactive⟩ | hb | hf
  · obtain rfl := Option.some.inj (hr'.symm.trans hr)
    exact hactive
  · exact absurd hmem (hb.never_broadcast hinv ht)
  · exact absurd hf hknown

/-- No attempt that was marked as interrupted is ever broadcast, and at most one attempt for each due time of a
subscription counts. -/
theorem period_collected_once {s : System} (h : Reachable System.step Opening judgedRowsHold s) :
    (∀ a ∈ s.interrupted, ∀ t, Reachable System.step (· = s) anyStep t → a ∉ t.broadcasts) ∧
    ∀ a a' r r', s.db.attempts.find? a = some r → s.db.attempts.find? a' = some r' →
      r.subscriptionId = r'.subscriptionId → r.dueAt = r'.dueAt → Live s a → Live s a' → a = a' := by
  have hinv := inv_reachable h
  have hsafe := safe_reachable h
  refine ⟨fun a ha t ht => (hsafe.interrupted a ha).never_broadcast hinv ht, ?_⟩
  intro a a' r r' hr hr' hsubscription hdue hlive hlive'
  exact hinv.indexed a a' r r' hr hr' (active_of_live hinv hsafe hr hlive) (active_of_live hinv hsafe hr' hlive')
    hsubscription hdue

/-! A due time, and two collectors and a recoverer of it. -/

def dueCollection : System where
  now := 0
  db := {
    recurringPayment := ⟨"payment", "organization", "project", .active, 24, some 0, none, 0, day_positive⟩
    subscription := ⟨"subscription", .active, none, some 0, 0⟩
    attempts := Table.empty
    transfers := Table.empty }
  chain := ⟨0, fun _ => none, fun _ => none⟩
  workers := fun _ => .idle
  broadcasts := []
  interrupted := []

theorem dueCollection_opening : Opening dueCollection := ⟨rfl, fun _ => rfl, rfl, rfl⟩

/-- The first collector stops before it creates a transfer, and recovery judges its attempt. -/
def stopped : List Step := [.create 0 "a" 0, .crash 0, .elapse 900000 0, .recover 1 0, .judge 1]

def collects (worker : Nat) (attemptId transferId signature : String) : List Step :=
  [.create worker attemptId 0, .link worker transferId .answered,
    .persist worker ⟨signature, "transaction", 150⟩ .answered, .start worker .answered, .send worker .accepted]

theorem interrupted_then_collected_once : ∃ s, run System.step dueCollection
      (stopped ++ [.interrupt 1] ++ collects 2 "b" "tb" "σb") = some s ∧
    "a" ∈ s.interrupted ∧ "b" ∈ s.broadcasts ∧
    (∀ a ∈ s.interrupted, ∀ t, Reachable System.step (· = s) anyStep t → a ∉ t.broadcasts) ∧
    ∀ a a' r r', s.db.attempts.find? a = some r → s.db.attempts.find? a' = some r' →
      r.subscriptionId = r'.subscriptionId → r.dueAt = r'.dueAt → Live s a → Live s a' → a = a' := by
  have hstart : Reachable System.step Opening judgedRowsHold dueCollection := .start dueCollection_opening
  have hstopped := hstart.run_of (by simp [stopped, judgedRowsHold])
    (by rfl : run System.step dueCollection stopped = some _)
  have hinterrupted := Reachable.step (l := .interrupt 1) hstopped (by rintro r ⟨⟩ -; rfl) rfl
  have hcollected := hinterrupted.run_of (by simp [collects, judgedRowsHold])
    (by rfl : run System.step _ (collects 2 "b" "tb" "σb") = some _)
  exact ⟨_, rfl, by decide, by decide, period_collected_once hcollected⟩

/-- The first collector links a transfer while recovery is between its read and its mark, and goes on. -/
def collectedTwice : List Step :=
  [.create 0 "a" 0, .elapse 900000 0, .recover 1 0, .judge 1, .link 0 "ta" .answered, .interrupt 1,
    .persist 0 ⟨"σa", "transaction", 150⟩ .answered, .start 0 .answered, .send 0 .accepted] ++ collects 2 "b" "tb" "σb"

theorem interrupted_is_broadcast : ∃ s, Reachable System.step Opening anyStep s ∧
    "a" ∈ s.interrupted ∧ "a" ∈ s.broadcasts ∧
    (s.db.attempts.rows.map fun r => (r.id, r.subscriptionId, r.dueAt)) =
      [("a", "subscription", 0), ("b", "subscription", 0)] ∧
    Live s "a" ∧ Live s "b" := by
  refine ⟨_, .run (.start dueCollection_opening) (by rfl : run System.step _ collectedTwice = some _), by decide,
    by decide, by decide, ⟨⟨_, .start rfl, by decide⟩, ?_⟩, ⟨_, .start rfl, by decide⟩, ?_⟩
  · rintro ⟨transferId, σ, err, -, ⟨⟩⟩
  · rintro ⟨transferId, σ, err, -, ⟨⟩⟩

end Sdp.Collectors
