import Sdp.Admission
import Mathlib.Data.List.Nodup

/-!
# One owner for each attempt

A request owns an attempt from the statement that opened it, which only one request gets through.
An attempt that was opened stays opened, so no later request opens it again.
-/

open Sdp.Lib

namespace Sdp.Budget

/-- The ledger opened the attempt. -/
def Known (l : Ledger) (a : AttemptId) : Prop := ∃ r, l.find? a.reservationId = some r ∧ a.attempt ≤ r.attempt

theorem Known.exec {l : Ledger} {a : AttemptId} (h : Known l a) (now : String) (call : LedgerCall) :
    Known (exec l now call) a := by
  obtain ⟨r, hr, hle⟩ := h
  obtain ⟨r', hr', hlater⟩ := exec_later l now call hr
  exact ⟨r', hr', hle.trans hlater.attempt⟩

/-- The attempt that a request was granted and is not done with. -/
def Request.owns : Request → Option AttemptId
  | .granted a | .invoked a | .settlingRelease a | .markingRelease a => some a
  | _ => none

/-! ## Where a request goes -/

theorem afterRead_held (id : String) (op : AdmissionOperation) (durable : Option ReservationRow) :
    (afterRead id op durable).held = none ∧ (afterRead id op durable).owns = none := by
  unfold afterRead
  repeat' split
  all_goals exact ⟨rfl, rfl⟩

theorem afterResolve_held (reg : Registry) (a : AttemptId) (op : AdmissionOperation) (round : Nat) (owned : Bool)
    (policies : Policies) :
    (afterResolve reg a op round owned policies).held = (Request.resolving a op round owned).held ∧
      (afterResolve reg a op round owned policies).owns = none := by
  unfold afterResolve
  cases owned
  all_goals
    repeat' split
    all_goals first | exact ⟨rfl, rfl⟩ | contradiction

theorem afterReread_held (a : AttemptId) (op : AdmissionOperation) (policies : Policies)
    (existing : Option ReservationRow) :
    (afterReread a op policies existing).held = none ∧ (afterReread a op policies existing).owns = none := by
  unfold afterReread
  repeat' split
  all_goals exact ⟨rfl, rfl⟩

theorem afterReserve_held (a : AttemptId) (op : AdmissionOperation) (round : Nat) {outcome : AdmissionOutcome}
    (h : outcome ≠ .admitted) :
    (afterReserve a op round outcome).held = some a ∧ (afterReserve a op round outcome).owns = none := by
  unfold afterReserve
  cases outcome with
  | admitted => exact absurd rfl h
  | duplicate | denied => exact ⟨rfl, rfl⟩
  | stalePolicy =>
    dsimp only
    split
    · exact ⟨rfl, rfl⟩
    · exact ⟨rfl, rfl⟩

/-! ## The invariant -/

structure Ownership (s : System) : Prop where
  held_known : ∀ p a, (s.requests p).held = some a → Known s.ledger a
  held_unique : ∀ p q a, (s.requests p).held = some a → (s.requests q).held = some a → p = q
  held_ungranted : ∀ p a, (s.requests p).held = some a → a ∉ s.grants.map Prod.snd
  granted_known : ∀ p a, (p, a) ∈ s.grants → Known s.ledger a
  granted_once : (s.grants.map Prod.snd).Nodup
  owns_granted : ∀ p a, (s.requests p).owns = some a → (p, a) ∈ s.grants
  called_granted : ∀ c ∈ s.providerCalls, c ∈ s.grants
  called_once : (s.providerCalls.map Prod.snd).Nodup
  uncalled : ∀ p a, s.requests p = .granted a → a ∉ s.providerCalls.map Prod.snd

namespace Ownership

variable {s t : System}

theorem start : Ownership .start where
  held_known _ _ h := by cases h
  held_unique _ _ _ h := by cases h
  held_ungranted _ _ h := by cases h
  granted_known _ _ h := by cases h
  granted_once := List.nodup_nil
  owns_granted _ _ h := by cases h
  called_granted _ h := by cases h
  called_once := List.nodup_nil
  uncalled _ _ h := by cases h

theorem congr (hs : Ownership s) (hledger : ∀ a, Known s.ledger a → Known t.ledger a)
    (hrequests : t.requests = s.requests) (hgrants : t.grants = s.grants)
    (hcalls : t.providerCalls = s.providerCalls) : Ownership t := by
  constructor
  all_goals simp only [hrequests, hgrants, hcalls]
  · exact fun p a h => hledger a (hs.held_known p a h)
  · exact hs.held_unique
  · exact hs.held_ungranted
  · exact fun p a h => hledger a (hs.granted_known p a h)
  · exact hs.granted_once
  · exact hs.owns_granted
  · exact hs.called_granted
  · exact hs.called_once
  · exact hs.uncalled

theorem write (hs : Ownership s) (now : String) (call : LedgerCall) : Ownership (s.write now call) :=
  hs.congr (fun _ h => h.exec now call) rfl rfl rfl

theorem setRequest (hs : Ownership s) (p : Nat) {next : Request}
    (hheld : ∀ a, next.held = some a → (s.requests p).held = some a)
    (howns : ∀ a, next.owns = some a → (p, a) ∈ s.grants) (hgranted : ∀ a, next ≠ .granted a) :
    Ownership (s.setRequest p next) := by
  have hold : ∀ q a, ((s.setRequest p next).requests q).held = some a → (s.requests q).held = some a := by
    intro q a hq
    simp only [System.setRequest, Function.update_apply] at hq
    split at hq
    · next h => subst h; exact hheld a hq
    · exact hq
  constructor
  case held_known => exact fun q a hq => hs.held_known q a (hold q a hq)
  case held_unique => exact fun q q' a hq hq' => hs.held_unique q q' a (hold q a hq) (hold q' a hq')
  case held_ungranted => exact fun q a hq => hs.held_ungranted q a (hold q a hq)
  case granted_known => exact hs.granted_known
  case granted_once => exact hs.granted_once
  case owns_granted =>
    intro q a hq
    simp only [System.setRequest, Function.update_apply] at hq
    split at hq
    · next h => subst h; exact howns a hq
    · exact hs.owns_granted q a hq
  case called_granted => exact hs.called_granted
  case called_once => exact hs.called_once
  case uncalled =>
    intro q a hq
    simp only [System.setRequest, Function.update_apply] at hq
    split at hq
    · exact absurd hq (hgranted a)
    · exact hs.uncalled q a hq

theorem letGo (hs : Ownership s) (p : Nat) {next : Request} (h : next.held = none ∧ next.owns = none) :
    Ownership (s.setRequest p next) := by
  refine hs.setRequest p (fun a ha => ?_) (fun a ha => ?_) (fun a ha => ?_)
  · rw [h.1] at ha; cases ha
  · rw [h.2] at ha; cases ha
  · rw [ha] at h; cases h.2

theorem keep (hs : Ownership s) (p : Nat) {next : Request} (hheld : next.held = (s.requests p).held)
    (howns : next.owns = none) : Ownership (s.setRequest p next) := by
  refine hs.setRequest p (fun a ha => hheld ▸ ha) (fun a ha => ?_) (fun a ha => ?_)
  · rw [howns] at ha; cases ha
  · rw [ha] at howns; cases howns

theorem own (hs : Ownership s) (p : Nat) {next : Request} {a : AttemptId} (hp : (s.requests p).owns = some a)
    (hheld : next.held = none) (howns : next.owns = some a) (hgranted : ∀ a, next ≠ .granted a) :
    Ownership (s.setRequest p next) := by
  refine hs.setRequest p (fun b hb => ?_) (fun b hb => ?_) hgranted
  · rw [hheld] at hb; cases hb
  · obtain rfl : a = b := Option.some.inj (howns.symm.trans hb)
    exact hs.owns_granted p a hp

theorem opened (hs : Ownership s) (p : Nat) {now : String} {call : LedgerCall} {a : AttemptId}
    (hnew : ¬ Known s.ledger a) (hknown : Known (exec s.ledger now call) a) {next : Request}
    (hheld : next.held = some a) (howns : next.owns = none) : Ownership ((s.write now call).setRequest p next) := by
  have hmono := fun b (h : Known s.ledger b) => h.exec now call
  have hcases : ∀ q b, (((s.write now call).setRequest p next).requests q).held = some b →
      q = p ∧ b = a ∨ q ≠ p ∧ (s.requests q).held = some b := by
    intro q b hq
    simp only [System.setRequest, System.write, Function.update_apply] at hq
    split at hq
    · next h => exact .inl ⟨h, (Option.some.inj (hheld.symm.trans hq)).symm⟩
    · next h => exact .inr ⟨h, hq⟩
  constructor
  case held_known =>
    intro q b hq
    rcases hcases q b hq with ⟨-, rfl⟩ | ⟨-, hq⟩
    · exact hknown
    · exact hmono b (hs.held_known q b hq)
  case held_unique =>
    intro q q' b hq hq'
    rcases hcases q b hq with ⟨rfl, rfl⟩ | ⟨-, hq⟩
    · rcases hcases q' b hq' with ⟨rfl, -⟩ | ⟨-, hq'⟩
      · rfl
      · exact absurd (hs.held_known q' b hq') hnew
    · rcases hcases q' b hq' with ⟨-, rfl⟩ | ⟨-, hq'⟩
      · exact absurd (hs.held_known q b hq) hnew
      · exact hs.held_unique q q' b hq hq'
  case held_ungranted =>
    intro q b hq
    rcases hcases q b hq with ⟨-, rfl⟩ | ⟨-, hq⟩
    · rintro hmem
      obtain ⟨⟨q', b'⟩, hg, rfl⟩ := List.mem_map.mp hmem
      exact hnew (hs.granted_known q' b' hg)
    · exact hs.held_ungranted q b hq
  case granted_known => exact fun q b hq => hmono b (hs.granted_known q b hq)
  case granted_once => exact hs.granted_once
  case owns_granted =>
    intro q b hq
    simp only [System.setRequest, System.write, Function.update_apply] at hq
    split at hq
    · rw [howns] at hq; cases hq
    · exact hs.owns_granted q b hq
  case called_granted => exact hs.called_granted
  case called_once => exact hs.called_once
  case uncalled =>
    intro q b hq
    simp only [System.setRequest, System.write, Function.update_apply] at hq
    split at hq
    · rw [hq] at howns; cases howns
    · exact hs.uncalled q b hq

theorem grant (hs : Ownership s) (reg : Registry) (p : Nat) {a : AttemptId} (hp : (s.requests p).held = some a) :
    Ownership ((s.grant reg p a).setRequest p (.granted a)) := by
  have hnew := hs.held_ungranted p a hp
  have hcases : ∀ q b, (((s.grant reg p a).setRequest p (.granted a)).requests q).held = some b →
      q ≠ p ∧ (s.requests q).held = some b := by
    intro q b hq
    simp only [System.setRequest, System.grant, Function.update_apply] at hq
    split at hq
    · cases hq
    · next h => exact ⟨h, hq⟩
  constructor
  case held_known => exact fun q b hq => hs.held_known q b (hcases q b hq).2
  case held_unique => exact fun q q' b hq hq' => hs.held_unique q q' b (hcases q b hq).2 (hcases q' b hq').2
  case held_ungranted =>
    intro q b hq hmem
    obtain ⟨hne, hheld⟩ := hcases q b hq
    rcases List.mem_cons.mp hmem with rfl | hmem
    · exact hne (hs.held_unique q p b hheld hp)
    · exact hs.held_ungranted q b hheld hmem
  case granted_known =>
    intro q b hq
    rcases List.mem_cons.mp hq with h | hq
    · cases h
      exact hs.held_known p a hp
    · exact hs.granted_known q b hq
  case granted_once => exact List.nodup_cons.mpr ⟨hnew, hs.granted_once⟩
  case owns_granted =>
    intro q b hq
    simp only [System.setRequest, System.grant, Function.update_apply] at hq
    split at hq
    · next h =>
      subst h
      obtain rfl := Option.some.inj hq
      exact List.mem_cons_self
    · exact List.mem_cons_of_mem _ (hs.owns_granted q b hq)
  case called_granted => exact fun c hc => List.mem_cons_of_mem _ (hs.called_granted c hc)
  case called_once => exact hs.called_once
  case uncalled =>
    intro q b hq hmem
    simp only [System.setRequest, System.grant, Function.update_apply] at hq hmem
    split at hq
    · cases hq
      obtain ⟨c, hc, rfl⟩ := List.mem_map.mp hmem
      exact hnew (List.mem_map_of_mem (hs.called_granted c hc))
    · exact hs.uncalled q b hq hmem

theorem grants_inj (hs : Ownership s) {p q : Nat} {a : AttemptId} (hp : (p, a) ∈ s.grants) (hq : (q, a) ∈ s.grants) :
    p = q :=
  congrArg Prod.fst (List.inj_on_of_nodup_map hs.granted_once hp hq rfl)

theorem invoke (hs : Ownership s) {p : Nat} {a : AttemptId} (hp : s.requests p = .granted a) :
    Ownership (System.setRequest { s with providerCalls := (p, a) :: s.providerCalls } p (.invoked a)) := by
  have hgrant : (p, a) ∈ s.grants := hs.owns_granted p a (by rw [hp]; rfl)
  have hcases : ∀ q (r : Request), Function.update s.requests p (.invoked a) q = r →
      q = p ∧ r = .invoked a ∨ q ≠ p ∧ s.requests q = r := by
    intro q r hq
    rw [Function.update_apply] at hq
    split at hq
    · next h => exact .inl ⟨h, hq.symm⟩
    · next h => exact .inr ⟨h, hq⟩
  constructor
  case held_known =>
    intro q b hq
    rcases hcases q _ rfl with ⟨-, hr⟩ | ⟨-, hr⟩
    · simp only [System.setRequest, hr] at hq; cases hq
    · exact hs.held_known q b (by rw [hr]; exact hq)
  case held_unique =>
    intro q q' b hq hq'
    rcases hcases q _ rfl with ⟨-, hr⟩ | ⟨-, hr⟩
    · simp only [System.setRequest, hr] at hq; cases hq
    · rcases hcases q' _ rfl with ⟨-, hr'⟩ | ⟨-, hr'⟩
      · simp only [System.setRequest, hr'] at hq'; cases hq'
      · exact hs.held_unique q q' b (by rw [hr]; exact hq) (by rw [hr']; exact hq')
  case held_ungranted =>
    intro q b hq
    rcases hcases q _ rfl with ⟨-, hr⟩ | ⟨-, hr⟩
    · simp only [System.setRequest, hr] at hq; cases hq
    · exact hs.held_ungranted q b (by rw [hr]; exact hq)
  case granted_known => exact hs.granted_known
  case granted_once => exact hs.granted_once
  case owns_granted =>
    intro q b hq
    rcases hcases q _ rfl with ⟨rfl, hr⟩ | ⟨-, hr⟩
    · simp only [System.setRequest, hr] at hq
      obtain rfl := Option.some.inj hq
      exact hgrant
    · exact hs.owns_granted q b (by rw [hr]; exact hq)
  case called_granted =>
    intro c hc
    rcases List.mem_cons.mp hc with rfl | hc
    · exact hgrant
    · exact hs.called_granted c hc
  case called_once => exact List.nodup_cons.mpr ⟨hs.uncalled p a hp, hs.called_once⟩
  case uncalled =>
    intro q b hq hmem
    rcases hcases q _ hq with ⟨-, hr⟩ | ⟨hne, hr⟩
    · cases hr
    · rcases List.mem_cons.mp hmem with rfl | hmem
      · exact hne (hs.grants_inj (hs.owns_granted q b (by rw [hr]; rfl)) hgrant)
      · exact hs.uncalled q b hr hmem

theorem advance (hs : Ownership s) {reg : Registry} {now : String} {event : AdmissionEvent}
    (h : Advance reg now s event t) : Ownership t := by
  -- Redis, the jobs and the rest of the history say nothing about owners.
  have same {u : System} (hledger : u.ledger = s.ledger) (hrequests : u.requests = s.requests)
      (hgrants : u.grants = s.grants) (hcalls : u.providerCalls = s.providerCalls) : Ownership u :=
    hs.congr (fun _ h => hledger ▸ h) hrequests hgrants hcalls
  cases h with
  | start =>
    refine letGo ?_ _ (by exact ⟨rfl, rfl⟩)
    exact same rfl rfl rfl rfl
  | read => exact hs.letGo _ (afterRead_held ..)
  | @resolve p a op round owned policies hp =>
    obtain ⟨hheld, howns⟩ := afterResolve_held reg a op round owned policies
    exact hs.keep p (by rw [hheld, hp]) howns
  | @created p id op policies _ hnew =>
    refine hs.opened p (a := ⟨id, 1⟩) ?_ ?_ rfl rfl
    · rintro ⟨r, hr, -⟩
      rw [hnew] at hr
      cases hr
    · refine ⟨{ reg.input ⟨id, 1⟩ with status := .reserved, updatedAt := now }, ?_, le_rfl⟩
      simp [exec, createReservation, Table.find?_insertNew, hnew, Registry.input]
  | notCreated => exact (hs.write ..).letGo _ ⟨rfl, rfl⟩
  | reread => exact hs.letGo _ (afterReread_held ..)
  | @reopened p id op policies existing r _ hr hattempt hreleased hset =>
    refine hs.opened p (a := ⟨id, existing.attempt + 1⟩) ?_ ?_ rfl rfl
    · rintro ⟨r', hr', hle⟩
      obtain rfl : r = r' := Option.some.inj (hr.symm.trans hr')
      dsimp only at hle
      omega
    · refine ⟨r.reopened (reg.input ⟨id, existing.attempt + 1⟩) now, ?_, ?_⟩
      · simp [exec, reopenReleasedReservation, Table.find?_update, Registry.input, hr, hattempt, hreleased, hset,
          ReservationRow.reopened]
      · simp [ReservationRow.reopened, hattempt]
  | notReopened _ _ hnext =>
    refine (hs.write ..).letGo _ ?_
    rcases hnext with rfl | ⟨rfl, -⟩
    · exact ⟨rfl, rfl⟩
    · exact ⟨rfl, rfl⟩
  | snapshot hp => exact hs.keep _ (by rw [hp]; rfl) rfl
  | @seed p a op policies round snapshot hp =>
    refine keep ?_ p (by change _ = (s.requests p).held; rw [hp]; rfl) (by rfl)
    exact same rfl rfl rfl rfl
  | admitted hp => exact hs.grant reg _ (by rw [hp]; rfl)
  | @notAdmitted p a op policies round outcome hp houtcome =>
    obtain ⟨hheld, howns⟩ := afterReserve_held a op round houtcome
    exact hs.keep p (by rw [hheld, hp]; rfl) howns
  | release | releaseMark => exact (hs.write ..).letGo _ ⟨rfl, rfl⟩
  | invoke hp => exact hs.invoke hp
  | outcome => exact hs.write ..
  | @failed p a _ _ hp =>
    exact (hs.write ..).own p (a := a) (by change (s.requests p).owns = some a; rw [hp]; rfl) rfl rfl (by simp)
  | notFailed => exact (hs.write ..).letGo _ ⟨rfl, rfl⟩
  | @failSettle p a hp =>
    have hsettle : Ownership (s.settle reg a 0 true) := same rfl rfl rfl rfl
    split
    · exact hsettle.own p (a := a) (by change (s.requests p).owns = some a; rw [hp]; rfl) rfl rfl (by simp)
    · exact hsettle.letGo p ⟨rfl, rfl⟩
  | failMark _ hnext =>
    refine (hs.write ..).letGo _ ?_
    rcases hnext with rfl | rfl
    · exact ⟨rfl, rfl⟩
    · exact ⟨rfl, rfl⟩
  | finish => exact hs.letGo _ ⟨rfl, rfl⟩
  | crash => exact hs.keep _ rfl rfl
  | reconcileRead | syncPolicy | straySettle | strayCancel => exact same rfl rfl rfl rfl
  | committed | notCommitted | jobMark => exact (hs.write ..).congr (fun _ h => h) rfl rfl rfl
  | reconcileCharge | reconcileMiss | strayWrite => exact hs.write ..
  | jobSettle => exact same rfl rfl rfl rfl

theorem of_reachable {reg : Registry} (h : ReachableSystem reg s) : Ownership s := by
  refine h.invariant (P := Ownership) ?_ ?_
  · rintro _ rfl
    exact start
  · intro s e t _ hs _ ht
    obtain ⟨u, hu, rfl⟩ := admissionStep_cases ht
    exact (hs.advance hu).congr (fun _ h => h) rfl rfl rfl

end Ownership

/-! ## One attempt after the other -/

theorem Advance.ledger {reg : Registry} {now : String} {s t : System} {event : AdmissionEvent}
    (h : Advance reg now s event t) : t.ledger = s.ledger ∨ ∃ call, t.ledger = exec s.ledger now call := by
  cases h
  all_goals
    first
    | exact .inl rfl
    | simp only [System.ledger_setRequest, System.ledger_setJob, System.ledger_write]
      exact .inr ⟨_, rfl⟩

/-- The ledger held the attempt as released, with `redis_settled_at` set. -/
def System.ReleasedBefore (s : System) (a : AttemptId) : Prop :=
  ∃ r, s.past r ∧ r.attemptId = a ∧ r.status = .released ∧ r.redisSettledAt.isSome

/-- Every attempt before the one that a row is at was released. -/
def Ordered (s : System) : Prop :=
  ∀ id r, s.ledger.find? id = some r → ∀ n, 1 ≤ n → n < r.attempt → s.ReleasedBefore ⟨id, n⟩

theorem Ordered.step {reg : Registry} {s t : System} {e : String × AdmissionEvent} (hs : Ordered s)
    (h : admissionStep reg s e = some t) : Ordered t := by
  obtain ⟨u, hu, rfl⟩ := admissionStep_cases h
  have hpast : ∀ a, s.ReleasedBefore a →
      System.ReleasedBefore { u with past := fun r => s.past r || s.ledger.find? r.id = some r } a := by
    rintro a ⟨r, hr, hrest⟩
    exact ⟨r, by simp [hr], hrest⟩
  intro id r' hr' n hn hlt
  dsimp only at hr'
  rcases hu.ledger with hl | ⟨call, hl⟩
  · rw [hl] at hr'
    exact hpast _ (hs id r' hr' n hn hlt)
  · rw [hl] at hr'
    cases hr : s.ledger.find? id with
    | none =>
      -- A new row is at its first attempt.
      obtain ⟨input, -, rfl⟩ := exec_new s.ledger e.1 call hr hr'
      dsimp only at hlt
      omega
    | some r =>
      obtain ⟨r'', hr'', hstep⟩ := exec_row s.ledger e.1 call hr
      obtain rfl : r' = r'' := Option.some.inj (hr'.symm.trans hr'')
      rcases hstep with hstep | ⟨input, -, -, hreleased, hset, rfl⟩
      · exact hpast _ (hs id r hr n hn (by rw [← hstep.attempt]; exact hlt))
      · -- The row that is reopened is the last one before.
        rcases Nat.lt_succ_iff_lt_or_eq.mp hlt with hlt | rfl
        · exact hpast _ (hs id r hr n hn hlt)
        · have hid := Table.key_of_find? hr
          exact ⟨r, by simp [hid, hr], by rw [ReservationRow.attemptId, hid], hreleased, hset⟩

theorem Ordered.of_reachable {reg : Registry} {s : System} (h : ReachableSystem reg s) : Ordered s := by
  refine h.invariant (P := Ordered) ?_ ?_
  · rintro _ rfl id r hr
    cases hr
  · intro s e t _ hs _ ht
    exact hs.step ht

/-! ## What the others get -/

/-- What a request has to show for a question about a reservation: rows that were recorded, and a grant. -/
def Request.Justified (recorded : ReservationRow → Prop) (granted : Prop) (id : String) (op : AdmissionOperation) :
    Request → Prop
  | .reading id' op' | .creating id' op' _ => id' = id ∧ op' = op
  | .resolving a op' _ owned => owned = false → a.reservationId = id ∧ op' = op
  | .rereading a op' _ => a.reservationId = id ∧ op' = op
  | .reopening id' op' _ existing => id' = id ∧ op' = op ∧ existing.id = id ∧ recorded existing
  | .replayed row op' => row.id = id ∧ op' = op ∧ replays row op ∧ recorded row
  | .done => granted
  | _ => True

def Answered (recorded : ReservationRow → Prop) (s : System) : Prop :=
  ∀ p, s.requests p = .idle ∨ ∃ id op, s.asked p = some (id, op) ∧
    (s.requests p).Justified recorded (∃ a, (p, a) ∈ s.grants) id op

theorem Request.Justified.mono {recorded recorded' : ReservationRow → Prop} {granted granted' : Prop} {id : String}
    {op : AdmissionOperation} {request : Request} (h : request.Justified recorded granted id op)
    (hrecorded : ∀ r, recorded r → recorded' r) (hgranted : granted → granted') :
    request.Justified recorded' granted' id op := by
  cases request with
  | reopening => exact ⟨h.1, h.2.1, h.2.2.1, hrecorded _ h.2.2.2⟩
  | replayed => exact ⟨h.1, h.2.1, h.2.2.1, hrecorded _ h.2.2.2⟩
  | done => exact hgranted h
  | _ => exact h

namespace Answered

variable {recorded : ReservationRow → Prop} {s t : System}

theorem mono {recorded' : ReservationRow → Prop} (hs : Answered recorded s) (hrequests : t.requests = s.requests)
    (hasked : t.asked = s.asked) (hgrants : ∀ g ∈ s.grants, g ∈ t.grants) (hrecorded : ∀ r, recorded r → recorded' r) :
    Answered recorded' t := by
  intro p
  rw [hrequests, hasked]
  rcases hs p with h | ⟨id, op, hp, h⟩
  · exact .inl h
  · exact .inr ⟨id, op, hp, h.mono hrecorded fun ⟨a, ha⟩ => ⟨a, hgrants _ ha⟩⟩

theorem setRequest (hs : Answered recorded s) {p : Nat} (hp : s.requests p ≠ .idle) {next : Request}
    (hnext : ∀ id op, (s.requests p).Justified recorded (∃ a, (p, a) ∈ s.grants) id op →
      next.Justified recorded (∃ a, (p, a) ∈ s.grants) id op) : Answered recorded (s.setRequest p next) := by
  intro q
  simp only [System.setRequest, Function.update_apply]
  split
  · next h =>
    subst h
    obtain h | ⟨id, op, hasked, h⟩ := hs q
    · exact absurd h hp
    · exact .inr ⟨id, op, hasked, hnext id op h⟩
  · exact hs q

theorem next (hs : Answered recorded s) {p : Nat} (hp : s.requests p ≠ .idle) {next : Request}
    (hnext : ∀ granted id op, next.Justified recorded granted id op) : Answered recorded (s.setRequest p next) :=
  hs.setRequest hp fun _ _ _ => hnext ..

theorem afterRead_justified {granted : Prop} {id : String} {op : AdmissionOperation} {durable : Option ReservationRow}
    (hrow : ∀ r, durable = some r → r.id = id ∧ recorded r) :
    (afterRead id op durable).Justified recorded granted id op := by
  unfold afterRead
  split
  · exact fun _ => ⟨rfl, rfl⟩
  · next r =>
    split
    · next hreplays => exact ⟨(hrow r rfl).1, rfl, hreplays, (hrow r rfl).2⟩
    · split
      · trivial
      · refine fun _ => ⟨?_, rfl⟩
        unfold nextAttempt
        dsimp only
        split
        · rfl
        · rfl

theorem afterResolve_justified (reg : Registry) {granted : Prop} {id : String} {op op' : AdmissionOperation}
    {a : AttemptId} {round : Nat} {owned : Bool} (policies : Policies)
    (h : (Request.resolving a op' round owned).Justified recorded granted id op) :
    (afterResolve reg a op' round owned policies).Justified recorded granted id op := by
  unfold afterResolve
  cases owned with
  | true =>
    split
    · trivial
    · trivial
  | false =>
    have h := h rfl
    split
    · split
      · contradiction
      · split
        · exact h
        · exact h
    · trivial

theorem afterReread_justified {granted : Prop} {a : AttemptId} {op : AdmissionOperation} (policies : Policies)
    {existing : Option ReservationRow} (hrow : ∀ r, existing = some r → r.id = a.reservationId ∧ recorded r) :
    (afterReread a op policies existing).Justified recorded granted a.reservationId op := by
  unfold afterReread
  split
  · trivial
  · next r =>
    split
    · exact ⟨rfl, rfl, hrow r rfl⟩
    · split
      · next hreplays => exact ⟨(hrow r rfl).1, rfl, hreplays, (hrow r rfl).2⟩
      · trivial

theorem afterReserve_justified {granted : Prop} {id : String} {op op' : AdmissionOperation} (a : AttemptId)
    (round : Nat) (outcome : AdmissionOutcome) :
    (afterReserve a op' round outcome).Justified recorded granted id op := by
  unfold afterReserve
  split
  · trivial
  · trivial
  · trivial
  · split
    · exact fun h => nomatch h
    · trivial

theorem advance (hs : Answered recorded s) (howner : Ownership s)
    (hrow : ∀ id r, s.ledger.find? id = some r → r.id = id ∧ recorded r) {reg : Registry} {now : String}
    {event : AdmissionEvent} (h : Advance reg now s event t) : Answered recorded t := by
  have same {u : System} (hrequests : u.requests = s.requests) (hasked : u.asked = s.asked)
      (hgrants : u.grants = s.grants) : Answered recorded u :=
    hs.mono hrequests hasked (fun _ h => hgrants ▸ h) fun _ h => h
  cases h with
  | @start p id op hp =>
    intro q
    by_cases hq : q = p
    · subst hq
      exact .inr ⟨id, op, by simp [System.setRequest], by simp [System.setRequest, Request.Justified]⟩
    · simpa [System.setRequest, hq] using hs q
  | read hp =>
    refine hs.setRequest (by simp [hp]) fun id op h => ?_
    rw [hp] at h
    obtain ⟨rfl, rfl⟩ := h
    exact afterRead_justified (hrow _)
  | resolve hp =>
    refine hs.setRequest (by simp [hp]) fun id op h => ?_
    rw [hp] at h
    exact afterResolve_justified reg _ h
  | created hp | reopened hp => exact (same rfl rfl rfl).next (by simp [hp]) fun _ _ _ => trivial
  | notCreated hp =>
    refine (same rfl rfl rfl).setRequest (by simp [hp]) fun id op h => ?_
    rw [hp] at h
    exact h
  | reread hp =>
    refine hs.setRequest (by simp [hp]) fun id op h => ?_
    rw [hp] at h
    obtain ⟨rfl, rfl⟩ := h
    exact afterReread_justified _ (hrow _)
  | notReopened hp _ hnext =>
    refine (same rfl rfl rfl).setRequest (by simp [hp]) fun id op h => ?_
    rw [hp] at h
    obtain ⟨-, rfl, hid, hrecorded⟩ := h
    rcases hnext with rfl | ⟨rfl, hreplays⟩
    · trivial
    · exact ⟨hid, rfl, hreplays, hrecorded⟩
  | snapshot hp => exact hs.next (by simp [hp]) fun _ _ _ => trivial
  | seed hp => exact (same rfl rfl rfl).next (by simp [hp]) fun _ _ _ => trivial
  | admitted hp =>
    refine next ?_ (by simp [System.grant, hp]) fun _ _ _ => trivial
    exact hs.mono rfl rfl (fun _ h => List.mem_cons_of_mem _ h) fun _ h => h
  | notAdmitted hp => exact hs.next (by simp [hp]) fun _ _ _ => afterReserve_justified ..
  | release hp | releaseMark hp => exact (same rfl rfl rfl).next (by simp [hp]) fun _ _ _ => trivial
  | invoke hp => exact (same rfl rfl rfl).next (by simp [hp]) fun _ _ _ => trivial
  | failed hp | notFailed hp => exact (same rfl rfl rfl).next (by simp [hp]) fun _ _ _ => trivial
  | @failSettle p a hp =>
    have hp' : (s.settle reg a 0 true).requests p ≠ .idle := by
      change s.requests p ≠ .idle
      simp [hp]
    split
    · exact (same rfl rfl rfl).next hp' fun _ _ _ => trivial
    · exact (same rfl rfl rfl).next hp' fun _ _ _ => trivial
  | @failMark p a next hp hnext =>
    refine (same rfl rfl rfl).setRequest (by simp [hp]) fun id op _ => ?_
    rcases hnext with rfl | rfl
    · exact ⟨a, howner.owns_granted p a (by rw [hp]; rfl)⟩
    · trivial
  | @finish p a hp =>
    exact hs.setRequest (by simp [hp]) fun id op _ => ⟨a, howner.owns_granted p a (by rw [hp]; rfl)⟩
  | crash hp =>
    refine hs.next ?_ fun _ _ _ => trivial
    intro h
    rw [h] at hp
    cases hp
  | outcome | reconcileRead | committed | notCommitted | reconcileCharge | reconcileMiss | jobSettle | jobMark
  | syncPolicy | strayWrite | straySettle | strayCancel => exact same rfl rfl rfl

theorem of_reachable {reg : Registry} (h : ReachableSystem reg s) : Answered (fun r => s.past r) s := by
  refine h.invariant (P := fun s => Answered (fun r => s.past r) s) ?_ ?_
  · rintro _ rfl p
    exact .inl rfl
  · intro s e t hreach hs _ ht
    obtain ⟨u, hu, rfl⟩ := admissionStep_cases ht
    have hrecord : Answered (fun r => s.past r || s.ledger.find? r.id = some r) s :=
      hs.mono rfl rfl (fun _ h => h) fun r hr => by simp [hr]
    refine (hrecord.advance (.of_reachable hreach) (fun id r hr => ?_) hu).mono rfl rfl (fun _ h => h) fun _ h => h
    have hid := Table.key_of_find? hr
    exact ⟨hid, by simp [hid, hr]⟩

end Answered

/-- The call is over for its caller. -/
def Request.returned : Request → Bool
  | .done | .replayed _ _ | .refused _ | .crashed _ => true
  | _ => false

/-- In every interleaving each attempt is granted to at most one request, and the provider is called at most once for
it, by that request. An attempt is granted only after the one before it was released and marked settled in Redis. A
request that was granted nothing ends with an error, or with the replay of a recorded row of the reservation that it
asked for. -/
theorem attempt_has_one_owner {reg : Registry} {s : System} (h : ReachableSystem reg s) :
    (∀ a p q, (p, a) ∈ s.grants → (q, a) ∈ s.grants → p = q) ∧
    (s.grants.map Prod.snd).Nodup ∧
    (s.providerCalls.map Prod.snd).Nodup ∧
    (∀ p a, (p, a) ∈ s.providerCalls → (p, a) ∈ s.grants) ∧
    (∀ p id n, 1 ≤ n → (p, ⟨id, n + 1⟩) ∈ s.grants → ∃ r, s.past r ∧ r.id = id ∧ r.attempt = n ∧
      r.status = .released ∧ r.redisSettledAt.isSome) ∧
    ∀ p, (∀ a, (p, a) ∉ s.grants) → (s.requests p).returned →
      (∃ error, s.requests p = .refused error) ∨ (∃ held, s.requests p = .crashed held) ∨
        ∃ row op, s.requests p = .replayed row op ∧ s.asked p = some (row.id, op) ∧ replays row op ∧ s.past row := by
  have howner := Ownership.of_reachable h
  refine ⟨fun a p q => howner.grants_inj, howner.granted_once, howner.called_once,
    fun p a => howner.called_granted (p, a), fun p id n hn hgrant => ?_, fun p hnone hreturned => ?_⟩
  · obtain ⟨r, hr, hle⟩ := howner.granted_known _ _ hgrant
    obtain ⟨r', hpast, heq, hrest⟩ := Ordered.of_reachable h id r hr n hn hle
    obtain ⟨hid, hattempt⟩ := AttemptId.mk.inj heq
    exact ⟨r', hpast, hid, hattempt, hrest⟩
  · rcases Answered.of_reachable h p with hp | ⟨id, op, hasked, hp⟩
    · rw [hp] at hreturned
      cases hreturned
    · cases hr : s.requests p with
      | refused error => exact .inl ⟨error, rfl⟩
      | crashed held => exact .inr (.inl ⟨held, rfl⟩)
      | replayed row op' =>
        rw [hr] at hp
        obtain ⟨rfl, rfl, hreplays, hpast⟩ := hp
        exact .inr (.inr ⟨row, op', rfl, hasked, hreplays, hpast⟩)
      | done =>
        rw [hr] at hp
        obtain ⟨a, ha⟩ := hp
        exact absurd ha (hnone a)
      | _ =>
        rw [hr] at hreturned
        cases hreturned

/-- Request 1 comes while request 0 owns the first attempt, request 2 after its provider call failed. -/
def sampleRetries : List (String × AdmissionEvent) :=
  [("t1", .syncPolicy (samplePolicies .global)), ("t1", .syncPolicy (samplePolicies .organization)),
    ("t2", .start 0 "sbr_1" .sign), ("t2", .read 0), ("t2", .resolve 0 samplePolicies), ("t3", .create 0),
    ("t4", .start 1 "sbr_1" .sign), ("t4", .read 1), ("t4", .resolve 1 samplePolicies), ("t4", .create 1),
    ("t5", .snapshot 0), ("t5", .seed 0), ("t5", .reserve 0), ("t6", .reread 1), ("t7", .invoke 0), ("t8", .fail 0 false),
    ("t8", .failSettle 0), ("t8", .failMark 0), ("t9", .start 2 "sbr_1" .sign), ("t9", .read 2),
    ("t9", .resolve 2 samplePolicies), ("t9", .reread 2), ("t9", .reopen 2), ("t9", .snapshot 2), ("t9", .seed 2),
    ("t9", .reserve 2)]

def retriedSystem : System := (run (admissionStep sampleRegistry) .start sampleRetries).getD .start

theorem retriedSystem_reachable : ReachableSystem sampleRegistry retriedSystem := by
  have h : run (admissionStep sampleRegistry) .start sampleRetries = some retriedSystem := rfl
  exact Reachable.run (.start rfl) h

/-- The second attempt is granted after the first was released, and request 1 was refused. -/
theorem retriedSystem_owners :
    retriedSystem.grants = [(2, ⟨"sbr_1", 2⟩), (0, ⟨"sbr_1", 1⟩)] ∧
      retriedSystem.requests 1 = .refused .inProgress ∧
      (∃ r, retriedSystem.past r ∧ r.id = "sbr_1" ∧ r.attempt = 1 ∧ r.status = .released ∧ r.redisSettledAt.isSome) := by
  have hgrants : retriedSystem.grants = [(2, ⟨"sbr_1", 2⟩), (0, ⟨"sbr_1", 1⟩)] := by decide
  obtain ⟨-, -, -, -, hafter, -⟩ := attempt_has_one_owner retriedSystem_reachable
  exact ⟨hgrants, rfl, hafter 2 "sbr_1" 1 le_rfl (by rw [hgrants]; exact List.mem_cons_self)⟩

end Sdp.Budget
