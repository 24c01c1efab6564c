import Sdp.BudgetBalance

/-!
# What is left in the counters

`releaseDurable` records that Redis settled a refused attempt and runs no script. When another
request's snapshot put the attempt into a counter, it stays there. In runs where that does not
happen, the counters of a system at rest are what the ledger says.
-/

open Sdp.Lib

namespace Sdp.Budget

/-! ## Held attempts -/

/-- Every held attempt is reserved in the ledger and unknown to Redis, and every row like that is held. -/
structure Holding (s : System) : Prop where
  held : ∀ p a, (s.requests p).held = some a → s.admitted a = false ∧ s.redis.settlement a = none ∧
    ∃ r, s.ledger.find? a.reservationId = some r ∧ r.attempt = a.attempt ∧ r.status = .reserved
  holder : ∀ id r, s.ledger.find? id = some r → r.status = .reserved → s.admitted r.attemptId = false →
    ∃ p, (s.requests p).held = some r.attemptId

/-- The calls that take a row out of `reserved`. -/
def LedgerCall.Takes (a : AttemptId) : LedgerCall → Prop
  | .markSigned id n _ _ | .markSubmitted id n _ | .markChargedUnknown id n | .markReleased id n => ⟨id, n⟩ = a
  | _ => False

theorem exec_reserved {l : Ledger} {now : String} {call : LedgerCall} {id : String} {r : ReservationRow}
    (hr : l.find? id = some r) (hs : r.status = .reserved) (hcall : ¬ call.Takes r.attemptId) :
    (exec l now call).find? id = some r := by
  obtain ⟨r', hr', hstep⟩ := exec_row l now call hr
  suffices r' = r by rw [hr', this]
  rcases hstep with hstep | ⟨-, -, -, hreleased, -⟩
  · cases hstep with
    | stays => rfl
    | signed | submitted | chargedUnknown | released => exact absurd rfl hcall
    | missed _ h | settled _ _ _ h | redisSettled _ h => rcases h with h | h <;> rw [hs] at h <;> cases h
  · rw [hs] at hreleased
    cases hreleased

theorem RowStep.eq_of_reserved {call : LedgerCall} {r r' : ReservationRow} (h : RowStep call r r')
    (hs : r'.status = .reserved) : r' = r := by
  cases h with
  | stays => rfl
  | signed | submitted | chargedUnknown | released => cases hs
  | missed _ h | redisSettled _ h => rcases h with h | h <;> rw [show r.status = _ from hs] at h <;> cases h
  | settled status => cases status <;> cases hs

theorem exec_reserved_back {l : Ledger} {now : String} {call : LedgerCall} (hopens : call.opens = false) {id : String}
    {r : ReservationRow} (hr : (exec l now call).find? id = some r) (hs : r.status = .reserved) :
    l.find? id = some r := by
  rcases exec_rows hr with ⟨r', hr', hstep⟩ | ⟨hyes, -⟩
  · rw [hr', hstep.eq_of_reserved hs]
  · rw [hopens] at hyes
    cases hyes

namespace Holding

variable {reg : Registry} {s t : System}

theorem start : Holding .start where
  held _ _ h := by cases h
  holder _ _ h := by cases h

theorem frame (hs : Holding s) (hheld : ∀ p, (t.requests p).held = (s.requests p).held)
    (hrows : ∀ p a r, (s.requests p).held = some a → s.ledger.find? a.reservationId = some r → r.attemptId = a →
      r.status = .reserved → t.ledger.find? a.reservationId = some r)
    (hback : ∀ id r, t.ledger.find? id = some r → r.status = .reserved → s.ledger.find? id = some r)
    (hadmitted : t.admitted = s.admitted)
    (hset : ∀ p a, (s.requests p).held = some a → t.redis.settlement a = s.redis.settlement a) : Holding t where
  held p a hp := by
    rw [hheld] at hp
    obtain ⟨hnot, hnone, r, hr, hattempt, hreserved⟩ := hs.held p a hp
    have ha : r.attemptId = a := by rw [ReservationRow.attemptId, Table.key_of_find? hr, hattempt]
    exact ⟨by rw [hadmitted]; exact hnot, by rw [hset p a hp]; exact hnone, r, hrows p a r hp hr ha hreserved,
      hattempt, hreserved⟩
  holder id r hr hreserved hnot := by
    rw [hadmitted] at hnot
    obtain ⟨p, hp⟩ := hs.holder id r (hback id r hr hreserved) hreserved hnot
    exact ⟨p, by rw [hheld]; exact hp⟩

theorem same (hs : Holding s) (hheld : ∀ p, (t.requests p).held = (s.requests p).held)
    (hledger : t.ledger = s.ledger) (hadmitted : t.admitted = s.admitted)
    (hset : t.redis.settlement = s.redis.settlement) : Holding t :=
  hs.frame hheld (fun _ _ _ _ hr _ _ => by rw [hledger]; exact hr) (fun _ _ hr _ => by rw [← hledger]; exact hr)
    hadmitted fun _ _ _ => by rw [hset]

theorem write (hs : Holding s) {now : String} {call : LedgerCall} (hopens : call.opens = false)
    (htakes : ∀ p a, (s.requests p).held = some a → ¬ call.Takes a) : Holding (s.write now call) := by
  refine hs.frame (fun _ => rfl) (fun p a r hp hr ha hreserved => ?_) (fun id r hr => ?_) rfl fun _ _ _ => rfl
  · exact exec_reserved hr hreserved (by rw [ha]; exact htakes p a hp)
  · exact exec_reserved_back hopens hr

theorem noWrite (hs : Holding s) {now : String} {call : LedgerCall}
    (hrows : ∀ id, (exec s.ledger now call).find? id = s.ledger.find? id) : Holding (s.write now call) :=
  hs.frame (fun _ => rfl) (fun _ _ _ _ hr _ _ => (hrows _).trans hr) (fun _ _ hr _ => (hrows _).symm.trans hr) rfl
    fun _ _ _ => rfl

theorem setJob (hs : Holding s) (j : Nat) (job : Job) : Holding (s.setJob j job) :=
  hs.same (fun _ => rfl) rfl rfl rfl

theorem keep (hs : Holding s) (p : Nat) {next : Request} (h : next.held = (s.requests p).held) :
    Holding (s.setRequest p next) := by
  refine hs.same (fun q => ?_) rfl rfl rfl
  simp only [System.setRequest, Function.update_apply]
  split
  · next hq => rw [hq, h]
  · rfl

theorem opened (hs : Holding s) (hb : Balanced reg s) {p : Nat}
    (hp : (s.requests p).held = none) {now : String} {call : LedgerCall} (hopens : call.opens) {a : AttemptId}
    (hother : ∀ id, id ≠ a.reservationId → (exec s.ledger now call).find? id = s.ledger.find? id)
    (hnew : ¬ Known s.ledger a) {r : ReservationRow} (hr : (exec s.ledger now call).find? a.reservationId = some r)
    (hattempt : r.attempt = a.attempt) (hreserved : r.status = .reserved) {next : Request}
    (hnext : next.held = some a) : Holding ((s.write now call).setRequest p next) where
  held q b hq := by
    simp only [System.setRequest, System.write, Function.update_apply] at hq
    split at hq
    · obtain rfl : a = b := Option.some.inj (hnext.symm.trans hq)
      obtain ⟨hadmitted, hset, -⟩ := hb.unknown a hnew
      exact ⟨hadmitted, hset, r, hr, hattempt, hreserved⟩
    · obtain ⟨hadmitted, hset, r', hr', hattempt', hreserved'⟩ := hs.held q b hq
      refine ⟨hadmitted, hset, r', ?_, hattempt', hreserved'⟩
      refine exec_reserved hr' hreserved' ?_
      cases call with
      | createReservation | reopenReleasedReservation => exact fun h => h
      | _ => cases hopens
  holder id r' hr' hreserved' hnot := by
    by_cases hid : id = a.reservationId
    · subst hid
      obtain rfl : r = r' := Option.some.inj (hr.symm.trans hr')
      refine ⟨p, ?_⟩
      simp only [System.setRequest, Function.update_self, hnext, ReservationRow.attemptId, Table.key_of_find? hr, hattempt]
    · have hold : s.ledger.find? id = some r' := (hother id hid).symm.trans hr'
      obtain ⟨q, hq⟩ := hs.holder id r' hold hreserved' hnot
      have hne : q ≠ p := by
        rintro rfl
        rw [hp] at hq
        cases hq
      exact ⟨q, by simpa [System.setRequest, System.write, hne] using hq⟩

theorem release (hs : Holding s) (howner : Ownership s) {p : Nat} {a : AttemptId}
    (hp : (s.requests p).held = some a) (now : String) {next : Request} (hnext : next.held = none) :
    Holding ((s.write now (.markReleased a.reservationId a.attempt)).setRequest p next) where
  held q b hq := by
    simp only [System.setRequest, System.write, Function.update_apply] at hq
    split at hq
    · rw [hnext] at hq
      cases hq
    · next hne =>
      obtain ⟨hadmitted, hset, r, hr, hattempt, hreserved⟩ := hs.held q b hq
      refine ⟨hadmitted, hset, r, exec_reserved hr hreserved ?_, hattempt, hreserved⟩
      rintro (rfl : a = r.attemptId)
      refine hne (howner.held_unique q p b hq ?_)
      rw [hp, ReservationRow.attemptId, Table.key_of_find? hr, hattempt]
  holder id r hr hreserved hnot := by
    have hold := exec_reserved_back (l := s.ledger) rfl hr hreserved
    obtain ⟨q, hq⟩ := hs.holder id r hold hreserved hnot
    have hne : q ≠ p := by
      rintro rfl
      -- Its row is released now.
      obtain rfl : a = r.attemptId := Option.some.inj (hp.symm.trans hq)
      have hid := Table.key_of_find? hold
      have hrow : (exec s.ledger now (.markReleased r.id r.attempt)).find? id =
          some { r with status := .released, actualLamports := some 0, updatedAt := now } := by
        simp [exec, markReleased, updateReservation, Table.find?_update, hid, hold, hreserved]
      have := Option.some.inj (hr.symm.trans hrow)
      rw [this] at hreserved
      cases hreserved
    exact ⟨q, by simpa [System.setRequest, System.write, hne] using hq⟩

theorem grant (hs : Holding s) (howner : Ownership s) (reg : Registry) {p : Nat} {a : AttemptId}
    (hp : (s.requests p).held = some a) : Holding ((s.grant reg p a).setRequest p (.granted a)) where
  held q b hq := by
    simp only [System.setRequest, System.grant, Function.update_apply] at hq
    split at hq
    · cases hq
    · next hne =>
      obtain ⟨hadmitted, hset, hrow⟩ := hs.held q b hq
      have hba : b ≠ a := by
        rintro rfl
        exact hne (howner.held_unique q p b hq hp)
      exact ⟨by simpa [System.setRequest, System.grant, hba] using hadmitted, hset, hrow⟩
  holder id r hr hreserved hnot := by
    have hra : r.attemptId ≠ a := by
      rintro rfl
      simp [System.setRequest, System.grant] at hnot
    have hnot : s.admitted r.attemptId = false := by simpa [System.setRequest, System.grant, hra] using hnot
    obtain ⟨q, hq⟩ := hs.holder id r hr hreserved hnot
    have hne : q ≠ p := by
      rintro rfl
      exact hra (Option.some.inj (hq.symm.trans hp))
    exact ⟨q, by simpa [System.setRequest, System.grant, hne] using hq⟩

theorem settle (hs : Holding s) (hacc : Accounted reg s) {a : AttemptId} {actual : Nat}
    (h : Settling s.ledger a actual) (detect : Bool) : Holding (s.settle reg a actual detect) := by
  rcases s.settle_cases reg a actual detect with heq | ⟨-, heq⟩
  · rw [heq]; exact hs
  rw [heq]
  refine hs.frame (fun _ => rfl) (fun _ _ _ _ hr _ _ => hr) (fun _ _ hr _ => hr) rfl fun p b hp => ?_
  refine Function.update_of_ne ?_ _ _
  rintro rfl
  obtain ⟨-, -, r, hr, hattempt, hreserved⟩ := hs.held p b hp
  have hactual := Balanced.settling_actual h hr (by rw [ReservationRow.attemptId, Table.key_of_find? hr, hattempt])
  have := (hacc.conforms _ r hr).1.actual.mp (by rw [hactual]; rfl)
  simp [ReservationRow.Terminal, hreserved] at this

end Holding

/-! ## Tidy runs -/

/-- A step that leaves no refused attempt in a counter, in the state before it: a release is marked settled in Redis
when no counter has the attempt, and a snapshot seeds no counter with an attempt that is finished and that Redis did
not settle. Only the code paths run, and only an admitted attempt is charged as unknown. -/
def Tidy (reg : Registry) (s : System) (e : String × AdmissionEvent) : Prop :=
  match e.2 with
  | .releaseMark p => ∀ a error, s.requests p = .releaseSettling a error → Unmarked s.redis a
  | .seed p => ∀ a op policies round snapshot, s.requests p = .seeding a op policies round snapshot →
      ∀ w, ∀ live ∈ snapshot.liveReservations w,
        (∃ f ∈ live.fields, (s.redis.bucket (reg.buckets a) w).Seeds (reg.fields a) f) →
        Finished s.ledger live.attemptId → (s.redis.settlement live.attemptId).isSome
  | .reconcileCharge a => s.admitted a
  | .strayWrite _ | .straySettle _ _ _ | .strayCancel _ => False
  | _ => True

theorem FailureCall.opens {a : AttemptId} {call : LedgerCall} (h : FailureCall a call) : call.opens = false := by
  rcases h with rfl | rfl
  · rfl
  · rfl

theorem FailureCall.allowed {s : System} {a : AttemptId} {call : LedgerCall} (h : FailureCall a call) :
    call.Allowed s := by
  rcases h with rfl | rfl
  · exact rfl
  · trivial

theorem FailureCall.takes {a b : AttemptId} {call : LedgerCall} (h : FailureCall a call) (hb : call.Takes b) : a = b := by
  rcases h with rfl | rfl
  · exact absurd hb id
  · exact hb

theorem OutcomeWrite.takes {a b : AttemptId} {write : OutcomeWrite} (hb : (write.call a).Takes b) : a = b := by
  cases write <;> exact hb

theorem settle_ok {reg : Registry} {r : Redis} {a : AttemptId} {actual : Nat} {detect : Bool}
    (hr : RedisSound reg r) (h : (reg.settle r a actual detect).2.ok) :
    ((reg.settle r a actual detect).1.settlement a).isSome := by
  rw [hr.settle_reply] at h ⊢
  split
  · next hs => exact hs
  · next hs =>
    split
    · next hm =>
      simp only [hs, hm, if_true] at h
      cases h
    · simp [Registry.settled]

section tidy

variable {reg : Registry} {s t : System} (hb : Balanced reg s) (hh : Holding s) (hacc : Accounted reg s)
  (howner : Ownership s)
include hb hh hacc howner

theorem Balanced.advance {now : String} {event : AdmissionEvent} (htidy : Tidy reg s (now, event))
    (h : Advance reg now s event t) : Balanced reg t := by
  cases h with
  | start =>
    refine setRequest ?_ _ (by trivial)
    exact hb.congr rfl rfl rfl rfl hb.jobs hb.requests
  | read =>
    refine hb.setRequest _ ?_
    unfold afterRead
    repeat' split
    all_goals trivial
  | resolve =>
    refine hb.setRequest _ ?_
    unfold afterResolve
    repeat' split
    all_goals trivial
  | created | notCreated | reopened => exact (hb.write hacc now (by trivial)).setRequest _ trivial
  | reread =>
    refine hb.setRequest _ ?_
    unfold afterReread
    repeat' split
    all_goals trivial
  | notReopened _ _ hnext =>
    refine (hb.write hacc now (by trivial)).setRequest _ ?_
    rcases hnext with rfl | ⟨rfl, -⟩
    · trivial
    · trivial
  | snapshot => exact hb.setRequest _ (hb.snapshotSound hacc _)
  | @seed p a op policies round snapshot hp =>
    have hsound := hb.requests p
    rw [hp] at hsound
    obtain ⟨listed, hsnap, hknown, husage⟩ := hsound
    refine Balanced.setRequest ?_ _ (by trivial)
    refine hb.seed hacc hsnap hknown (fun w b hb' hseeds hfinished => ?_) husage
    have hlive : reg.live b ∈ snapshot.liveReservations w := by
      rw [hsnap.live]
      exact List.mem_map_of_mem hb'
    exact htidy a op policies round snapshot hp w (reg.live b) hlive hseeds hfinished
  | @admitted p a op policies round hp hres hset hinit =>
    obtain ⟨-, -, r, hr, hattempt, hreserved⟩ := hh.held p a (by rw [hp]; rfl)
    exact (hb.grant hacc p hr hattempt hreserved hset).setRequest _ trivial
  | notAdmitted =>
    refine hb.setRequest _ ?_
    unfold afterReserve
    repeat' split
    all_goals trivial
  | @release p a error hp =>
    refine (hb.write hacc now (by trivial)).setRequest _ ?_
    obtain ⟨-, -, r, hr, hattempt, hreserved⟩ := hh.held p a (by rw [hp]; rfl)
    refine ⟨{ r with status := .released, actualLamports := some 0, updatedAt := now }, ?_, .inr ⟨hattempt, rfl⟩⟩
    simp [System.write, exec, markReleased, updateReservation, Table.find?_update, hr, hattempt, hreserved]
  | @releaseMark p a error hp =>
    have hreleased := hb.requests p
    rw [hp] at hreleased
    exact (hb.write hacc now (by exact .inr ⟨htidy a error hp, hreleased⟩)).setRequest _ trivial
  | invoke =>
    refine Balanced.setRequest ?_ _ (by trivial)
    exact hb.congr rfl rfl rfl rfl hb.jobs hb.requests
  | @outcome p a write hp =>
    have hadmitted := hb.granted p a (howner.owns_granted p a (by rw [hp]; rfl))
    exact hb.write hacc now (by cases write <;> exact hadmitted)
  | failed _ hcall hrow =>
    refine (hb.write hacc now hcall.allowed).setRequest _ ?_
    obtain ⟨r, hr, hattempt, -, hactual⟩ := hrow
    exact ⟨r, hr, .inr ⟨hattempt, hactual⟩⟩
  | notFailed _ hcall => exact (hb.write hacc now hcall.allowed).setRequest _ trivial
  | @failSettle p a hp =>
    have hsettling := hb.requests p
    rw [hp] at hsettling
    refine (hb.settle hacc hsettling true).setRequest _ ?_
    split
    · next hok => exact settle_ok hacc.redis hok
    · trivial
  | @failMark p a next hp hnext =>
    have hset := hb.requests p
    rw [hp] at hset
    refine (hb.write hacc now (by exact .inl hset)).setRequest _ ?_
    rcases hnext with rfl | rfl
    · trivial
    · trivial
  | finish | crash => exact hb.setRequest _ trivial
  | reconcileRead _ hr hactual => exact hb.setJob _ ⟨_, hr, .inr ⟨rfl, hactual⟩⟩
  | committed _ hrow =>
    refine (hb.write hacc now (by trivial)).setJob _ ?_
    obtain ⟨r, hr, hattempt, hactual⟩ := hrow
    exact ⟨r, hr, .inr ⟨hattempt, hactual⟩⟩
  | notCommitted => exact (hb.write hacc now (by trivial)).setJob _ trivial
  | reconcileCharge => exact hb.write hacc now htidy
  | reconcileMiss => exact hb.write hacc now (by trivial)
  | @jobSettle j a actual hj =>
    have hsettling := hb.jobs j
    rw [hj] at hsettling
    refine (hb.settle hacc hsettling true).setJob _ ?_
    split
    · next hok => exact settle_ok hacc.redis hok
    · trivial
  | @jobMark j a hj =>
    have hset := hb.jobs j
    rw [hj] at hset
    exact (hb.write hacc now (by exact .inl hset)).setJob _ trivial
  | syncPolicy => exact hb.syncPolicy ..
  | strayWrite | straySettle | strayCancel => exact absurd htidy id

theorem Holding.advance {now : String} {event : AdmissionEvent} (htidy : Tidy reg s (now, event))
    (h : Advance reg now s event t) : Holding t := by
  -- What was granted or admitted is not held.
  have hgranted : ∀ p q a, (s.requests p).owns = some a → (s.requests q).held ≠ some a := by
    intro p q a hp hq
    exact howner.held_ungranted q a hq (List.mem_map_of_mem (howner.owns_granted p a hp))
  cases h with
  | start hp =>
    refine keep ?_ _ (by change _ = (s.requests _).held; rw [hp]; rfl)
    exact hh.same (fun _ => rfl) rfl rfl rfl
  | read hp => exact hh.keep _ (by rw [(afterRead_held ..).1, hp]; rfl)
  | resolve hp => exact hh.keep _ (by rw [(afterResolve_held ..).1, hp])
  | @created p id op policies hp hnew =>
    refine hh.opened hb (by rw [hp]; rfl) rfl (a := ⟨id, 1⟩) (fun id' hid => ?_) (not_known_of_find?_none hnew)
      (r := { reg.input ⟨id, 1⟩ with status := .reserved, updatedAt := now }) ?_ rfl rfl rfl
    · simp [exec, createReservation, Table.find?_insertNew, Registry.input, hid]
    · simp [exec, createReservation, Table.find?_insertNew, hnew, Registry.input]
  | @notCreated p id op policies hp hold =>
    refine (hh.noWrite fun id' => ?_).keep p (by change _ = (s.requests p).held; rw [hp]; rfl)
    obtain ⟨r, hr⟩ := Option.ne_none_iff_exists'.mp hold
    by_cases hid : id' = id
    · simp [exec, createReservation, Table.find?_insertNew, Registry.input, hid, hr]
    · simp [exec, createReservation, Table.find?_insertNew, Registry.input, hid]
  | reread hp => exact hh.keep _ (by rw [(afterReread_held ..).1, hp]; rfl)
  | @reopened p id op policies existing r hp hr hattempt hreleased hset =>
    refine hh.opened hb (by rw [hp]; rfl) rfl (a := ⟨id, existing.attempt + 1⟩) (fun id' hid => ?_)
      (not_known_of_attempt_lt hr (by simp [hattempt]))
      (r := r.reopened (reg.input ⟨id, existing.attempt + 1⟩) now) ?_ (by simp [ReservationRow.reopened, hattempt]) rfl rfl
    · simp [exec, reopenReleasedReservation, Table.find?_update, Registry.input, hid]
    · simp [exec, reopenReleasedReservation, Table.find?_update, Registry.input, hr, hattempt, hreleased, hset,
        ReservationRow.reopened]
  | @notReopened p id op policies existing next hp hno hnext =>
    refine (hh.noWrite fun id' => ?_).keep p ?_
    · by_cases hid : id' = id
      · cases hr : s.ledger.find? id with
        | none => simp [exec, reopenReleasedReservation, Table.find?_update, Registry.input, hid, hr]
        | some r => simp [exec, reopenReleasedReservation, Table.find?_update, Registry.input, hid, hr, hno r hr]
      · simp [exec, reopenReleasedReservation, Table.find?_update, Registry.input, hid]
    · change _ = (s.requests p).held
      rw [hp]
      rcases hnext with rfl | ⟨rfl, -⟩
      · rfl
      · rfl
  | snapshot hp => exact hh.keep _ (by rw [hp]; rfl)
  | seed hp =>
    refine keep ?_ _ (by change _ = (s.requests _).held; rw [hp]; rfl)
    exact hh.same (fun _ => rfl) rfl rfl rfl
  | admitted hp => exact hh.grant howner reg (by rw [hp]; rfl)
  | notAdmitted hp houtcome => exact hh.keep _ (by rw [(afterReserve_held _ _ _ houtcome).1, hp]; rfl)
  | release hp => exact hh.release howner (by rw [hp]; rfl) now rfl
  | releaseMark hp =>
    exact (hh.write (by rfl) (by exact fun _ _ _ h => h)).keep _ (by change _ = (s.requests _).held; rw [hp]; rfl)
  | invoke hp =>
    refine keep ?_ _ (by change _ = (s.requests _).held; rw [hp]; rfl)
    exact hh.same (fun _ => rfl) rfl rfl rfl
  | @outcome p a write hp =>
    refine hh.write (by cases write <;> rfl) fun q b hq htakes => ?_
    obtain rfl := OutcomeWrite.takes htakes
    exact hgranted p q a (by rw [hp]; rfl) hq
  | @failed p a _ _ hp hcall | @notFailed p a _ _ hp hcall =>
    refine (hh.write hcall.opens fun q b hq htakes => ?_).keep p (by change _ = (s.requests p).held; rw [hp]; rfl)
    obtain rfl := hcall.takes htakes
    exact hgranted p q a (by rw [hp]; rfl) hq
  | @failSettle p a hp =>
    have hsettling := hb.requests p
    rw [hp] at hsettling
    refine (hh.settle hacc hsettling true).keep p ?_
    change _ = (s.requests p).held
    rw [hp]
    split
    · rfl
    · rfl
  | @failMark p a next hp hnext =>
    refine (hh.write (by rfl) (by exact fun _ _ _ h => h)).keep p ?_
    change _ = (s.requests p).held
    rw [hp]
    rcases hnext with rfl | rfl
    · rfl
    · rfl
  | finish hp => exact hh.keep _ (by rw [hp]; rfl)
  | crash => exact hh.keep _ rfl
  | reconcileRead => exact hh.setJob ..
  | committed | notCommitted | jobMark => exact (hh.write (by rfl) (by exact fun _ _ _ h => h)).setJob ..
  | @reconcileCharge a =>
    refine hh.write rfl fun p b hp htakes => ?_
    obtain rfl : a = b := htakes
    have hadmitted : s.admitted a = true := htidy
    rw [(hh.held p a hp).1] at hadmitted
    cases hadmitted
  | reconcileMiss => exact hh.write rfl fun _ _ _ h => h
  | @jobSettle j a actual hj =>
    have hsettling := hb.jobs j
    rw [hj] at hsettling
    exact (hh.settle hacc hsettling true).setJob ..
  | syncPolicy => exact hh.same (fun _ => rfl) rfl rfl (RedisSound.syncControl_frame ..).2.2
  | strayWrite | straySettle | strayCancel => exact absurd htidy id

end tidy

abbrev TidySystem (reg : Registry) : System → Prop :=
  Reachable (admissionStep reg) (· = System.start) (Tidy reg)

theorem Balanced.start (reg : Registry) : Balanced reg .start where
  unknown _ _ := ⟨rfl, rfl, fun _ _ _ => rfl⟩
  finished _ h := by obtain ⟨r, hr, -⟩ := h; cases hr
  rows _ _ h := by cases h
  reserved _ h := by cases h
  older _ _ _ h := by cases h
  granted _ _ h := by cases h
  jobs _ := trivial
  requests _ := trivial
  exact _ _ _ h := by cases h

theorem TidySystem.balanced {reg : Registry} {s : System} (h : TidySystem reg s) : Balanced reg s ∧ Holding s := by
  refine h.invariant (P := fun s => Balanced reg s ∧ Holding s) ?_ ?_
  · rintro _ rfl
    exact ⟨.start reg, .start⟩
  · rintro s ⟨now, event⟩ t hreach ⟨hb, hh⟩ htidy ht
    have hany : ReachableSystem reg s := hreach.weaken fun _ _ _ => trivial
    have hacc := Accounted.of_reachable hany
    have howner := Ownership.of_reachable hany
    obtain ⟨u, hu, rfl⟩ := admissionStep_cases ht
    have hb' := hb.advance hh hacc howner htidy hu
    exact ⟨hb'.congr rfl rfl rfl rfl hb'.jobs hb'.requests,
      (hh.advance hb hacc howner htidy hu).same (fun _ => rfl) rfl rfl rfl⟩

/-! ## At rest -/

/-- Every request has finished, and Redis is said to know of every settled row. -/
def Quiescent (s : System) : Prop :=
  (∀ p, (s.requests p).finished) ∧
    ∀ r ∈ s.ledger.rows, r.status = .committed ∨ r.status = .released → r.redisSettledAt.isSome

theorem Request.held_of_finished {request : Request} (h : request.finished) : request.held = none := by
  cases request with
  | idle | done | replayed | refused => rfl
  | crashed held =>
    cases held with
    | none => rfl
    | some a => cases h
  | _ => cases h

/-- A counter holds of a row what the ledger says that it uses. -/
theorem Balanced.countedAt_eq {reg : Registry} {s : System} (hb : Balanced reg s) (hh : Holding s)
    (hacc : Accounted reg s) (hq : Quiescent s) {id : String} {r : ReservationRow} (hr : s.ledger.find? id = some r)
    (w : Window) (k : String) (f : ScopeField) :
    reg.countedAt s.redis w k f r.attemptId =
      if r.status ≠ .released ∧ reg.Covers r.attemptId w k f then r.lamports else 0 := by
  have hrow := hb.rows id r hr
  have hconsistent := (hacc.conforms id r hr).1
  have hamount : r.reservedLamports = reg.amount r.attemptId := by rw [(hacc.conforms id r hr).2]; rfl
  have hmem : r ∈ s.ledger.rows := (Table.find?_eq_some_iff.mp hr).1
  by_cases hc : reg.Covers r.attemptId w k f
  swap
  · simp [Registry.countedAt, hc]
  by_cases hterminal : r.Terminal
  · -- Redis knows of it, so its markers are gone.
    have hset := hq.2 r hmem hterminal
    have hmark := hb.finished r.attemptId
      ⟨r, by rw [show r.attemptId.reservationId = r.id from rfl, Table.key_of_find? hr]; exact hr, .inr ⟨rfl, hset⟩⟩
    rcases hterminal with hcommitted | hreleased
    · obtain ⟨v, hv⟩ := Option.isSome_iff_exists.mp (hrow.committed hcommitted hset)
      simp [Registry.countedAt, hc, hmark w k f, hv, hcommitted, ReservationRow.lamports, hrow.settled v hv]
    · rw [countedAt_unmarked hmark, if_neg fun h => h.1 hreleased]
      intro v hv
      exact Option.some.inj ((hrow.settled v hv).symm.trans (hrow.released hreleased))
  · -- It was admitted: a row that was not is held, and no request holds anything.
    have hadmitted : s.admitted r.attemptId = true := by
      cases hstatus : r.status with
      | reserved =>
        by_contra hnot
        obtain ⟨p, hp⟩ := hh.holder id r hr hstatus (by simpa using hnot)
        rw [Request.held_of_finished (hq.1 p)] at hp
        cases hp
      | signed | submitted | chargedUnknown => exact hrow.sponsored (by simp [hstatus])
      | committed => exact absurd (.inl hstatus) hterminal
      | released => exact absurd (.inr hstatus) hterminal
    obtain ⟨v, hv⟩ := Option.isSome_iff_exists.mp ((hrow.found hadmitted).resolve_right fun h => hterminal h.1)
    have hmarked : (s.redis.hash w k).ownerField r.attemptId f = some (reg.amount r.attemptId) := by
      obtain ⟨hf, rfl⟩ := hc
      exact (hacc.redis.reserved _ v hv).2 w f hf
    have hnone : r.actualLamports = none := by simpa using mt hconsistent.actual.mp hterminal
    have hopen : r.status ≠ .released := fun h => hterminal (.inr h)
    simp [Registry.countedAt, hc, hmarked, hopen, ReservationRow.lamports, hnone, hamount]

/-- In a run whose steps are all tidy, once every request has finished and Redis is said to know of every settled row,
every initialized counter is the usage that the ledger computes for its scope and bucket. -/
theorem budget_leaves_no_residue {reg : Registry} {s : System} (h : TidySystem reg s) (hq : Quiescent s)
    (a : AttemptId) (w : Window) (f : ScopeField) (hf : f ∈ reg.fields a)
    (hinit : (s.redis.bucket (reg.buckets a) w).initialized f) :
    (s.redis.bucket (reg.buckets a) w).used f = (getWindowUsage s.ledger (reg.windowInput a) none w).of f := by
  obtain ⟨hb, hh⟩ := h.balanced
  have hacc := Accounted.of_reachable (h.weaken fun _ _ _ => trivial)
  rw [getWindowUsage_of hacc.conforms a none w hf]
  refine (hb.exact w _ f hinit).trans ?_
  norm_cast
  refine Table.sum_congr fun id r hr => ?_
  have hbucket : r.bucket w = (reg.buckets r.attemptId).of w := by
    rw [(hacc.conforms id r hr).2, reg.input_bucket]
  rw [hb.countedAt_eq hh hacc hq hr]
  simp only [Registry.Covers, hacc.conforms.fields hr, hbucket]
  by_cases hk : (reg.buckets r.attemptId).of w = (reg.buckets a).of w <;>
    by_cases hmem : f ∈ reg.fields r.attemptId <;> simp [hk, hmem]

/-- The events that are tidy in every state. -/
def AdmissionEvent.plain : AdmissionEvent → Bool
  | .releaseMark _ | .seed _ | .reconcileCharge _ | .strayWrite _ | .straySettle _ _ _ | .strayCancel _ => false
  | _ => true

theorem tidy_of_plain {reg : Registry} {s : System} {e : String × AdmissionEvent} (h : e.2.plain) : Tidy reg s e := by
  obtain ⟨now, event⟩ := e
  cases event with
  | releaseMark | seed | reconcileCharge | strayWrite | straySettle | strayCancel => cases h
  | _ => trivial

/-- A request up to its snapshot. -/
def paidStart : List (String × AdmissionEvent) :=
  [("t1", .syncPolicy (samplePolicies .global)), ("t1", .syncPolicy (samplePolicies .organization)),
    ("t2", .start 0 "sbr_1" .sign), ("t2", .read 0), ("t2", .resolve 0 samplePolicies), ("t3", .create 0),
    ("t4", .snapshot 0)]

/-- And on from its seeding, to a settlement at three lamports. -/
def paidRest : List (String × AdmissionEvent) :=
  [("t4", .reserve 0), ("t5", .invoke 0), ("t6", .outcome 0 (.signed "tx" "sig")), ("t6", .finish 0),
    ("t7", .reconcileCommit 0 ⟨"sbr_1", 1⟩ 3), ("t7", .jobSettle 0), ("t7", .jobMark 0)]

def seedingSystem : System := (run (admissionStep sampleRegistry) .start paidStart).getD .start

def paidSystem : System :=
  (run (admissionStep sampleRegistry) .start (paidStart ++ ("t4", AdmissionEvent.seed 0) :: paidRest)).getD .start

theorem paidSystem_tidy : TidySystem sampleRegistry paidSystem := by
  have hstart : run (admissionStep sampleRegistry) .start paidStart = some seedingSystem := rfl
  have h0 : TidySystem sampleRegistry seedingSystem :=
    Reachable.run_of (.start rfl) (fun u l hl => tidy_of_plain ((by decide : ∀ l ∈ paidStart, l.2.plain) l hl)) hstart
  have hseed : Tidy sampleRegistry seedingSystem ("t4", .seed 0) := by
    -- The snapshot lists no other reservation.
    intro a op policies round snapshot hp w live hlive
    have hsnap := congrArg Request.snapshot? hp
    obtain ⟨rfl, rfl⟩ := Prod.mk.inj (Option.some.inj hsnap)
    cases w <;> exact absurd hlive List.not_mem_nil
  have h1 := h0.step hseed rfl
  exact h1.run_of (fun u l hl => tidy_of_plain ((by decide : ∀ l ∈ paidRest, l.2.plain) l hl)) rfl

theorem paidSystem_quiescent : Quiescent paidSystem := by
  refine ⟨fun p => ?_, by decide⟩
  match p with
  | 0 => rfl
  | n + 1 => rfl

/-- The counter and the usage are what the one reservation spent. -/
theorem paidSystem_counter :
    (paidSystem.redis.bucket (sampleRegistry.buckets ⟨"sbr_1", 1⟩) .hour).used .global = 3 ∧
      (paidSystem.redis.bucket (sampleRegistry.buckets ⟨"sbr_1", 1⟩) .hour).used .global =
        (getWindowUsage paidSystem.ledger (sampleRegistry.windowInput ⟨"sbr_1", 1⟩) none .hour).of .global :=
  ⟨by decide, budget_leaves_no_residue paidSystem_tidy paidSystem_quiescent ⟨"sbr_1", 1⟩ .hour .global (by decide)
    (by decide)⟩

/-! ## A refused admission that stays -/

/-- A step of the requests and the jobs, and no stray call. -/
def AdmissionEvent.stray : AdmissionEvent → Bool
  | .strayWrite _ | .straySettle _ _ _ | .strayCancel _ => true
  | _ => false

/-- The policies after an operator disabled sponsorship. -/
def disabledPolicies (scopeType : SponsorshipBudgetScopeType) : SponsorshipBudgetPolicy :=
  { samplePolicies scopeType with enabled := false, version := 2 }

/-- Request 1 seeds the counters from a snapshot that lists the reservation of request 0. Then sponsorship is disabled,
and both requests are refused and released. -/
def refusedAdmissions : List (String × AdmissionEvent) :=
  [("t1", .syncPolicy (samplePolicies .global)), ("t1", .syncPolicy (samplePolicies .organization)),
    ("t2", .start 0 "sbr_1" .sign), ("t2", .read 0), ("t2", .resolve 0 samplePolicies), ("t3", .create 0),
    ("t4", .start 1 "sbr_2" .sign), ("t4", .read 1), ("t4", .resolve 1 samplePolicies), ("t5", .create 1),
    ("t6", .snapshot 1), ("t7", .seed 1), ("t8", .syncPolicy (disabledPolicies .global)),
    ("t9", .reserve 1), ("t9", .resolve 1 disabledPolicies), ("t9", .release 1), ("t9", .releaseMark 1),
    ("ta", .snapshot 0), ("ta", .seed 0), ("ta", .reserve 0), ("ta", .resolve 0 disabledPolicies), ("ta", .release 0),
    ("ta", .releaseMark 0)]

def refusedSystem : System := (run (admissionStep sampleRegistry) .start refusedAdmissions).getD .start

theorem refusedSystem_quiescent : Quiescent refusedSystem := by
  refine ⟨fun p => ?_, by decide⟩
  match p with
  | 0 => rfl
  | 1 => rfl
  | n + 2 => rfl

/-- Both admissions were refused and released, and one of them is still counted. -/
theorem refused_admission_stays_counted :
    ¬ ∀ (reg : Registry) (s : System),
      Reachable (admissionStep reg) (· = System.start) (fun _ e => e.2.stray = false) s → Quiescent s →
      ∀ a w f, f ∈ reg.fields a → (s.redis.bucket (reg.buckets a) w).initialized f →
        (s.redis.bucket (reg.buckets a) w).used f = (getWindowUsage s.ledger (reg.windowInput a) none w).of f := by
  intro h
  have hrun : run (admissionStep sampleRegistry) .start refusedAdmissions = some refusedSystem := rfl
  have hreach : Reachable (admissionStep sampleRegistry) (· = System.start) (fun _ e => e.2.stray = false)
      refusedSystem := Reachable.run_of (.start rfl) (fun _ => by decide) hrun
  have := h sampleRegistry refusedSystem hreach refusedSystem_quiescent ⟨"sbr_1", 1⟩ .hour .global (by decide) (by decide)
  revert this
  decide

end Sdp.Budget
