import Sdp.BudgetCounts
import Sdp.BudgetOwner

/-!
# The balance of the counters

What an initialized counter holds, row by row: the reserved amount of an attempt that is marked on
the field, else what Redis settled it at. `Balanced` is what has to hold for that besides.
-/

open Sdp.Lib

namespace Sdp.Budget

/-- No hash has a marker of the attempt. -/
def Unmarked (r : Redis) (a : AttemptId) : Prop := ∀ w k f, (r.hash w k).ownerField a f = none

/-- The ledger is past the attempt, or says that Redis settled it. -/
def Finished (l : Ledger) (a : AttemptId) : Prop :=
  ∃ r, l.find? a.reservationId = some r ∧
    (a.attempt < r.attempt ∨ r.attempt = a.attempt ∧ r.redisSettledAt.isSome)

/-- The ledger is past the attempt, or released it. -/
def Released (l : Ledger) (a : AttemptId) : Prop :=
  ∃ r, l.find? a.reservationId = some r ∧ (a.attempt < r.attempt ∨ r.attempt = a.attempt ∧ r.status = .released)

/-- The ledger says that the attempt spent this, or is past it and it spent nothing. -/
def Settling (l : Ledger) (a : AttemptId) (actual : Nat) : Prop :=
  ∃ r, l.find? a.reservationId = some r ∧
    (a.attempt < r.attempt ∧ actual = 0 ∨ r.attempt = a.attempt ∧ r.actualLamports = some actual)

/-- What a counter holds of an attempt. -/
def Registry.countedAt (reg : Registry) (r : Redis) (w : Window) (k : String) (f : ScopeField) (a : AttemptId) : Nat :=
  if reg.Covers a w k f then
    if ((r.hash w k).ownerField a f).isSome then reg.amount a else (r.settlement a).getD 0
  else 0

/-- A row and what Redis knows of its attempt. -/
structure RowSound (r : Redis) (admitted : AttemptId → Bool) (row : ReservationRow) : Prop where
  sponsored : row.status ∈ [.signed, .submitted, .committed, .chargedUnknown] → admitted row.attemptId
  found : admitted row.attemptId →
    (r.reservation row.attemptId).isSome ∨ row.Terminal ∧ (r.settlement row.attemptId).isSome
  settled : ∀ v, r.settlement row.attemptId = some v → row.actualLamports = some v
  released : row.status = .released → row.actualLamports = some 0
  committed : row.status = .committed → row.redisSettledAt.isSome → (r.settlement row.attemptId).isSome

/-- A snapshot counts what it lists on every field that is not initialized yet. -/
def SnapshotSound (reg : Registry) (l : Ledger) (r : Redis) (a : AttemptId) (snapshot : WindowAdmissionSnapshot) :
    Prop :=
  ∃ listed, SnapshotOf reg (reg.buckets a) (reg.fields a) snapshot listed ∧
    (∀ w, ∀ b ∈ listed w, Known l b) ∧
    ∀ w, ∀ f ∈ reg.fields a, (r.bucket (reg.buckets a) w).initialized f = false →
      (snapshot.usage w).of f = ((listed w).map fun b => if f ∈ reg.fields b then reg.amount b else 0).sum

def Job.Sound (l : Ledger) (r : Redis) : Job → Prop
  | .idle => True
  | .settling a actual => Settling l a actual
  | .marking a => (r.settlement a).isSome

def Request.Sound (reg : Registry) (l : Ledger) (r : Redis) : Request → Prop
  | .seeding a _ _ _ snapshot => SnapshotSound reg l r a snapshot
  | .releaseSettling a _ => Released l a
  | .settlingRelease a => Settling l a 0
  | .markingRelease a => (r.settlement a).isSome
  | _ => True

structure Balanced (reg : Registry) (s : System) : Prop where
  unknown : ∀ a, ¬ Known s.ledger a → s.admitted a = false ∧ s.redis.settlement a = none ∧ Unmarked s.redis a
  finished : ∀ a, Finished s.ledger a → Unmarked s.redis a
  rows : ∀ id r, s.ledger.find? id = some r → RowSound s.redis s.admitted r
  reserved : ∀ a, (s.redis.reservation a).isSome → s.admitted a
  older : ∀ a r v, s.ledger.find? a.reservationId = some r → a.attempt < r.attempt →
    s.redis.settlement a = some v → v = 0
  granted : ∀ p a, (p, a) ∈ s.grants → s.admitted a
  jobs : ∀ j, (s.jobs j).Sound s.ledger s.redis
  requests : ∀ p, (s.requests p).Sound reg s.ledger s.redis
  exact : ∀ w k f, (s.redis.hash w k).initialized f →
    (s.redis.hash w k).used f = (s.ledger.sum fun r => reg.countedAt s.redis w k f r.attemptId : ℕ)

/-! ## Rows -/

theorem RowStep.of_terminal {call : LedgerCall} {r r' : ReservationRow} (h : RowStep call r r') (hr : r.Terminal) :
    r'.status = r.status ∧ r'.actualLamports = r.actualLamports := by
  cases h with
  | stays | redisSettled => exact ⟨rfl, rfl⟩
  | signed _ _ _ h => rcases hr with hr | hr <;> rw [h] at hr <;> cases hr
  | submitted _ _ h | released _ h | missed _ h | settled _ _ _ h =>
    rcases hr with hr | hr <;> rcases h with h | h <;> rw [h] at hr <;> cases hr
  | chargedUnknown _ h => rcases hr with hr | hr <;> rcases h with h | h | h <;> rw [h] at hr <;> cases hr

theorem Released.exec {l : Ledger} {a : AttemptId} (h : Released l a) (now : String) (call : LedgerCall) :
    Released (exec l now call) a := by
  obtain ⟨r, hr, hwhere⟩ := h
  obtain ⟨r', hr', hstep | ⟨input, -, -, -, -, rfl⟩⟩ := exec_row l now call hr
  · refine ⟨r', hr', ?_⟩
    rw [hstep.attempt]
    exact hwhere.imp_right fun ⟨ha, hs⟩ => ⟨ha, ((hstep.of_terminal (.inr hs)).1).trans hs⟩
  · refine ⟨_, hr', .inl ?_⟩
    simp only [ReservationRow.reopened]
    omega

theorem Settling.exec {reg : Registry} {l : Ledger} (hl : Conforms reg l)
    (hzero : ∀ id r, l.find? id = some r → r.status = .released → r.actualLamports = some 0) {a : AttemptId}
    {actual : Nat} (h : Settling l a actual) (now : String) (call : LedgerCall) :
    Settling (exec l now call) a actual := by
  obtain ⟨r, hr, hwhere⟩ := h
  obtain ⟨r', hr', hstep | ⟨input, -, -, hreleased, -, rfl⟩⟩ := exec_row l now call hr
  · refine ⟨r', hr', ?_⟩
    rw [hstep.attempt]
    refine hwhere.imp_right fun ⟨ha, hactual⟩ => ⟨ha, ?_⟩
    have hterminal : r.Terminal := (hl _ r hr).1.actual.mp (by rw [hactual]; rfl)
    exact ((hstep.of_terminal hterminal).2).trans hactual
  · refine ⟨_, hr', .inl ?_⟩
    simp only [ReservationRow.reopened]
    rcases hwhere with ⟨hlt, rfl⟩ | ⟨ha, hactual⟩
    · exact ⟨by omega, rfl⟩
    · rw [hzero _ r hr hreleased] at hactual
      exact ⟨by omega, (Option.some.inj hactual).symm⟩

/-! ## Statements -/

/-- What the service and the job call in this state, besides the statements that open an attempt. -/
def LedgerCall.Allowed (s : System) : LedgerCall → Prop
  | .markSigned id n _ _ | .markSubmitted id n _ | .markChargedUnknown id n => s.admitted ⟨id, n⟩
  | .settleReservation _ _ .released actual => actual = 0
  | .markRedisSettled id n =>
    (s.redis.settlement ⟨id, n⟩).isSome ∨ Unmarked s.redis ⟨id, n⟩ ∧ Released s.ledger ⟨id, n⟩
  | _ => True

theorem not_known_of_find?_none {l : Ledger} {a : AttemptId} (h : l.find? a.reservationId = none) : ¬ Known l a := by
  rintro ⟨r, hr, -⟩
  rw [h] at hr
  cases hr

theorem not_known_of_attempt_lt {l : Ledger} {a : AttemptId} {r : ReservationRow}
    (h : l.find? a.reservationId = some r) (hlt : r.attempt < a.attempt) : ¬ Known l a := by
  rintro ⟨r', hr', hle⟩
  obtain rfl : r = r' := Option.some.inj (h.symm.trans hr')
  omega

theorem exec_rows {l : Ledger} {now : String} {call : LedgerCall} {id : String} {r' : ReservationRow}
    (h : (exec l now call).find? id = some r') :
    (∃ r, l.find? id = some r ∧ RowStep call r r') ∨
      call.opens ∧ r'.status = .reserved ∧ r'.redisSettledAt = none ∧ ¬ Known l r'.attemptId ∧
        (l.find? id = none ∧ r'.attempt = 1 ∨ ∃ r, l.find? id = some r ∧ r.status = .released ∧
          r.redisSettledAt.isSome ∧ r'.attempt = r.attempt + 1) := by
  have hid := Table.key_of_find? h
  cases hr : l.find? id with
  | none =>
    obtain ⟨input, rfl, rfl⟩ := exec_new l now call hr h
    refine .inr ⟨rfl, rfl, rfl, not_known_of_find?_none ?_, .inl ⟨rfl, rfl⟩⟩
    rw [← hr, ← hid]
    rfl
  | some r =>
    obtain ⟨r'', hr'', hstep⟩ := exec_row l now call hr
    obtain rfl : r' = r'' := Option.some.inj (h.symm.trans hr'')
    rcases hstep with hstep | ⟨input, rfl, -, hreleased, hset, rfl⟩
    · exact .inl ⟨r, rfl, hstep⟩
    · refine .inr ⟨rfl, rfl, rfl, ?_, .inr ⟨r, rfl, hreleased, hset, rfl⟩⟩
      refine not_known_of_attempt_lt (r := r) ?_ (Nat.lt_succ_self _)
      rw [← hr, ← hid]
      rfl

theorem RowSound.fresh {r : Redis} {admitted : AttemptId → Bool} {row : ReservationRow} (hs : row.status = .reserved)
    (hadmitted : admitted row.attemptId = false) (hset : r.settlement row.attemptId = none) :
    RowSound r admitted row := by
  constructor
  · simp [hs]
  · simp [hadmitted]
  · simp [hset]
  · simp [hs]
  · simp [hs]

theorem RowSound.step {s : System} {call : LedgerCall} {row row' : ReservationRow}
    (h : RowSound s.redis s.admitted row) (hc : row.Consistent) (hrow : s.ledger.find? row.id = some row)
    (hstep : RowStep call row row') (hcall : call.Allowed s) : RowSound s.redis s.admitted row' := by
  -- Before its end a row is still reserved in Redis if it was admitted, and Redis settled nothing.
  have hopen : ¬ row.Terminal → (s.admitted row.attemptId → (s.redis.reservation row.attemptId).isSome) ∧
      s.redis.settlement row.attemptId = none := by
    refine fun hnt => ⟨fun ha => (h.found ha).resolve_right fun hf => hnt hf.1, ?_⟩
    cases hv : s.redis.settlement row.attemptId with
    | none => rfl
    | some v => exact absurd (hc.actual.mp (by rw [h.settled v hv]; rfl)) hnt
  cases hstep with
  | stays => exact h
  | missed => exact ⟨h.sponsored, h.found, h.settled, h.released, h.committed⟩
  | signed _ _ _ hs =>
    obtain ⟨hres, hset⟩ := hopen (by simp [ReservationRow.Terminal, hs])
    exact ⟨fun _ => hcall, fun ha => .inl (hres ha), h.settled, (by simp), (by simp)⟩
  | submitted _ _ hs =>
    obtain ⟨hres, hset⟩ := hopen (by rcases hs with hs | hs <;> simp [ReservationRow.Terminal, hs])
    exact ⟨fun _ => hcall, fun ha => .inl (hres ha), h.settled, (by simp), (by simp)⟩
  | chargedUnknown _ hs =>
    obtain ⟨hres, hset⟩ := hopen (by rcases hs with hs | hs | hs <;> simp [ReservationRow.Terminal, hs])
    exact ⟨fun _ => hcall, fun ha => .inl (hres ha), h.settled, (by simp), (by simp)⟩
  | released _ hs =>
    obtain ⟨hres, hset⟩ := hopen (by rcases hs with hs | hs <;> simp [ReservationRow.Terminal, hs])
    refine ⟨by simp, fun ha => .inl (hres ha), fun v hv => ?_, fun _ => rfl, (by simp)⟩
    exact absurd (hset.symm.trans hv) (by simp)
  | settled status actual _ hs =>
    obtain ⟨hres, hset⟩ := hopen (by rcases hs with hs | hs <;> simp [ReservationRow.Terminal, hs])
    have hadmitted : s.admitted row.attemptId := h.sponsored (by rcases hs with hs | hs <;> simp [hs])
    refine ⟨fun _ => hadmitted, fun ha => .inl (hres ha), fun v hv => absurd (hset.symm.trans hv) (by simp),
      fun hreleased => ?_, fun _ hsettled => ?_⟩
    · cases status with
      | committed => cases hreleased
      | released => exact congrArg some hcall
    · have := hc.redisSettled hsettled
      rcases hs with hs | hs <;> simp [ReservationRow.Terminal, hs] at this
  | redisSettled _ hs =>
    refine ⟨h.sponsored, h.found, h.settled, h.released, fun hcommitted _ => ?_⟩
    rcases hcall with hset | ⟨-, r, hr, hwhere⟩
    · exact hset
    · -- The row is not released.
      obtain rfl : row = r := Option.some.inj (hrow.symm.trans hr)
      rcases hwhere with hlt | ⟨-, hreleased⟩
      · exact absurd hlt (lt_irrefl _)
      · exact absurd (hreleased.symm.trans hcommitted) (by simp)

theorem countedAt_unmarked {reg : Registry} {r : Redis} {a : AttemptId} (hmark : Unmarked r a)
    (hzero : ∀ v, r.settlement a = some v → v = 0) (w : Window) (k : String) (f : ScopeField) :
    reg.countedAt r w k f a = 0 := by
  unfold Registry.countedAt
  rw [hmark w k f]
  cases hv : r.settlement a with
  | none => simp
  | some v => simp [hzero v hv]

theorem sum_countedAt_change {reg : Registry} {l : Ledger} {r r' : Redis} {w : Window} {k : String} {f : ScopeField}
    {a : AttemptId} (hother : ∀ b, b ≠ a → reg.countedAt r' w k f b = reg.countedAt r w k f b) {row : ReservationRow}
    (hrow : l.find? a.reservationId = some row) :
    (l.sum fun x => reg.countedAt r' w k f x.attemptId) + reg.countedAt r w k f row.attemptId =
      (l.sum fun x => reg.countedAt r w k f x.attemptId) + reg.countedAt r' w k f row.attemptId := by
  have h := Table.sum_change l l (fun x => reg.countedAt r w k f x.attemptId)
    (fun x => reg.countedAt r' w k f x.attemptId) a.reservationId
  simp only [Table.valueAt, hrow, Option.elim_some] at h
  refine h fun id hid => ?_
  cases hx : l.find? id with
  | none => rfl
  | some x =>
    refine hother x.attemptId ?_
    rintro rfl
    exact hid (Table.key_of_find? hx).symm

namespace Balanced

variable {reg : Registry} {s t : System}

theorem zero_of_released (hs : Balanced reg s) {r : ReservationRow} (hr : s.ledger.find? r.id = some r)
    (hreleased : r.status = .released) {v : Nat} (hv : s.redis.settlement r.attemptId = some v) : v = 0 := by
  have hrow := hs.rows _ r hr
  exact Option.some.inj ((hrow.settled v hv).symm.trans (hrow.released hreleased))

theorem write (hs : Balanced reg s) (hacc : Accounted reg s) (now : String) {call : LedgerCall}
    (hcall : call.Allowed s) : Balanced reg (s.write now call) where
  unknown a ha := hs.unknown a fun h => ha (h.exec now call)
  finished a ha := by
    obtain ⟨r', hr', hwhere⟩ := ha
    rcases exec_rows hr' with ⟨r, hr, hstep⟩ | ⟨-, -, hnone, -, hold⟩
    · rw [hstep.attempt] at hwhere
      rcases hwhere with hlt | ⟨ha, hset⟩
      · exact hs.finished a ⟨r, hr, .inl hlt⟩
      · by_cases hset' : r.redisSettledAt.isSome
        · exact hs.finished a ⟨r, hr, .inr ⟨ha, hset'⟩⟩
        · have hid := Table.key_of_find? hr
          obtain rfl : r.attemptId = a := by rw [ReservationRow.attemptId, ha, hid]
          cases hstep with
          | redisSettled =>
            rcases hcall with hsome | ⟨hmark, -⟩
            · exact (hacc.redis.settled _ hsome).2
            · exact hmark
          | _ => exact absurd hset hset'
    · rcases hwhere with hlt | ⟨-, hset⟩
      · rcases hold with ⟨hnew, -⟩ | ⟨r, hr, -, hset, hattempt⟩
        · exact (hs.unknown a (not_known_of_find?_none hnew)).2.2
        · refine hs.finished a ⟨r, hr, ?_⟩
          rcases Nat.lt_succ_iff_lt_or_eq.mp (hattempt ▸ hlt) with h | h
          · exact .inl h
          · exact .inr ⟨h.symm, hset⟩
      · rw [hnone] at hset
        cases hset
  rows id r' hr' := by
    rcases exec_rows hr' with ⟨r, hr, hstep⟩ | ⟨-, hreserved, -, hnew, -⟩
    · have hid := Table.key_of_find? hr
      exact (hs.rows id r hr).step (hacc.conforms id r hr).1 (by rw [hid, hr]) hstep hcall
    · exact .fresh hreserved (hs.unknown _ hnew).1 (hs.unknown _ hnew).2.1
  reserved := hs.reserved
  older a r' v hr' hlt hv := by
    rcases exec_rows hr' with ⟨r, hr, hstep⟩ | ⟨-, -, -, -, ⟨hnew, -⟩ | ⟨r, hr, hreleased, -, hattempt⟩⟩
    · exact hs.older a r v hr (hstep.attempt ▸ hlt) hv
    · have hnone := (hs.unknown a (not_known_of_find?_none hnew)).2.1
      exact absurd (hnone.symm.trans hv) (by simp)
    · rcases Nat.lt_succ_iff_lt_or_eq.mp (hattempt ▸ hlt) with h | h
      · exact hs.older a r v hr h hv
      · have hid := Table.key_of_find? hr
        obtain rfl : r.attemptId = a := by rw [ReservationRow.attemptId, ← h, hid]
        exact hs.zero_of_released hr hreleased hv
  granted := hs.granted
  jobs j := by
    have hj := hs.jobs j
    revert hj
    cases hjob : s.jobs j <;> simp only [System.write, hjob, Job.Sound, imp_self]
    exact fun h => h.exec hacc.conforms (fun id r hr => (hs.rows id r hr).released) now call
  requests p := by
    have hp := hs.requests p
    revert hp
    cases hrequest : s.requests p <;> simp only [System.write, hrequest, Request.Sound, imp_self]
    · rintro ⟨listed, hsnap, hknown, husage⟩
      exact ⟨listed, hsnap, fun w b hb => (hknown w b hb).exec now call, husage⟩
    · exact fun h => h.exec now call
    · exact fun h => h.exec hacc.conforms (fun id r hr => (hs.rows id r hr).released) now call
  exact w k f hinit := by
    rw [show (s.write now call).redis = s.redis from rfl] at hinit ⊢
    rw [hs.exact w k f hinit]
    norm_cast
    refine (Table.sum_eq fun id => ?_).symm
    unfold Table.valueAt
    cases hr' : (s.write now call).ledger.find? id with
    | none =>
      cases hr : s.ledger.find? id with
      | none => rfl
      | some r =>
        obtain ⟨r'', hr'', -⟩ := exec_row s.ledger now call hr
        exact absurd (hr'.symm.trans hr'') (by simp)
    | some r' =>
      rcases exec_rows hr' with ⟨r, hr, hstep⟩ | ⟨-, -, -, hnew, hold⟩
      · simp [hr, hstep.attemptId]
      · obtain ⟨-, hset, hmark⟩ := hs.unknown _ hnew
        have hnow : reg.countedAt s.redis w k f r'.attemptId = 0 :=
          countedAt_unmarked hmark (by simp [hset]) w k f
        rcases hold with ⟨hnone, -⟩ | ⟨r, hr, hreleased, hset, -⟩
        · simp [hnone, hnow]
        · have hid := Table.key_of_find? hr
          have hfind : s.ledger.find? r.id = some r := by rw [hid, hr]
          have hold : reg.countedAt s.redis w k f r.attemptId = 0 :=
            countedAt_unmarked (hs.finished _ ⟨r, hfind, .inr ⟨rfl, hset⟩⟩)
              (fun v hv => hs.zero_of_released hfind hreleased hv) w k f
          simp [hr, hnow, hold]

/-! ## Requests, jobs and policies -/

theorem congr (hs : Balanced reg s) (hledger : t.ledger = s.ledger) (hredis : t.redis = s.redis)
    (hadmitted : t.admitted = s.admitted) (hgrants : t.grants = s.grants)
    (hjobs : ∀ j, (t.jobs j).Sound s.ledger s.redis) (hrequests : ∀ p, (t.requests p).Sound reg s.ledger s.redis) :
    Balanced reg t := by
  constructor
  all_goals simp only [hledger, hredis, hadmitted, hgrants]
  exacts [hs.unknown, hs.finished, hs.rows, hs.reserved, hs.older, hs.granted, hjobs, hrequests, hs.exact]

theorem setRequest (hs : Balanced reg s) (p : Nat) {next : Request} (hnext : next.Sound reg s.ledger s.redis) :
    Balanced reg (s.setRequest p next) := by
  refine hs.congr rfl rfl rfl rfl hs.jobs fun q => ?_
  simp only [System.setRequest, Function.update_apply]
  split
  · exact hnext
  · exact hs.requests q

theorem setJob (hs : Balanced reg s) (j : Nat) {next : Job} (hnext : next.Sound s.ledger s.redis) :
    Balanced reg (s.setJob j next) := by
  refine hs.congr rfl rfl rfl rfl (fun i => ?_) hs.requests
  simp only [System.setJob, Function.update_apply]
  split
  · exact hnext
  · exact hs.jobs i

theorem syncPolicy (hs : Balanced reg s) (field : SponsorshipBudgetScopeType × String) (version : Nat)
    (enabled : Bool) : Balanced reg { s with redis := syncControlScript s.redis field version enabled } := by
  obtain ⟨hhash, hres, hset⟩ := RedisSound.syncControl_frame s.redis field version enabled
  have hrow : ∀ r, RowSound s.redis s.admitted r →
      RowSound (syncControlScript s.redis field version enabled) s.admitted r := by
    intro r hr
    refine ⟨hr.sponsored, ?_, ?_, hr.released, ?_⟩
    all_goals simp only [hres, hset]
    exacts [hr.found, hr.settled, hr.committed]
  constructor
  case rows => exact fun id r hr => hrow r (hs.rows id r hr)
  case requests =>
    intro p
    have hp := hs.requests p
    revert hp
    cases hrequest : s.requests p <;>
      simp only [Request.Sound, SnapshotSound, Redis.bucket, hhash, hset, imp_self]
  case jobs =>
    intro j
    have hj := hs.jobs j
    revert hj
    cases hjob : s.jobs j <;> simp only [Job.Sound, hset, imp_self]
  all_goals simp only [Unmarked, Registry.countedAt, hhash, hres, hset]
  exacts [hs.unknown, hs.finished, hs.reserved, hs.older, hs.granted, hs.exact]

/-! ## SETTLE -/

theorem countedAt_settled (hr : RedisSound reg s.redis) {a b : AttemptId} (hb : b ≠ a) (actual : Nat) (w : Window)
    (k : String) (f : ScopeField) :
    reg.countedAt (reg.settled s.redis a actual) w k f b = reg.countedAt s.redis w k f b := by
  have hset : (reg.settled s.redis a actual).settlement b = s.redis.settlement b := Function.update_of_ne hb _ _
  simp only [Registry.countedAt, hr.ownerField_settled, if_neg hb, hset]

theorem settling_actual {a : AttemptId} {actual : Nat} (h : Settling s.ledger a actual) {id : String}
    {r : ReservationRow} (hr : s.ledger.find? id = some r) (ha : r.attemptId = a) : r.actualLamports = some actual := by
  obtain ⟨r', hr', hwhere⟩ := h
  have hid := Table.key_of_find? hr
  subst ha
  obtain rfl : r = r' := Option.some.inj (hr.symm.trans (hid ▸ hr'))
  rcases hwhere with ⟨hlt, -⟩ | ⟨-, hactual⟩
  · exact absurd hlt (lt_irrefl _)
  · exact hactual

theorem settled_exact (hs : Balanced reg s) (hacc : Accounted reg s) {a : AttemptId} {actual : Nat}
    (hset : s.redis.settlement a = none) (h : Settling s.ledger a actual) (w : Window) (k : String) (f : ScopeField)
    (hinit : (s.redis.hash w k).initialized f) :
    ((reg.settled s.redis a actual).hash w k).used f =
      (s.ledger.sum fun r => reg.countedAt (reg.settled s.redis a actual) w k f r.attemptId : ℕ) := by
  have hold := hs.exact w k f hinit
  obtain ⟨r, hr, hwhere⟩ := id h
  have hchange := sum_countedAt_change (fun b hb => countedAt_settled hacc.redis hb actual w k f) hr
  have hsettlement : (reg.settled s.redis a actual).settlement a = some actual := by simp [Registry.settled]
  have hid := Table.key_of_find? hr
  rw [hacc.redis.used_settled]
  by_cases ha : r.attemptId = a
  · have hactual := settling_actual h hr ha
    subst ha
    have hnow : reg.countedAt (reg.settled s.redis r.attemptId actual) w k f r.attemptId =
        if reg.Covers r.attemptId w k f then actual else 0 := by
      simp [Registry.countedAt, hacc.redis.ownerField_settled, hsettlement]
    by_cases hm : ((s.redis.hash w k).ownerField r.attemptId f).isSome
    · -- A marked field moves from the reserved amount to what was spent.
      have hcovers : reg.Covers r.attemptId w k f := by
        obtain ⟨v, hv⟩ := Option.isSome_iff_exists.mp hm
        exact (hacc.redis.marker w k _ f v hv).2.1
      have hbefore : reg.countedAt s.redis w k f r.attemptId = reg.amount r.attemptId := by
        simp [Registry.countedAt, hcovers, hm]
      rw [hnow, hbefore, if_pos hcovers] at hchange
      rw [if_pos hm, hold]
      omega
    · -- An unmarked field is not one of an admitted attempt, which spent nothing.
      have hbefore : reg.countedAt s.redis w k f r.attemptId = 0 := by
        simp [Registry.countedAt, hm, hset]
      have hzero : (if reg.Covers r.attemptId w k f then actual else 0) = 0 := by
        split
        · next hcovers =>
          have hrow := hs.rows _ r hr
          have hnot : s.admitted r.attemptId = false := by
            cases hadmitted : s.admitted r.attemptId with
            | false => rfl
            | true =>
              rcases hrow.found hadmitted with hres | ⟨-, hsome⟩
              · obtain ⟨v, hv⟩ := Option.isSome_iff_exists.mp hres
                obtain ⟨hf, rfl⟩ := hcovers
                exact absurd (by rw [show (s.redis.hash w _).ownerField _ f = _ from
                  (hacc.redis.reserved _ v hv).2 w f hf]; rfl) hm
              · rw [hset] at hsome
                cases hsome
          have hterminal : r.Terminal := (hacc.conforms _ r hr).1.actual.mp (by rw [hactual]; rfl)
          rcases hterminal with hcommitted | hreleased
          · exact absurd (hrow.sponsored (by simp [hcommitted])) (by simp [hnot])
          · exact Option.some.inj (hactual.symm.trans (hrow.released hreleased))
        · rfl
      rw [hnow, hbefore, hzero] at hchange
      rw [if_neg hm, hold]
      omega
  · -- The ledger is past the attempt, and its markers are gone.
    have hlt : a.attempt < r.attempt := by
      rcases hwhere with ⟨hlt, -⟩ | ⟨hattempt, -⟩
      · exact hlt
      · exact absurd (by rw [ReservationRow.attemptId, hid, hattempt]) ha
    have hmark := hs.finished a ⟨r, hr, .inl hlt⟩
    rw [countedAt_settled hacc.redis ha] at hchange
    rw [hmark w k f, if_neg (by simp), hold]
    omega

theorem settle (hs : Balanced reg s) (hacc : Accounted reg s) {a : AttemptId} {actual : Nat}
    (h : Settling s.ledger a actual) (detect : Bool) : Balanced reg (s.settle reg a actual detect) := by
  rcases s.settle_cases reg a actual detect with heq | ⟨hnone, heq⟩
  · rw [heq]; exact hs
  rw [heq]
  have hr := hacc.redis
  have hknown : Known s.ledger a := by
    obtain ⟨r, hr, hwhere⟩ := id h
    exact ⟨r, hr, by omega⟩
  have hother : ∀ b, b ≠ a → (reg.settled s.redis a actual).settlement b = s.redis.settlement b ∧
      (reg.settled s.redis a actual).reservation b = s.redis.reservation b :=
    fun b hb => ⟨Function.update_of_ne hb _ _, Function.update_of_ne hb _ _⟩
  have hself : (reg.settled s.redis a actual).settlement a = some actual := Function.update_self ..
  have hkept : ∀ b, (s.redis.settlement b).isSome → ((reg.settled s.redis a actual).settlement b).isSome := by
    intro b hb
    by_cases hba : b = a
    · rw [hba, hself]; rfl
    · rw [(hother b hba).1]; exact hb
  have hunmarked : ∀ b, Unmarked s.redis b → Unmarked (reg.settled s.redis a actual) b := by
    intro b hb w k f
    rw [hr.ownerField_settled]
    split
    · rfl
    · exact hb w k f
  constructor
  case unknown =>
    intro b hb
    obtain ⟨hadmitted, hset, hmark⟩ := hs.unknown b hb
    have hba : b ≠ a := fun h => hb (h ▸ hknown)
    exact ⟨hadmitted, (hother b hba).1.trans hset, hunmarked b hmark⟩
  case finished => exact fun b hb => hunmarked b (hs.finished b hb)
  case rows =>
    intro id row hrow
    have hold := hs.rows id row hrow
    by_cases ha : row.attemptId = a
    · have hactual := settling_actual h hrow ha
      have hterminal : row.Terminal := (hacc.conforms _ row hrow).1.actual.mp (by rw [hactual]; rfl)
      refine ⟨hold.sponsored, fun _ => .inr ⟨hterminal, ?_⟩, fun v hv => ?_, hold.released, fun _ _ => ?_⟩
      · rw [ha, hself]; rfl
      · rw [ha, hself] at hv
        exact hactual.trans hv
      · rw [ha, hself]; rfl
    · obtain ⟨hset, hres⟩ := hother _ ha
      refine ⟨hold.sponsored, ?_, ?_, hold.released, ?_⟩
      · rw [hset, hres]; exact hold.found
      · rw [hset]; exact hold.settled
      · rw [hset]; exact hold.committed
  case reserved =>
    intro b hb
    by_cases hba : b = a
    · subst hba
      simp [Registry.settled] at hb
    · exact hs.reserved b (by rw [← (hother b hba).2]; exact hb)
  case older =>
    intro b row v hrow hlt hv
    by_cases hba : b = a
    · subst hba
      obtain rfl : actual = v := Option.some.inj (hself.symm.trans hv)
      obtain ⟨r, hr, hwhere⟩ := id h
      obtain rfl : row = r := Option.some.inj (hrow.symm.trans hr)
      rcases hwhere with ⟨-, hzero⟩ | ⟨hattempt, -⟩
      · exact hzero
      · omega
    · exact hs.older b row v hrow hlt ((hother b hba).1.symm.trans hv)
  case granted => exact hs.granted
  case jobs =>
    intro j
    have hj := hs.jobs j
    revert hj
    cases hjob : s.jobs j <;> simp only [Job.Sound, imp_self]
    exact hkept _
  case requests =>
    intro p
    have hp := hs.requests p
    revert hp
    cases hrequest : s.requests p <;>
      simp only [Request.Sound, SnapshotSound, Redis.bucket, RedisSound.initialized_settled, imp_self]
    exact hkept _
  case exact =>
    intro w k f hinit
    rw [RedisSound.initialized_settled] at hinit
    exact hs.settled_exact hacc hnone h w k f hinit

/-! ## RESERVE -/

theorem admitted_exact (hs : Balanced reg s) (hacc : Accounted reg s) {a : AttemptId} {r : ReservationRow}
    (hr : s.ledger.find? a.reservationId = some r) (ha : r.attemptId = a) (hset : s.redis.settlement a = none)
    (w : Window) (k : String) (f : ScopeField) (hinit : (s.redis.hash w k).initialized f) :
    ((reg.admitted s.redis a).hash w k).used f =
      (s.ledger.sum fun r => reg.countedAt (reg.admitted s.redis a) w k f r.attemptId : ℕ) := by
  obtain ⟨hmarker, hused, -, -⟩ := hacc.redis.admitted_hash a w k
  have hother : ∀ b, b ≠ a → reg.countedAt (reg.admitted s.redis a) w k f b = reg.countedAt s.redis w k f b := by
    intro b hb
    have hsame : ((reg.admitted s.redis a).hash w k).ownerField b f = (s.redis.hash w k).ownerField b f := by
      rw [hmarker, if_neg fun h => hb h.1]
    simp only [Registry.countedAt, hsame]
    rfl
  have hchange := sum_countedAt_change hother hr
  have hnow : reg.countedAt (reg.admitted s.redis a) w k f a = if reg.Covers a w k f then reg.amount a else 0 := by
    unfold Registry.countedAt
    rw [hmarker]
    split
    · next hc => simp [hc]
    · rfl
  have hbefore : reg.countedAt s.redis w k f a =
      if reg.Covers a w k f ∧ ((s.redis.hash w k).ownerField a f).isSome then reg.amount a else 0 := by
    unfold Registry.countedAt
    by_cases hc : reg.Covers a w k f
    · simp [hc, hset]
    · simp [hc]
  rw [ha, hnow, hbefore] at hchange
  rw [hused, hs.exact w k f hinit]
  by_cases hc : reg.Covers a w k f
  · cases hm : (s.redis.hash w k).ownerField a f with
    | none =>
      simp only [hc, hm, Option.isSome_none, Bool.false_eq_true, and_false, if_true, if_false, and_self] at hchange ⊢
      omega
    | some v =>
      simp only [hc, hm, Option.isSome_some, and_self, if_true, reduceCtorEq, and_false, if_false] at hchange ⊢
      omega
  · simp only [hc, false_and, if_false] at hchange ⊢
    omega

theorem grant (hs : Balanced reg s) (hacc : Accounted reg s) (p : Nat) {a : AttemptId} {r : ReservationRow}
    (hr : s.ledger.find? a.reservationId = some r) (hattempt : r.attempt = a.attempt)
    (hreserved : r.status = .reserved) (hset : s.redis.settlement a = none) : Balanced reg (s.grant reg p a) := by
  have hid := Table.key_of_find? hr
  have ha : r.attemptId = a := by rw [ReservationRow.attemptId, hid, hattempt]
  have hmarker := fun w k => (hacc.redis.admitted_hash a w k).1
  have hinit := fun w k => (hacc.redis.admitted_hash a w k).2.2.2
  have hnotFinished : ¬ Finished s.ledger a := by
    rintro ⟨r', hr', hwhere⟩
    obtain rfl : r = r' := Option.some.inj (hr.symm.trans hr')
    rcases hwhere with hlt | ⟨-, hsettled⟩
    · omega
    · have := (hacc.conforms _ r hr).1.redisSettled hsettled
      simp [ReservationRow.Terminal, hreserved] at this
  have hunmarked : ∀ b, b ≠ a → Unmarked s.redis b → Unmarked (reg.admitted s.redis a) b := by
    intro b hb hmark w k f
    rw [hmarker, if_neg fun h => hb h.1]
    exact hmark w k f
  constructor
  case unknown =>
    intro b hb
    obtain ⟨hadmitted, hnone, hmark⟩ := hs.unknown b hb
    have hba : b ≠ a := by
      rintro rfl
      exact hb ⟨r, hr, hattempt.ge⟩
    exact ⟨by simpa [System.grant, hba] using hadmitted, hnone, hunmarked b hba hmark⟩
  case finished =>
    intro b hb
    have hba : b ≠ a := fun h => hnotFinished (h ▸ hb)
    exact hunmarked b hba (hs.finished b hb)
  case rows =>
    intro id row hrow
    have hold := hs.rows id row hrow
    by_cases hba : row.attemptId = a
    · refine ⟨fun _ => by simp [System.grant, hba], fun _ => .inl ?_, hold.settled, hold.released, hold.committed⟩
      simp [System.grant, Registry.admitted, hba]
    · refine ⟨fun h => ?_, fun h => ?_, hold.settled, hold.released, hold.committed⟩
      · simpa [System.grant, hba] using hold.sponsored h
      · simp only [System.grant, Function.update_of_ne hba] at h
        simpa [System.grant, Registry.admitted, hba, Redis.mapBuckets] using hold.found h
  case reserved =>
    intro b hb
    by_cases hba : b = a
    · simp [System.grant, hba]
    · simp only [System.grant, Registry.admitted, Function.update_of_ne hba] at hb ⊢
      exact hs.reserved b hb
  case older => exact hs.older
  case granted =>
    intro q b hq
    rcases List.mem_cons.mp hq with h | hq
    · cases h
      simp [System.grant]
    · have hold := hs.granted q b hq
      by_cases hba : b = a
      · simp [System.grant, hba]
      · simpa [System.grant, hba] using hold
  case jobs => exact hs.jobs
  case requests =>
    intro q
    have hq := hs.requests q
    revert hq
    change (s.requests q).Sound reg s.ledger s.redis → (s.requests q).Sound reg s.ledger (reg.admitted s.redis a)
    cases hrequest : s.requests q <;> simp only [Request.Sound, SnapshotSound, Redis.bucket, hinit, imp_self]
    exact fun h => h
  case exact =>
    intro w k f hin
    change ((reg.admitted s.redis a).hash w k).initialized f at hin
    rw [hinit] at hin
    exact hs.admitted_exact hacc hr ha hset w k f hin

/-! ## INITIALIZE -/

theorem zero_of_unadmitted (hs : Balanced reg s) (hacc : Accounted reg s) {a : AttemptId}
    (ha : s.admitted a = false) {v : Nat} (hv : s.redis.settlement a = some v) : v = 0 := by
  by_cases hknown : Known s.ledger a
  · obtain ⟨r, hr, hle⟩ := hknown
    rcases Nat.lt_or_eq_of_le hle with hlt | heq
    · exact hs.older a r v hr hlt hv
    · have hid := Table.key_of_find? hr
      obtain rfl : r.attemptId = a := by rw [ReservationRow.attemptId, hid, ← heq]
      have hrow := hs.rows _ r hr
      have hactual := hrow.settled v hv
      rcases (hacc.conforms _ r hr).1.actual.mp (by rw [hactual]; rfl) with hcommitted | hreleased
      · exact absurd (hrow.sponsored (by simp [hcommitted])) (by simp [ha])
      · exact Option.some.inj (hactual.symm.trans (hrow.released hreleased))
  · exact absurd (((hs.unknown a hknown).2.1).symm.trans hv) (by simp)

theorem attemptIds_nodup (l : Ledger) : (l.rows.map ReservationRow.attemptId).Nodup := by
  refine List.Nodup.of_map AttemptId.reservationId ?_
  rw [List.map_map]
  exact l.primaryKey

/-- A snapshot seeds no counter with an attempt that is finished and that Redis did not settle. -/
def SeedsOpen (reg : Registry) (s : System) (a : AttemptId) (listed : Window → List AttemptId) : Prop :=
  ∀ w, ∀ b ∈ listed w, (∃ f ∈ reg.fields b, (s.redis.bucket (reg.buckets a) w).Seeds (reg.fields a) f) →
    Finished s.ledger b → (s.redis.settlement b).isSome

/-- A counter that is seeded holds the listed attempts that Redis did not settle. -/
theorem seeded_exact (hs : Balanced reg s) (hacc : Accounted reg s) {a : AttemptId}
    {snapshot : WindowAdmissionSnapshot} {listed : Window → List AttemptId}
    (hsnap : SnapshotOf reg (reg.buckets a) (reg.fields a) snapshot listed)
    (hknown : ∀ w, ∀ b ∈ listed w, Known s.ledger b) (hopen : SeedsOpen reg s a listed) (w : Window) {f : ScopeField}
    (hseeds : (s.redis.bucket (reg.buckets a) w).Seeds (reg.fields a) f)
    (husage : (snapshot.usage w).of f = ((listed w).map fun b => if f ∈ reg.fields b then reg.amount b else 0).sum) :
    ((reg.seed s.redis a snapshot).bucket (reg.buckets a) w).used f =
      (s.ledger.sum fun r =>
        reg.countedAt (reg.seed s.redis a snapshot) w ((reg.buckets a).of w) f r.attemptId : ℕ) := by
  unfold Redis.bucket at hseeds ⊢
  -- Nothing that counts on the field was admitted.
  have hunadmitted : ∀ b, reg.Covers b w ((reg.buckets a).of w) f → s.admitted b = false := by
    intro b hc
    cases hb : s.admitted b with
    | false => rfl
    | true => exact absurd (hacc.initialized b hb w _ f hc) (by simp [hseeds.2])
  have hcovers : ∀ b ∈ listed w, f ∈ reg.fields b → reg.Covers b w ((reg.buckets a).of w) f :=
    fun b hb hf => ⟨hf, hsnap.bucket w b hb⟩
  let g (b : AttemptId) : Nat := if f ∈ reg.fields b ∧ s.redis.settlement b = none then reg.amount b else 0
  have hused : ((reg.seed s.redis a snapshot).hash w ((reg.buckets a).of w)).used f = ((listed w).map g).sum := by
    rw [RedisSound.seed_hash hsnap, if_pos rfl, used_seededHash, if_pos hseeds, husage]
    have hterm : ∀ l : List AttemptId, (∀ b ∈ l, b ∈ listed w) →
        (((l.map fun b => if f ∈ reg.fields b then reg.amount b else 0).sum : ℕ) : ℤ) +
          (l.map fun b => if f ∈ reg.fields b then settledDelta reg s.redis.settlement b else 0).sum =
        ((l.map g).sum : ℕ) := by
      intro l hl
      induction l with
      | nil => simp
      | cons b l ih =>
        have ih := ih fun c hc => hl c (List.mem_cons_of_mem _ hc)
        simp only [List.map_cons, List.sum_cons]
        push_cast at ih ⊢
        have hb : ((if f ∈ reg.fields b then (reg.amount b : ℤ) else 0) +
            if f ∈ reg.fields b then settledDelta reg s.redis.settlement b else 0) = g b := by
          by_cases hf : f ∈ reg.fields b
          · cases hv : s.redis.settlement b with
            | none => simp [g, hf, hv, settledDelta_none hv]
            | some v =>
              have hzero := hs.zero_of_unadmitted hacc (hunadmitted b (hcovers b (hl b List.mem_cons_self) hf)) hv
              simp [g, hf, hv, settledDelta_some hv, hzero]
          · simp [g, hf]
        linarith
    exact hterm (listed w) fun _ h => h
  have hcounted : ∀ id r, s.ledger.find? id = some r →
      reg.countedAt (reg.seed s.redis a snapshot) w ((reg.buckets a).of w) f r.attemptId =
        if r.attemptId ∈ listed w then g r.attemptId else 0 := by
    intro id r _
    have hnone : (s.redis.hash w ((reg.buckets a).of w)).ownerField r.attemptId f = none := by
      cases hm : (s.redis.hash w ((reg.buckets a).of w)).ownerField r.attemptId f with
      | none => rfl
      | some v => exact absurd (hacc.redis.marker _ _ _ _ _ hm).2.2 (by simp [hseeds.2])
    unfold Registry.countedAt
    rw [RedisSound.seed_hash hsnap, if_pos rfl, ownerField_seededHash, hnone]
    by_cases hc : reg.Covers r.attemptId w ((reg.buckets a).of w) f
    · have hzero : (s.redis.settlement r.attemptId).getD 0 = 0 := by
        cases hv : s.redis.settlement r.attemptId with
        | none => rfl
        | some v => exact hs.zero_of_unadmitted hacc (hunadmitted _ hc) hv
      have hsettlement : ((reg.seed s.redis a snapshot).settlement r.attemptId).getD 0 = 0 := hzero
      by_cases hl : r.attemptId ∈ listed w <;> by_cases hv : s.redis.settlement r.attemptId = none <;>
        simp [g, hc, hc.1, hl, hv, hseeds, hsettlement]
    · by_cases hl : r.attemptId ∈ listed w
      · have hf : f ∉ reg.fields r.attemptId := fun hf => hc (hcovers _ hl hf)
        simp [g, hc, hf]
      · simp [hc, hl]
  rw [hused, Table.sum_congr hcounted, Table.sum_named (attemptIds_nodup s.ledger) (hsnap.nodup w) g]
  -- What is not settled is not finished, so its row is there.
  intro b hb hg
  obtain ⟨hf, hnone⟩ : f ∈ reg.fields b ∧ s.redis.settlement b = none := by
    by_contra h
    exact hg (if_neg h)
  obtain ⟨r, hr, hle⟩ := hknown w b hb
  have hid := Table.key_of_find? hr
  rcases Nat.lt_or_eq_of_le hle with hlt | heq
  · have := hopen w b hb ⟨f, hf, hseeds⟩ ⟨r, hr, .inl hlt⟩
    rw [hnone] at this
    cases this
  · exact List.mem_map.mpr ⟨r, Table.mem_rows_iff.mpr (by rw [hid, hr]), by rw [ReservationRow.attemptId, hid, ← heq]⟩

theorem seed (hs : Balanced reg s) (hacc : Accounted reg s) {a : AttemptId} {snapshot : WindowAdmissionSnapshot}
    {listed : Window → List AttemptId} (hsnap : SnapshotOf reg (reg.buckets a) (reg.fields a) snapshot listed)
    (hknown : ∀ w, ∀ b ∈ listed w, Known s.ledger b) (hopen : SeedsOpen reg s a listed)
    (husage : ∀ w, ∀ f ∈ reg.fields a, (s.redis.bucket (reg.buckets a) w).initialized f = false →
      (snapshot.usage w).of f = ((listed w).map fun b => if f ∈ reg.fields b then reg.amount b else 0).sum) :
    Balanced reg { s with redis := reg.seed s.redis a snapshot } := by
  have hinit : ∀ w k f, (s.redis.hash w k).initialized f → ((reg.seed s.redis a snapshot).hash w k).initialized f := by
    intro w k f h
    rw [RedisSound.seed_hash hsnap]
    split
    · simp [initialized_seededHash, h]
    · exact h
  have hunmarked : ∀ b, Unmarked s.redis b → (∀ w, b ∈ listed w →
      (∃ f ∈ reg.fields b, (s.redis.bucket (reg.buckets a) w).Seeds (reg.fields a) f) →
        (s.redis.settlement b).isSome) → Unmarked (reg.seed s.redis a snapshot) b := by
    intro b hmark hlisted w k f
    rw [RedisSound.seed_hash hsnap]
    split
    · next hk =>
      subst hk
      rw [ownerField_seededHash, if_neg]
      · exact hmark w _ f
      · rintro ⟨hl, hseeds, hf, hnone⟩
        have := hlisted w hl ⟨f, hf, hseeds⟩
        rw [hnone] at this
        cases this
    · exact hmark w k f
  constructor
  case unknown =>
    intro b hb
    obtain ⟨hadmitted, hset, hmark⟩ := hs.unknown b hb
    exact ⟨hadmitted, hset, hunmarked b hmark fun w hl => absurd (hknown w b hl) hb⟩
  case finished => exact fun b hb => hunmarked b (hs.finished b hb) fun w hl hf => hopen w b hl hf hb
  case rows =>
    intro id r hr
    have hold := hs.rows id r hr
    exact ⟨hold.sponsored, hold.found, hold.settled, hold.released, hold.committed⟩
  case reserved => exact hs.reserved
  case older => exact hs.older
  case granted => exact hs.granted
  case jobs =>
    intro j
    have hj := hs.jobs j
    revert hj
    cases hjob : s.jobs j <;> exact fun h => h
  case requests =>
    intro p
    have hp := hs.requests p
    revert hp
    cases hrequest : s.requests p <;> simp only [Request.Sound, imp_self]
    · rintro ⟨listed', hsnap', hknown', husage'⟩
      refine ⟨listed', hsnap', hknown', fun w f hf hnot => husage' w f hf ?_⟩
      cases h : (s.redis.bucket (reg.buckets _) w).initialized f with
      | false => rfl
      | true => exact absurd (hinit w _ f h) (by simpa [Redis.bucket] using hnot)
    · exact fun h => h
  case exact =>
    intro w k f hin
    dsimp only at hin ⊢
    by_cases hk : k = (reg.buckets a).of w
    · subst hk
      by_cases hseeds : (s.redis.hash w ((reg.buckets a).of w)).Seeds (reg.fields a) f
      · exact hs.seeded_exact hacc hsnap hknown hopen w hseeds (husage w f hseeds.1 hseeds.2)
      · -- A field that was there stays as it was.
        have hold : (s.redis.hash w ((reg.buckets a).of w)).initialized f := by
          rw [RedisSound.seed_hash hsnap, if_pos rfl, initialized_seededHash] at hin
          by_contra hnot
          have hnot : (s.redis.hash w ((reg.buckets a).of w)).initialized f = false := by simpa using hnot
          exact hseeds ⟨by simpa [hnot] using hin, hnot⟩
        have hsame : ∀ b, ((reg.seed s.redis a snapshot).hash w ((reg.buckets a).of w)).ownerField b f =
            (s.redis.hash w ((reg.buckets a).of w)).ownerField b f := by
          intro b
          rw [RedisSound.seed_hash hsnap, if_pos rfl, ownerField_seededHash, if_neg fun h => hseeds h.2.1]
        simp only [Registry.countedAt, hsame]
        rw [RedisSound.seed_hash hsnap, if_pos rfl, used_seededHash, if_neg hseeds]
        exact hs.exact w _ f hold
    · have hsame : (reg.seed s.redis a snapshot).hash w k = s.redis.hash w k := by
        rw [RedisSound.seed_hash hsnap, if_neg hk]
      simp only [Registry.countedAt, hsame] at hin ⊢
      exact hs.exact w k f hin

/-- On a field that is not initialized, only reserved rows count, and a snapshot lists all of them. -/
theorem snapshotSound (hs : Balanced reg s) (hacc : Accounted reg s) (a : AttemptId) :
    SnapshotSound reg s.ledger s.redis a
      (loadWindowAdmissionSnapshot s.ledger (reg.windowInput a) (some a.reservationId)) := by
  refine ⟨_, hacc.conforms.snapshotOf a _, fun w b hb => ?_, fun w f hf hnot => ?_⟩
  · obtain ⟨r, hr, rfl, -⟩ := mem_listedAttempts hb
    exact ⟨r, hr, le_rfl⟩
  · rw [show (loadWindowAdmissionSnapshot s.ledger (reg.windowInput a) (some a.reservationId)).usage w =
      getWindowUsage s.ledger (reg.windowInput a) (some a.reservationId) w from rfl,
      getWindowUsage_of hacc.conforms a _ w hf]
    simp only [listedAttempts, List.map_map, List.filter_filter, sum_map_filter]
    refine Table.sum_congr fun id r hr => ?_
    have hrow := hs.rows id r hr
    have hbucket : r.bucket w = (reg.buckets r.attemptId).of w := by
      rw [(hacc.conforms id r hr).2, reg.input_bucket]
    have hamount : r.reservedLamports = reg.amount r.attemptId := by rw [(hacc.conforms id r hr).2]; rfl
    have hnetwork : r.network = (reg.windowInput a).network := by rw [(hacc.conforms id r hr).2]; rfl
    by_cases hc : reg.Covers r.attemptId w ((reg.buckets a).of w) f
    · obtain ⟨hmem, hk⟩ := hc
      have hunadmitted : s.admitted r.attemptId ≠ true := by
        intro hb
        exact absurd (hacc.initialized _ hb w _ f ⟨hmem, hk⟩) (by simpa [Redis.bucket] using hnot)
      have hin : r.hourBucket = (reg.windowInput a).hourBucket ∨ r.dayBucket = (reg.windowInput a).dayBucket := by
        rw [hk] at hbucket
        cases w
        · exact .inl hbucket
        · exact .inr hbucket
      cases hstatus : r.status with
      | reserved =>
        have hlamports := (hacc.conforms id r hr).1.lamports (.inl hstatus)
        simp only [hacc.conforms.fields hr, hbucket, hk, hlamports, hamount, inWindows, hnetwork, hin,
          reg.windowInput_bucket]
        by_cases hid : a.reservationId = r.id <;> simp [hid, hmem]
      | released => simp
      | signed | submitted | committed | chargedUnknown =>
        exact absurd (hrow.sponsored (by simp [hstatus])) hunadmitted
    · have hleft : ¬ (r.bucket w = (reg.buckets a).of w ∧ f ∈ scopeFields r.organizationId r.projectId) := by
        rintro ⟨hb, hmem⟩
        rw [hacc.conforms.fields hr] at hmem
        exact hc ⟨hmem, hbucket.symm.trans hb⟩
      rw [if_neg fun h => hleft ⟨h.2.1, h.2.2.1⟩]
      split
      · next h =>
        have hb : r.bucket w = (reg.buckets a).of w := by
          simp only [Bool.and_eq_true, decide_eq_true_eq, reg.windowInput_bucket] at h
          exact h.1
        rw [Function.comp_apply, if_neg fun hmem => hc ⟨hmem, hbucket.symm.trans hb⟩]
      · rfl

end Balanced

end Sdp.Budget
