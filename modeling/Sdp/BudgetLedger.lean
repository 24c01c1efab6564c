import Sdp.Code.BudgetLedger

/-!
# The state machine of a reservation row

`RowStep` says once what a statement can do to a row. All laws of the state machine are read
off its cases.
-/

open Sdp.Lib

namespace Sdp.Budget

/-- All calls, each at its time. -/
def execAll (l : Ledger) (calls : List (String × LedgerCall)) : Ledger :=
  calls.foldl (fun l call => exec l call.1 call.2) l

/-! ## What a statement can do to a row -/

/-- What a call does to a row within its attempt. -/
inductive RowStep : LedgerCall → ReservationRow → ReservationRow → Prop
  | stays (call : LedgerCall) (r : ReservationRow) : RowStep call r r
  | signed {r : ReservationRow} (signedTransaction signature now : String) (h : r.status = .reserved) :
      RowStep (.markSigned r.id r.attempt signedTransaction signature) r
        { r with status := .signed, signedTransaction := some signedTransaction
                 signature := some signature, updatedAt := now }
  | submitted {r : ReservationRow} (signature now : String) (h : r.status = .reserved ∨ r.status = .signed) :
      RowStep (.markSubmitted r.id r.attempt signature) r
        { r with status := .submitted, signature := some signature, updatedAt := now }
  | chargedUnknown {r : ReservationRow} (now : String)
      (h : r.status = .reserved ∨ r.status = .signed ∨ r.status = .submitted) :
      RowStep (.markChargedUnknown r.id r.attempt) r { r with status := .chargedUnknown, updatedAt := now }
  | released {r : ReservationRow} (now : String) (h : r.status = .reserved ∨ r.status = .signed) :
      RowStep (.markReleased r.id r.attempt) r
        { r with status := .released, actualLamports := some 0, updatedAt := now }
  | missed {r : ReservationRow} (now : String) (h : r.status = .signed ∨ r.status = .submitted) :
      RowStep (.recordReconciliationMiss r.id r.attempt r.missCount) r
        { r with missCount := r.missCount + 1, updatedAt := now }
  | settled {r : ReservationRow} (status : SettledStatus) (actual : Nat) (now : String)
      (h : r.status = .signed ∨ r.status = .submitted) :
      RowStep (.settleReservation r.id r.attempt status actual) r
        { r with status := status.status, actualLamports := some actual, updatedAt := now }
  | redisSettled {r : ReservationRow} (now : String) (h : r.status = .committed ∨ r.status = .released) :
      RowStep (.markRedisSettled r.id r.attempt) r
        { r with redisSettledAt := r.redisSettledAt.or (some now), updatedAt := now }

/-- The row of a reopened reservation. -/
def ReservationRow.reopened (r : ReservationRow) (input : CreateSponsorshipReservationInput) (now : String) :
    ReservationRow :=
  { r with
    status := .reserved, reservedLamports := input.reservedLamports, actualLamports := none
    hourBucket := input.hourBucket, dayBucket := input.dayBucket
    policyVersions := input.policyVersions
    providerConfigFingerprint := input.providerConfigFingerprint
    signature := none, signedTransaction := none, attempt := r.attempt + 1, missCount := 0
    redisSettledAt := none, updatedAt := now }

theorem find?_updateReservation {l : Ledger} {id : String} {guard : ReservationRow → Bool}
    {set : ReservationRow → ReservationRow} (hset : ∀ r, (set r).id = r.id) {k : String} {r : ReservationRow}
    (h : l.find? k = some r) :
    (l.update id guard set hset).find? k = some r ∨
      k = id ∧ guard r ∧ (l.update id guard set hset).find? k = some (set r) := by
  rw [Table.find?_update]
  split
  · next hk =>
    subst hk
    by_cases hg : guard r
    · right; simp [h, hg]
    · left; simp [h, hg]
  · left; exact h

theorem updateReservation_row {l : Ledger} {id : String} {guard : ReservationRow → Bool}
    {set : ReservationRow → ReservationRow} (hset : ∀ r, (set r).id = r.id) {k : String} {r : ReservationRow}
    {call : LedgerCall} (h : l.find? k = some r) (hstep : r.id = id → guard r → RowStep call r (set r)) :
    ∃ r', (updateReservation l id guard set hset).1.find? k = some r' ∧ RowStep call r r' := by
  rcases find?_updateReservation hset h with h' | ⟨hk, hg, h'⟩
  · exact ⟨r, h', .stays call r⟩
  · exact ⟨set r, h', hstep ((Table.key_of_find? h).trans hk) hg⟩

theorem persistSignature_row {l : Ledger} {id signature : String} {guard : ReservationRow → Bool}
    {set : ReservationRow → ReservationRow} (hset : ∀ r, (set r).id = r.id) {k : String} {r : ReservationRow}
    {call : LedgerCall} (h : l.find? k = some r) (hstep : r.id = id → guard r → RowStep call r (set r)) :
    ∃ r', (persistSignature l id signature guard set hset).1.find? k = some r' ∧ RowStep call r r' := by
  unfold persistSignature
  split
  · exact ⟨r, h, .stays call r⟩
  · split
    · exact ⟨r, h, .stays call r⟩
    · exact updateReservation_row hset h hstep

/-- What a call does to a row that is there: an update within the attempt, or a reopening. -/
theorem exec_row (l : Ledger) (now : String) (call : LedgerCall) {id : String} {r : ReservationRow}
    (h : l.find? id = some r) :
    ∃ r', (exec l now call).find? id = some r' ∧
      (RowStep call r r' ∨ ∃ input, call = .reopenReleasedReservation input r.attempt ∧ input.id = id ∧
        r.status = .released ∧ r.redisSettledAt.isSome ∧ r' = r.reopened input now) := by
  have within {l' : Ledger} {P : ReservationRow → Prop} (h : ∃ r', l'.find? id = some r' ∧ RowStep call r r') :
      ∃ r', l'.find? id = some r' ∧ (RowStep call r r' ∨ P r') := by
    obtain ⟨r', h', hstep⟩ := h
    exact ⟨r', h', .inl hstep⟩
  cases call with
  | createReservation input =>
    refine ⟨r, ?_, .inl (.stays _ r)⟩
    simp only [exec, createReservation, Table.find?_insertNew, h]
    split <;> rfl
  | reopenReleasedReservation input n =>
    simp only [exec, reopenReleasedReservation, Table.find?_update]
    split
    · next hk =>
      subst hk
      simp only [h, Option.map_some, Option.some.injEq, exists_eq_left']
      split
      · next hg =>
        obtain ⟨hs, rfl, hr⟩ := of_decide_eq_true hg
        exact .inr ⟨input, rfl, rfl, hs, hr, rfl⟩
      · exact .inl (.stays _ r)
    · exact ⟨r, h, .inl (.stays _ r)⟩
  | markSigned k n signed signature =>
    refine within (persistSignature_row (by intro _; rfl) h fun hid hg => ?_)
    obtain ⟨rfl, hs⟩ := of_decide_eq_true hg
    subst hid
    exact .signed signed signature now hs
  | markSubmitted k n signature =>
    refine within (persistSignature_row (by intro _; rfl) h fun hid hg => ?_)
    obtain ⟨rfl, hs⟩ := of_decide_eq_true hg
    subst hid
    exact .submitted signature now (by simpa using hs)
  | markChargedUnknown k n =>
    refine within (updateReservation_row (by intro _; rfl) h fun hid hg => ?_)
    obtain ⟨rfl, hs⟩ := of_decide_eq_true hg
    subst hid
    exact .chargedUnknown now (by simpa using hs)
  | markReleased k n =>
    refine within (updateReservation_row (by intro _; rfl) h fun hid hg => ?_)
    obtain ⟨rfl, hs⟩ := of_decide_eq_true hg
    subst hid
    exact .released now (by simpa using hs)
  | recordReconciliationMiss k n misses =>
    refine within (updateReservation_row (by intro _; rfl) h fun hid hg => ?_)
    obtain ⟨rfl, rfl, hs⟩ := of_decide_eq_true hg
    subst hid
    exact .missed now (by simpa using hs)
  | settleReservation k n status actual =>
    refine within (updateReservation_row (by intro _; rfl) h fun hid hg => ?_)
    obtain ⟨rfl, hs⟩ := of_decide_eq_true hg
    subst hid
    exact .settled status actual now (by simpa using hs)
  | markRedisSettled k n =>
    refine within (updateReservation_row (by intro _; rfl) h fun hid hg => ?_)
    obtain ⟨rfl, hs⟩ := of_decide_eq_true hg
    subst hid
    exact .redisSettled now (by simpa using hs)

theorem find?_update_none {l : Ledger} {id : String} {guard : ReservationRow → Bool}
    {set : ReservationRow → ReservationRow} (hset : ∀ r, (set r).id = r.id) {k : String}
    (h : l.find? k = none) : (l.update id guard set hset).find? k = none := by
  rw [Table.find?_update]
  split
  · next hk => subst hk; rw [h]; rfl
  · exact h

theorem find?_persistSignature_none {l : Ledger} {id signature : String} {guard : ReservationRow → Bool}
    {set : ReservationRow → ReservationRow} (hset : ∀ r, (set r).id = r.id) {k : String}
    (h : l.find? k = none) : (persistSignature l id signature guard set hset).1.find? k = none := by
  unfold persistSignature
  split
  · exact h
  · split
    · exact h
    · exact find?_update_none hset h

theorem exec_new (l : Ledger) (now : String) (call : LedgerCall) {id : String} {r : ReservationRow}
    (h : l.find? id = none) (hr : (exec l now call).find? id = some r) :
    ∃ input : CreateSponsorshipReservationInput,
      call = .createReservation input ∧ r = { input with status := .reserved, updatedAt := now } := by
  cases call with
  | createReservation input =>
    simp only [exec, createReservation, Table.find?_insertNew, h] at hr
    split at hr
    · exact ⟨input, rfl, (Option.some.inj hr).symm⟩
    · cases hr
  | markSigned | markSubmitted => cases hr.symm.trans (find?_persistSignature_none (by intro _; rfl) h)
  | reopenReleasedReservation | markChargedUnknown | markReleased | recordReconciliationMiss
  | settleReservation | markRedisSettled => cases hr.symm.trans (find?_update_none (by intro _; rfl) h)

/-! ## The laws of a row -/

/-- `reserved < signed < submitted < {charged_unknown, committed, released}` -/
def SponsorshipReservationStatus.stage : SponsorshipReservationStatus → Nat
  | .reserved => 0
  | .signed => 1
  | .submitted => 2
  | .committed | .released | .chargedUnknown => 3

def MovesForward (a b : SponsorshipReservationStatus) : Prop := a = b ∨ a.stage < b.stage

theorem MovesForward.trans {a b c : SponsorshipReservationStatus} (hab : MovesForward a b)
    (hbc : MovesForward b c) : MovesForward a c := by
  rcases hab with rfl | hab
  · exact hbc
  · rcases hbc with rfl | hbc
    · exact .inr hab
    · exact .inr (hab.trans hbc)

/-- Settled in the ledger. -/
def ReservationRow.Terminal (r : ReservationRow) : Prop := r.status = .committed ∨ r.status = .released

/-- A row says what was spent exactly when it is terminal, and only then that Redis knows. -/
structure ReservationRow.Consistent (r : ReservationRow) : Prop where
  actual : r.actualLamports.isSome ↔ r.Terminal
  redisSettled : r.redisSettledAt.isSome → r.Terminal

variable {call : LedgerCall} {r r' : ReservationRow}

theorem RowStep.attempt (h : RowStep call r r') : r'.attempt = r.attempt := by
  cases h <;> rfl

theorem RowStep.movesForward (h : RowStep call r r') : MovesForward r.status r'.status := by
  cases h with
  | stays | missed | redisSettled => exact .inl rfl
  | signed _ _ _ h => right; simp [h, SponsorshipReservationStatus.stage]
  | submitted _ _ h => right; rcases h with h | h <;> simp [h, SponsorshipReservationStatus.stage]
  | chargedUnknown _ h => right; rcases h with h | h | h <;> simp [h, SponsorshipReservationStatus.stage]
  | released _ h => right; rcases h with h | h <;> simp [h, SponsorshipReservationStatus.stage]
  | settled status _ _ h =>
    right
    cases status <;> rcases h with h | h <;> simp [h, SettledStatus.status, SponsorshipReservationStatus.stage]

theorem RowStep.consistent (h : RowStep call r r') (hr : r.Consistent) : r'.Consistent := by
  -- A row before its end says nothing about what was spent, and Redis has not settled it.
  have hopen : ¬ r.Terminal → r.actualLamports = none ∧ r.redisSettledAt = none := by
    intro hn
    exact ⟨by simpa using mt hr.actual.mp hn, by simpa using mt hr.redisSettled hn⟩
  cases h with
  | stays => exact hr
  | missed => exact ⟨hr.actual, hr.redisSettled⟩
  | signed _ _ _ h =>
    obtain ⟨ha, hs⟩ := hopen (by simp [ReservationRow.Terminal, h])
    exact ⟨by simp [ha, ReservationRow.Terminal], by simp [hs]⟩
  | submitted _ _ h =>
    obtain ⟨ha, hs⟩ := hopen (by rcases h with h | h <;> simp [ReservationRow.Terminal, h])
    exact ⟨by simp [ha, ReservationRow.Terminal], by simp [hs]⟩
  | chargedUnknown _ h =>
    obtain ⟨ha, hs⟩ := hopen (by rcases h with h | h | h <;> simp [ReservationRow.Terminal, h])
    exact ⟨by simp [ha, ReservationRow.Terminal], by simp [hs]⟩
  | released _ h => exact ⟨by simp [ReservationRow.Terminal], by simp [ReservationRow.Terminal]⟩
  | settled status _ _ h =>
    exact ⟨by cases status <;> simp [ReservationRow.Terminal, SettledStatus.status],
      by cases status <;> simp [ReservationRow.Terminal, SettledStatus.status]⟩
  | redisSettled _ h => exact ⟨hr.actual, fun _ => h⟩

/-- What holds between a row and the same row later. -/
structure Later (r r' : ReservationRow) : Prop where
  attempt : r.attempt ≤ r'.attempt
  forward : r'.attempt = r.attempt → MovesForward r.status r'.status
  committed : r.status = .committed → r'.status = .committed ∧ r'.attempt = r.attempt

theorem Later.refl (r : ReservationRow) : Later r r := ⟨le_rfl, fun _ => .inl rfl, fun h => ⟨h, rfl⟩⟩

theorem Later.trans {a b c : ReservationRow} (hab : Later a b) (hbc : Later b c) : Later a c where
  attempt := hab.attempt.trans hbc.attempt
  forward h := by
    have hle := hab.attempt
    have hle' := hbc.attempt
    exact (hab.forward (by omega)).trans (hbc.forward (by omega))
  committed h := by
    obtain ⟨hb, hba⟩ := hab.committed h
    obtain ⟨hc, hcb⟩ := hbc.committed hb
    exact ⟨hc, hcb.trans hba⟩

theorem RowStep.later (h : RowStep call r r') : Later r r' where
  attempt := h.attempt.ge
  forward _ := h.movesForward
  committed hc := by
    refine ⟨?_, h.attempt⟩
    rcases h.movesForward with hs | hs
    · rw [← hs, hc]
    · -- No status is past the last stage.
      rw [hc] at hs
      cases hst : r'.status <;> simp [hst, SponsorshipReservationStatus.stage] at hs

theorem Later.reopened {r : ReservationRow} (input : CreateSponsorshipReservationInput) (now : String)
    (h : r.status = .released) : Later r (r.reopened input now) where
  attempt := Nat.le_succ _
  forward heq := absurd heq (Nat.succ_ne_self _)
  committed hc := by rw [h] at hc; cases hc

/-! ## The laws of every run -/

theorem exec_later (l : Ledger) (now : String) (call : LedgerCall) {id : String} {r : ReservationRow}
    (h : l.find? id = some r) : ∃ r', (exec l now call).find? id = some r' ∧ Later r r' := by
  obtain ⟨r', hr', hstep | ⟨input, -, -, hs, -, rfl⟩⟩ := exec_row l now call h
  · exact ⟨r', hr', hstep.later⟩
  · exact ⟨_, hr', .reopened input now hs⟩

theorem execAll_later (calls : List (String × LedgerCall)) (l : Ledger) {id : String} {r : ReservationRow}
    (h : l.find? id = some r) : ∃ r', (execAll l calls).find? id = some r' ∧ Later r r' := by
  induction calls generalizing l r with
  | nil => exact ⟨r, h, .refl r⟩
  | cons call calls ih =>
    obtain ⟨r', hr', hlater⟩ := exec_later l call.1 call.2 h
    obtain ⟨r'', hr'', hlater'⟩ := ih _ hr'
    exact ⟨r'', hr'', hlater.trans hlater'⟩

def ConsistentLedger (l : Ledger) : Prop := ∀ id r, l.find? id = some r → r.Consistent

theorem exec_consistent {l : Ledger} (hl : ConsistentLedger l) (now : String) (call : LedgerCall) :
    ConsistentLedger (exec l now call) := by
  intro id r' hr'
  cases hr : l.find? id with
  | none =>
    obtain ⟨input, -, rfl⟩ := exec_new l now call hr hr'
    exact ⟨by simp [ReservationRow.Terminal], by simp⟩
  | some r =>
    obtain ⟨r'', hr'', hstep⟩ := exec_row l now call hr
    obtain rfl : r' = r'' := Option.some.inj (hr'.symm.trans hr'')
    rcases hstep with hstep | ⟨input, -, -, -, -, rfl⟩
    · exact hstep.consistent (hl id r hr)
    · exact ⟨by simp [ReservationRow.Terminal, ReservationRow.reopened], by simp [ReservationRow.reopened]⟩

theorem execAll_consistent (calls : List (String × LedgerCall)) {l : Ledger} (hl : ConsistentLedger l) :
    ConsistentLedger (execAll l calls) := by
  induction calls generalizing l with
  | nil => exact hl
  | cons call calls ih => exact ih (exec_consistent hl call.1 call.2)

/-- After any calls, every row is consistent. Any further calls keep the row, never take its attempt
back, move its status forward within an attempt and leave a committed row committed. One call
changes the attempt only when it reopens the row, from a released row that Redis has settled. -/
theorem reservation_state_machine (before : List (String × LedgerCall)) :
    let l := execAll Table.empty before
    ∀ r ∈ l.rows,
      (r.actualLamports.isSome ↔ r.status = .committed ∨ r.status = .released) ∧
      (r.redisSettledAt.isSome → r.status = .committed ∨ r.status = .released) ∧
      (∀ after, ∃ r' ∈ (execAll l after).rows, r'.id = r.id ∧ r.attempt ≤ r'.attempt ∧
        (r'.attempt = r.attempt → MovesForward r.status r'.status) ∧
        (r.status = .committed → r'.status = .committed)) ∧
      ∀ now call, ∃ r' ∈ (exec l now call).rows, r'.id = r.id ∧
        (r'.attempt ≠ r.attempt →
          (∃ input, call = .reopenReleasedReservation input r.attempt ∧ input.id = r.id) ∧
          r'.attempt = r.attempt + 1 ∧ r.status = .released ∧ r.redisSettledAt.isSome) := by
  intro l r hmem
  have hr := Table.mem_rows_iff.mp hmem
  have hc : r.Consistent :=
    execAll_consistent before (by intro id r h; cases h) r.id r hr
  refine ⟨hc.actual, hc.redisSettled, fun after => ?_, fun now call => ?_⟩
  · obtain ⟨r', hr', hlater⟩ := execAll_later after l hr
    obtain ⟨hmem', hid⟩ := Table.find?_eq_some_iff.mp hr'
    exact ⟨r', hmem', hid, hlater.attempt, hlater.forward, fun h => (hlater.committed h).1⟩
  · obtain ⟨r', hr', hstep⟩ := exec_row l now call hr
    obtain ⟨hmem', hid⟩ := Table.find?_eq_some_iff.mp hr'
    refine ⟨r', hmem', hid, fun hne => ?_⟩
    rcases hstep with hstep | ⟨input, rfl, hinput, hs, hset, rfl⟩
    · exact absurd hstep.attempt hne
    · exact ⟨⟨input, rfl, hinput⟩, rfl, hs, hset⟩

def sampleReservation : CreateSponsorshipReservationInput where
  id := "sbr_1"
  network := .devnet
  productEnvironment := .sandbox
  organizationId := "org_1"
  projectId := some "prj_1"
  actorType := "api_key"
  actorId := "key_1"
  transactionDigest := "d1"
  feePayer := "payer"
  providerConfigFingerprint := "f"
  recentBlockhash := "b"
  reservedLamports := 5000
  hourBucket := "2026-01-01T00:00:00.000Z"
  dayBucket := "2026-01-01T00:00:00.000Z"
  policyVersions := [("sbp_1", 1)]

/-- A transaction that was signed and then seen on chain. -/
def committedCalls : List (String × LedgerCall) :=
  [("t1", .createReservation sampleReservation), ("t2", .markSigned "sbr_1" 1 "tx" "sig"),
    ("t3", .settleReservation "sbr_1" 1 .committed 4000)]

/-- Nothing that is called later takes the committed row back. -/
theorem committed_reservation_stays :
    ∃ r ∈ (execAll Table.empty committedCalls).rows, r.status = .committed ∧ ∀ after,
      ∃ r' ∈ (execAll (execAll Table.empty committedCalls) after).rows, r'.id = r.id ∧ r'.status = .committed := by
  let r : ReservationRow :=
    { sampleReservation with
      status := .committed, signature := some "sig", signedTransaction := some "tx"
      actualLamports := some 4000, updatedAt := "t3" }
  have hr : r ∈ (execAll Table.empty committedCalls).rows := by decide
  obtain ⟨-, -, hafter, -⟩ := reservation_state_machine committedCalls r hr
  refine ⟨r, hr, rfl, fun after => ?_⟩
  obtain ⟨r', hr', hid, -, -, hc⟩ := hafter after
  exact ⟨r', hr', hid, hc rfl⟩

end Sdp.Budget
