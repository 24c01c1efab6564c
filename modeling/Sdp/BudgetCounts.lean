import Sdp.Admission

/-!
# The budget never under-counts

A counter backs the markers on its field and, on top, what the settled admissions spent. An
admission needs all its fields initialized, so nothing that it is owed is ever seeded over.
-/

open Sdp.Lib

namespace Sdp.Budget

/-- What the counters of its fields owe an attempt: its reserved amount from its admission on, what it spent once
Redis settled it, and nothing once it was cancelled. -/
def System.owed (reg : Registry) (s : System) (a : AttemptId) : Nat :=
  if s.admitted a then
    match s.closed a with
    | none => reg.amount a
    | some (.settled actual) => actual
    | some .cancelled => 0
  else 0

/-- What a settled admission spent. -/
def System.paid (s : System) (a : AttemptId) : Nat :=
  if s.admitted a then
    match s.closed a with
    | some (.settled actual) => actual
    | _ => 0
  else 0

def System.paidOn (reg : Registry) (s : System) (w : Window) (k : String) (f : ScopeField) (a : AttemptId) : Nat :=
  if reg.Covers a w k f then s.paid a else 0

/-- The snapshot that a request is about to seed from. -/
def Request.snapshot? : Request → Option (AttemptId × WindowAdmissionSnapshot)
  | .seeding a _ _ _ snapshot => some (a, snapshot)
  | _ => none

theorem afterRead_snapshot? (id : String) (op : AdmissionOperation) (durable : Option ReservationRow) :
    (afterRead id op durable).snapshot? = none := by
  unfold afterRead
  repeat' split
  all_goals rfl

theorem afterResolve_snapshot? (reg : Registry) (a : AttemptId) (op : AdmissionOperation) (round : Nat) (owned : Bool)
    (policies : Policies) : (afterResolve reg a op round owned policies).snapshot? = none := by
  unfold afterResolve
  repeat' split
  all_goals rfl

theorem afterReread_snapshot? (a : AttemptId) (op : AdmissionOperation) (policies : Policies)
    (existing : Option ReservationRow) : (afterReread a op policies existing).snapshot? = none := by
  unfold afterReread
  repeat' split
  all_goals rfl

theorem afterReserve_snapshot? (a : AttemptId) (op : AdmissionOperation) (round : Nat) (outcome : AdmissionOutcome) :
    (afterReserve a op round outcome).snapshot? = none := by
  unfold afterReserve
  repeat' split
  all_goals rfl

structure Accounted (reg : Registry) (s : System) : Prop where
  conforms : Conforms reg s.ledger
  snapshots : ∀ p a snapshot, (s.requests p).snapshot? = some (a, snapshot) →
    ∃ listed, SnapshotOf reg (reg.buckets a) (reg.fields a) snapshot listed
  redis : RedisSound reg s.redis
  initialized : ∀ a, s.admitted a → ∀ w k f, reg.Covers a w k f → (s.redis.hash w k).initialized f
  unclosed : ∀ a, s.admitted a → s.closed a = none → (s.redis.reservation a).isSome
  backed : ∀ w k f, Backs ((s.redis.hash w k).used f) fun a => (s.redis.hash w k).marker a f + s.paidOn reg w k f a

namespace Accounted

variable {reg : Registry} {s t : System}

theorem start (reg : Registry) : Accounted reg .start where
  conforms _ _ h := by cases h
  snapshots _ _ _ h := by cases h
  redis := redisSound_empty reg
  initialized _ h := by cases h
  unclosed _ h := by cases h
  backed w k f := backs_zero _ fun a => by simp [System.paidOn, System.paid, System.start, BucketHash.marker,
    Redis.empty, BucketHash.empty]

/-! ## Steps that leave Redis alone -/

theorem congr (hs : Accounted reg s) (hledger : t.ledger = s.ledger) (hredis : t.redis = s.redis)
    (hrequests : t.requests = s.requests) (hadmitted : t.admitted = s.admitted) (hclosed : t.closed = s.closed) :
    Accounted reg t := by
  obtain ⟨_, _, _, _, _, _, _, _, _, _⟩ := t
  subst hledger hredis hrequests hadmitted hclosed
  exact ⟨hs.conforms, hs.snapshots, hs.redis, hs.initialized, hs.unclosed, hs.backed⟩

theorem setRequest (hs : Accounted reg s) (p : Nat) {next : Request}
    (hnext : ∀ a snapshot, next.snapshot? = some (a, snapshot) →
      ∃ listed, SnapshotOf reg (reg.buckets a) (reg.fields a) snapshot listed) :
    Accounted reg (s.setRequest p next) := by
  refine ⟨hs.conforms, fun q a snapshot hq => ?_, hs.redis, hs.initialized, hs.unclosed, hs.backed⟩
  simp only [System.setRequest, Function.update_apply] at hq
  split at hq
  · exact hnext a snapshot hq
  · exact hs.snapshots q a snapshot hq

theorem next (hs : Accounted reg s) (p : Nat) {next : Request} (hnext : next.snapshot? = none) :
    Accounted reg (s.setRequest p next) :=
  hs.setRequest p fun _ _ h => by rw [hnext] at h; cases h

theorem setJob (hs : Accounted reg s) (j : Nat) (job : Job) : Accounted reg (s.setJob j job) :=
  hs.congr rfl rfl rfl rfl rfl

theorem write (hs : Accounted reg s) (now : String) {call : LedgerCall} (hcall : call.Registered reg) :
    Accounted reg (s.write now call) :=
  ⟨exec_conforms hs.conforms now hcall, hs.snapshots, hs.redis, hs.initialized, hs.unclosed, hs.backed⟩

/-! ## Scripts -/

theorem syncPolicy (hs : Accounted reg s) (field : SponsorshipBudgetScopeType × String) (version : Nat)
    (enabled : Bool) : Accounted reg { s with redis := syncControlScript s.redis field version enabled } := by
  obtain ⟨hhash, hres, -⟩ := RedisSound.syncControl_frame s.redis field version enabled
  refine ⟨hs.conforms, hs.snapshots, hs.redis.syncControl field version enabled, ?_, ?_, ?_⟩
  · simpa only [hhash] using hs.initialized
  · simpa only [hres] using hs.unclosed
  · simp only [hhash]
    exact hs.backed

theorem seed (hs : Accounted reg s) {a : AttemptId} {snapshot : WindowAdmissionSnapshot}
    {listed : Window → List AttemptId} (hsnap : SnapshotOf reg (reg.buckets a) (reg.fields a) snapshot listed) :
    Accounted reg { s with redis := reg.seed s.redis a snapshot } where
  conforms := hs.conforms
  snapshots := hs.snapshots
  redis := hs.redis.seed hsnap
  initialized b hb w k f hc := by
    have hold := hs.initialized b hb w k f hc
    rw [RedisSound.seed_hash hsnap]
    split
    · simp [initialized_seededHash, hold]
    · exact hold
  unclosed := hs.unclosed
  backed w k f := by
    have hold := hs.backed w k f
    rw [RedisSound.seed_hash hsnap]
    split
    · by_cases hf : (s.redis.hash w k).Seeds (reg.fields a) f
      · -- Nothing was admitted on a field that is not initialized.
        have hpaid : ∀ b, System.paidOn reg s w k f b = 0 := by
          intro b
          unfold System.paidOn System.paid
          split
          · next hc =>
            split
            · next hb => exact absurd (hs.initialized b hb w k f hc) (by simp [hf.2])
            · rfl
          · rfl
        change Backs _ fun b => _ + s.paidOn reg w k f b
        simp only [hpaid, Nat.add_zero]
        exact hs.redis.seeded_backed hsnap w k hf
      · have hm : ∀ b, (seededHash reg s.redis.settlement (snapshot.usage w).of (reg.fields a) (listed w)
            (s.redis.hash w k)).marker b f = (s.redis.hash w k).marker b f := by
          intro b
          simp [BucketHash.marker, ownerField_seededHash, hf]
        simp only [hm, used_seededHash, if_neg hf]
        exact hold
    · exact hold

theorem marked (hs : Accounted reg s) {a : AttemptId} (ha : s.admitted a) (hclosed : s.closed a = none)
    {w : Window} {k : String} {f : ScopeField} (hc : reg.Covers a w k f) :
    (s.redis.hash w k).ownerField a f = some (reg.amount a) := by
  obtain ⟨v, hv⟩ := Option.isSome_iff_exists.mp (hs.unclosed a ha hclosed)
  obtain ⟨hf, rfl⟩ := hc
  exact (hs.redis.reserved a v hv).2 w f hf

theorem release (hs : Accounted reg s) {adjust : BucketHash → ScopeField → BucketHash} {d : Int}
    (hadj : Moves adjust d) (a : AttemptId) {r : Redis} {closing : Closing} (hr : RedisSound reg r)
    (hhash : r.hash = (s.redis.mapBuckets (reg.buckets a) fun _ => releaseHash a (reg.fields a) adjust).hash)
    (hres : r.reservation = Function.update s.redis.reservation a none)
    (hpaid : (System.paid { s with closed := s.closeWith a closing } a : ℤ) ≤ d + reg.amount a + s.paid a) :
    Accounted reg { s with redis := r, closed := s.closeWith a closing } where
  conforms := hs.conforms
  snapshots := hs.snapshots
  redis := hr
  initialized b hb w k f hc := by
    rw [hhash, RedisSound.release_initialized hadj]
    exact hs.initialized b hb w k f hc
  unclosed b hb hnone := by
    have hne : b ≠ a := by
      rintro rfl
      simp only [System.closeWith] at hnone
      split at hnone
      · simp at hnone
      · next h => exact h hnone
    have hold : s.closed b = none := by
      simp only [System.closeWith] at hnone
      split at hnone
      · simpa [hne] using hnone
      · exact hnone
    rw [hres, Function.update_of_ne hne]
    exact hs.unclosed b hb hold
  backed w k f := by
    change Backs _ fun b => _ + System.paidOn reg { s with closed := s.closeWith a closing } w k f b
    refine (hs.backed w k f).replace a (fun b hb => ?_) ?_
    · have hclosed : s.closeWith a closing b = s.closed b := by
        unfold System.closeWith
        split
        · exact Function.update_of_ne hb _ _
        · rfl
      simp only [BucketHash.marker, hhash, hs.redis.release_marker hadj, if_neg hb, System.paidOn, System.paid, hclosed]
    · rw [BucketHash.marker, hhash, hs.redis.release_marker hadj, hs.redis.release_used hadj, if_pos rfl]
      by_cases hm : ((s.redis.hash w k).ownerField a f).isSome
      · have hc : reg.Covers a w k f := by
          obtain ⟨v, hv⟩ := Option.isSome_iff_exists.mp hm
          exact (hs.redis.marker w k a f v hv).2.1
        simp only [hm, if_true, hs.redis.marker_eq hm, System.paidOn, hc]
        push_cast
        simp only [Option.getD_none, Nat.cast_zero]
        linarith
      · -- A field without the marker is one of an attempt that was not admitted or is closed.
        have hsame : System.paidOn reg { s with closed := s.closeWith a closing } w k f a = s.paidOn reg w k f a := by
          unfold System.paidOn
          split
          · next hc =>
            unfold System.paid
            by_cases ha : s.admitted a
            · have hclosed : s.closed a ≠ none := fun h => hm (by rw [hs.marked ha h hc]; rfl)
              simp [System.closeWith, hclosed]
            · simp [ha]
          · rfl
        rw [hsame, if_neg hm]
        push_cast
        simp only [Option.getD_none, Nat.cast_zero]
        linarith [Int.natCast_nonneg ((s.redis.hash w k).marker a f)]

theorem settle (hs : Accounted reg s) (a : AttemptId) (actual : Nat) (detect : Bool) :
    Accounted reg (s.settle reg a actual detect) := by
  rcases s.settle_cases reg a actual detect with h | ⟨-, h⟩
  · rw [h]; exact hs
  · rw [h]
    refine hs.release (moves_settle _) a (hs.redis.settled_sound a actual) rfl rfl ?_
    unfold System.paid System.closeWith
    by_cases ha : s.admitted a
    · by_cases hc : s.closed a = none
      · simp [ha, hc]
      · simp [ha, hc]
    · simp [ha]

theorem cancel (hs : Accounted reg s) (a : AttemptId) : Accounted reg (s.noteCancel a (reg.cancel s.redis a)) := by
  rcases System.cancel_cases hs.redis a with h | h
  · rw [h]; exact hs
  · rw [h]
    refine hs.release (moves_hincrby (-(reg.amount a : ℤ))) a (hs.redis.cancelled_sound a) rfl rfl ?_
    unfold System.paid System.closeWith
    by_cases ha : s.admitted a
    · by_cases hc : s.closed a = none
      · simp [ha, hc]
      · simp [ha, hc]
    · simp [ha]

theorem grant (hs : Accounted reg s) (p : Nat) {a : AttemptId} (hset : s.redis.settlement a = none)
    (hinit : ∀ f ∈ reg.fields a, ∀ w, (s.redis.bucket (reg.buckets a) w).initialized f) :
    Accounted reg (s.grant reg p a) where
  conforms := hs.conforms
  snapshots := hs.snapshots
  redis := hs.redis.admitted_sound hset hinit
  initialized b hb w k f hc := by
    obtain ⟨-, -, -, hi⟩ := hs.redis.admitted_hash a w k
    change ((reg.admitted s.redis a).hash w k).initialized f
    rw [hi]
    by_cases hba : b = a
    · subst hba
      obtain ⟨hf, rfl⟩ := hc
      exact hinit f hf w
    · exact hs.initialized b (by simpa [System.grant, hba] using hb) w k f hc
  unclosed b hb hnone := by
    by_cases hba : b = a
    · subst hba
      simp [System.grant, Registry.admitted]
    · simp only [System.grant, Function.update_of_ne hba] at hb hnone
      simpa [System.grant, Registry.admitted, hba] using hs.unclosed b hb hnone
  backed w k f := by
    obtain ⟨hm, hu, -, -⟩ := hs.redis.admitted_hash a w k
    refine (hs.backed w k f).replace a (fun b hb => ?_) ?_
    · simp only [System.grant, BucketHash.marker, hm, hb, false_and, if_false, System.paidOn, System.paid,
        Function.update_of_ne hb]
    · -- The admission itself is not settled yet.
      have hzero : System.paidOn reg (s.grant reg p a) w k f a = 0 := by
        simp [System.paidOn, System.paid, System.grant]
      rw [hzero]
      simp only [System.grant, BucketHash.marker, hm, hu, true_and]
      by_cases hc : reg.Covers a w k f
      · cases hown : (s.redis.hash w k).ownerField a f with
        | none =>
          simp only [hc, if_true, and_self, Option.getD_some, Option.getD_none]
          push_cast
          linarith [Int.natCast_nonneg (s.paidOn reg w k f a)]
        | some v =>
          simp only [hc, if_true, reduceCtorEq, and_false, if_false, Option.getD_some,
            (hs.redis.marker _ _ _ _ _ hown).1]
          push_cast
          linarith [Int.natCast_nonneg (s.paidOn reg w k f a)]
      · simp only [hc, false_and, if_false]
        push_cast
        linarith [Int.natCast_nonneg (s.paidOn reg w k f a)]

/-! ## Runs -/

theorem advance (hs : Accounted reg s) {now : String} {event : AdmissionEvent} (h : Advance reg now s event t) :
    Accounted reg t := by
  cases h with
  | start =>
    refine next ?_ _ (by rfl)
    exact hs.congr rfl rfl rfl rfl rfl
  | read => exact hs.next _ (afterRead_snapshot? ..)
  | resolve => exact hs.next _ (afterResolve_snapshot? ..)
  | created | notCreated => exact (hs.write now (by exact ⟨_, rfl⟩)).next _ rfl
  | reread => exact hs.next _ (afterReread_snapshot? ..)
  | reopened => exact (hs.write now (by exact ⟨_, rfl⟩)).next _ rfl
  | notReopened _ _ hnext =>
    refine (hs.write now (by exact ⟨_, rfl⟩)).next _ ?_
    rcases hnext with rfl | ⟨rfl, -⟩
    · rfl
    · rfl
  | @snapshot p a =>
    refine hs.setRequest p fun b snapshot hb => ?_
    obtain ⟨rfl, rfl⟩ := Prod.mk.inj (Option.some.inj hb)
    exact ⟨_, hs.conforms.snapshotOf a _⟩
  | @seed p a op policies round snapshot hp =>
    obtain ⟨listed, hsnap⟩ := hs.snapshots p a snapshot (by rw [hp]; rfl)
    exact (hs.seed hsnap).next p rfl
  | admitted _ _ hset hinit => exact (hs.grant _ hset hinit).next _ rfl
  | notAdmitted => exact hs.next _ (afterReserve_snapshot? ..)
  | release | releaseMark => exact (hs.write now (by trivial)).next _ rfl
  | invoke =>
    refine next ?_ _ (by rfl)
    exact hs.congr rfl rfl rfl rfl rfl
  | @outcome p a write => exact hs.write now (by cases write <;> trivial)
  | failed _ hcall | notFailed _ hcall =>
    refine (hs.write now ?_).next _ rfl
    rcases hcall with rfl | rfl
    · trivial
    · trivial
  | failSettle =>
    refine (hs.settle _ 0 true).next _ ?_
    split
    · rfl
    · rfl
  | failMark _ hnext =>
    refine (hs.write now (by trivial)).next _ ?_
    rcases hnext with rfl | rfl
    · rfl
    · rfl
  | finish | crash => exact hs.next _ rfl
  | reconcileRead => exact hs.setJob ..
  | committed | notCommitted => exact (hs.write now (by trivial)).setJob ..
  | reconcileCharge | reconcileMiss => exact hs.write now (by trivial)
  | jobSettle => exact (hs.settle ..).setJob ..
  | jobMark => exact (hs.write now (by trivial)).setJob ..
  | syncPolicy => exact hs.syncPolicy ..
  | strayWrite hopens => exact hs.write now (LedgerCall.registered_of_not_opens hopens reg)
  | straySettle => exact hs.settle ..
  | strayCancel => exact hs.cancel _

theorem of_reachable (h : ReachableSystem reg s) : Accounted reg s := by
  refine h.invariant (P := Accounted reg) ?_ ?_
  · rintro _ rfl
    exact start reg
  · intro s e t _ hs _ ht
    obtain ⟨u, hu, rfl⟩ := admissionStep_cases ht
    exact (hs.advance hu).congr rfl rfl rfl rfl rfl

theorem owed_le (hs : Accounted reg s) {w : Window} {k : String} {f : ScopeField} {a : AttemptId}
    (hc : reg.Covers a w k f) : s.owed reg a ≤ (s.redis.hash w k).marker a f + s.paidOn reg w k f a := by
  unfold System.owed System.paidOn System.paid
  by_cases ha : s.admitted a
  · cases hclosed : s.closed a with
    | none => simp [ha, hc, BucketHash.marker, hs.marked ha hclosed hc]
    | some closing => cases closing <;> simp [ha, hc]
  · simp [ha]

end Accounted

/-- In every state of every interleaving, the counter of a field is at least what any attempts on the field are
owed: the reserved amounts of those that were admitted and not closed since, and what those spent that a settlement
closed. Every field that an admitted attempt counts on is initialized. -/
theorem budget_never_under_counts {reg : Registry} {s : System} (h : ReachableSystem reg s) :
    (∀ w k f (S : Finset AttemptId),
      ((∑ a ∈ S with reg.Covers a w k f, s.owed reg a : ℕ) : ℤ) ≤ (s.redis.hash w k).used f) ∧
    ∀ a, s.admitted a → ∀ w k f, reg.Covers a w k f → (s.redis.hash w k).initialized f := by
  have hs := Accounted.of_reachable h
  refine ⟨fun w k f S => ?_, hs.initialized⟩
  refine le_trans ?_ (hs.backed w k f (S.filter fun a => reg.Covers a w k f))
  norm_cast
  exact Finset.sum_le_sum fun a ha => hs.owed_le (Finset.mem_filter.mp ha).2

/-- Two admissions of `sbr_1` and `sbr_2`, the second seeded from a snapshot that lists the first. -/
def sampleAdmissions : List (String × AdmissionEvent) :=
  [("t1", .syncPolicy (samplePolicies .global)), ("t1", .syncPolicy (samplePolicies .organization)),
    ("t2", .start 0 "sbr_1" .sign), ("t2", .read 0), ("t2", .resolve 0 samplePolicies), ("t3", .create 0),
    ("t4", .start 1 "sbr_2" .sign), ("t4", .read 1), ("t4", .resolve 1 samplePolicies), ("t5", .create 1),
    ("t6", .snapshot 1), ("t7", .seed 1), ("t8", .reserve 1), ("t9", .snapshot 0), ("t9", .seed 0), ("t9", .reserve 0)]

def sampleSystem : System := (run (admissionStep sampleRegistry) .start sampleAdmissions).getD .start

theorem sampleSystem_reachable : ReachableSystem sampleRegistry sampleSystem := by
  have h : run (admissionStep sampleRegistry) .start sampleAdmissions = some sampleSystem := rfl
  exact Reachable.run (.start rfl) h

/-- Both are admitted, and the counter holds ten lamports. -/
theorem sampleSystem_counts :
    sampleSystem.owed sampleRegistry ⟨"sbr_1", 1⟩ = 5 ∧ sampleSystem.owed sampleRegistry ⟨"sbr_2", 1⟩ = 5 ∧
      ((∑ a ∈ {⟨"sbr_1", 1⟩, ⟨"sbr_2", 1⟩} with sampleRegistry.Covers a .hour "10:00" .global,
        sampleSystem.owed sampleRegistry a : ℕ) : ℤ) ≤ (sampleSystem.redis.hash .hour "10:00").used .global :=
  ⟨by decide, by decide, (budget_never_under_counts sampleSystem_reachable).1 .hour "10:00" .global _⟩

end Sdp.Budget
