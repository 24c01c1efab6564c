import Sdp.BudgetRedis

/-!
# Settlement

A settlement takes effect once, and it does not matter whether the counters were rebuilt from a
snapshot before it or after.
-/

open Sdp.Lib

namespace Sdp.Budget

/-! ## Any Redis state -/

theorem settleScript_again {r : Redis} {b b' : Buckets} {a : AttemptId} {reserved actual reserved' actual' : Nat}
    {fields fields' : List ScopeField} {detect detect' : Bool} {delta : Int}
    (h : (settleScript r b a reserved actual fields detect).2 = .settled delta) :
    settleScript (settleScript r b a reserved actual fields detect).1 b' a reserved' actual' fields' detect' =
      ((settleScript r b a reserved actual fields detect).1, .alreadySettled) := by
  have hset : ((settleScript r b a reserved actual fields detect).1.settlement a).isSome := by
    unfold settleScript at h ⊢
    dsimp only at h ⊢
    split at h
    · cases h
    · next h1 =>
      split at h
      · cases h
      · next h2 =>
        split at h
        · cases h
        · next h3 =>
          rw [if_neg h1, if_neg h2, if_neg h3]
          split at h
          · next reply hor =>
            -- The checks never reply that it settled.
            exfalso
            dsimp only at h
            subst h
            have hcheck : ∀ hash, checkSettle a reserved (actual - reserved) fields hash ≠ some (.settled delta) := by
              intro hash
              unfold checkSettle
              split
              · simp
              · split <;> simp
            rcases Option.or_eq_some_iff.mp hor with h | ⟨-, h⟩
            · exact hcheck _ h
            · exact hcheck _ h
          · simp only [Function.update_self]; rfl
  generalize settleScript r b a reserved actual fields detect = s at hset ⊢
  unfold settleScript
  dsimp only
  rw [if_pos hset]

/-- Redis holds nothing of the attempt in these hashes. -/
def Absent (r : Redis) (b : Buckets) (a : AttemptId) : Prop :=
  r.reservation a = none ∧ ∀ w, (r.bucket b w).owner a = none ∧ ∀ f, (r.bucket b w).ownerField a f = none

theorem releaseHash_absent {a : AttemptId} {fields : List ScopeField}
    {adjust : BucketHash → ScopeField → BucketHash} {h : BucketHash} (howner : h.owner a = none)
    (hmarker : ∀ f, h.ownerField a f = none) : releaseHash a fields adjust h = h := by
  have hcovers : ∀ f, h.covers a fields f = false := by
    intro f
    simp [BucketHash.covers, BucketHash.marked, hmarker, howner]
  have hfilter : fields.filter (h.covers a fields) = [] := by
    simp [List.filter_eq_nil_iff, hcovers]
  unfold releaseHash
  rw [hfilter, List.foldl_nil, BucketHash.setOwner, ← howner, Function.update_eq_self]

theorem mapBuckets_hash_eq {r : Redis} {b : Buckets} {change : Window → BucketHash → BucketHash}
    (h : ∀ w, change w (r.bucket b w) = r.bucket b w) : (r.mapBuckets b change).hash = r.hash := by
  funext w k
  simp only [Redis.mapBuckets]
  split
  · next hk => subst hk; exact h w
  · rfl

theorem settleScript_absent {r : Redis} {b : Buckets} {a : AttemptId} (ha : Absent r b a) (reserved actual : Nat)
    (fields : List ScopeField) (detect : Bool) :
    (settleScript r b a reserved actual fields detect).1.hash = r.hash := by
  unfold settleScript
  dsimp only
  split
  · rfl
  · split
    · rfl
    · split
      · rfl
      · split
        · rfl
        · exact mapBuckets_hash_eq fun w => releaseHash_absent (ha.2 w).1 (ha.2 w).2

theorem cancelScript_absent {r : Redis} {b : Buckets} {a : AttemptId} (ha : Absent r b a)
    (fields : List ScopeField) : cancelScript r b a fields = (r, .nothing) := by
  unfold cancelScript
  simp [ha.1, (ha.2 .hour).1, (ha.2 .day).1]

/-! ## Sound states -/

namespace RedisSound

variable {reg : Registry} {r : Redis} (hr : RedisSound reg r)
include hr

omit hr in
theorem sum_settledDelta_settled {a : AttemptId} {actual : Nat} (hset : r.settlement a = none) (f : ScopeField)
    {listed : List AttemptId} (hl : listed.Nodup) :
    (listed.map fun b => if f ∈ reg.fields b then
        settledDelta reg (reg.settled r a actual).settlement b else 0).sum =
      (listed.map fun b => if f ∈ reg.fields b then settledDelta reg r.settlement b else 0).sum +
        if a ∈ listed ∧ f ∈ reg.fields a then (actual : ℤ) - reg.amount a else 0 := by
  have hother : ∀ b, b ≠ a →
      settledDelta reg (reg.settled r a actual).settlement b = settledDelta reg r.settlement b := by
    intro b hb
    simp [settledDelta, Registry.settled, hb]
  induction listed with
  | nil => simp
  | cons b listed ih =>
    obtain ⟨hb, hl⟩ := List.nodup_cons.mp hl
    simp only [List.map_cons, List.sum_cons, ih hl, List.mem_cons]
    by_cases hba : b = a
    · subst hba
      have hnew : settledDelta reg (reg.settled r b actual).settlement b = actual - reg.amount b :=
        settledDelta_some (by simp [Registry.settled])
      by_cases hf : f ∈ reg.fields b
      · simp [hf, hb, hnew, settledDelta_none hset]; ring
      · simp [hf]
    · have hab : ¬ a = b := fun h => hba h.symm
      simp only [hother b hba, hab, false_or]
      ring

/-- Before or after: the same counters. -/
theorem settled_seed_comm {a c : AttemptId} {snapshot : WindowAdmissionSnapshot}
    {listed : Window → List AttemptId} (hsnap : SnapshotOf reg (reg.buckets c) (reg.fields c) snapshot listed)
    (hset : r.settlement a = none) (actual : Nat) (w : Window) (k : String) (f : ScopeField) :
    ((reg.settled (reg.seed r c snapshot) a actual).hash w k).used f =
      ((reg.seed (reg.settled r a actual) c snapshot).hash w k).used f := by
  rw [(hr.seed hsnap).used_settled, seed_hash hsnap, seed_hash hsnap]
  by_cases hk : k = (reg.buckets c).of w
  · simp only [if_pos hk, used_seededHash, ownerField_seededHash, BucketHash.Seeds,
      initialized_settled, hr.used_settled]
    by_cases hseeds : f ∈ reg.fields c ∧ (r.hash w k).initialized f = false
    · have hnew : (r.hash w k).ownerField a f = none := by
        cases hm : (r.hash w k).ownerField a f with
        | none => rfl
        | some v => exact absurd (hr.marker _ _ _ _ _ hm).2.2 (by simp [hseeds.2])
      simp only [hseeds, hset, hnew, and_self, and_true, true_and, if_true,
        sum_settledDelta_settled hset f (hsnap.nodup w)]
      by_cases hl : a ∈ listed w ∧ f ∈ reg.fields a
      · simp only [hl, and_self, if_true, Option.isSome_some]; ring
      · simp [hl]
    · simp only [hseeds, false_and, and_false, if_false]
  · simp only [if_neg hk, hr.used_settled]

theorem used_settled_seed {a c : AttemptId} {snapshot : WindowAdmissionSnapshot}
    {listed : Window → List AttemptId} (hsnap : SnapshotOf reg (reg.buckets c) (reg.fields c) snapshot listed)
    (hset : r.settlement a = none) (actual : Nat) (w : Window) {f : ScopeField} (ha : a ∈ listed w)
    (hf : f ∈ reg.fields a) (hseeds : (r.bucket (reg.buckets c) w).Seeds (reg.fields c) f) :
    ((reg.settled (reg.seed r c snapshot) a actual).bucket (reg.buckets c) w).used f =
      (snapshot.usage w).of f - reg.amount a + actual +
        (((listed w).erase a).map fun b => if f ∈ reg.fields b then settledDelta reg r.settlement b else 0).sum := by
  rw [Redis.bucket] at hseeds ⊢
  have hmarked : ((reg.seed r c snapshot).hash w ((reg.buckets c).of w)).ownerField a f = some (reg.amount a) := by
    rw [seed_hash hsnap, if_pos rfl, ownerField_seededHash, if_pos ⟨ha, hseeds, hf, hset⟩]
  rw [(hr.seed hsnap).used_settled, hmarked, Option.isSome_some, if_pos rfl, seed_hash hsnap, if_pos rfl,
    used_seededHash, if_pos hseeds]
  have hperm := (List.perm_cons_erase ha).map fun b =>
    if f ∈ reg.fields b then settledDelta reg r.settlement b else 0
  rw [hperm.sum_eq, List.map_cons, List.sum_cons, if_pos hf, settledDelta_none hset]
  ring

end RedisSound

theorem release_frame (reg : Registry) {adjust : BucketHash → ScopeField → BucketHash} {d : Int}
    (hadj : Moves adjust d) (r : Redis) {a b : AttemptId} (hb : b ≠ a) (w : Window) (k : String) :
    ((r.mapBuckets (reg.buckets a) fun _ => releaseHash a (reg.fields a) adjust).hash w k).owner b =
        (r.hash w k).owner b ∧
      ∀ f, ((r.mapBuckets (reg.buckets a) fun _ => releaseHash a (reg.fields a) adjust).hash w k).ownerField b f =
        (r.hash w k).ownerField b f := by
  have hfs := reg.fields_nodup a
  simp only [Redis.mapBuckets]
  split
  · refine ⟨by rw [owner_releaseHash hadj a hfs, if_neg hb], fun f => ?_⟩
    rw [ownerField_releaseHash hadj a hfs, if_neg fun h => hb h.1]
  · exact ⟨rfl, fun _ => rfl⟩

/-- Two states hold the same of an attempt. -/
def SameHolding (r r' : Redis) (b : AttemptId) : Prop :=
  r'.reservation b = r.reservation b ∧ r'.settlement b = r.settlement b ∧
    ∀ w k, (r'.hash w k).owner b = (r.hash w k).owner b ∧
      ∀ f, (r'.hash w k).ownerField b f = (r.hash w k).ownerField b f

theorem settle_frame (reg : Registry) (r : Redis) {a b : AttemptId} (hb : b ≠ a) (actual : Nat) (detect : Bool) :
    SameHolding r (reg.settle r a actual detect).1 b := by
  rcases reg.settle_cases r a actual detect with ⟨h, -⟩ | ⟨h, -⟩
  · rw [h]; exact ⟨rfl, rfl, fun _ _ => ⟨rfl, fun _ => rfl⟩⟩
  · rw [h]
    refine ⟨by simp [Registry.settled, hb], by simp [Registry.settled, hb], fun w k => ?_⟩
    exact release_frame reg (moves_settle _) r hb w k

theorem cancel_frame (reg : Registry) (r : Redis) {a b : AttemptId} (hb : b ≠ a) :
    SameHolding r (reg.cancel r a).1 b := by
  rcases reg.cancel_cases r a with ⟨h, -⟩ | ⟨amount, h, -⟩
  · rw [h]; exact ⟨rfl, rfl, fun _ _ => ⟨rfl, fun _ => rfl⟩⟩
  · rw [h]
    refine ⟨by simp [Registry.cancelled, hb], rfl, fun w k => ?_⟩
    exact release_frame reg (moves_hincrby _) r hb w k

/-! ## The laws of settlement -/

/-- In every Redis state a settlement takes effect once, and a settlement or a cancellation of an attempt
that Redis holds nothing of changes no counter and no marker; neither script touches another attempt. In every
state that calls can reach, a settlement and an initialization from a snapshot commute on the counters. On the
fields that the snapshot seeds and lists the attempt on, it then counts at what it spent in place of its reserved
amount. -/
theorem settlement_once_and_commutes (reg : Registry) :
    (∀ r a actual detect delta actual' detect', (reg.settle r a actual detect).2 = .settled delta →
      reg.settle (reg.settle r a actual detect).1 a actual' detect' =
        ((reg.settle r a actual detect).1, .alreadySettled)) ∧
    (∀ r a actual detect, Absent r (reg.buckets a) a →
      (reg.settle r a actual detect).1.hash = r.hash ∧ (reg.cancel r a).1 = r) ∧
    (∀ r a b actual detect, b ≠ a →
      SameHolding r (reg.settle r a actual detect).1 b ∧ SameHolding r (reg.cancel r a).1 b) ∧
    ∀ r, ReachableRedis reg r → ∀ a c l exclude actual detect, Conforms reg l → r.settlement a = none →
      (detect = true ∨ (r.reservation a).isSome) →
      let snapshot := loadWindowAdmissionSnapshot l (reg.windowInput c) exclude
      let after := (reg.settle (reg.seed r c snapshot) a actual detect).1
      let before := reg.seed (reg.settle r a actual detect).1 c snapshot
      (∀ w k f, (after.hash w k).used f = (before.hash w k).used f) ∧
      ∀ w, a ∈ listedAttempts l (reg.windowInput c) exclude w → ∀ f ∈ reg.fields a,
        (r.bucket (reg.buckets c) w).Seeds (reg.fields c) f →
        (after.bucket (reg.buckets c) w).used f =
          (snapshot.usage w).of f - reg.amount a + actual +
            (((listedAttempts l (reg.windowInput c) exclude w).erase a).map fun b =>
              if f ∈ reg.fields b then settledDelta reg r.settlement b else 0).sum := by
  refine ⟨fun r a actual detect delta actual' detect' h => settleScript_again h,
    fun r a actual detect ha => ⟨settleScript_absent ha .., ?_⟩,
    fun r a b actual detect hb => ⟨settle_frame reg r hb actual detect, cancel_frame reg r hb⟩, ?_⟩
  · rw [Registry.cancel, cancelScript_absent ha]
  · intro r h a c l exclude actual detect hl hset hfound snapshot after before
    have hr := RedisSound.of_reachable h
    have hsnap : SnapshotOf reg (reg.buckets c) (reg.fields c) snapshot _ := hl.snapshotOf c exclude
    -- Both settlements take effect.
    have htakes : ∀ s, RedisSound reg s → s.settlement a = none → s.reservation a = r.reservation a →
        (reg.settle s a actual detect).1 = reg.settled s a actual := by
      intro s hs hnone hres
      have hmiss : ((r.reservation a).isNone && !detect) = false := by
        rcases hfound with rfl | hsome
        · simp
        · simp [Option.isSome_iff_ne_none.mp hsome]
      simp [hs.settle_reply, hnone, hres, hmiss]
    have hafter : after = reg.settled (reg.seed r c snapshot) a actual := htakes _ (hr.seed hsnap) hset rfl
    have hbefore : before = reg.seed (reg.settled r a actual) c snapshot := by
      simp only [before, htakes r hr hset rfl]
    rw [hafter, hbefore]
    exact ⟨hr.settled_seed_comm hsnap hset actual, fun w ha f hf hseeds =>
      hr.used_settled_seed hsnap hset actual w ha hf hseeds⟩

/-- The first attempt of a reservation still counts on the fields that another admission seeded, while its
second attempt is recorded: its settlement moves the counters. -/
theorem older_attempt_moves_counters :
    ¬ ∀ (reg : Registry) (r : Redis), ReachableRedis reg r → ∀ (a b : AttemptId) (actual : Nat) (detect : Bool),
      a.reservationId = b.reservationId → a.attempt < b.attempt → (r.reservation b).isSome →
      ∀ w k f, ((reg.settle r a actual detect).1.hash w k).used f = (r.hash w k).used f := by
  intro h
  have := h sampleRegistry sampleRedis sampleRedis_reachable ⟨"sbr_1", 1⟩ ⟨"sbr_1", 2⟩ 0 true rfl (by decide)
    (by decide) .hour "10:00" .global
  revert this
  decide

end Sdp.Budget
