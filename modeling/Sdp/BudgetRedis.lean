import Sdp.BudgetScripts
import Sdp.Lib.Run
import Sdp.Lib.Shares

/-!
# Counters and markers

A counter backs the markers on its field, whatever scripts ran for whatever attempts before.
-/

open Sdp.Lib

namespace Sdp.Budget

/-! ## The states after the scripts -/

namespace Registry

variable (reg : Registry) (r : Redis) (a : AttemptId)

/-- The state after an admission. -/
def admitted : Redis :=
  { r.mapBuckets (reg.buckets a) (fun _ => reserveHash a (reg.amount a) (reg.fields a)) with
    reservation := Function.update r.reservation a (some (reg.amount a)) }

/-- The state after a settlement that took effect. -/
def settled (actual : Nat) : Redis :=
  { r.mapBuckets (reg.buckets a) (fun _ => releaseHash a (reg.fields a) fun h f =>
      if (actual : Int) - reg.amount a ≠ 0 then h.hincrby f (actual - reg.amount a) else h) with
    reservation := Function.update r.reservation a none
    settlement := Function.update r.settlement a (some actual) }

/-- The state after a cancellation of an amount. -/
def cancelled (amount : Nat) : Redis :=
  { r.mapBuckets (reg.buckets a) (fun _ => releaseHash a (reg.fields a) fun h f => h.hincrby f (-amount)) with
    reservation := Function.update r.reservation a none }

/-- A reservation is refused and changes nothing, or it is admitted: a first time, on initialized fields. -/
theorem reserve_cases (policies : SponsorshipBudgetScopeType → SponsorshipBudgetPolicy) :
    ((reg.reserve r a policies).2.outcome ≠ .admitted ∧ (reg.reserve r a policies).1 = r) ∨
      (reg.reserve r a policies = (reg.admitted r a, .admitted (reg.amount a)) ∧
        r.reservation a = none ∧ r.settlement a = none ∧
        ∀ f ∈ reg.fields a, ∀ w, (r.bucket (reg.buckets a) w).initialized f) := by
  have hfields : ((reg.fields a).map (scopeLimit policies)).map ScopeLimit.field = reg.fields a := by
    rw [List.map_map]
    exact List.map_id _
  unfold reserve
  rcases reserveScript_cases r (reg.buckets a) a (reg.amount a) ((reg.fields a).map (scopeLimit policies)) with
    hrefused | ⟨hadmitted, hreservation, hsettlement, hscopes, -⟩
  · exact .inl hrefused
  · right
    rw [hfields] at hadmitted
    refine ⟨hadmitted, hreservation, hsettlement, fun f hf w => ?_⟩
    exact (checkScopes_none hscopes (scopeLimit policies f) (List.mem_map_of_mem hf)).1 w

theorem settle_cases (actual : Nat) (detect : Bool) :
    (reg.settle r a actual detect).1 = r ∧ (∀ delta, (reg.settle r a actual detect).2 ≠ .settled delta) ∨
      (reg.settle r a actual detect = (reg.settled r a actual, .settled (actual - reg.amount a)) ∧
        r.settlement a = none) := by
  have hcheck : ∀ h reply, checkSettle a (reg.amount a) (actual - reg.amount a) (reg.fields a) h = some reply →
      ∀ delta, reply ≠ .settled delta := by
    intro h reply hs delta
    unfold checkSettle at hs
    split at hs
    · obtain rfl := Option.some.inj hs; simp
    · split at hs
      · obtain rfl := Option.some.inj hs; simp
      · cases hs
  unfold settle settleScript
  dsimp only
  split
  · left; simp
  · next hnone =>
    split
    · left; simp
    · split
      · left; simp
      · split
        · next reply hor =>
          refine .inl ⟨rfl, ?_⟩
          rcases Option.or_eq_some_iff.mp hor with h | ⟨-, h⟩
          · exact hcheck _ reply h
          · exact hcheck _ reply h
        · exact .inr ⟨rfl, by simpa using hnone⟩

theorem cancel_cases :
    ((reg.cancel r a).1 = r ∧ ∀ amount, (reg.cancel r a).2 ≠ .cancelled amount) ∨
      ∃ amount, reg.cancel r a = (reg.cancelled r a amount, .cancelled amount) ∧
        (r.reservation a = some amount ∨ ∃ w, (r.bucket (reg.buckets a) w).owner a = some amount) := by
  unfold cancel cancelScript
  dsimp only
  split
  · left; simp
  · next amount hor =>
    have hheld : r.reservation a = some amount ∨ ∃ w, (r.bucket (reg.buckets a) w).owner a = some amount := by
      rcases Option.or_eq_some_iff.mp hor with h | ⟨-, h⟩
      · exact .inl h
      · rcases Option.or_eq_some_iff.mp h with h | ⟨-, h⟩
        · exact .inr ⟨.hour, h⟩
        · exact .inr ⟨.day, h⟩
    split
    · left; simp
    · split
      · left; simp
      · exact .inr ⟨amount, rfl, hheld⟩

end Registry

/-! ## The invariant -/

structure RedisSound (reg : Registry) (r : Redis) : Prop where
  /-- A marker holds its attempt's amount, in a bucket and on an initialized field of the attempt. -/
  marker : ∀ w k a f v, (r.hash w k).ownerField a f = some v →
    v = reg.amount a ∧ reg.Covers a w k f ∧ (r.hash w k).initialized f
  /-- No hash is in the format without markers per field. -/
  owner : ∀ w k a v, (r.hash w k).owner a = some v →
    v = reg.amount a ∧ ∃ f, ((r.hash w k).ownerField a f).isSome
  /-- A reserved attempt is marked on all its fields. -/
  reserved : ∀ a v, r.reservation a = some v → v = reg.amount a ∧ ∀ w, ∀ f ∈ reg.fields a,
    (r.bucket (reg.buckets a) w).ownerField a f = some (reg.amount a)
  /-- A settled attempt is gone. -/
  settled : ∀ a, (r.settlement a).isSome → r.reservation a = none ∧ ∀ w k f, (r.hash w k).ownerField a f = none
  /-- Every counter backs the markers on its field. -/
  backed : ∀ w k f, Backs ((r.hash w k).used f) fun a => (r.hash w k).marker a f

theorem redisSound_empty (reg : Registry) : RedisSound reg .empty where
  marker _ _ _ _ _ h := by cases h
  owner _ _ _ _ h := by cases h
  reserved _ _ h := by cases h
  settled _ h := by cases h
  backed _ _ _ := backs_zero _ fun _ => rfl

namespace RedisSound

variable {reg : Registry} {r : Redis} (hr : RedisSound reg r)
include hr

theorem marked_iff (w : Window) (k : String) (a : AttemptId) (f : ScopeField) :
    (r.hash w k).marked a (reg.fields a) f = ((r.hash w k).ownerField a f).isSome := by
  unfold BucketHash.marked
  split
  · next h => rw [h]
  · next h =>
    split
    · simpa using h
    · next howner =>
      obtain ⟨v, hv⟩ := Option.ne_none_iff_exists'.mp (by simpa using howner)
      obtain ⟨-, g, hg⟩ := hr.owner w k a v hv
      obtain ⟨u, hu⟩ := Option.isSome_iff_exists.mp hg
      have hany : (reg.fields a).any fun g => ((r.hash w k).ownerField a g).isSome := by
        rw [List.any_eq_true]
        exact ⟨g, (hr.marker w k a g u hu).2.1.1, hg⟩
      rw [hany]
      simpa using h

theorem covers_iff (w : Window) (k : String) (a : AttemptId) (f : ScopeField) :
    (r.hash w k).covers a (reg.fields a) f = ((r.hash w k).ownerField a f).isSome := by
  unfold BucketHash.covers
  rw [hr.marked_iff]
  cases (r.hash w k).ownerField a f <;> rfl

theorem marker_eq {w : Window} {k : String} {a : AttemptId} {f : ScopeField}
    (h : ((r.hash w k).ownerField a f).isSome) : (r.hash w k).marker a f = reg.amount a := by
  obtain ⟨v, hv⟩ := Option.isSome_iff_exists.mp h
  rw [BucketHash.marker, hv, (hr.marker w k a f v hv).1]
  rfl

theorem marked_mem {w : Window} {k : String} {a : AttemptId} {f : ScopeField}
    (h : ((r.hash w k).ownerField a f).isSome) : f ∈ reg.fields a := by
  obtain ⟨v, hv⟩ := Option.isSome_iff_exists.mp h
  exact (hr.marker w k a f v hv).2.1.1

theorem amount_le_used {w : Window} {k : String} {a : AttemptId} {f : ScopeField}
    (h : ((r.hash w k).ownerField a f).isSome) : (reg.amount a : ℤ) ≤ (r.hash w k).used f := by
  rw [← hr.marker_eq h]
  exact (hr.backed w k f).share_le a

/-! ### SETTLE and CANCEL -/

section release

variable {adjust : BucketHash → ScopeField → BucketHash} {d : Int} (hadj : Moves adjust d) (a : AttemptId)
include hadj

theorem release_marker (w : Window) (k : String) (b : AttemptId) (f : ScopeField) :
    ((r.mapBuckets (reg.buckets a) fun _ => releaseHash a (reg.fields a) adjust).hash w k).ownerField b f =
      if b = a then none else (r.hash w k).ownerField b f := by
  simp only [Redis.mapBuckets]
  split
  · rw [ownerField_releaseHash hadj a (reg.fields_nodup a), hr.covers_iff]
    by_cases hb : b = a
    · subst hb
      by_cases hm : ((r.hash w k).ownerField b f).isSome
      · simp [hm, hr.marked_mem hm]
      · simp only [hm, if_true]
        simpa using hm
    · simp [hb]
  · next hk =>
    by_cases hb : b = a
    · subst hb
      rw [if_pos rfl]
      cases hm : (r.hash w k).ownerField b f with
      | none => rfl
      | some v => exact absurd (hr.marker w k b f v hm).2.1.2.symm hk
    · rw [if_neg hb]

theorem release_used (w : Window) (k : String) (f : ScopeField) :
    ((r.mapBuckets (reg.buckets a) fun _ => releaseHash a (reg.fields a) adjust).hash w k).used f =
      if ((r.hash w k).ownerField a f).isSome then (r.hash w k).used f + d else (r.hash w k).used f := by
  simp only [Redis.mapBuckets]
  split
  · rw [used_releaseHash hadj a (reg.fields_nodup a), hr.covers_iff]
    by_cases hm : ((r.hash w k).ownerField a f).isSome
    · simp [hm, hr.marked_mem hm]
    · simp [hm]
  · next hk =>
    rw [if_neg]
    intro hm
    obtain ⟨u, hu⟩ := Option.isSome_iff_exists.mp hm
    exact hk (hr.marker w k a f u hu).2.1.2.symm

theorem release_owner {w : Window} {k : String} {b : AttemptId} {v : Nat}
    (hv : ((r.mapBuckets (reg.buckets a) fun _ => releaseHash a (reg.fields a) adjust).hash w k).owner b = some v) :
    b ≠ a ∧ (r.hash w k).owner b = some v := by
  simp only [Redis.mapBuckets] at hv
  split at hv
  · rw [owner_releaseHash hadj a (reg.fields_nodup a)] at hv
    split at hv
    · cases hv
    · next hb => exact ⟨hb, hv⟩
  · next hk =>
    refine ⟨?_, hv⟩
    rintro rfl
    obtain ⟨-, f, hf⟩ := hr.owner w k b v hv
    obtain ⟨u, hu⟩ := Option.isSome_iff_exists.mp hf
    exact hk (hr.marker w k b f u hu).2.1.2.symm

omit hr in
theorem release_initialized (w : Window) (k : String) :
    ((r.mapBuckets (reg.buckets a) fun _ => releaseHash a (reg.fields a) adjust).hash w k).initialized =
      (r.hash w k).initialized := by
  simp only [Redis.mapBuckets]
  split
  · exact initialized_releaseHash hadj a (reg.fields_nodup a) _
  · rfl

theorem release (hd : -(reg.amount a : ℤ) ≤ d) {r' : Redis}
    (hhash : r'.hash = (r.mapBuckets (reg.buckets a) fun _ => releaseHash a (reg.fields a) adjust).hash)
    (hres : r'.reservation = Function.update r.reservation a none)
    (hset : ∀ b, b ≠ a → r'.settlement b = r.settlement b) : RedisSound reg r' := by
  have hmarker : ∀ w k b f, (r'.hash w k).ownerField b f = if b = a then none else (r.hash w k).ownerField b f := by
    intro w k b f
    rw [hhash, hr.release_marker hadj]
  have hinit : ∀ w k, (r'.hash w k).initialized = (r.hash w k).initialized := by
    intro w k
    rw [hhash, release_initialized hadj]
  constructor
  case marker =>
    intro w k b f v hv
    rw [hmarker] at hv
    split at hv
    · cases hv
    · rw [hinit]
      exact hr.marker w k b f v hv
  case owner =>
    intro w k b v hv
    rw [hhash] at hv
    obtain ⟨hb, hv⟩ := hr.release_owner hadj a hv
    obtain ⟨hamount, f, hf⟩ := hr.owner w k b v hv
    exact ⟨hamount, f, by rw [hmarker, if_neg hb]; exact hf⟩
  case reserved =>
    intro b v hv
    rw [hres, Function.update_apply] at hv
    split at hv
    · cases hv
    · next hb =>
      obtain ⟨hamount, hmarked⟩ := hr.reserved b v hv
      refine ⟨hamount, fun w f hf => ?_⟩
      rw [Redis.bucket, hmarker, if_neg hb]
      exact hmarked w f hf
  case settled =>
    intro b hb
    by_cases hba : b = a
    · subst hba
      refine ⟨by rw [hres]; simp, fun w k f => by rw [hmarker, if_pos rfl]⟩
    · rw [hset b hba] at hb
      obtain ⟨hnone, hgone⟩ := hr.settled b hb
      refine ⟨by rw [hres, Function.update_of_ne hba]; exact hnone, fun w k f => ?_⟩
      rw [hmarker, if_neg hba]
      exact hgone w k f
  case backed =>
    intro w k f
    have hold := hr.backed w k f
    have hshare : ∀ b, b ≠ a → (r'.hash w k).marker b f = (r.hash w k).marker b f := by
      intro b hb
      simp only [BucketHash.marker, hmarker, if_neg hb]
    refine hold.replace a hshare ?_
    have hzero : (r'.hash w k).marker a f = 0 := by simp [BucketHash.marker, hmarker]
    have hused : (r'.hash w k).used f =
        if ((r.hash w k).ownerField a f).isSome then (r.hash w k).used f + d else (r.hash w k).used f := by
      rw [hhash, hr.release_used hadj]
    rw [hzero, hused]
    split
    · next hm =>
      rw [hr.marker_eq hm]
      push_cast
      omega
    · push_cast
      omega

end release

theorem settled_sound (a : AttemptId) (actual : Nat) : RedisSound reg (reg.settled r a actual) := by
  refine hr.release (moves_settle (actual - reg.amount a)) a (by omega) rfl rfl fun b hb => ?_
  simp [Registry.settled, hb]

theorem used_settled (a : AttemptId) (actual : Nat) (w : Window) (k : String) (f : ScopeField) :
    ((reg.settled r a actual).hash w k).used f =
      if ((r.hash w k).ownerField a f).isSome then (r.hash w k).used f + (actual - reg.amount a)
      else (r.hash w k).used f :=
  hr.release_used (moves_settle _) a w k f

omit hr in
theorem initialized_settled (a : AttemptId) (actual : Nat) (w : Window) (k : String) :
    ((reg.settled r a actual).hash w k).initialized = (r.hash w k).initialized :=
  release_initialized (moves_settle _) a w k

theorem ownerField_settled (a : AttemptId) (actual : Nat) (w : Window) (k : String) (b : AttemptId) (f : ScopeField) :
    ((reg.settled r a actual).hash w k).ownerField b f = if b = a then none else (r.hash w k).ownerField b f :=
  hr.release_marker (moves_settle _) a w k b f

theorem cancelled_amount {a : AttemptId} {amount : Nat}
    (h : r.reservation a = some amount ∨ ∃ w, (r.bucket (reg.buckets a) w).owner a = some amount) :
    amount = reg.amount a := by
  rcases h with h | ⟨w, h⟩
  · exact (hr.reserved a amount h).1
  · exact (hr.owner w _ a amount h).1

theorem cancelled_sound (a : AttemptId) : RedisSound reg (reg.cancelled r a (reg.amount a)) :=
  hr.release (moves_hincrby (-(reg.amount a : ℤ))) a le_rfl rfl rfl fun _ _ => rfl

theorem settle (a : AttemptId) (actual : Nat) (detect : Bool) :
    RedisSound reg (reg.settle r a actual detect).1 := by
  rcases reg.settle_cases r a actual detect with ⟨h, -⟩ | ⟨h, -⟩
  · rw [h]; exact hr
  · rw [h]; exact hr.settled_sound a actual

theorem cancel (a : AttemptId) : RedisSound reg (reg.cancel r a).1 := by
  rcases reg.cancel_cases r a with ⟨h, -⟩ | ⟨amount, h, hheld⟩
  · rw [h]; exact hr
  · rw [h, hr.cancelled_amount hheld]
    exact hr.cancelled_sound a

/-! ### RESERVE -/

theorem admitted_hash (a : AttemptId) (w : Window) (k : String) :
    (∀ b f, ((reg.admitted r a).hash w k).ownerField b f =
        if b = a ∧ reg.Covers a w k f then some (reg.amount a) else (r.hash w k).ownerField b f) ∧
      (∀ f, ((reg.admitted r a).hash w k).used f =
        if reg.Covers a w k f ∧ (r.hash w k).ownerField a f = none then (r.hash w k).used f + reg.amount a
        else (r.hash w k).used f) ∧
      (∀ b, ((reg.admitted r a).hash w k).owner b =
        if b = a ∧ (reg.buckets a).of w = k then some (reg.amount a) else (r.hash w k).owner b) ∧
      ((reg.admitted r a).hash w k).initialized = (r.hash w k).initialized := by
  have hfs := reg.fields_nodup a
  simp only [Registry.admitted, Redis.mapBuckets]
  by_cases hk : k = (reg.buckets a).of w
  · subst hk
    simp only [if_true, Registry.Covers, and_true]
    refine ⟨fun b f => ?_, fun f => ?_, fun b => ?_, initialized_reserveHash a _ hfs _⟩
    · rw [ownerField_reserveHash a _ hfs, BucketHash.counts, hr.marked_iff]
      by_cases hb : b = a
      · subst hb
        cases hm : (r.hash w ((reg.buckets b).of w)).ownerField b f with
        | none => simp
        | some v =>
          have := (hr.marker _ _ _ _ _ hm).1
          simp [this]
      · simp [hb]
    · rw [used_reserveHash a _ hfs, BucketHash.counts, hr.marked_iff]
      simp
    · rw [owner_reserveHash a _ hfs]
  · have hk' : ¬ (reg.buckets a).of w = k := fun h => hk h.symm
    simp [hk, hk', Registry.Covers]

theorem admitted_sound {a : AttemptId} (hset : r.settlement a = none)
    (hinit : ∀ f ∈ reg.fields a, ∀ w, (r.bucket (reg.buckets a) w).initialized f) :
    RedisSound reg (reg.admitted r a) where
  marker w k b f v hv := by
    obtain ⟨hm, -, -, hi⟩ := hr.admitted_hash a w k
    rw [hm] at hv
    rw [hi]
    split at hv
    · next h =>
      obtain ⟨rfl, hf, hk⟩ := h
      subst hk
      exact ⟨(Option.some.inj hv).symm, ⟨hf, rfl⟩, hinit f hf w⟩
    · exact hr.marker w k b f v hv
  owner w k b v hv := by
    obtain ⟨hm, -, ho, -⟩ := hr.admitted_hash a w k
    rw [ho] at hv
    split at hv
    · next h =>
      obtain ⟨rfl, hk⟩ := h
      refine ⟨(Option.some.inj hv).symm, .global, ?_⟩
      rw [hm, if_pos ⟨rfl, global_mem_scopeFields _ _, hk⟩]
      rfl
    · obtain ⟨hamount, f, hf⟩ := hr.owner w k b v hv
      refine ⟨hamount, f, ?_⟩
      rw [hm]
      split
      · rfl
      · exact hf
  reserved b v hv := by
    simp only [Registry.admitted, Function.update_apply] at hv
    split at hv
    · next hb =>
      subst hb
      refine ⟨(Option.some.inj hv).symm, fun w f hf => ?_⟩
      obtain ⟨hm, -⟩ := hr.admitted_hash b w ((reg.buckets b).of w)
      rw [Redis.bucket, hm, if_pos ⟨rfl, hf, rfl⟩]
    · next hb =>
      obtain ⟨hamount, hmarked⟩ := hr.reserved b v hv
      refine ⟨hamount, fun w f hf => ?_⟩
      obtain ⟨hm, -⟩ := hr.admitted_hash a w ((reg.buckets b).of w)
      rw [Redis.bucket, hm, if_neg fun h => hb h.1]
      exact hmarked w f hf
  settled b hb := by
    have hba : b ≠ a := by
      rintro rfl
      simp [Registry.admitted, Redis.mapBuckets, hset] at hb
    obtain ⟨hnone, hgone⟩ := hr.settled b hb
    refine ⟨by simp [Registry.admitted, hba, hnone], fun w k f => ?_⟩
    obtain ⟨hm, -⟩ := hr.admitted_hash a w k
    rw [hm, if_neg fun h => hba h.1]
    exact hgone w k f
  backed w k f := by
    obtain ⟨hm, hu, -, -⟩ := hr.admitted_hash a w k
    refine (hr.backed w k f).replace a (fun b hb => ?_) ?_
    · simp only [BucketHash.marker, hm, hb, false_and, if_false]
    · simp only [BucketHash.marker, hm, hu, true_and]
      by_cases hc : reg.Covers a w k f
      · cases hown : (r.hash w k).ownerField a f with
        | none => simp [hc]
        | some v => simp [hc, (hr.marker _ _ _ _ _ hown).1]
      · simp [hc]

theorem reserve (a : AttemptId) (policies : SponsorshipBudgetScopeType → SponsorshipBudgetPolicy) :
    RedisSound reg (reg.reserve r a policies).1 := by
  rcases reg.reserve_cases r a policies with ⟨-, h⟩ | ⟨h, -, hset, hinit⟩
  · rw [h]; exact hr
  · rw [h]; exact hr.admitted_sound hset hinit

/-! ### INITIALIZE -/

omit hr in
theorem seed_hash {a : AttemptId} {snapshot : WindowAdmissionSnapshot} {listed : Window → List AttemptId}
    (hsnap : SnapshotOf reg (reg.buckets a) (reg.fields a) snapshot listed) (w : Window) (k : String) :
    (reg.seed r a snapshot).hash w k =
      if k = (reg.buckets a).of w then
        seededHash reg r.settlement (snapshot.usage w).of (reg.fields a) (listed w) (r.hash w k)
      else r.hash w k := by
  simp only [Registry.seed, initializeScript, Redis.mapBuckets, hsnap.live w, seededHash]

theorem seeded_backed {fields : List ScopeField} {b : Buckets} {snapshot : WindowAdmissionSnapshot}
    {listed : Window → List AttemptId} (hsnap : SnapshotOf reg b fields snapshot listed) (w : Window) (k : String)
    {f : ScopeField} (hf : (r.hash w k).Seeds fields f) :
    Backs ((seededHash reg r.settlement (snapshot.usage w).of fields (listed w) (r.hash w k)).used f)
      fun a => (seededHash reg r.settlement (snapshot.usage w).of fields (listed w) (r.hash w k)).marker a f := by
  have hnew : ∀ a, (r.hash w k).ownerField a f = none := by
    intro a
    cases hm : (r.hash w k).ownerField a f with
    | none => rfl
    | some v => exact absurd (hr.marker _ _ _ _ _ hm).2.2 (by simp [hf.2])
  have hlisted := backs_of_listed (hsnap.nodup w)
    (fun a => if f ∈ reg.fields a ∧ r.settlement a = none then reg.amount a else 0)
    (fun a => (seededHash reg r.settlement (snapshot.usage w).of fields (listed w) (r.hash w k)).marker a f)
    (fun a => by
      simp only [BucketHash.marker, ownerField_seededHash, hnew, hf, true_and]
      by_cases ha : a ∈ listed w <;> by_cases hc : f ∈ reg.fields a ∧ r.settlement a = none <;> simp [ha, hc])
  refine hlisted.mono ?_
  rw [used_seededHash, if_pos hf]
  have husage := hsnap.usage w f hf.1
  -- Term by term: what is not marked was settled, and its settlement is not negative.
  have hterm : ∀ l : List AttemptId,
      (((l.map fun a => if f ∈ reg.fields a ∧ r.settlement a = none then reg.amount a else 0).sum : ℕ) : ℤ) ≤
        ((l.map fun a => if f ∈ reg.fields a then reg.amount a else 0).sum : ℕ) +
          (l.map fun a => if f ∈ reg.fields a then settledDelta reg r.settlement a else 0).sum := by
    intro l
    induction l with
    | nil => simp
    | cons a l ih =>
      simp only [List.map_cons, List.sum_cons]
      push_cast at ih ⊢
      by_cases hfa : f ∈ reg.fields a
      · cases hs : r.settlement a with
        | none => simp only [hfa, settledDelta_none hs, and_self, if_true]; linarith
        | some v =>
          have : (0 : ℤ) ≤ v := Int.natCast_nonneg v
          simp only [hfa, settledDelta_some hs, reduceCtorEq, and_false, if_true, if_false]
          linarith
      · simp only [hfa, false_and, if_false]
        linarith
  have := hterm (listed w)
  linarith [Int.ofNat_le.mpr husage]

theorem seed {a : AttemptId} {snapshot : WindowAdmissionSnapshot} {listed : Window → List AttemptId}
    (hsnap : SnapshotOf reg (reg.buckets a) (reg.fields a) snapshot listed) :
    RedisSound reg (reg.seed r a snapshot) where
  marker w k b f v hv := by
    rw [seed_hash hsnap] at hv ⊢
    split at hv
    · next hk =>
      rw [if_pos hk, initialized_seededHash]
      rw [ownerField_seededHash] at hv
      split at hv
      · next h =>
        obtain ⟨hlisted, hseeds, hf, -⟩ := h
        refine ⟨(Option.some.inj hv).symm, ⟨hf, ?_⟩, by simp [hseeds.1]⟩
        rw [hsnap.bucket w b hlisted, hk]
      · obtain ⟨hamount, hcovers, hinit⟩ := hr.marker w k b f v hv
        exact ⟨hamount, hcovers, by simp [hinit]⟩
    · next hk =>
      rw [if_neg hk]
      exact hr.marker w k b f v hv
  owner w k b v hv := by
    rw [seed_hash hsnap] at hv ⊢
    split at hv
    · next hk =>
      rw [if_pos hk]
      rw [owner_seededHash] at hv
      split at hv
      · next h =>
        obtain ⟨hlisted, ⟨f, hf, hseeds⟩, hnone⟩ := h
        refine ⟨(Option.some.inj hv).symm, f, ?_⟩
        rw [ownerField_seededHash, if_pos ⟨hlisted, hseeds, hf, hnone⟩]
        rfl
      · obtain ⟨hamount, f, hf⟩ := hr.owner w k b v hv
        refine ⟨hamount, f, ?_⟩
        rw [ownerField_seededHash]
        split
        · rfl
        · exact hf
    · next hk =>
      rw [if_neg hk]
      exact hr.owner w k b v hv
  reserved b v hv := by
    obtain ⟨hamount, hmarked⟩ := hr.reserved b v hv
    refine ⟨hamount, fun w f hf => ?_⟩
    have hold := hmarked w f hf
    rw [Redis.bucket, seed_hash hsnap]
    split
    · rw [ownerField_seededHash]
      split
      · rfl
      · exact hold
    · exact hold
  settled b hb := by
    obtain ⟨hnone, hgone⟩ := hr.settled b hb
    refine ⟨hnone, fun w k f => ?_⟩
    rw [seed_hash hsnap]
    split
    · rw [ownerField_seededHash, if_neg]
      · exact hgone w k f
      · rintro ⟨-, -, -, hs⟩
        exact Option.isSome_iff_ne_none.mp hb hs
    · exact hgone w k f
  backed w k f := by
    rw [seed_hash hsnap]
    split
    · by_cases hf : (r.hash w k).Seeds (reg.fields a) f
      · exact hr.seeded_backed hsnap w k hf
      · -- A field that is there already stays as it is.
        have hm : ∀ b, (seededHash reg r.settlement (snapshot.usage w).of (reg.fields a) (listed w)
            (r.hash w k)).marker b f = (r.hash w k).marker b f := by
          intro b
          simp [BucketHash.marker, ownerField_seededHash, hf]
        simp only [hm, used_seededHash, if_neg hf]
        exact hr.backed w k f
    · exact hr.backed w k f

omit hr in
theorem syncControl_frame (r : Redis) (controlField : SponsorshipBudgetScopeType × String) (version : Nat)
    (enabled : Bool) :
    (syncControlScript r controlField version enabled).hash = r.hash ∧
      (syncControlScript r controlField version enabled).reservation = r.reservation ∧
      (syncControlScript r controlField version enabled).settlement = r.settlement := by
  unfold syncControlScript
  split
  · exact ⟨rfl, rfl, rfl⟩
  · exact ⟨rfl, rfl, rfl⟩

theorem syncControl (controlField : SponsorshipBudgetScopeType × String) (version : Nat) (enabled : Bool) :
    RedisSound reg (syncControlScript r controlField version enabled) := by
  obtain ⟨hhash, hres, hset⟩ := syncControl_frame r controlField version enabled
  constructor
  all_goals simp only [hhash, hres, hset, Redis.bucket]
  exacts [hr.marker, hr.owner, hr.reserved, hr.settled, hr.backed]

/-! ### The underflow branches -/

theorem checkSettle_ne_underflow (w : Window) (k : String) (a : AttemptId) (actual : Nat) :
    checkSettle a (reg.amount a) (actual - reg.amount a) (reg.fields a) (r.hash w k) = none := by
  unfold checkSettle
  rw [if_neg, if_neg]
  · simp only [Bool.and_eq_true, decide_eq_true_eq, List.any_eq_true, not_and, not_exists]
    intro hd f hf
    rw [hr.covers_iff]
    intro hm
    have := hr.amount_le_used hm
    omega
  · cases hv : (r.hash w k).owner a with
    | none => simp
    | some v => simp [(hr.owner w k a v hv).1]

theorem settle_reply (a : AttemptId) (actual : Nat) (detect : Bool) :
    reg.settle r a actual detect =
      if (r.settlement a).isSome then (r, .alreadySettled)
      else if (r.reservation a).isNone && !detect then (r, .mismatch)
      else (reg.settled r a actual, .settled (actual - reg.amount a)) := by
  unfold Registry.settle settleScript
  dsimp only
  split
  · rfl
  · split
    · rfl
    · have hres : ((r.reservation a).any fun v => decide (v ≠ reg.amount a)) = false := by
        cases h : r.reservation a with
        | none => rfl
        | some v => simp [(hr.reserved a v h).1]
      simp only [hres, Redis.bucket, hr.checkSettle_ne_underflow, Option.or_none]
      rfl

theorem cancel_ne_underflow (a : AttemptId) : (reg.cancel r a).2 ≠ .underflow := by
  unfold Registry.cancel cancelScript
  dsimp only
  split
  · simp
  · next amount hor =>
    split
    · simp
    · rw [if_neg]
      · simp
      · -- The amount is the attempt's own, and the counters have it.
        have hamount : amount = reg.amount a := by
          refine hr.cancelled_amount ?_
          rcases Option.or_eq_some_iff.mp hor with h | ⟨-, h⟩
          · exact .inl h
          · rcases Option.or_eq_some_iff.mp h with h | ⟨-, h⟩
            · exact .inr ⟨.hour, h⟩
            · exact .inr ⟨.day, h⟩
        simp only [List.any_eq_true, Bool.or_eq_true, Bool.and_eq_true, decide_eq_true_eq, Redis.bucket,
          hr.covers_iff, not_exists, not_and, hamount]
        rintro f - (⟨hm, hlt⟩ | ⟨hm, hlt⟩)
        · exact absurd (hr.amount_le_used hm) (by omega)
        · exact absurd (hr.amount_le_used hm) (by omega)

end RedisSound

/-! ## Any calls -/

/-- A call of a script for an attempt of the registry. -/
inductive RedisCall
  /-- INITIALIZE, from what an admission of the attempt would read of some ledger. -/
  | seed (a : AttemptId) (l : Ledger) (excludeReservationId : Option String)
  | reserve (a : AttemptId) (policies : SponsorshipBudgetScopeType → SponsorshipBudgetPolicy)
  | cancel (a : AttemptId)
  | settle (a : AttemptId) (actual : Nat) (detectMissingReservation : Bool)
  | syncControl (policy : SponsorshipBudgetPolicy)

def redisCall (reg : Registry) (r : Redis) : RedisCall → Option Redis
  | .seed a l exclude => some (reg.seed r a (loadWindowAdmissionSnapshot l (reg.windowInput a) exclude))
  | .reserve a policies => some (reg.reserve r a policies).1
  | .cancel a => some (reg.cancel r a).1
  | .settle a actual detect => some (reg.settle r a actual detect).1
  | .syncControl policy => some (syncControlScript r (controlField policy) policy.version policy.enabled)

/-- A snapshot is one of rows as they may stand at some time. -/
def DurableSnapshot (reg : Registry) (_ : Redis) : RedisCall → Prop
  | .seed _ l _ => Conforms reg l
  | _ => True

abbrev ReachableRedis (reg : Registry) : Redis → Prop :=
  Reachable (redisCall reg) (· = Redis.empty) (DurableSnapshot reg)

theorem RedisSound.of_reachable {reg : Registry} {r : Redis} (h : ReachableRedis reg r) : RedisSound reg r := by
  refine h.invariant (P := RedisSound reg) ?_ ?_
  · rintro _ rfl
    exact redisSound_empty reg
  · intro r call t _ hr hok ht
    cases call with
    | seed a l exclude =>
      obtain rfl := Option.some.inj ht
      exact hr.seed (Conforms.snapshotOf hok a exclude)
    | reserve a policies =>
      obtain rfl := Option.some.inj ht
      exact hr.reserve a policies
    | cancel a =>
      obtain rfl := Option.some.inj ht
      exact hr.cancel a
    | settle a actual detect =>
      obtain rfl := Option.some.inj ht
      exact hr.settle a actual detect
    | syncControl policy =>
      obtain rfl := Option.some.inj ht
      exact hr.syncControl ..

/-- After any calls: a counter is at least the sum of the markers on its field and not negative, markers
stand on initialized fields, and neither a settlement nor a cancellation runs into its underflow branch. -/
theorem counters_back_markers {reg : Registry} {r : Redis} (h : ReachableRedis reg r) :
    (∀ w k f (S : Finset AttemptId), ((∑ a ∈ S, (r.hash w k).marker a f : ℕ) : ℤ) ≤ (r.hash w k).used f) ∧
      (∀ w k a f, (r.hash w k).ownerField a f ≠ none → (r.hash w k).initialized f) ∧
      (∀ w k f, 0 ≤ (r.hash w k).used f) ∧
      (∀ a actual detect, (reg.settle r a actual detect).2 ≠ .underflow) ∧
      ∀ a, (reg.cancel r a).2 ≠ .underflow := by
  have hr := RedisSound.of_reachable h
  refine ⟨hr.backed, fun w k a f hm => ?_, fun w k f => (hr.backed w k f).nonneg, fun a actual detect => ?_,
    hr.cancel_ne_underflow⟩
  · obtain ⟨v, hv⟩ := Option.ne_none_iff_exists'.mp hm
    exact (hr.marker w k a f v hv).2.2
  · rw [hr.settle_reply]
    split
    · simp
    · split <;> simp

/-- Reservations of one organization, five lamports each, in one bucket. -/
def sampleRegistry : Registry where
  network := .devnet
  scope _ :=
    { productEnvironment := .sandbox, organizationId := "org_1", projectId := none, actorType := "api_key"
      actorId := "key_1", transactionDigest := "d", feePayer := "payer", recentBlockhash := "b" }
  terms _ :=
    { providerConfigFingerprint := "f", reservedLamports := 5, hourBucket := "10:00", dayBucket := "00:00"
      policyVersions := [] }
  projectOrganization _ := "org_1"
  owned _ _ _ := rfl

def samplePolicies (scopeType : SponsorshipBudgetScopeType) : SponsorshipBudgetPolicy where
  id := "sbp"
  network := .devnet
  scopeType := scopeType
  scopeId := none
  enabled := true
  perTransactionLamports := 20
  hourlyLamports := 20
  dailyLamports := 20
  version := 1
  updatedBy := "operator"
  updateReason := "limits"
  updatedAt := "t0"

/-- One reservation, at its first attempt. -/
def sampleLedger : Ledger :=
  Table.empty.insertNew
    { sampleRegistry.input ⟨"sbr_1", 1⟩ with status := .reserved, updatedAt := "t1" }

theorem sampleLedger_conforms : Conforms sampleRegistry sampleLedger := by
  intro id r hr
  have hmem := (Table.find?_eq_some_iff.mp hr).1
  obtain rfl := List.mem_singleton.mp hmem
  exact ⟨⟨by simp [ReservationRow.Terminal], by simp⟩, rfl⟩

/-- The first attempt of `sbr_1` is seeded by the admission of `sbr_2`, then its second attempt is reserved. -/
def sampleCalls : List RedisCall :=
  [.seed ⟨"sbr_2", 1⟩ sampleLedger (some "sbr_2"), .syncControl (samplePolicies .global),
    .syncControl (samplePolicies .organization), .reserve ⟨"sbr_1", 2⟩ samplePolicies]

def sampleRedis : Redis := (run (redisCall sampleRegistry) .empty sampleCalls).getD .empty

theorem sampleRedis_reachable : ReachableRedis sampleRegistry sampleRedis := by
  have h0 : ReachableRedis sampleRegistry .empty := .start rfl
  have h1 := h0.step (l := RedisCall.seed ⟨"sbr_2", 1⟩ sampleLedger (some "sbr_2")) sampleLedger_conforms rfl
  have h2 := h1.step (l := RedisCall.syncControl (samplePolicies .global)) trivial rfl
  have h3 := h2.step (l := RedisCall.syncControl (samplePolicies .organization)) trivial rfl
  exact h3.step (l := RedisCall.reserve ⟨"sbr_1", 2⟩ samplePolicies) trivial rfl

/-- Both attempts are counted, and a settlement of the first at nothing finds its amount. -/
theorem sampleRedis_backed :
    (sampleRedis.hash .hour "10:00").used .global = 10 ∧
      (sampleRedis.hash .hour "10:00").marker ⟨"sbr_1", 1⟩ .global = 5 ∧
      (sampleRegistry.settle sampleRedis ⟨"sbr_1", 1⟩ 0 true).2 ≠ .underflow :=
  ⟨by decide, by decide, (counters_back_markers sampleRedis_reachable).2.2.2.1 ⟨"sbr_1", 1⟩ 0 true⟩

end Sdp.Budget
