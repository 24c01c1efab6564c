import Sdp.Spec.Budget
import Mathlib.Tactic.Ring

/-!
# What the scripts do to a hash

One lemma for each hash operation: the counters, the markers and the initialized fields after it.
-/

open Sdp.Lib

namespace Sdp.Budget

/-- The lamports that a marker stands for. -/
def BucketHash.marker (h : BucketHash) (a : AttemptId) (f : ScopeField) : Nat := (h.ownerField a f).getD 0

namespace BucketHash

@[simp] theorem used_hincrby (h : BucketHash) (f g : ScopeField) (d : Int) :
    (h.hincrby f d).used g = if g = f then h.used g + d else h.used g := by
  unfold hincrby used
  by_cases hg : g = f
  · subst hg; simp
  · simp [hg]

@[simp] theorem used_setOwner (h : BucketHash) (a : AttemptId) (v : Option Nat) : (h.setOwner a v).used = h.used := rfl

@[simp] theorem used_setOwnerField (h : BucketHash) (a : AttemptId) (f : ScopeField) (v : Option Nat) :
    (h.setOwnerField a f v).used = h.used := rfl

@[simp] theorem ownerField_setOwnerField (h : BucketHash) (a b : AttemptId) (f g : ScopeField) (v : Option Nat) :
    (h.setOwnerField a f v).ownerField b g = if b = a ∧ g = f then v else h.ownerField b g := by
  unfold setOwnerField
  by_cases hb : b = a
  · subst hb
    by_cases hg : g = f
    · subst hg; simp
    · simp [hg]
  · simp [hb]

@[simp] theorem owner_setOwner (h : BucketHash) (a b : AttemptId) (v : Option Nat) :
    (h.setOwner a v).owner b = if b = a then v else h.owner b := by
  simp [setOwner, Function.update_apply]

@[simp] theorem ownerField_setOwner (h : BucketHash) (a : AttemptId) (v : Option Nat) :
    (h.setOwner a v).ownerField = h.ownerField := rfl

@[simp] theorem owner_setOwnerField (h : BucketHash) (a : AttemptId) (f : ScopeField) (v : Option Nat) :
    (h.setOwnerField a f v).owner = h.owner := rfl

@[simp] theorem ownerField_hincrby (h : BucketHash) (f : ScopeField) (d : Int) :
    (h.hincrby f d).ownerField = h.ownerField := rfl

@[simp] theorem owner_hincrby (h : BucketHash) (f : ScopeField) (d : Int) :
    (h.hincrby f d).owner = h.owner := rfl

@[simp] theorem initialized_hincrby (h : BucketHash) (f : ScopeField) (d : Int) :
    (h.hincrby f d).initialized = h.initialized := rfl

@[simp] theorem initialized_setOwner (h : BucketHash) (a : AttemptId) (v : Option Nat) :
    (h.setOwner a v).initialized = h.initialized := rfl

@[simp] theorem initialized_setOwnerField (h : BucketHash) (a : AttemptId) (f : ScopeField) (v : Option Nat) :
    (h.setOwnerField a f v).initialized = h.initialized := rfl

end BucketHash

/-! ## CANCEL_LUA and SETTLE_LUA -/

/-- An adjustment that moves the counter of a field by `d` and nothing else. -/
structure Moves (adjust : BucketHash → ScopeField → BucketHash) (d : Int) : Prop where
  used : ∀ h f g, (adjust h f).used g = if g = f then h.used g + d else h.used g
  owner : ∀ h f, (adjust h f).owner = h.owner
  ownerField : ∀ h f, (adjust h f).ownerField = h.ownerField
  initialized : ∀ h f, (adjust h f).initialized = h.initialized

theorem moves_hincrby (d : Int) : Moves (fun h f => h.hincrby f d) d :=
  ⟨fun h f g => by simp, fun _ _ => rfl, fun _ _ => rfl, fun _ _ => rfl⟩

theorem moves_settle (d : Int) : Moves (fun h f => if d ≠ 0 then h.hincrby f d else h) d := by
  by_cases hd : d = 0
  · subst hd
    exact ⟨fun h f g => by simp, fun _ _ => rfl, fun _ _ => rfl, fun _ _ => rfl⟩
  · simp only [hd, ne_eq, not_false_eq_true, if_true]
    exact moves_hincrby d

theorem release_foldl {adjust : BucketHash → ScopeField → BucketHash} {d : Int} (hadj : Moves adjust d)
    (a : AttemptId) (fs : List ScopeField) (hfs : fs.Nodup) (h : BucketHash) :
    let h' := fs.foldl (fun h f => (adjust h f).setOwnerField a f none) h
    (∀ g, h'.used g = if g ∈ fs then h.used g + d else h.used g) ∧
      (∀ b g, h'.ownerField b g = if b = a ∧ g ∈ fs then none else h.ownerField b g) ∧
      h'.owner = h.owner ∧ h'.initialized = h.initialized := by
  induction fs generalizing h with
  | nil => simp
  | cons f fs ih =>
    obtain ⟨hf, hfs⟩ := List.nodup_cons.mp hfs
    obtain ⟨hu, hm, ho, hi⟩ := ih hfs ((adjust h f).setOwnerField a f none)
    simp only [List.foldl_cons]
    refine ⟨fun g => ?_, fun b g => ?_, ?_, ?_⟩
    · rw [hu]
      by_cases hg : g = f
      · subst hg; simp [hf, hadj.used]
      · simp [hg, hadj.used]
    · rw [hm]
      simp only [BucketHash.ownerField_setOwnerField, hadj.ownerField, List.mem_cons]
      by_cases hb : b = a <;> by_cases hg : g = f <;> simp [hb, hg]
    · rw [ho]; exact hadj.owner h f
    · rw [hi]; exact hadj.initialized h f

section release

variable {adjust : BucketHash → ScopeField → BucketHash} {d : Int} (hadj : Moves adjust d) (a : AttemptId)
  {fs : List ScopeField} (hfs : fs.Nodup) (h : BucketHash)
include hadj hfs

theorem used_releaseHash (g : ScopeField) :
    (releaseHash a fs adjust h).used g = if g ∈ fs ∧ h.covers a fs g then h.used g + d else h.used g := by
  have := (release_foldl hadj a _ (hfs.filter (h.covers a fs)) h).1 g
  simpa [releaseHash, List.mem_filter] using this

theorem ownerField_releaseHash (b : AttemptId) (g : ScopeField) :
    (releaseHash a fs adjust h).ownerField b g =
      if b = a ∧ g ∈ fs ∧ h.covers a fs g then none else h.ownerField b g := by
  have := (release_foldl hadj a _ (hfs.filter (h.covers a fs)) h).2.1 b g
  simpa [releaseHash, List.mem_filter] using this

theorem owner_releaseHash (b : AttemptId) :
    (releaseHash a fs adjust h).owner b = if b = a then none else h.owner b := by
  have := (release_foldl hadj a _ (hfs.filter (h.covers a fs)) h).2.2.1
  simp [releaseHash, this]

theorem initialized_releaseHash : (releaseHash a fs adjust h).initialized = h.initialized := by
  have := (release_foldl hadj a _ (hfs.filter (h.covers a fs)) h).2.2.2
  simpa [releaseHash] using this

end release

/-! ## RESERVE_LUA -/

theorem count_foldl (a : AttemptId) (amount : Nat) (counted : ScopeField → Bool) (fs : List ScopeField)
    (hfs : fs.Nodup) (h : BucketHash) :
    let h' := (fs.map fun f => (f, counted f)).foldl (countField a amount) h
    (∀ g, h'.used g = if g ∈ fs ∧ counted g = false then h.used g + amount else h.used g) ∧
      (∀ b g, h'.ownerField b g = if b = a ∧ g ∈ fs ∧ counted g = false then some amount else h.ownerField b g) ∧
      h'.owner = h.owner ∧ h'.initialized = h.initialized := by
  induction fs generalizing h with
  | nil => simp
  | cons f fs ih =>
    obtain ⟨hf, hfs⟩ := List.nodup_cons.mp hfs
    obtain ⟨hu, hm, ho, hi⟩ := ih hfs (countField a amount h (f, counted f))
    simp only [List.map_cons, List.foldl_cons]
    refine ⟨fun g => ?_, fun b g => ?_, ?_, ?_⟩
    · rw [hu]
      by_cases hg : g = f
      · subst hg
        cases hc : counted g <;> simp [hf, countField]
      · cases hc : counted f <;> simp [hg, countField]
    · rw [hm]
      by_cases hg : g = f
      · subst hg
        cases hc : counted g <;> simp [hf, countField]
      · cases hc : counted f <;> simp [hg, countField]
    · rw [ho]; cases hc : counted f <;> simp [countField]
    · rw [hi]; cases hc : counted f <;> simp [countField]

section reserve

variable (a : AttemptId) (amount : Nat) {fs : List ScopeField} (hfs : fs.Nodup) (h : BucketHash)
include hfs

theorem used_reserveHash (g : ScopeField) :
    (reserveHash a amount fs h).used g =
      if g ∈ fs ∧ h.counts a fs g = false then h.used g + amount else h.used g := by
  simpa [reserveHash] using (count_foldl a amount (h.counts a fs) fs hfs h).1 g

theorem ownerField_reserveHash (b : AttemptId) (g : ScopeField) :
    (reserveHash a amount fs h).ownerField b g =
      if b = a ∧ g ∈ fs ∧ h.counts a fs g = false then some amount else h.ownerField b g := by
  simpa [reserveHash] using (count_foldl a amount (h.counts a fs) fs hfs h).2.1 b g

theorem owner_reserveHash (b : AttemptId) :
    (reserveHash a amount fs h).owner b = if b = a then some amount else h.owner b := by
  simp [reserveHash, (count_foldl a amount (h.counts a fs) fs hfs h).2.2.1]

theorem initialized_reserveHash : (reserveHash a amount fs h).initialized = h.initialized := by
  simpa [reserveHash] using (count_foldl a amount (h.counts a fs) fs hfs h).2.2.2

end reserve

section script

variable {r : Redis} {b : Buckets} {a : AttemptId} {amount : Nat} {scopes : List ScopeLimit} {i : Nat} {reply : ReserveReply}

theorem checkScopes_some (h : checkScopes r b i scopes = some reply) : reply.outcome ≠ .admitted := by
  induction scopes generalizing i with
  | nil => cases h
  | cons scope rest ih =>
    unfold checkScopes at h
    split at h
    · obtain rfl := Option.some.inj h
      simp [ReserveReply.outcome]
    · split at h
      · obtain rfl := Option.some.inj h
        simp [ReserveReply.outcome]
      · exact ih h

theorem checkScopes_none (h : checkScopes r b i scopes = none) :
    ∀ scope ∈ scopes, (∀ w, (r.bucket b w).initialized scope.field) ∧
      r.control scope.controlField = some (scope.expectedVersion, true) := by
  induction scopes generalizing i with
  | nil => simp
  | cons scope rest ih =>
    unfold checkScopes at h
    split at h
    · cases h
    · next hinit =>
      split at h
      · cases h
      · next hcontrol =>
        intro scope' hmem
        rcases List.mem_cons.mp hmem with rfl | hmem
        · simp only [Bool.or_eq_true, Bool.not_eq_true', not_or, Bool.not_eq_false] at hinit
          refine ⟨fun w => ?_, not_not.mp hcontrol⟩
          cases w
          · exact hinit.1
          · exact hinit.2
        · exact ih h scope' hmem

theorem checkLimits_some {fields : List ScopeField} (h : checkLimits r b a amount fields i scopes = some reply) :
    reply.outcome ≠ .admitted := by
  induction scopes generalizing i with
  | nil => cases h
  | cons scope rest ih =>
    unfold checkLimits at h
    dsimp only at h
    split at h
    · obtain rfl := Option.some.inj h
      simp [ReserveReply.outcome]
    · split at h
      · obtain rfl := Option.some.inj h
        simp [ReserveReply.outcome]
      · exact ih h

theorem reserveScript_cases (r : Redis) (b : Buckets) (a : AttemptId) (amount : Nat) (scopes : List ScopeLimit) :
    ((reserveScript r b a amount scopes).2.outcome ≠ .admitted ∧ (reserveScript r b a amount scopes).1 = r) ∨
      (reserveScript r b a amount scopes =
          ({ r.mapBuckets b (fun _ => reserveHash a amount (scopes.map ScopeLimit.field)) with
              reservation := Function.update r.reservation a (some amount) }, .admitted amount) ∧
        r.reservation a = none ∧ r.settlement a = none ∧ checkScopes r b 1 scopes = none ∧
        checkLimits r b a amount (scopes.map ScopeLimit.field) 1 scopes = none) := by
  unfold reserveScript
  dsimp only
  split
  · next reply hscopes => exact .inl ⟨checkScopes_some hscopes, rfl⟩
  · next hscopes =>
    split
    · left
      simp [ReserveReply.outcome]
    · next hnone =>
      split
      · next reply hlimits => exact .inl ⟨checkLimits_some hlimits, rfl⟩
      · next hlimits =>
        right
        simp only [Bool.or_eq_true, not_or, Bool.not_eq_true, Option.isSome_eq_false_iff,
          Option.isNone_iff_eq_none] at hnone
        exact ⟨rfl, hnone.1, hnone.2, hscopes, hlimits⟩

end script

/-! ## INITIALIZE_LUA -/

theorem seed_foldl (u : ScopeField → Nat) (fs : List ScopeField) (h : BucketHash) (seeded : List ScopeField) :
    let state := (fs.map fun f => (f, u f)).foldl seedField (h, seeded)
    (∀ g, state.1.used g = if g ∈ fs ∧ h.initialized g = false then (u g : Int) else h.used g) ∧
      (∀ g, state.1.initialized g = (h.initialized g || g ∈ fs)) ∧
      (∀ g, g ∈ state.2 ↔ g ∈ seeded ∨ g ∈ fs ∧ h.initialized g = false) ∧
      state.1.owner = h.owner ∧ state.1.ownerField = h.ownerField := by
  induction fs generalizing h seeded with
  | nil => simp
  | cons f fs ih =>
    simp only [List.map_cons, List.foldl_cons, seedField]
    by_cases hf : h.initialized f
    · obtain ⟨hu, hi, hs, ho, hm⟩ := ih h seeded
      simp only [hf, if_true]
      refine ⟨fun g => ?_, fun g => ?_, fun g => ?_, ho, hm⟩
      · rw [hu]
        by_cases hg : g = f
        · subst hg; simp [hf]
        · simp [hg]
      · rw [hi]
        by_cases hg : g = f
        · subst hg; simp [hf]
        · simp [hg]
      · rw [hs]
        by_cases hg : g = f
        · subst hg; simp [hf]
        · simp [hg]
    · obtain ⟨hu, hi, hs, ho, hm⟩ := ih
        { h with counter := Function.update h.counter f (some (u f : Int))
                 initialized := Function.update h.initialized f true } (f :: seeded)
      simp only [hf, Bool.false_eq_true, if_false]
      have hused : ∀ g, g ≠ f → BucketHash.used
          { h with counter := Function.update h.counter f (some (u f : Int))
                   initialized := Function.update h.initialized f true } g = h.used g := by
        intro g hg
        simp [BucketHash.used, hg]
      refine ⟨fun g => ?_, fun g => ?_, fun g => ?_, ho, hm⟩
      · rw [hu]
        by_cases hg : g = f
        · subst hg; simp [hf, BucketHash.used]
        · simp [hg, hused g hg]
      · rw [hi]
        by_cases hg : g = f
        · subst hg; simp
        · simp [hg]
      · rw [hs]
        by_cases hg : g = f
        · subst hg; simp [hf]
        · simp [hg]

/-- What a settled reservation of the snapshot takes back or adds. -/
def settledDelta (reg : Registry) (settlement : AttemptId → Option Nat) (a : AttemptId) : Int :=
  match settlement a with
  | some actual => actual - reg.amount a
  | none => 0

theorem settledDelta_none {reg : Registry} {settlement : AttemptId → Option Nat} {a : AttemptId}
    (h : settlement a = none) : settledDelta reg settlement a = 0 := by
  simp [settledDelta, h]

theorem settledDelta_some {reg : Registry} {settlement : AttemptId → Option Nat} {a : AttemptId} {v : Nat}
    (h : settlement a = some v) : settledDelta reg settlement a = v - reg.amount a := by
  simp [settledDelta, h]

theorem reconstruct_spec (reg : Registry) (settlement : AttemptId → Option Nat) (seeded : List ScopeField)
    (h : BucketHash) (a : AttemptId) :
    let h' := reconstruct settlement seeded h (reg.live a)
    (∀ g, h'.used g = if g ∈ seeded ∧ g ∈ reg.fields a then h.used g + settledDelta reg settlement a else h.used g) ∧
      (∀ b g, h'.ownerField b g =
        if b = a ∧ g ∈ seeded ∧ g ∈ reg.fields a ∧ settlement a = none then some (reg.amount a)
        else h.ownerField b g) ∧
      (∀ b, h'.owner b =
        if b = a ∧ (∃ g ∈ reg.fields a, g ∈ seeded) ∧ settlement a = none then some (reg.amount a)
        else h.owner b) ∧
      h'.initialized = h.initialized := by
  -- By induction on the fields, which are distinct.
  have hmain : ∀ fs : List ScopeField, fs.Nodup → ∀ h : BucketHash,
      let h' := fs.foldl (reconstructField (settlement a) seeded (reg.live a)) h
      (∀ g, h'.used g = if g ∈ seeded ∧ g ∈ fs then h.used g + settledDelta reg settlement a else h.used g) ∧
        (∀ b g, h'.ownerField b g =
          if b = a ∧ g ∈ seeded ∧ g ∈ fs ∧ settlement a = none then some (reg.amount a) else h.ownerField b g) ∧
        (∀ b, h'.owner b =
          if b = a ∧ (∃ g ∈ fs, g ∈ seeded) ∧ settlement a = none then some (reg.amount a) else h.owner b) ∧
        h'.initialized = h.initialized := by
    intro fs hfs
    induction fs with
    | nil => simp
    | cons f fs ih =>
      intro h
      obtain ⟨hf, hfs⟩ := List.nodup_cons.mp hfs
      obtain ⟨hu, hm, ho, hi⟩ := ih hfs (reconstructField (settlement a) seeded (reg.live a) h f)
      simp only [List.foldl_cons]
      by_cases hseeded : f ∈ seeded
      · cases hset : settlement a with
        | none =>
          simp only [hset, reconstructField, hseeded, if_true, and_true] at hu hm ho hi ⊢
          refine ⟨fun g => ?_, fun b g => ?_, fun b => ?_, ?_⟩
          · rw [hu]
            by_cases hg : g = f
            · subst hg; simp [settledDelta, hset]
            · simp [hg]
          · rw [hm]
            by_cases hb : b = a <;> by_cases hg : g = f <;> simp [hb, hg, hseeded]
          · rw [ho]
            by_cases hb : b = a <;> simp [hb, hseeded]
          · rw [hi]; rfl
        | some v =>
          have hmove := moves_settle (settledDelta reg settlement a)
          have hstep : reconstructField (settlement a) seeded (reg.live a) h f =
              if settledDelta reg settlement a ≠ 0 then h.hincrby f (settledDelta reg settlement a) else h := by
            unfold reconstructField settledDelta
            rw [if_pos hseeded, hset]
            rfl
          rw [hset] at hstep
          simp only [hset, hstep, reduceCtorEq, and_false, if_false, hmove.used, hmove.owner,
            hmove.ownerField, hmove.initialized] at hu hm ho hi ⊢
          refine ⟨fun g => ?_, hm, ho, hi⟩
          rw [hu]
          by_cases hg : g = f
          · subst hg; simp [hf, hseeded]
          · simp [hg]
      · have hstep : reconstructField (settlement a) seeded (reg.live a) h f = h := by
          simp [reconstructField, hseeded]
        rw [hstep] at hu hm ho hi ⊢
        refine ⟨fun g => ?_, fun b g => ?_, fun b => ?_, hi⟩
        · rw [hu]
          by_cases hg : g = f
          · subst hg; simp [hseeded]
          · simp [hg]
        · rw [hm]
          by_cases hg : g = f
          · subst hg; simp [hseeded]
          · simp [hg]
        · rw [ho]
          simp [hseeded]
  exact hmain (reg.fields a) (reg.fields_nodup a) h

theorem reconstruct_foldl (reg : Registry) (settlement : AttemptId → Option Nat) (seeded : List ScopeField)
    (listed : List AttemptId) (h : BucketHash) :
    let h' := (listed.map reg.live).foldl (reconstruct settlement seeded) h
    (∀ g, h'.used g = h.used g +
        (listed.map fun a => if g ∈ seeded ∧ g ∈ reg.fields a then settledDelta reg settlement a else 0).sum) ∧
      (∀ b g, h'.ownerField b g =
        if b ∈ listed ∧ g ∈ seeded ∧ g ∈ reg.fields b ∧ settlement b = none then some (reg.amount b)
        else h.ownerField b g) ∧
      (∀ b, h'.owner b =
        if b ∈ listed ∧ (∃ g ∈ reg.fields b, g ∈ seeded) ∧ settlement b = none then some (reg.amount b)
        else h.owner b) ∧
      h'.initialized = h.initialized := by
  induction listed generalizing h with
  | nil => simp
  | cons a listed ih =>
    obtain ⟨hu, hm, ho, hi⟩ := ih (reconstruct settlement seeded h (reg.live a))
    obtain ⟨hu', hm', ho', hi'⟩ := reconstruct_spec reg settlement seeded h a
    simp only [List.map_cons, List.foldl_cons, List.sum_cons]
    refine ⟨fun g => ?_, fun b g => ?_, fun b => ?_, hi.trans hi'⟩
    · rw [hu, hu']
      split <;> ring
    · rw [hm, hm']
      by_cases hb : b = a
      · subst hb
        by_cases hc : g ∈ seeded ∧ g ∈ reg.fields b ∧ settlement b = none <;> simp [hc]
      · simp [hb]
    · rw [ho, ho']
      by_cases hb : b = a
      · subst hb
        by_cases hc : (∃ g ∈ reg.fields b, g ∈ seeded) ∧ settlement b = none <;> simp [hc]
      · simp [hb]

section seeding

variable (reg : Registry) (settlement : AttemptId → Option Nat) (u : ScopeField → Nat) (fs : List ScopeField)
  (listed : List AttemptId) (h : BucketHash)

/-- The field is new to the hash. -/
def BucketHash.Seeds (h : BucketHash) (fs : List ScopeField) (g : ScopeField) : Prop :=
  g ∈ fs ∧ h.initialized g = false

instance (g : ScopeField) : Decidable (h.Seeds fs g) := inferInstanceAs (Decidable (_ ∧ _))

/-- The hash after the script. -/
def seededHash (reg : Registry) (settlement : AttemptId → Option Nat) (u : ScopeField → Nat)
    (fs : List ScopeField) (listed : List AttemptId) (h : BucketHash) : BucketHash :=
  initializeHash settlement (fs.map fun f => (f, u f)) (listed.map reg.live) h

theorem mem_seeded (g : ScopeField) :
    g ∈ ((fs.map fun f => (f, u f)).foldl seedField (h, [])).2 ↔ h.Seeds fs g := by
  simpa [BucketHash.Seeds] using (seed_foldl u fs h []).2.2.1 g

theorem used_seededHash (g : ScopeField) :
    (seededHash reg settlement u fs listed h).used g =
      if h.Seeds fs g then
        u g + (listed.map fun a => if g ∈ reg.fields a then settledDelta reg settlement a else 0).sum
      else h.used g := by
  have hseed := (seed_foldl u fs h []).1 g
  have hrec := (reconstruct_foldl reg settlement ((fs.map fun f => (f, u f)).foldl seedField (h, [])).2 listed
    ((fs.map fun f => (f, u f)).foldl seedField (h, [])).1).1 g
  unfold seededHash initializeHash
  rw [hrec, hseed]
  simp only [mem_seeded]
  by_cases hg : h.Seeds fs g
  · have hg' := hg
    unfold BucketHash.Seeds at hg'
    simp [hg, hg']
  · have hg' := hg
    unfold BucketHash.Seeds at hg'
    simp [hg, hg']

theorem ownerField_seededHash (b : AttemptId) (g : ScopeField) :
    (seededHash reg settlement u fs listed h).ownerField b g =
      if b ∈ listed ∧ h.Seeds fs g ∧ g ∈ reg.fields b ∧ settlement b = none then some (reg.amount b)
      else h.ownerField b g := by
  have hseed := (seed_foldl u fs h []).2.2.2.2
  have hrec := (reconstruct_foldl reg settlement ((fs.map fun f => (f, u f)).foldl seedField (h, [])).2 listed
    ((fs.map fun f => (f, u f)).foldl seedField (h, [])).1).2.1 b g
  unfold seededHash initializeHash
  rw [hrec, hseed]
  simp only [mem_seeded]

theorem owner_seededHash (b : AttemptId) :
    (seededHash reg settlement u fs listed h).owner b =
      if b ∈ listed ∧ (∃ g ∈ reg.fields b, h.Seeds fs g) ∧ settlement b = none then some (reg.amount b)
      else h.owner b := by
  have hseed := (seed_foldl u fs h []).2.2.2.1
  have hrec := (reconstruct_foldl reg settlement ((fs.map fun f => (f, u f)).foldl seedField (h, [])).2 listed
    ((fs.map fun f => (f, u f)).foldl seedField (h, [])).1).2.2.1 b
  unfold seededHash initializeHash
  rw [hrec, hseed]
  simp only [mem_seeded]

theorem initialized_seededHash (g : ScopeField) :
    (seededHash reg settlement u fs listed h).initialized g = (h.initialized g || g ∈ fs) := by
  have hseed := (seed_foldl u fs h []).2.1 g
  have hrec := (reconstruct_foldl reg settlement ((fs.map fun f => (f, u f)).foldl seedField (h, [])).2 listed
    ((fs.map fun f => (f, u f)).foldl seedField (h, [])).1).2.2.2
  unfold seededHash initializeHash
  rw [hrec, hseed]

end seeding

end Sdp.Budget
