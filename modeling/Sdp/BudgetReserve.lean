import Sdp.BudgetRedis

/-!
# All or nothing

RESERVE_LUA reads every field before it writes one.
-/

namespace Sdp.Budget

def ScopeLimit.limit (scope : ScopeLimit) : Window → Nat
  | .hour => scope.hourlyLamports
  | .day => scope.dailyLamports

/-- What an admission adds to a field. -/
def BucketHash.added (h : BucketHash) (a : AttemptId) (amount : Nat) (fields : List ScopeField) (f : ScopeField) :
    Int :=
  if h.counts a fields f then 0 else amount

theorem bucket_mapBuckets (r : Redis) (b : Buckets) (change : Window → BucketHash → BucketHash) (w : Window) :
    (r.mapBuckets b change).bucket b w = change w (r.bucket b w) := by
  unfold Redis.mapBuckets Redis.bucket
  exact if_pos rfl

theorem used_add {h : BucketHash} {a : AttemptId} {amount : Nat} {fields : List ScopeField} (hfields : fields.Nodup)
    {f : ScopeField} (hf : f ∈ fields) :
    (reserveHash a amount fields h).used f = h.used f + h.added a amount fields f := by
  rw [used_reserveHash a amount hfields]
  unfold BucketHash.added
  by_cases hcounts : h.counts a fields f
  · simp [hcounts]
  · simp [hcounts, hf]

theorem overLimit_iff {h : BucketHash} {a : AttemptId} {amount limit : Nat} {fields : List ScopeField}
    {f : ScopeField} :
    overLimit (h.counts a fields f) (h.used f) amount limit = true ↔ limit < h.used f + h.added a amount fields f := by
  unfold overLimit BucketHash.added
  split <;> simp

theorem checkLimits_none {r : Redis} {b : Buckets} {a : AttemptId} {amount : Nat} {fields : List ScopeField} {i : Nat}
    {scopes : List ScopeLimit} (h : checkLimits r b a amount fields i scopes = none) :
    ∀ scope ∈ scopes, amount ≤ scope.perTransactionLamports ∧
      ∀ w, (r.bucket b w).used scope.field + (r.bucket b w).added a amount fields scope.field ≤ scope.limit w := by
  induction scopes generalizing i with
  | nil => simp
  | cons scope rest ih =>
    unfold checkLimits at h
    dsimp only at h
    split at h
    · cases h
    · next hamount =>
      split at h
      · cases h
      · next hroom =>
        intro scope' hmem
        rcases List.mem_cons.mp hmem with rfl | hmem
        · simp only [Bool.or_eq_true, overLimit_iff, not_or, not_lt] at hroom
          refine ⟨by omega, fun w => ?_⟩
          cases w
          · exact hroom.1
          · exact hroom.2
        · exact ih h scope' hmem

/-- Whatever Redis holds: an admission is within every limit of every scope and adds the amount to each field
that did not count this attempt yet, and any other reply leaves Redis as it was. The fields of a call are
distinct (`scopeFields_nodup`). -/
theorem reserve_all_or_nothing (r : Redis) (b : Buckets) (a : AttemptId) (amount : Nat) (scopes : List ScopeLimit)
    (hscopes : (scopes.map ScopeLimit.field).Nodup) :
    let result := reserveScript r b a amount scopes
    (result.2.outcome = .admitted →
        ∀ scope ∈ scopes, amount ≤ scope.perTransactionLamports ∧
          ∀ w, (result.1.bucket b w).used scope.field ≤ scope.limit w ∧
            (result.1.bucket b w).used scope.field = (r.bucket b w).used scope.field +
              if (r.bucket b w).marked a (scopes.map ScopeLimit.field) scope.field then 0 else (amount : Int)) ∧
      (result.2.outcome ≠ .admitted → result.1 = r) := by
  intro result
  rcases reserveScript_cases r b a amount scopes with ⟨hrefused, hsame⟩ | ⟨hresult, -, -, -, hlimits⟩
  · exact ⟨fun h => absurd h hrefused, fun _ => hsame⟩
  · have hadmitted : result.2.outcome = .admitted := by
      simp only [result, hresult]
      rfl
    refine ⟨fun _ scope hscope => ?_, fun h => absurd hadmitted h⟩
    obtain ⟨hamount, hroom⟩ := checkLimits_none hlimits scope hscope
    refine ⟨hamount, fun w => ?_⟩
    have hbucket : result.1.bucket b w = reserveHash a amount (scopes.map ScopeLimit.field) (r.bucket b w) := by
      simp only [result, hresult]
      exact bucket_mapBuckets r b (fun _ => reserveHash a amount (scopes.map ScopeLimit.field)) w
    have hused : (result.1.bucket b w).used scope.field = (r.bucket b w).used scope.field +
        (r.bucket b w).added a amount (scopes.map ScopeLimit.field) scope.field := by
      rw [hbucket]
      exact used_add hscopes (List.mem_map_of_mem hscope)
    exact ⟨hused ▸ hroom w, hused⟩

/-- An attempt that a rebuilt hash counts for its global field only. -/
def adoptedRedis : Redis :=
  sampleRedis.mapBuckets ⟨"10:00", "00:00"⟩ fun _ h => h.setOwnerField ⟨"sbr_3", 1⟩ .global (some 5)

theorem adopted_reserve :
    let result := reserveScript adoptedRedis ⟨"10:00", "00:00"⟩ ⟨"sbr_3", 1⟩ 5
      ((scopeFields "org_1" none).map (scopeLimit samplePolicies))
    (result.1.bucket ⟨"10:00", "00:00"⟩ .hour).used .global = 10 ∧
      (result.1.bucket ⟨"10:00", "00:00"⟩ .hour).used (.organization "org_1") = 15 ∧
      (result.1.bucket ⟨"10:00", "00:00"⟩ .day).used .global ≤ 20 := by
  have h := (reserve_all_or_nothing adoptedRedis ⟨"10:00", "00:00"⟩ ⟨"sbr_3", 1⟩ 5
    ((scopeFields "org_1" none).map (scopeLimit samplePolicies)) (by decide)).1 (by decide)
  have hglobal := h (scopeLimit samplePolicies .global) (by decide)
  have horganization := h (scopeLimit samplePolicies (.organization "org_1")) (by decide)
  exact ⟨(hglobal.2 .hour).2.trans (by decide), (horganization.2 .hour).2.trans (by decide), (hglobal.2 .day).1⟩

end Sdp.Budget
