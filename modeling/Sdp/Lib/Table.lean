import Mathlib.Algebra.BigOperators.Group.Finset.Basic
import Mathlib.Algebra.Order.BigOperators.Group.List
import Mathlib.Algebra.Order.Group.Nat
import Mathlib.Data.List.Nodup
import Mathlib.Tactic.Abel

/-!
# Tables with a primary key

The rows of a table, no two with the same key. `insertNew` is `INSERT … ON CONFLICT DO NOTHING`
and `update` is an `UPDATE` of the row with one key, guarded by the rest of its `WHERE`.
-/

namespace Sdp.Lib

structure Table (κ ρ : Type) (key : ρ → κ) where
  rows : List ρ
  primaryKey : (rows.map key).Nodup

namespace Table

variable {κ ρ : Type} [DecidableEq κ] {key : ρ → κ}

def empty : Table κ ρ key := ⟨[], List.nodup_nil⟩

def find? (t : Table κ ρ key) (k : κ) : Option ρ := t.rows.find? fun r => key r = k

def insertNew (t : Table κ ρ key) (r : ρ) : Table κ ρ key :=
  if h : key r ∈ t.rows.map key then t
  else ⟨t.rows ++ [r], by
    rw [List.map_append, List.nodup_append]
    refine ⟨t.primaryKey, List.nodup_singleton _, ?_⟩
    rintro a ha b hb rfl
    obtain rfl : a = key r := by simpa using hb
    exact h ha⟩

/-- A row after the update. -/
def setRow (key : ρ → κ) (k : κ) (guard : ρ → Bool) (set : ρ → ρ) (r : ρ) : ρ :=
  if key r = k ∧ guard r then set r else r

theorem key_setRow {k : κ} {guard : ρ → Bool} {set : ρ → ρ} (hset : ∀ r, key (set r) = key r) (r : ρ) :
    key (setRow key k guard set r) = key r := by
  unfold setRow
  split
  · exact hset r
  · rfl

def update (t : Table κ ρ key) (k : κ) (guard : ρ → Bool) (set : ρ → ρ)
    (hset : ∀ r, key (set r) = key r) : Table κ ρ key :=
  ⟨t.rows.map (setRow key k guard set), by
    rw [List.map_map]
    have hkeys : key ∘ setRow key k guard set = key := funext (key_setRow hset)
    rw [hkeys]
    exact t.primaryKey⟩

/-- An `UPDATE` of every row that meets its `WHERE`. -/
def updateAll (t : Table κ ρ key) (guard : ρ → Bool) (set : ρ → ρ) (hset : ∀ r, key (set r) = key r) :
    Table κ ρ key :=
  ⟨t.rows.map fun r => if guard r then set r else r, by
    rw [List.map_map]
    have hkeys : (key ∘ fun r => if guard r then set r else r) = key := by
      funext r
      simp only [Function.comp_apply]
      split
      · exact hset r
      · rfl
    rw [hkeys]
    exact t.primaryKey⟩

/-- The row is written, in place of the one with its key if there is one. -/
def upsert (t : Table κ ρ key) (r : ρ) : Table κ ρ key :=
  ⟨t.rows.filter (fun r' => key r' ≠ key r) ++ [r], by
    rw [List.map_append, List.nodup_append]
    refine ⟨t.primaryKey.sublist (List.filter_sublist.map key), List.nodup_singleton _, ?_⟩
    rintro a ha b hb rfl
    obtain rfl : a = key r := by simpa using hb
    obtain ⟨r', hr', hkey⟩ := List.mem_map.mp ha
    exact of_decide_eq_true (List.mem_filter.mp hr').2 hkey⟩

/-- How `UPDATE` says that it found its row. -/
def matches? (t : Table κ ρ key) (k : κ) (guard : ρ → Bool) : Bool := (t.find? k).any guard

/-- `SELECT SUM(f)` -/
def sum {M : Type} [AddCommMonoid M] (t : Table κ ρ key) (f : ρ → M) : M := (t.rows.map f).sum

/-! ## Reading -/

@[simp] theorem find?_empty (k : κ) : (empty : Table κ ρ key).find? k = none := rfl

theorem key_of_find? {t : Table κ ρ key} {k : κ} {r : ρ} (h : t.find? k = some r) : key r = k := by
  simpa using List.find?_some h

theorem find?_eq_some_iff {t : Table κ ρ key} {k : κ} {r : ρ} :
    t.find? k = some r ↔ r ∈ t.rows ∧ key r = k := by
  constructor
  · exact fun h => ⟨List.mem_of_find?_eq_some h, key_of_find? h⟩
  · rintro ⟨hr, rfl⟩
    obtain ⟨r', hr'⟩ : ∃ r', t.find? (key r) = some r' := by
      rw [← Option.isSome_iff_exists]
      exact List.find?_isSome.mpr ⟨r, hr, by simp⟩
    -- Two rows with one key are the same row.
    have hkey := key_of_find? hr'
    have hmem := List.mem_of_find?_eq_some hr'
    rw [hr', List.inj_on_of_nodup_map t.primaryKey hmem hr hkey]

theorem find?_eq_none_iff {t : Table κ ρ key} {k : κ} : t.find? k = none ↔ k ∉ t.rows.map key := by
  simp [find?, List.find?_eq_none]

theorem mem_rows_iff {t : Table κ ρ key} {r : ρ} : r ∈ t.rows ↔ t.find? (key r) = some r := by
  simp [find?_eq_some_iff]

theorem matches?_iff {t : Table κ ρ key} {k : κ} {guard : ρ → Bool} :
    t.matches? k guard = true ↔ ∃ r, t.find? k = some r ∧ guard r = true := by
  simp [matches?, Option.any_eq_true]

/-! ## Writing -/

theorem find?_insertNew (t : Table κ ρ key) (r : ρ) (k : κ) :
    (t.insertNew r).find? k = if k = key r then (t.find? k).or (some r) else t.find? k := by
  unfold insertNew
  split
  · next h =>
    split
    · next hk =>
      subst hk
      cases hf : t.find? (key r) with
      | none => exact absurd h (find?_eq_none_iff.mp hf)
      | some r' => rfl
    · rfl
  · simp only [find?, List.find?_append]
    split
    · next hk => subst hk; simp
    · next hk =>
      have hne : ¬ key r = k := fun h => hk h.symm
      simp [hne]

@[simp] theorem find?_upsert (t : Table κ ρ key) (r : ρ) (k : κ) :
    (t.upsert r).find? k = if k = key r then some r else t.find? k := by
  unfold find? upsert
  rw [List.find?_append, List.find?_filter]
  split
  · next hk =>
    subst hk
    rw [List.find?_eq_none.mpr (by simp)]
    simp
  · next hk =>
    have hne : ¬ key r = k := fun h => hk h.symm
    simp only [List.find?_cons, List.find?_nil, hne, decide_false, Option.or_none]
    congr 1
    funext r'
    by_cases hr' : key r' = k
    · simp [hr', hk]
    · simp [hr']

theorem find?_update (t : Table κ ρ key) (k : κ) (guard : ρ → Bool) (set : ρ → ρ)
    (hset : ∀ r, key (set r) = key r) (k' : κ) :
    (t.update k guard set hset).find? k' =
      if k' = k then (t.find? k).map fun r => if guard r then set r else r else t.find? k' := by
  have hkeys : (fun r => decide (key r = k')) ∘ setRow key k guard set =
      fun r => decide (key r = k') := by
    funext r
    simp only [Function.comp_apply, key_setRow hset]
  unfold find? update
  rw [List.find?_map, hkeys]
  split
  · next hk =>
    subst hk
    cases hf : t.rows.find? (fun r => decide (key r = k')) with
    | none => rfl
    | some r =>
      have hr : key r = k' := key_of_find? (t := t) hf
      simp [setRow, hr]
  · next hk =>
    cases hf : t.rows.find? (fun r => decide (key r = k')) with
    | none => rfl
    | some r =>
      have hr : key r = k' := key_of_find? (t := t) hf
      simp [setRow, hr, hk]

theorem find?_updateAll (t : Table κ ρ key) (guard : ρ → Bool) (set : ρ → ρ) (hset : ∀ r, key (set r) = key r)
    (k : κ) : (t.updateAll guard set hset).find? k = (t.find? k).map fun r => if guard r then set r else r := by
  unfold find? updateAll
  rw [List.find?_map]
  congr 2
  funext r
  simp only [Function.comp_apply]
  split
  · rw [hset r]
  · rfl

theorem update_cases (t : Table κ ρ key) (k : κ) (guard : ρ → Bool) (set : ρ → ρ)
    (hset : ∀ r, key (set r) = key r) :
    (∀ k', (t.update k guard set hset).find? k' = t.find? k') ∨
      ∃ r, t.find? k = some r ∧ guard r = true ∧
        ∀ k', (t.update k guard set hset).find? k' = if k' = k then some (set r) else t.find? k' := by
  simp only [find?_update]
  cases hf : t.find? k with
  | none =>
    refine .inl fun k' => ?_
    split
    · next hk => rw [hk, hf]; rfl
    · rfl
  | some r =>
    cases hg : guard r with
    | true => exact .inr ⟨r, rfl, hg, by simp [hg]⟩
    | false =>
      refine .inl fun k' => ?_
      split
      · next hk => rw [hk, hf]; simp [hg]
      · rfl

theorem update_of_same {t : Table κ ρ key} {k : κ} {guard : ρ → Bool} {set : ρ → ρ} (hset : ∀ r, key (set r) = key r)
    (h : ∀ r, t.find? k = some r → guard r = true → set r = r) : t.update k guard set hset = t := by
  have hrows : t.rows.map (setRow key k guard set) = t.rows := by
    refine (List.map_congr_left fun r hr => ?_).trans t.rows.map_id
    unfold setRow
    split
    · next hk => exact h r (find?_eq_some_iff.mpr ⟨hr, hk.1⟩) hk.2
    · rfl
  obtain ⟨rows, hkeys⟩ := t
  simp only [update, mk.injEq]
  exact hrows

theorem update_eq_self {t : Table κ ρ key} {k : κ} {guard : ρ → Bool} {set : ρ → ρ} (hset : ∀ r, key (set r) = key r)
    (h : ∀ r, t.find? k = some r → guard r = false) : t.update k guard set hset = t := by
  refine update_of_same hset fun r hfind hguard => ?_
  rw [h r hfind] at hguard
  cases hguard

theorem row_update {t : Table κ ρ key} (k : κ) (guard : ρ → Bool) {set : ρ → ρ} (hset : ∀ r, key (set r) = key r)
    {k' : κ} {r : ρ} (h : t.find? k' = some r) : ∃ r', (t.update k guard set hset).find? k' = some r' ∧
      (r' = r ∨ k' = k ∧ guard r = true ∧ r' = set r) := by
  rcases t.update_cases k guard set hset with hsame | ⟨r₀, hr₀, hg, hrows⟩
  · exact ⟨r, by rw [hsame, h], .inl rfl⟩
  · by_cases hk : k' = k
    · subst hk
      obtain rfl : r₀ = r := Option.some.inj (hr₀.symm.trans h)
      exact ⟨set r₀, by rw [hrows, if_pos rfl], .inr ⟨rfl, hg, rfl⟩⟩
    · exact ⟨r, by rw [hrows, if_neg hk, h], .inl rfl⟩

theorem row_of_update {t : Table κ ρ key} {k : κ} {guard : ρ → Bool} {set : ρ → ρ} (hset : ∀ r, key (set r) = key r)
    {k' : κ} {r' : ρ} (h : (t.update k guard set hset).find? k' = some r') : ∃ r, t.find? k' = some r ∧
      (r' = r ∨ k' = k ∧ guard r = true ∧ r' = set r) := by
  rcases t.update_cases k guard set hset with hsame | ⟨r₀, hr₀, hg, hrows⟩
  · exact ⟨r', by rw [← hsame, h], .inl rfl⟩
  · rw [hrows] at h
    split at h
    · next hk =>
      cases h
      exact ⟨r₀, by rw [hk, hr₀], .inr ⟨hk, hg, rfl⟩⟩
    · exact ⟨r', h, .inl rfl⟩

theorem row_of_updateAll {t : Table κ ρ key} {guard : ρ → Bool} {set : ρ → ρ} (hset : ∀ r, key (set r) = key r) {k : κ}
    {r' : ρ} (h : (t.updateAll guard set hset).find? k = some r') : ∃ r, t.find? k = some r ∧
      (guard r = false ∧ r' = r ∨ guard r = true ∧ r' = set r) := by
  rw [find?_updateAll] at h
  obtain ⟨r, hr, rfl⟩ := Option.map_eq_some_iff.mp h
  refine ⟨r, hr, ?_⟩
  cases hg : guard r with
  | true => exact .inr ⟨rfl, rfl⟩
  | false => exact .inl ⟨rfl, rfl⟩

theorem returning_eq_some {t : Table κ ρ key} {k : κ} {guard : ρ → Bool} {set : ρ → ρ} {r : ρ} :
    ((t.find? k).filter guard).map set = some r ↔ ∃ r₀, t.find? k = some r₀ ∧ guard r₀ = true ∧ set r₀ = r := by
  simp [Option.filter_eq_some_iff, and_assoc]

theorem find?_update_returning {t : Table κ ρ key} {k : κ} {guard : ρ → Bool} {set : ρ → ρ}
    (hset : ∀ r, key (set r) = key r) {r : ρ} (h : ((t.find? k).filter guard).map set = some r) :
    (t.update k guard set hset).find? k = some r := by
  obtain ⟨r₀, h₀, rfl⟩ := Option.map_eq_some_iff.mp h
  obtain ⟨hf, hg⟩ := Option.filter_eq_some_iff.mp h₀
  simp [find?_update, hf, hg]

/-! ## Later tables -/

/-- Every row is still there, or a row that `R` holds of it is. -/
def Evolves (R : ρ → ρ → Prop) (t t' : Table κ ρ key) : Prop :=
  ∀ k r, t.find? k = some r → ∃ r', t'.find? k = some r' ∧ R r r'

/-- What a row that was read at some time has become. -/
def Seen (R : ρ → ρ → Prop) (t : Table κ ρ key) (r : ρ) : Prop := ∃ r', t.find? (key r) = some r' ∧ R r r'

section

variable {R : ρ → ρ → Prop} {t t' : Table κ ρ key}

theorem Evolves.refl [Std.Refl R] : Evolves R t t := fun _ r h => ⟨r, h, Std.Refl.refl r⟩

theorem evolves_update [Std.Refl R] {k : κ} {guard : ρ → Bool} {set : ρ → ρ} (hset : ∀ r, key (set r) = key r)
    (h : ∀ r, t.find? k = some r → guard r = true → R r (set r)) : Evolves R t (t.update k guard set hset) := by
  intro k' r hr
  obtain ⟨r', hr', rfl | ⟨rfl, hg, rfl⟩⟩ := row_update k guard hset hr
  · exact ⟨r', hr', Std.Refl.refl r'⟩
  · exact ⟨set r, hr', h r hr hg⟩

theorem evolves_updateAll [Std.Refl R] {guard : ρ → Bool} {set : ρ → ρ} (hset : ∀ r, key (set r) = key r)
    (h : ∀ r, R r (set r)) : Evolves R t (t.updateAll guard set hset) := by
  intro k r hr
  refine ⟨if guard r then set r else r, by rw [find?_updateAll, hr]; rfl, ?_⟩
  split
  · exact h r
  · exact Std.Refl.refl r

theorem evolves_insertNew [Std.Refl R] (r₀ : ρ) : Evolves R t (t.insertNew r₀) := by
  intro k r hr
  refine ⟨r, ?_, Std.Refl.refl r⟩
  rw [find?_insertNew, hr]
  simp

theorem seen_of_find? [Std.Refl R] {k : κ} {r : ρ} (h : t.find? k = some r) : Seen R t r := by
  obtain rfl := key_of_find? h
  exact ⟨r, h, Std.Refl.refl r⟩

theorem Seen.evolves [IsTrans ρ R] {r : ρ} (h : Seen R t r) (ht : Evolves R t t') : Seen R t' r := by
  obtain ⟨r₁, hr₁, h₁⟩ := h
  obtain ⟨r₂, hr₂, h₂⟩ := ht _ r₁ hr₁
  exact ⟨r₂, hr₂, IsTrans.trans r r₁ r₂ h₁ h₂⟩

end

/-! ## Sums -/

variable {M : Type} [AddCommMonoid M]

theorem sum_congr {t : Table κ ρ key} {f g : ρ → M} (h : ∀ k r, t.find? k = some r → f r = g r) :
    t.sum f = t.sum g := by
  unfold sum
  rw [List.map_congr_left fun r hr => h (key r) r (mem_rows_iff.mp hr)]

/-- What the row with a key adds to a sum. -/
def valueAt (t : Table κ ρ key) (f : ρ → M) (k : κ) : M := (t.find? k).elim 0 f

theorem sum_filter_key (t : Table κ ρ key) (f : ρ → M) (k : κ) :
    ((t.rows.filter fun r => key r = k).map f).sum = t.valueAt f k := by
  obtain ⟨rows, hkeys⟩ := t
  unfold valueAt find?
  induction rows with
  | nil => rfl
  | cons r rows ih =>
    obtain ⟨hr, hkeys⟩ := List.nodup_cons.mp hkeys
    by_cases hk : key r = k
    · have hrest : rows.filter (fun r' => key r' = k) = [] := by
        rw [List.filter_eq_nil_iff]
        intro r' hr' hk'
        exact hr (List.mem_map.mpr ⟨r', hr', (of_decide_eq_true hk').trans hk.symm⟩)
      simp [hk, hrest]
    · simpa [hk] using ih hkeys

theorem sum_eq_sum_valueAt {t : Table κ ρ key} {S : Finset κ} (hS : ∀ r ∈ t.rows, key r ∈ S) (f : ρ → M) :
    t.sum f = ∑ k ∈ S, t.valueAt f k := by
  have hkeys : t.rows.map f = (t.rows.map key).map (t.valueAt f) := by
    rw [List.map_map]
    refine List.map_congr_left fun r hr => ?_
    simp [valueAt, mem_rows_iff.mp hr]
  unfold sum
  rw [hkeys, ← List.sum_toFinset _ t.primaryKey]
  refine Finset.sum_subset (fun k hk => ?_) (fun k _ hk => ?_)
  · obtain ⟨r, hr, rfl⟩ := List.mem_map.mp (List.mem_toFinset.mp hk)
    exact hS r hr
  · rw [List.mem_toFinset, ← find?_eq_none_iff] at hk
    simp [valueAt, hk]

theorem sum_change (t t' : Table κ ρ key) (f g : ρ → M) (k : κ)
    (h : ∀ k', k' ≠ k → t'.valueAt g k' = t.valueAt f k') : t'.sum g + t.valueAt f k = t.sum f + t'.valueAt g k := by
  let S : Finset κ := insert k ((t.rows.map key).toFinset ∪ (t'.rows.map key).toFinset)
  have hS : ∀ r ∈ t.rows, key r ∈ S := by
    intro r hr
    simp only [S, Finset.mem_insert, Finset.mem_union, List.mem_toFinset]
    exact .inr (.inl (List.mem_map_of_mem hr))
  have hS' : ∀ r ∈ t'.rows, key r ∈ S := by
    intro r hr
    simp only [S, Finset.mem_insert, Finset.mem_union, List.mem_toFinset]
    exact .inr (.inr (List.mem_map_of_mem hr))
  have hk : k ∈ S := Finset.mem_insert_self ..
  have hrest : ∑ k' ∈ S.erase k, t'.valueAt g k' = ∑ k' ∈ S.erase k, t.valueAt f k' :=
    Finset.sum_congr rfl fun k' hk' => h k' (Finset.ne_of_mem_erase hk')
  rw [sum_eq_sum_valueAt hS, sum_eq_sum_valueAt hS', ← Finset.add_sum_erase S _ hk, ← Finset.add_sum_erase S _ hk, hrest]
  abel

theorem sum_eq {t t' : Table κ ρ key} {f g : ρ → M} (h : ∀ k, t'.valueAt g k = t.valueAt f k) :
    t'.sum g = t.sum f := by
  let S : Finset κ := (t.rows.map key).toFinset ∪ (t'.rows.map key).toFinset
  have hS : ∀ r ∈ t.rows, key r ∈ S := fun r hr =>
    Finset.mem_union_left _ (List.mem_toFinset.mpr (List.mem_map_of_mem hr))
  have hS' : ∀ r ∈ t'.rows, key r ∈ S := fun r hr =>
    Finset.mem_union_right _ (List.mem_toFinset.mpr (List.mem_map_of_mem hr))
  rw [sum_eq_sum_valueAt hS, sum_eq_sum_valueAt hS']
  exact Finset.sum_congr rfl fun k _ => h k

theorem sum_set {t : Table κ ρ key} {k : κ} {r : ρ} (h : t.find? k = some r) (set : ρ → ρ)
    (hset : ∀ r, key (set r) = key r) (f : ρ → M) :
    (t.update k (fun _ => true) set hset).sum f + f r = t.sum f + f (set r) := by
  have hchange := sum_change t (t.update k (fun _ => true) set hset) f f k fun k' hk' => by
    simp only [valueAt, find?_update, if_neg hk']
  simpa [valueAt, find?_update, h] using hchange

theorem sum_insertNew {t : Table κ ρ key} {r : ρ} (h : t.find? (key r) = none) (f : ρ → M) :
    (t.insertNew r).sum f = t.sum f + f r := by
  rw [insertNew, dif_neg (find?_eq_none_iff.mp h)]
  simp [sum]

theorem sum_le {t : Table κ ρ key} {f g : ρ → Nat} (h : ∀ k r, t.find? k = some r → f r ≤ g r) :
    t.sum f ≤ t.sum g :=
  List.sum_le_sum fun r hr => h (key r) r (mem_rows_iff.mp hr)

omit [DecidableEq κ] in
theorem sum_add (t : Table κ ρ key) (f g : ρ → M) : (t.sum fun r => f r + g r) = t.sum f + t.sum g :=
  List.sum_map_add

omit [DecidableEq κ] in
/-- A sum over the rows that a list names is the sum over the list, as long as it counts nothing for a name without
a row. -/
theorem sum_named {α : Type} [DecidableEq α] {t : Table κ ρ key} {name : ρ → α} (hname : (t.rows.map name).Nodup)
    {l : List α} (hl : l.Nodup) (g : α → M) (hrow : ∀ a ∈ l, g a ≠ 0 → a ∈ t.rows.map name) :
    (t.sum fun r => if name r ∈ l then g (name r) else 0) = (l.map g).sum := by
  have hrows : (t.sum fun r => if name r ∈ l then g (name r) else 0) =
      ∑ a ∈ (t.rows.map name).toFinset, if a ∈ l then g a else 0 := by
    rw [List.sum_toFinset _ hname, List.map_map]
    rfl
  rw [hrows, ← Finset.sum_filter, ← List.sum_toFinset g hl]
  refine Finset.sum_subset (fun a ha => ?_) (fun a ha hnot => ?_)
  · exact List.mem_toFinset.mpr (Finset.mem_filter.mp ha).2
  · by_contra hg
    have hmem := List.mem_toFinset.mp ha
    exact hnot (Finset.mem_filter.mpr ⟨List.mem_toFinset.mpr (hrow a hmem hg), hmem⟩)

end Table

end Sdp.Lib
