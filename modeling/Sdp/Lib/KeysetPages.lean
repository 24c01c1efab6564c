import Mathlib.Data.List.Sort
import Mathlib.Data.List.Count

/-!
# Pages behind a key

A query returns the first rows behind a key, in descending order of their keys, and one more row tells that there are
others. Whoever goes on behind the last row of each page sees no row twice, however the rows change in between, and every
row that is there all along; pages of rows that do not change are the whole list.
-/

namespace Sdp.Lib.Keyset

variable {ρ κ : Type} [LinearOrder κ] (key : ρ → κ)

/-- The rows in the order of the list. -/
def descending (rows : List ρ) : List ρ := rows.mergeSort fun a b => decide (key b ≤ key a)

/-- The rows behind a key, all of them where there is none. -/
def behind (before : Option κ) (rows : List ρ) : List ρ := descending key (rows.filter fun r => before.all (key r < ·))

/-- `LIMIT limit + 1`, of which the last one only tells that there is more. -/
def page (rows : List ρ) (before : Option κ) (limit : Nat) : List ρ × Bool :=
  let fetched := (behind key before rows).take (limit + 1)
  (fetched.take limit, limit < fetched.length)

/-- The key that the next page starts behind. -/
def next (page : List ρ × Bool) : Option κ := if page.2 then page.1.getLast?.map key else none

/-- The pages that a reader sees who goes on as long as there is more. The rows are those of the moment of each page. -/
def walk (limit : Nat) : List (List ρ) → Option κ → List (List ρ × Bool)
  | [], _ => []
  | rows :: later, before =>
    let current := page key rows before limit
    current :: match next key current with
      | none => []
      | some k => walk limit later (some k)

variable {key}

/-! ## One page -/

theorem descending_perm (rows : List ρ) : (descending key rows).Perm rows := List.mergeSort_perm _ _

theorem descending_sorted (rows : List ρ) : (descending key rows).Pairwise fun a b => key b ≤ key a := by
  have hsorted : (descending key rows).Pairwise fun a b => decide (key b ≤ key a) = true :=
    List.pairwise_mergeSort (fun a b c hab hbc => by simpa using le_trans (by simpa using hbc) (by simpa using hab))
      (fun a b => by simpa using le_total (key b) (key a)) rows
  exact hsorted.imp (by simp)

theorem mem_behind {before : Option κ} {rows : List ρ} {r : ρ} :
    r ∈ behind key before rows ↔ r ∈ rows ∧ ∀ k ∈ before, key r < k := by
  rw [behind, (descending_perm _).mem_iff, List.mem_filter]
  cases before <;> simp

theorem behind_sorted {before : Option κ} {rows : List ρ} (h : (rows.map key).Nodup) :
    (behind key before rows).Pairwise fun a b => key b < key a := by
  have hnodup : ((behind key before rows).map key).Nodup := by
    refine ((descending_perm _).map key).nodup_iff.mpr ?_
    exact h.sublist (List.filter_sublist.map key)
  rw [List.Nodup, List.pairwise_map] at hnodup
  exact (hnodup.and (descending_sorted _)).imp fun hne => lt_of_le_of_ne hne.2 (Ne.symm hne.1)

theorem page_eq (rows : List ρ) (before : Option κ) (limit : Nat) :
    page key rows before limit =
      ((behind key before rows).take limit, decide (limit < (behind key before rows).length)) := by
  unfold page
  refine Prod.ext ?_ ?_
  · simp only [List.take_take]
    rw [Nat.min_eq_left (Nat.le_succ limit)]
  · simp only [List.length_take, decide_eq_decide]
    omega

theorem next_eq_some {rows : List ρ} {before : Option κ} {limit : Nat} {k : κ}
    (h : next key (page key rows before limit) = some k) :
    limit < (behind key before rows).length ∧ ∃ r, ((behind key before rows).take limit).getLast? = some r ∧ key r = k := by
  rw [page_eq, next] at h
  split at h
  · next hmore => exact ⟨of_decide_eq_true hmore, Option.map_eq_some_iff.mp h⟩
  · cases h

theorem descending_unique {l l' : List ρ} (h : l.Pairwise fun a b => key b < key a)
    (h' : l'.Pairwise fun a b => key b < key a) (hmem : ∀ r, r ∈ l ↔ r ∈ l') : l = l' := by
  have hnodup {l : List ρ} (h : l.Pairwise fun a b => key b < key a) : l.Nodup :=
    h.imp fun hlt heq => absurd (heq ▸ hlt) (lt_irrefl _)
  have hperm : l.Perm l' := (List.perm_ext_iff_of_nodup (hnodup h) (hnodup h')).mpr hmem
  exact hperm.eq_of_pairwise (fun a b _ _ hab hba => absurd (hab.trans hba) (lt_irrefl _)) h h'

theorem mem_page {rows : List ρ} {before : Option κ} {limit : Nat} {r last : ρ} (hnodup : (rows.map key).Nodup)
    (hlast : ((behind key before rows).take limit).getLast? = some last) (hr : r ∈ behind key before rows)
    (hnot : ¬ key r < key last) : r ∈ (behind key before rows).take limit := by
  have hsorted : (behind key before rows).Pairwise fun a b => key b < key a := behind_sorted hnodup
  rw [← List.take_append_drop limit (behind key before rows)] at hr hsorted
  rcases List.mem_append.mp hr with hr | hr
  · exact hr
  · exact absurd ((List.pairwise_append.mp hsorted).2.2 last (List.mem_of_getLast? hlast) r hr) hnot

theorem behind_next {rows : List ρ} {before : Option κ} {limit : Nat} {r : ρ} (hnodup : (rows.map key).Nodup)
    (hr : ((behind key before rows).take limit).getLast? = some r) :
    behind key (some (key r)) rows = (behind key before rows).drop limit := by
  have hsorted : (behind key before rows).Pairwise fun a b => key b < key a := behind_sorted hnodup
  refine descending_unique (behind_sorted hnodup) (hsorted.sublist (List.drop_sublist _ _)) fun x => ?_
  rw [← List.take_append_drop limit (behind key before rows)] at hsorted
  obtain ⟨htake, -, hcross⟩ := List.pairwise_append.mp hsorted
  obtain ⟨init, hinit⟩ := List.getLast?_eq_some_iff.mp hr
  have hlast : ∀ y ∈ (behind key before rows).take limit, key r ≤ key y := by
    rw [hinit] at htake ⊢
    intro y hy
    rcases List.mem_append.mp hy with hy | hy
    · exact le_of_lt ((List.pairwise_append.mp htake).2.2 y hy r List.mem_cons_self)
    · exact le_of_eq (congrArg key (List.mem_singleton.mp hy)).symm
  have hmem : r ∈ (behind key before rows).take limit := by
    rw [hinit]
    exact List.mem_append_right _ List.mem_cons_self
  have hr' := mem_behind.mp (List.mem_of_mem_take hmem)
  constructor
  · intro hx
    obtain ⟨hrow, hlt⟩ := mem_behind.mp hx
    have hlt := hlt _ rfl
    have hx' : x ∈ behind key before rows := mem_behind.mpr ⟨hrow, fun k hk => hlt.trans (hr'.2 k hk)⟩
    rw [← List.take_append_drop limit (behind key before rows)] at hx'
    rcases List.mem_append.mp hx' with hx' | hx'
    · exact absurd (hlast x hx') (not_le_of_gt hlt)
    · exact hx'
  · intro hx
    refine mem_behind.mpr ⟨(mem_behind.mp (List.mem_of_mem_drop hx)).1, fun k hk => ?_⟩
    obtain rfl := Option.some.inj hk
    exact hcross r hmem x hx

/-! ## A walk -/

/-- The rows of all pages. -/
def listed (pages : List (List ρ × Bool)) : List ρ := pages.flatMap (·.1)

/-- A page tells that it is the last one. -/
def Ended (pages : List (List ρ × Bool)) : Prop := ∃ page ∈ pages, page.2 = false

theorem mem_listed {limit : Nat} {tables : List (List ρ)} {before : Option κ} {r : ρ}
    (h : r ∈ listed (walk key limit tables before)) : (∃ rows ∈ tables, r ∈ rows) ∧ ∀ k ∈ before, key r < k := by
  induction tables generalizing before with
  | nil => cases h
  | cons rows later ih =>
    rw [walk, listed, List.flatMap_cons, List.mem_append] at h
    rcases h with h | h
    · rw [page_eq] at h
      obtain ⟨hrow, hbefore⟩ := mem_behind.mp (List.mem_of_mem_take h)
      exact ⟨⟨rows, List.mem_cons_self, hrow⟩, hbefore⟩
    · cases hnext : next key (page key rows before limit) with
      | none =>
        rw [hnext] at h
        cases h
      | some k =>
        rw [hnext] at h
        obtain ⟨⟨rows', hrows', hr⟩, hlt⟩ := ih h
        refine ⟨⟨rows', List.mem_cons_of_mem _ hrows', hr⟩, fun k' hk' => ?_⟩
        obtain ⟨-, last, hlast, rfl⟩ := next_eq_some hnext
        have hmem := List.mem_of_mem_take (List.mem_of_getLast? hlast)
        exact (hlt _ rfl).trans ((mem_behind.mp hmem).2 k' hk')

/-- Nothing is listed twice, and everything in descending order. -/
theorem listed_sorted {limit : Nat} {tables : List (List ρ)} (hnodup : ∀ rows ∈ tables, (rows.map key).Nodup)
    (before : Option κ) : (listed (walk key limit tables before)).Pairwise fun a b => key b < key a := by
  induction tables generalizing before with
  | nil => exact .nil
  | cons rows later ih =>
    have hrows : (behind key before rows).Pairwise fun a b => key b < key a :=
      behind_sorted (hnodup rows List.mem_cons_self)
    rw [walk, listed, List.flatMap_cons, List.pairwise_append]
    have hpage : (page key rows before limit).1 = (behind key before rows).take limit := by rw [page_eq]
    refine ⟨hpage ▸ hrows.sublist (List.take_sublist _ _), ?_, fun a ha b hb => ?_⟩
    · cases next key (page key rows before limit) with
      | none => exact .nil
      | some k => exact ih (fun rows' h => hnodup rows' (List.mem_cons_of_mem _ h)) _
    · cases hnext : next key (page key rows before limit) with
      | none =>
        rw [hnext] at hb
        cases hb
      | some k =>
        rw [hnext] at hb
        obtain ⟨-, last, hlast, rfl⟩ := next_eq_some hnext
        refine lt_of_lt_of_le ((mem_listed hb).2 _ rfl) ?_
        -- Nothing on the page comes after its last row.
        obtain ⟨init, hinit⟩ := List.getLast?_eq_some_iff.mp hlast
        have hsorted := hrows.sublist (List.take_sublist limit _)
        rw [hpage, hinit] at ha
        rw [hinit] at hsorted
        rcases List.mem_append.mp ha with ha | ha
        · exact le_of_lt ((List.pairwise_append.mp hsorted).2.2 a ha last List.mem_cons_self)
        · exact le_of_eq (congrArg key (List.mem_singleton.mp ha)).symm

theorem next_of_more {rows : List ρ} {before : Option κ} {limit : Nat} (hlimit : 0 < limit)
    (hmore : (page key rows before limit).2 = true) :
    ∃ r, ((behind key before rows).take limit).getLast? = some r ∧
      next key (page key rows before limit) = some (key r) := by
  have hlength : limit < (behind key before rows).length := by
    rw [page_eq] at hmore
    exact of_decide_eq_true hmore
  have hne : (behind key before rows).take limit ≠ [] := by
    rw [Ne, List.take_eq_nil_iff, not_or]
    exact ⟨hlimit.ne', List.ne_nil_of_length_pos (by omega)⟩
  refine ⟨_, List.getLast?_eq_some_getLast hne, ?_⟩
  rw [next, if_pos hmore, page_eq, List.getLast?_eq_some_getLast hne]
  rfl

/-- A row that is there all along is listed by a walk that comes to its end. -/
theorem mem_listed_of_ended {limit : Nat} (hlimit : 0 < limit) {tables : List (List ρ)}
    (hnodup : ∀ rows ∈ tables, (rows.map key).Nodup) {before : Option κ}
    (hended : Ended (walk key limit tables before)) {r : ρ} (hr : ∀ rows ∈ tables, r ∈ rows)
    (hbefore : ∀ k ∈ before, key r < k) : r ∈ listed (walk key limit tables before) := by
  induction tables generalizing before with
  | nil =>
    obtain ⟨page, hpage, -⟩ := hended
    cases hpage
  | cons rows later ih =>
    have hmem : r ∈ behind key before rows := mem_behind.mpr ⟨hr rows List.mem_cons_self, hbefore⟩
    obtain ⟨last, hlast, hfalse⟩ := hended
    rw [walk] at hlast ⊢
    rw [listed, List.flatMap_cons, List.mem_append]
    cases hmore : (page key rows before limit).2 with
    | false =>
      left
      rw [page_eq] at hmore ⊢
      rwa [List.take_of_length_le (Nat.le_of_not_lt (of_decide_eq_false hmore))]
    | true =>
      obtain ⟨k, hk, hnext⟩ := next_of_more hlimit hmore
      rw [hnext] at hlast ⊢
      have hended : Ended (walk key limit later (some (key k))) := by
        rcases List.mem_cons.mp hlast with rfl | hlast
        · rw [hmore] at hfalse
          cases hfalse
        · exact ⟨last, hlast, hfalse⟩
      by_cases hlt : key r < key k
      · right
        refine ih (fun rows' h => hnodup rows' (List.mem_cons_of_mem _ h)) hended
          (fun rows' h => hr rows' (List.mem_cons_of_mem _ h)) fun k' hk' => ?_
        exact Option.some.inj hk' ▸ hlt
      · left
        rw [page_eq]
        exact mem_page (hnodup rows List.mem_cons_self) hk hmem hlt

/-! ## Rows that do not change -/

theorem length_of_more {limit : Nat} {tables : List (List ρ)} {before : Option κ} {page : List ρ × Bool}
    (h : page ∈ walk key limit tables before) (hmore : page.2 = true) : page.1.length = limit := by
  induction tables generalizing before with
  | nil => cases h
  | cons rows later ih =>
    rw [walk] at h
    rcases List.mem_cons.mp h with rfl | h
    · rw [page_eq] at hmore ⊢
      exact List.length_take_of_le (le_of_lt (of_decide_eq_true hmore))
    · split at h
      · cases h
      · exact ih h

theorem walk_replicate {limit : Nat} (hlimit : 0 < limit) {rows : List ρ} (hnodup : (rows.map key).Nodup) {n : Nat}
    {before : Option κ} (hn : (behind key before rows).length ≤ n * limit) (hpos : 0 < n) :
    Ended (walk key limit (List.replicate n rows) before) ∧
      listed (walk key limit (List.replicate n rows) before) = behind key before rows := by
  induction n generalizing before with
  | zero => exact absurd hpos (lt_irrefl 0)
  | succ n ih =>
    rw [List.replicate_succ, walk]
    cases hmore : (page key rows before limit).2 with
    | false =>
      have hnext : next key (page key rows before limit) = none := by rw [next, hmore]; rfl
      rw [hnext]
      refine ⟨⟨_, List.mem_cons_self, hmore⟩, ?_⟩
      rw [page_eq] at hmore ⊢
      simp [listed, List.take_of_length_le (Nat.le_of_not_lt (of_decide_eq_false hmore))]
    | true =>
      obtain ⟨r, hr, hnext⟩ := next_of_more hlimit hmore
      have hlater := behind_next hnodup hr
      rw [hnext]
      have hlength : (behind key (some (key r)) rows).length ≤ n * limit := by
        rw [hlater, List.length_drop]
        rw [Nat.succ_mul] at hn
        omega
      have hpos' : 0 < n := by
        rw [page_eq] at hmore
        have hlt := of_decide_eq_true hmore
        rcases Nat.eq_zero_or_pos n with rfl | hpos'
        · omega
        · exact hpos'
      obtain ⟨⟨last, hlast, hfalse⟩, hlisted⟩ := ih hlength hpos'
      refine ⟨⟨last, List.mem_cons_of_mem _ hlast, hfalse⟩, ?_⟩
      rw [listed, List.flatMap_cons, ← listed, hlisted, hlater, page_eq]
      exact List.take_append_drop _ _

end Sdp.Lib.Keyset
