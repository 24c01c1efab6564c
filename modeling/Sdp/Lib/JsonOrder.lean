import Sdp.Lib.JsonTree
import Mathlib.Algebra.Order.Ring.Int
import Mathlib.Data.List.Nodup

/-!
# The order of members

`reorder` puts the members of every object in another order. Sorting by a comparison of keys undoes any other order
where no two keys of an object are equal for it, and only there.
-/

open Std

namespace Sdp.Lib.Json

abbrev Members (α : Type) := List (String × α)

mutual

/-- Every object with its members in another order. -/
def Tree.reorder (f : Members Tree → Members Tree) : Tree → Tree
  | .null => .null
  | .bool b => .bool b
  | .num n => .num n
  | .str s => .str s
  | .arr items => .arr (reorderItems f items)
  | .obj members => .obj (f (reorderMembers f members))

def reorderItems (f : Members Tree → Members Tree) : List Tree → List Tree
  | [] => []
  | t :: items => t.reorder f :: reorderItems f items

def reorderMembers (f : Members Tree → Members Tree) : Members Tree → Members Tree
  | [] => []
  | (key, t) :: members => (key, t.reorder f) :: reorderMembers f members

end

mutual

/-- The keys of every object meet a condition. -/
def Tree.Everywhere (D : List String → Prop) : Tree → Prop
  | .arr items => ItemsEverywhere D items
  | .obj members => D (members.map Prod.fst) ∧ MembersEverywhere D members
  | _ => True

def ItemsEverywhere (D : List String → Prop) : List Tree → Prop
  | [] => True
  | t :: items => t.Everywhere D ∧ ItemsEverywhere D items

def MembersEverywhere (D : List String → Prop) : Members Tree → Prop
  | [] => True
  | (_, t) :: members => t.Everywhere D ∧ MembersEverywhere D members

end

section

variable {f g : Members Tree → Members Tree} {D : List String → Prop}

/-- What is done to the value of a member. -/
def reorderValue (f : Members Tree → Members Tree) (m : String × Tree) : String × Tree := (m.1, m.2.reorder f)

@[simp] theorem reorder_arr (f : Members Tree → Members Tree) (items : List Tree) :
    (Tree.arr items).reorder f = .arr (items.map fun t => t.reorder f) := by
  have hitems : reorderItems f items = items.map fun t => t.reorder f := by
    induction items with
    | nil => rfl
    | cons t items ih => exact congrArg (t.reorder f :: ·) ih
  exact congrArg Tree.arr hitems

@[simp] theorem reorder_obj (f : Members Tree → Members Tree) (members : Members Tree) :
    (Tree.obj members).reorder f = .obj (f (members.map (reorderValue f))) := by
  have hmembers : reorderMembers f members = members.map (reorderValue f) := by
    induction members with
    | nil => rfl
    | cons m members ih => exact congrArg (reorderValue f m :: ·) ih
  exact congrArg (fun l => Tree.obj (f l)) hmembers

@[simp] theorem everywhere_arr {items : List Tree} :
    (Tree.arr items).Everywhere D ↔ ∀ t ∈ items, t.Everywhere D := by
  show ItemsEverywhere D items ↔ _
  induction items with
  | nil => exact iff_of_true trivial (by simp)
  | cons t items ih => exact (and_congr_right' ih).trans List.forall_mem_cons.symm

@[simp] theorem everywhere_obj {members : Members Tree} :
    (Tree.obj members).Everywhere D ↔ D (members.map Prod.fst) ∧ ∀ m ∈ members, m.2.Everywhere D := by
  show _ ∧ MembersEverywhere D members ↔ _
  refine and_congr_right' ?_
  induction members with
  | nil => exact iff_of_true trivial (by simp)
  | cons m members ih =>
    rw [List.forall_mem_cons, ← ih]
    exact Iff.rfl

theorem everywhere_mono {E : List String → Prop} (h : ∀ keys, D keys → E keys) {t : Tree} (ht : t.Everywhere D) :
    t.Everywhere E := by
  induction t with
  | null | bool | num | str => trivial
  | arr items ih => exact everywhere_arr.mpr fun t hmem => ih t hmem (everywhere_arr.mp ht t hmem)
  | obj members ih =>
    obtain ⟨hkeys, hvalues⟩ := everywhere_obj.mp ht
    exact everywhere_obj.mpr ⟨h _ hkeys, fun m hm => ih m hm (hvalues m hm)⟩

theorem map_fst_reorderValue (f : Members Tree → Members Tree) (members : Members Tree) :
    (members.map (reorderValue f)).map Prod.fst = members.map Prod.fst := by
  rw [List.map_map]
  rfl

theorem everywhere_reorder (hf : ∀ l, (f l).Perm l) (hD : ∀ l l' : List String, l.Perm l' → D l → D l') {t : Tree} :
    (t.reorder f).Everywhere D ↔ t.Everywhere D := by
  induction t with
  | null | bool | num | str => exact Iff.rfl
  | arr items ih =>
    rw [reorder_arr, everywhere_arr, everywhere_arr, List.forall_mem_map]
    exact forall₂_congr ih
  | obj members ih =>
    have hkeys : ((f (members.map (reorderValue f))).map Prod.fst).Perm (members.map Prod.fst) := by
      rw [← map_fst_reorderValue f members]
      exact (hf _).map Prod.fst
    rw [reorder_obj, everywhere_obj, everywhere_obj]
    refine and_congr ⟨hD _ _ hkeys, hD _ _ hkeys.symm⟩ ?_
    simp only [(hf _).mem_iff]
    rw [List.forall_mem_map]
    exact forall₂_congr ih

theorem reorder_reorder (hf : ∀ l, (f l).Perm l)
    (hg : ∀ l l' : Members Tree, l.Perm l' → D (l.map Prod.fst) → g l = g l') {t : Tree} (h : t.Everywhere D) :
    (t.reorder f).reorder g = t.reorder g := by
  induction t with
  | null | bool | num | str => rfl
  | arr items ih =>
    simp only [reorder_arr, List.map_map, Tree.arr.injEq]
    exact List.map_congr_left fun t ht => ih t ht (everywhere_arr.mp h t ht)
  | obj members ih =>
    obtain ⟨hkeys, hvalues⟩ := everywhere_obj.mp h
    have hsame : (members.map (reorderValue f)).map (reorderValue g) = members.map (reorderValue g) := by
      rw [List.map_map]
      refine List.map_congr_left fun m hm => ?_
      exact congrArg (Prod.mk m.1) (ih m hm (hvalues m hm))
    have hperm : ((f (members.map (reorderValue f))).map (reorderValue g)).Perm (members.map (reorderValue g)) := by
      rw [← hsame]
      exact (hf _).map _
    rw [reorder_obj, reorder_obj, reorder_obj]
    refine congrArg Tree.obj (hg _ _ hperm.symm ?_).symm
    rw [map_fst_reorderValue]
    exact hkeys

end

/-! ## Sorting -/

variable {α : Type}

/-- Not after the other, for a comparison of keys. -/
def NotAfter (cmp : String → String → Ordering) (m m' : String × α) : Prop := (cmp m.1 m'.1).isLE = true

instance (cmp : String → String → Ordering) : DecidableRel (NotAfter (α := α) cmp) :=
  fun m m' => inferInstanceAs (Decidable ((cmp m.1 m'.1).isLE = true))

/-- A stable sort by the key. -/
def sortMembers (cmp : String → String → Ordering) (members : Members α) : Members α :=
  members.insertionSort (NotAfter cmp)

variable {cmp : String → String → Ordering}

theorem sortMembers_perm (cmp : String → String → Ordering) (members : Members α) :
    (sortMembers cmp members).Perm members := List.perm_insertionSort ..

theorem sortMembers_pairwise [TransCmp cmp] (members : Members α) : (sortMembers cmp members).Pairwise (NotAfter cmp) := by
  have htotal : Std.Total (NotAfter (α := α) cmp) := ⟨fun m m' => by
    unfold NotAfter
    have hswap : cmp m'.1 m.1 = (cmp m.1 m'.1).swap := OrientedCmp.eq_swap
    rw [hswap]
    cases cmp m.1 m'.1 <;> simp⟩
  have htrans : IsTrans _ (NotAfter (α := α) cmp) := ⟨fun _ _ _ h h' => TransCmp.isLE_trans h h'⟩
  exact List.pairwise_insertionSort ..

theorem sortMembers_eq [TransCmp cmp] {l l' : Members α} (h : l.Perm l')
    (hties : ∀ m ∈ l, ∀ m' ∈ l, cmp m.1 m'.1 = .eq → m = m') : sortMembers cmp l = sortMembers cmp l' := by
  refine List.Perm.eq_of_pairwise (fun m m' hm hm' hle hge => ?_) (sortMembers_pairwise l) (sortMembers_pairwise l')
    ((sortMembers_perm cmp l).trans (h.trans (sortMembers_perm cmp l').symm))
  have hmem := (sortMembers_perm cmp l).mem_iff.mp hm
  have hmem' := h.mem_iff.mpr ((sortMembers_perm cmp l').mem_iff.mp hm')
  exact hties m hmem m' hmem' (OrientedCmp.isLE_antisymm hle hge)

section

variable {β : Type} {φ : String × α → Option (String × β)}

theorem orderedInsert_of_notAfter {m : String × α} {members : Members α} (h : ∀ m' ∈ members, NotAfter cmp m m') :
    members.orderedInsert (NotAfter cmp) m = m :: members := by
  cases members with
  | nil => rfl
  | cons m' members => exact if_pos (h m' List.mem_cons_self)

theorem filterMap_orderedInsert [TransCmp cmp] (hφ : ∀ m m', φ m = some m' → m'.1 = m.1) (m : String × α)
    {members : Members α} (hsorted : members.Pairwise (NotAfter cmp)) :
    (members.orderedInsert (NotAfter cmp) m).filterMap φ =
      match φ m with
      | none => members.filterMap φ
      | some m' => (members.filterMap φ).orderedInsert (NotAfter cmp) m' := by
  induction members with
  | nil => cases hm : φ m <;> simp [hm]
  | cons b members ih =>
    obtain ⟨hb, hsorted⟩ := List.pairwise_cons.mp hsorted
    rw [List.orderedInsert_cons]
    split
    · next hle =>
      rw [List.filterMap_cons]
      cases hm : φ m with
      | none => rfl
      | some m' =>
        refine (orderedInsert_of_notAfter fun c' hc' => ?_).symm
        obtain ⟨c, hc, heq⟩ := List.mem_filterMap.mp hc'
        have hafter : NotAfter cmp m c := by
          rcases List.mem_cons.mp hc with rfl | hc
          · exact hle
          · exact TransCmp.isLE_trans hle (hb c hc)
        rwa [NotAfter, hφ m m' hm, hφ c c' heq]
    · next hgt =>
      rw [List.filterMap_cons, List.filterMap_cons, ih hsorted]
      cases hkept : φ b with
      | none => rfl
      | some b' =>
        cases hm : φ m with
        | none => rfl
        | some m' =>
          have hgt' : ¬ NotAfter cmp m' b' := by rwa [NotAfter, hφ m m' hm, hφ b b' hkept]
          dsimp only
          rw [List.orderedInsert_cons, if_neg hgt']

theorem filterMap_sortMembers [TransCmp cmp] (hφ : ∀ m m', φ m = some m' → m'.1 = m.1) (members : Members α) :
    (sortMembers cmp members).filterMap φ = sortMembers cmp (members.filterMap φ) := by
  induction members with
  | nil => rfl
  | cons m members ih =>
    have hsorted : (sortMembers cmp members).Pairwise (NotAfter cmp) := sortMembers_pairwise members
    have hinsert := filterMap_orderedInsert hφ m hsorted
    rw [ih] at hinsert
    refine hinsert.trans ?_
    rw [List.filterMap_cons]
    cases φ m <;> rfl

end

theorem member_unique {members : Members α} (hnodup : (members.map Prod.fst).Nodup) {m m' : String × α}
    (hm : m ∈ members) (hm' : m' ∈ members) (hkey : m.1 = m'.1) : m = m' :=
  List.inj_on_of_nodup_map hnodup hm hm' hkey

/-! ## The order of storage -/

/-- Shorter keys first, then byte by byte. -/
def storageOrder : String → String → Ordering := compareLex (compareOn String.utf8ByteSize) compare

instance : TransCmp storageOrder := inferInstanceAs (TransCmp (compareLex (compareOn String.utf8ByteSize) compare))

theorem storageOrder_eq {a b : String} (h : storageOrder a b = .eq) : a = b :=
  LawfulEqCmp.eq_of_compare (compareLex_eq_eq.mp h).2

/-- All orders of a tree with unique keys are stored as one. -/
def Tree.stored (t : Tree) : Tree := t.reorder (sortMembers storageOrder)

/-- Trees that differ in the order of members only. -/
def SameValue (t t' : Tree) : Prop := t.stored = t'.stored

def Tree.UniqueKeys (t : Tree) : Prop := t.Everywhere List.Nodup

theorem nodup_perm (l l' : List String) (h : l.Perm l') (hl : l.Nodup) : l'.Nodup := h.nodup_iff.mp hl

theorem sortMembers_storageOrder (l l' : Members α) (h : l.Perm l') (hnodup : (l.map Prod.fst).Nodup) :
    sortMembers storageOrder l = sortMembers storageOrder l' :=
  sortMembers_eq h fun _ hm _ hm' heq => member_unique hnodup hm hm' (storageOrder_eq heq)

theorem sameValue_reorder {f : Members Tree → Members Tree} (hf : ∀ l, (f l).Perm l) {t : Tree} (h : t.UniqueKeys) :
    SameValue (t.reorder f) t := reorder_reorder hf sortMembers_storageOrder h

/-! ## The order of enumeration -/

/-- The keys that a program enumerates by their number: `0` to `2 ^ 32 - 2`. -/
def isIndex (key : String) : Bool :=
  key.toList ≠ [] && key.toList.all Char.isDigit && (key.toList.head? ≠ some '0' || key.toList.length = 1) &&
    decide (Nat.ofDigitChars 10 key.toList 0 < 2 ^ 32 - 1)

/-- What a program enumerates of an object that was given these members: first the indices, by their number. -/
def enumerated (members : Members α) : Members α :=
  sortMembers storageOrder (members.filter fun m => isIndex m.1) ++ members.filter fun m => !isIndex m.1

theorem enumerated_perm (members : Members α) : (enumerated members).Perm members :=
  ((sortMembers_perm ..).append_right _).trans (List.filter_append_perm ..)

theorem filter_enumerated (members : Members α) :
    (enumerated members).filter (fun m => !isIndex m.1) = members.filter fun m => !isIndex m.1 := by
  have hnone : (sortMembers storageOrder (members.filter fun m => isIndex m.1)).filter (fun m => !isIndex m.1) = [] := by
    refine List.filter_eq_nil_iff.mpr fun m hm => ?_
    have hindex := (List.mem_filter.mp ((sortMembers_perm ..).mem_iff.mp hm)).2
    simp [hindex]
  rw [enumerated, List.filter_append, hnone, List.nil_append, List.filter_filter]
  simp

/-- Sorted by a comparison, then enumerated. -/
def arranged (cmp : String → String → Ordering) (members : Members α) : Members α := enumerated (sortMembers cmp members)

theorem arranged_perm (cmp : String → String → Ordering) (members : Members α) : (arranged cmp members).Perm members :=
  (enumerated_perm _).trans (sortMembers_perm ..)

theorem filterMap_filter {β : Type} {φ : String × α → Option (String × β)} (hφ : ∀ m m', φ m = some m' → m'.1 = m.1)
    (p : String → Bool) (members : Members α) :
    (members.filter fun m => p m.1).filterMap φ = (members.filterMap φ).filter fun m => p m.1 := by
  induction members with
  | nil => rfl
  | cons m members ih =>
    cases hp : p m.1 <;> cases hm : φ m with
    | none => simp [hp, hm, ih]
    | some m' => simp [hp, hm, ih, hφ m m' hm]

theorem filterMap_arranged [TransCmp cmp] {β : Type} {φ : String × α → Option (String × β)}
    (hφ : ∀ m m', φ m = some m' → m'.1 = m.1) (members : Members α) :
    (arranged cmp members).filterMap φ = arranged cmp (members.filterMap φ) := by
  unfold arranged enumerated
  rw [List.filterMap_append, filterMap_sortMembers hφ, filterMap_filter hφ, filterMap_filter hφ fun key => !isIndex key,
    filterMap_sortMembers hφ]

theorem map_arranged {β : Type} {f : String × α → String × β} (hf : ∀ m, (f m).1 = m.1) (members : Members α) :
    (arranged cmp members).map f = arranged cmp (members.map f) := by
  have hsort (cmp : String → String → Ordering) (l : Members α) : (sortMembers cmp l).map f = sortMembers cmp (l.map f) :=
    List.map_insertionSort _ _ f l fun m _ m' _ => by rw [NotAfter, NotAfter, hf, hf]
  have hfilter (p : String → Bool) (l : Members α) :
      (l.filter fun m => p m.1).map f = (l.map f).filter fun m => p m.1 := by
    rw [List.filter_map]
    simp only [Function.comp_def, hf]
  unfold arranged enumerated
  rw [List.map_append, hsort, hfilter, hfilter fun key => !isIndex key, hsort]

/-- No two keys that are no indices are equal for the comparison. -/
def Distinguished (cmp : String → String → Ordering) (keys : List String) : Prop :=
  keys.Nodup ∧ ∀ a ∈ keys, ∀ b ∈ keys, isIndex a = false → isIndex b = false → cmp a b = .eq → a = b

theorem distinguished_perm (l l' : List String) (h : l.Perm l') (hl : Distinguished cmp l) : Distinguished cmp l' :=
  ⟨h.nodup_iff.mp hl.1, fun a ha b hb => hl.2 a (h.mem_iff.mpr ha) b (h.mem_iff.mpr hb)⟩

theorem arranged_eq [TransCmp cmp] (l l' : Members α) (h : l.Perm l') (hkeys : Distinguished cmp (l.map Prod.fst)) :
    arranged cmp l = arranged cmp l' := by
  obtain ⟨hnodup, hties⟩ := hkeys
  have hsorted : (sortMembers cmp l).Perm (sortMembers cmp l') :=
    (sortMembers_perm cmp l).trans (h.trans (sortMembers_perm cmp l').symm)
  unfold arranged enumerated
  congr 1
  · refine sortMembers_storageOrder _ _ (hsorted.filter _) ?_
    have hsub : List.Sublist (((sortMembers cmp l).filter fun m => isIndex m.1).map Prod.fst)
        ((sortMembers cmp l).map Prod.fst) := List.filter_sublist.map _
    exact hsub.nodup (((sortMembers_perm cmp l).map Prod.fst).nodup_iff.mpr hnodup)
  · refine List.Perm.eq_of_pairwise (fun m m' hm hm' hle hge => ?_) ((sortMembers_pairwise l).filter _)
      ((sortMembers_pairwise l').filter _) (hsorted.filter _)
    obtain ⟨hm, hno⟩ := List.mem_filter.mp hm
    obtain ⟨hm', hno'⟩ := List.mem_filter.mp hm'
    have hmem := (sortMembers_perm cmp l).mem_iff.mp hm
    have hmem' := h.mem_iff.mpr ((sortMembers_perm cmp l').mem_iff.mp hm')
    refine member_unique hnodup hmem hmem' (hties _ (List.mem_map_of_mem hmem) _ (List.mem_map_of_mem hmem') ?_ ?_ ?_)
    · simpa using hno
    · simpa using hno'
    · exact OrientedCmp.isLE_antisymm hle hge

/-! ## Trees up to the order of members -/

/-- The tree with all members sorted by the comparison. -/
def Tree.canonical (cmp : String → String → Ordering) (t : Tree) : Tree := t.reorder (arranged cmp)

variable {t t' : Tree}

theorem sameValue_of_canonical (ht : t.UniqueKeys) (ht' : t'.UniqueKeys) (h : t.canonical cmp = t'.canonical cmp) :
    SameValue t t' := by
  have hsame := sameValue_reorder (arranged_perm cmp) ht
  have hsame' := sameValue_reorder (arranged_perm cmp) ht'
  unfold Tree.canonical at h
  rw [h] at hsame
  exact hsame.symm.trans hsame'

theorem canonical_of_sameValue [TransCmp cmp] (ht : t.Everywhere (Distinguished cmp)) (h : SameValue t t') :
    t.canonical cmp = t'.canonical cmp := by
  have hperm := sortMembers_perm (α := Tree) storageOrder
  have hsame : t.reorder (sortMembers storageOrder) = t'.reorder (sortMembers storageOrder) := h
  have ht' : t'.Everywhere (Distinguished cmp) := by
    rw [← everywhere_reorder hperm distinguished_perm] at ht ⊢
    rwa [← hsame]
  have hstored := reorder_reorder hperm arranged_eq ht
  have hstored' := reorder_reorder hperm arranged_eq ht'
  exact hstored.symm.trans ((congrArg (Tree.canonical cmp) hsame).trans hstored')

theorem eq_of_pairs {α : Type} {a b : α} {l : List α} (hnodup : l.Nodup) (h : List.Sublist [a, b] l)
    (h' : List.Sublist [b, a] l) : a = b := by
  induction l with
  | nil => cases h
  | cons c l ih =>
    obtain ⟨hfresh, hnodup⟩ := List.nodup_cons.mp hnodup
    cases h with
    | cons _ h =>
      cases h' with
      | cons _ h' => exact ih hnodup h h'
      | cons_cons _ h' => exact absurd (h.subset (by simp)) hfresh
    | cons_cons _ h =>
      cases h' with
      | cons _ h' => exact absurd (h'.subset (by simp)) hfresh
      | cons_cons _ h' => rfl

theorem pair_arranged {m m' : String × Tree} (rest : Members Tree) (hm : isIndex m.1 = false) (hm' : isIndex m'.1 = false)
    (hle : NotAfter cmp m m') :
    List.Sublist [m, m'] ((arranged cmp (m :: m' :: rest)).filter fun m => !isIndex m.1) := by
  have hpair : List.Sublist [m, m'] (m :: m' :: rest) := by simp
  have hsorted : List.Sublist [m, m'] (sortMembers cmp (m :: m' :: rest)) :=
    List.pair_sublist_insertionSort hle hpair
  rw [arranged, filter_enumerated]
  have hkept := hsorted.filter fun m => !isIndex m.1
  rwa [List.filter_eq_self.mpr (by simp [hm, hm'])] at hkept

theorem eq_of_arranged [OrientedCmp cmp] {m m' : String × Tree} {rest : Members Tree} (hm : isIndex m.1 = false)
    (hm' : isIndex m'.1 = false) (htie : cmp m.1 m'.1 = .eq) (hnodup : ((m :: m' :: rest).map Prod.fst).Nodup)
    (h : arranged cmp (m :: m' :: rest) = arranged cmp (m' :: m :: rest)) : m = m' := by
  have hpair := pair_arranged rest hm hm' (Ordering.isLE_of_eq_eq htie)
  have hpair' := pair_arranged rest hm' hm (Ordering.isLE_of_eq_eq (OrientedCmp.eq_symm htie))
  rw [← h] at hpair'
  refine eq_of_pairs (List.Nodup.filter _ ?_) hpair hpair'
  exact (arranged_perm cmp _).nodup_iff.mpr (List.Nodup.of_map _ hnodup)

theorem canonical_item {pre post : List Tree} {s s' : Tree}
    (h : (Tree.arr (pre ++ s' :: post)).canonical cmp = (Tree.arr (pre ++ s :: post)).canonical cmp) :
    s'.canonical cmp = s.canonical cmp := by
  simp only [Tree.canonical, reorder_arr, List.map_append, List.map_cons, Tree.arr.injEq] at h
  exact (List.cons.inj (List.append_cancel_left h)).1

theorem canonical_member {pre post : Members Tree} {key : String} {s s' : Tree}
    (hnodup : ((pre ++ (key, s) :: post).map Prod.fst).Nodup)
    (h : (Tree.obj (pre ++ (key, s') :: post)).canonical cmp = (Tree.obj (pre ++ (key, s) :: post)).canonical cmp) :
    s'.canonical cmp = s.canonical cmp := by
  simp only [Tree.canonical, reorder_obj, Tree.obj.injEq] at h
  have hmem : (key, s'.canonical cmp) ∈ (pre ++ (key, s) :: post).map (reorderValue (arranged cmp)) := by
    rw [← (arranged_perm cmp _).mem_iff, ← h, (arranged_perm cmp _).mem_iff]
    exact List.mem_map_of_mem (f := reorderValue (arranged cmp)) (a := (key, s')) (by simp)
  have hmem' : (key, s.canonical cmp) ∈ (pre ++ (key, s) :: post).map (reorderValue (arranged cmp)) :=
    List.mem_map_of_mem (f := reorderValue (arranged cmp)) (a := (key, s)) (by simp)
  rw [← map_fst_reorderValue (arranged cmp)] at hnodup
  exact congrArg Prod.snd (member_unique hnodup hmem hmem' rfl)

theorem exists_perm_pair {α : Type} {a b : α} {l : List α} (ha : a ∈ l) (hb : b ∈ l) (hne : a ≠ b) :
    ∃ rest, l.Perm (a :: b :: rest) := by
  obtain ⟨pre, post, rfl⟩ := List.append_of_mem ha
  have hrest : b ∈ pre ++ post := by
    rcases List.mem_append.mp hb with hb | hb
    · exact List.mem_append_left _ hb
    · exact List.mem_append_right _ ((List.mem_cons.mp hb).resolve_left hne.symm)
  obtain ⟨pre', post', heq⟩ := List.append_of_mem hrest
  refine ⟨pre' ++ post', List.perm_middle.trans ?_⟩
  rw [heq]
  exact List.perm_middle.cons a

theorem sameValue_perm {members members' : Members Tree} (h : members.Perm members')
    (hunique : (Tree.obj members).UniqueKeys) :
    (Tree.obj members').UniqueKeys ∧ SameValue (Tree.obj members') (Tree.obj members) := by
  obtain ⟨hnodup, hvalues⟩ := everywhere_obj.mp hunique
  refine ⟨everywhere_obj.mpr ⟨(h.map Prod.fst).nodup_iff.mp hnodup, fun m hm => hvalues m (h.mem_iff.mpr hm)⟩, ?_⟩
  unfold SameValue Tree.stored
  rw [reorder_obj, reorder_obj, sortMembers_storageOrder _ _ (h.map _).symm]
  rw [map_fst_reorderValue]
  exact (h.map Prod.fst).nodup_iff.mp hnodup

/-- The text of a tree depends on the order of its members where two keys of an object are equal. -/
theorem distinguished_of_canonical [TransCmp cmp] (ht : t.UniqueKeys)
    (h : ∀ t', t'.UniqueKeys → SameValue t' t → t'.canonical cmp = t.canonical cmp) :
    t.Everywhere (Distinguished cmp) := by
  induction t with
  | null | bool | num | str => trivial
  | arr items ih =>
    have hunique := everywhere_arr.mp ht
    refine everywhere_arr.mpr fun s hs => ih s hs (hunique s hs) fun s' hs' hsame => ?_
    obtain ⟨pre, post, rfl⟩ := List.append_of_mem hs
    refine canonical_item (h _ (everywhere_arr.mpr fun s₀ hs₀ => ?_) ?_)
    · rcases List.mem_append.mp hs₀ with hs₀ | hs₀
      · exact hunique s₀ (by simp [hs₀])
      · rcases List.mem_cons.mp hs₀ with rfl | hs₀
        · exact hs'
        · exact hunique s₀ (by simp [hs₀])
    · have hvalue : s'.reorder (sortMembers storageOrder) = s.reorder (sortMembers storageOrder) := hsame
      simp only [SameValue, Tree.stored, reorder_arr, List.map_append, List.map_cons, hvalue]
  | obj members ih =>
    obtain ⟨hnodup, hunique⟩ := everywhere_obj.mp ht
    refine everywhere_obj.mpr ⟨⟨hnodup, fun a ha b hb hno hno' htie => ?_⟩, fun m hm => ?_⟩
    · by_contra hne
      obtain ⟨⟨a, x⟩, hx, rfl⟩ := List.mem_map.mp ha
      obtain ⟨⟨b, y⟩, hy, rfl⟩ := List.mem_map.mp hb
      obtain ⟨rest, hperm⟩ := exists_perm_pair hx hy (fun heq => hne (congrArg Prod.fst heq))
      have hperm' := hperm.trans (List.Perm.swap ..)
      obtain ⟨hunique₁, hsame₁⟩ := sameValue_perm hperm ht
      obtain ⟨hunique₂, hsame₂⟩ := sameValue_perm hperm' ht
      have heq := (h _ hunique₁ hsame₁).trans (h _ hunique₂ hsame₂).symm
      simp only [Tree.canonical, reorder_obj, List.map_cons, Tree.obj.injEq] at heq
      have hkeys := (everywhere_obj.mp hunique₁).1
      rw [← map_fst_reorderValue (arranged cmp)] at hkeys
      have hmember : reorderValue (arranged cmp) (a, x) = reorderValue (arranged cmp) (b, y) :=
        eq_of_arranged hno hno' htie hkeys heq
      exact hne (Prod.mk.inj hmember).1
    · refine ih m hm (hunique m hm) fun s' hs' hsame => ?_
      obtain ⟨key, s⟩ := m
      obtain ⟨pre, post, rfl⟩ := List.append_of_mem hm
      have hkeys : (pre ++ (key, s') :: post).map Prod.fst = (pre ++ (key, s) :: post).map Prod.fst := by simp
      refine canonical_member hnodup (h _ (everywhere_obj.mpr ⟨hkeys ▸ hnodup, fun m₀ hm₀ => ?_⟩) ?_)
      · rcases List.mem_append.mp hm₀ with hm₀ | hm₀
        · exact hunique m₀ (by simp [hm₀])
        · rcases List.mem_cons.mp hm₀ with rfl | hm₀
          · exact hs'
          · exact hunique m₀ (by simp [hm₀])
      · have hvalue : s'.reorder (sortMembers storageOrder) = s.reorder (sortMembers storageOrder) := hsame
        simp only [SameValue, Tree.stored, reorder_obj, List.map_append, List.map_cons, reorderValue, hvalue]

end Sdp.Lib.Json
