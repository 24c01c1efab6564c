import Sdp.Lib.JsonOrder

/-!
# What a program serializes

A value of a program may hold `undefined`, which an object loses when it is serialized.
-/

open Std

namespace Sdp.Lib.Json

inductive JsValue
  | undefined
  | null
  | bool (b : Bool)
  /-- `none` is a number that is not finite. -/
  | num (n : Option Number)
  | str (s : String)
  | arr (items : List JsValue)
  | obj (members : List (String × JsValue))

@[elab_as_elim, induction_eliminator]
theorem JsValue.induct {P : JsValue → Prop} (undefined : P .undefined) (null : P .null) (bool : ∀ b, P (.bool b))
    (num : ∀ n, P (.num n)) (str : ∀ s, P (.str s)) (arr : ∀ items, (∀ v ∈ items, P v) → P (.arr items))
    (obj : ∀ members, (∀ m ∈ members, P m.2) → P (.obj members)) (v : JsValue) : P v :=
  JsValue.rec (motive_1 := P) (motive_2 := fun items => ∀ v ∈ items, P v)
    (motive_3 := fun members => ∀ m ∈ members, P m.2) (motive_4 := fun m => P m.2)
    undefined null bool num str arr obj (by simp) (fun _ _ h hs => by simpa using ⟨h, hs⟩) (by simp)
    (fun _ _ h hs => by simpa using ⟨h, by simpa using hs⟩) (fun _ _ h => h) v

mutual

/-- What is written of a value, if anything is. -/
def JsValue.toTree? : JsValue → Option Tree
  | .undefined => none
  | .null => some .null
  | .bool b => some (.bool b)
  | .num none => some .null
  | .num (some n) => some (.num n)
  | .str s => some (.str s)
  | .arr items => some (.arr (itemsToTrees items))
  | .obj members => some (.obj (membersToTrees members))

def itemsToTrees : List JsValue → List Tree
  | [] => []
  | v :: items => v.toTree?.getD .null :: itemsToTrees items

def membersToTrees : Members JsValue → Members Tree
  | [] => []
  | (key, v) :: members =>
    match v.toTree? with
    | none => membersToTrees members
    | some t => (key, t) :: membersToTrees members

end

/-- What is written of a member. -/
def writtenMember (m : String × JsValue) : Option (String × Tree) := m.2.toTree?.map fun t => (m.1, t)

@[simp] theorem toTree?_arr (items : List JsValue) :
    (JsValue.arr items).toTree? = some (.arr (items.map fun v => v.toTree?.getD .null)) := by
  have hitems : itemsToTrees items = items.map fun v => v.toTree?.getD .null := by
    induction items with
    | nil => rfl
    | cons v items ih => exact congrArg (v.toTree?.getD .null :: ·) ih
  exact congrArg (fun l => some (Tree.arr l)) hitems

@[simp] theorem toTree?_obj (members : Members JsValue) :
    (JsValue.obj members).toTree? = some (.obj (members.filterMap writtenMember)) := by
  have hmembers : membersToTrees members = members.filterMap writtenMember := by
    induction members with
    | nil => rfl
    | cons m members ih =>
      obtain ⟨key, v⟩ := m
      have hcons : membersToTrees ((key, v) :: members) = match v.toTree? with
        | none => membersToTrees members
        | some t => (key, t) :: membersToTrees members := rfl
      rw [hcons, ih, List.filterMap_cons, writtenMember]
      cases v.toTree? <;> rfl
  exact congrArg (fun l => some (Tree.obj l)) hmembers

mutual

/-- The members of every object in another order, as a replacer puts them. -/
def JsValue.reorder (f : Members JsValue → Members JsValue) : JsValue → JsValue
  | .arr items => .arr (reorderJsItems f items)
  | .obj members => .obj (f (reorderJsMembers f members))
  | v => v

def reorderJsItems (f : Members JsValue → Members JsValue) : List JsValue → List JsValue
  | [] => []
  | v :: items => v.reorder f :: reorderJsItems f items

def reorderJsMembers (f : Members JsValue → Members JsValue) : Members JsValue → Members JsValue
  | [] => []
  | (key, v) :: members => (key, v.reorder f) :: reorderJsMembers f members

end

mutual

/-- A parsed tree. -/
def Tree.value : Tree → JsValue
  | .null => .null
  | .bool b => .bool b
  | .num n => .num (some n)
  | .str s => .str s
  | .arr items => .arr (itemsToValues items)
  | .obj members => .obj (membersToValues members)

def itemsToValues : List Tree → List JsValue
  | [] => []
  | t :: items => t.value :: itemsToValues items

def membersToValues : Members Tree → Members JsValue
  | [] => []
  | (key, t) :: members => (key, t.value) :: membersToValues members

end

@[simp] theorem value_arr (items : List Tree) : (Tree.arr items).value = .arr (items.map Tree.value) := by
  have hitems : itemsToValues items = items.map Tree.value := by
    induction items with
    | nil => rfl
    | cons t items ih => exact congrArg (t.value :: ·) ih
  exact congrArg JsValue.arr hitems

@[simp] theorem value_obj (members : Members Tree) :
    (Tree.obj members).value = .obj (members.map fun m => (m.1, m.2.value)) := by
  have hmembers : membersToValues members = members.map fun m => (m.1, m.2.value) := by
    induction members with
    | nil => rfl
    | cons m members ih => exact congrArg ((m.1, m.2.value) :: ·) ih
  exact congrArg JsValue.obj hmembers

theorem toTree?_value (t : Tree) : t.value.toTree? = some t := by
  induction t with
  | null | bool | num | str => rfl
  | arr items ih =>
    have hitems : (items.map Tree.value).map (fun v => v.toTree?.getD .null) = items := by
      rw [List.map_map]
      refine (List.map_congr_left fun t ht => ?_).trans (List.map_id _)
      simp [ih t ht]
    rw [value_arr, toTree?_arr, hitems]
  | obj members ih =>
    have hmembers : (members.map fun m => (m.1, m.2.value)).filterMap writtenMember = members := by
      rw [List.filterMap_map]
      refine (List.filterMap_congr fun m hm => ?_).trans (List.filterMap_some)
      simp [writtenMember, ih m hm]
    rw [value_obj, toTree?_obj, hmembers]

@[simp] theorem jsReorder_arr (f : Members JsValue → Members JsValue) (items : List JsValue) :
    (JsValue.arr items).reorder f = .arr (items.map fun v => v.reorder f) := by
  have hitems : reorderJsItems f items = items.map fun v => v.reorder f := by
    induction items with
    | nil => rfl
    | cons v items ih => exact congrArg (v.reorder f :: ·) ih
  exact congrArg JsValue.arr hitems

@[simp] theorem jsReorder_obj (f : Members JsValue → Members JsValue) (members : Members JsValue) :
    (JsValue.obj members).reorder f = .obj (f (members.map fun m => (m.1, m.2.reorder f))) := by
  have hmembers : reorderJsMembers f members = members.map fun m => (m.1, m.2.reorder f) := by
    induction members with
    | nil => rfl
    | cons m members ih => exact congrArg ((m.1, m.2.reorder f) :: ·) ih
  exact congrArg (fun l => JsValue.obj (f l)) hmembers

variable {cmp : String → String → Ordering}

theorem toTree?_reorder [TransCmp cmp] (v : JsValue) :
    (v.reorder (arranged cmp)).toTree? = v.toTree?.map (Tree.canonical cmp) := by
  induction v with
  | undefined | null | bool | str => rfl
  | num n => cases n <;> rfl
  | arr items ih =>
    rw [jsReorder_arr, toTree?_arr, toTree?_arr, List.map_map, Option.map_some, Tree.canonical, reorder_arr, List.map_map]
    refine congrArg (some ∘ Tree.arr) (List.map_congr_left fun v hv => ?_)
    simp only [Function.comp_apply, ih v hv]
    cases v.toTree? <;> rfl
  | obj members ih =>
    have hkey : ∀ m m', writtenMember m = some m' → m'.1 = m.1 := by
      intro m m' h
      obtain ⟨t, -, rfl⟩ := Option.map_eq_some_iff.mp h
      rfl
    rw [jsReorder_obj, toTree?_obj, toTree?_obj, filterMap_arranged hkey, Option.map_some, Tree.canonical, reorder_obj,
      List.filterMap_map, List.map_filterMap]
    refine congrArg (some ∘ Tree.obj ∘ arranged cmp) (List.filterMap_congr fun m hm => ?_)
    simp only [Function.comp_apply, writtenMember, ih m hm, Option.map_map]
    rfl

/-! ## Keys -/

mutual

/-- No object has a key twice. -/
def JsValue.UniqueKeys : JsValue → Prop
  | .arr items => ItemsUnique items
  | .obj members => (members.map Prod.fst).Nodup ∧ MembersUnique members
  | _ => True

def ItemsUnique : List JsValue → Prop
  | [] => True
  | v :: items => v.UniqueKeys ∧ ItemsUnique items

def MembersUnique : Members JsValue → Prop
  | [] => True
  | (_, v) :: members => v.UniqueKeys ∧ MembersUnique members

end

@[simp] theorem uniqueKeys_arr {items : List JsValue} :
    (JsValue.arr items).UniqueKeys ↔ ∀ v ∈ items, v.UniqueKeys := by
  show ItemsUnique items ↔ _
  induction items with
  | nil => exact iff_of_true trivial (by simp)
  | cons v items ih => exact (and_congr_right' ih).trans List.forall_mem_cons.symm

@[simp] theorem uniqueKeys_obj {members : Members JsValue} :
    (JsValue.obj members).UniqueKeys ↔ (members.map Prod.fst).Nodup ∧ ∀ m ∈ members, m.2.UniqueKeys := by
  show _ ∧ MembersUnique members ↔ _
  refine and_congr_right' ?_
  induction members with
  | nil => exact iff_of_true trivial (by simp)
  | cons m members ih =>
    rw [List.forall_mem_cons, ← ih]
    exact Iff.rfl

theorem map_fst_written (members : Members JsValue) :
    List.Sublist ((members.filterMap writtenMember).map Prod.fst) (members.map Prod.fst) := by
  induction members with
  | nil => simp
  | cons m members ih =>
    rw [List.filterMap_cons, writtenMember]
    cases m.2.toTree? with
    | none => exact ih.cons _
    | some t => exact ih.cons_cons _

theorem uniqueKeys_toTree? {v : JsValue} {t : Tree} (hv : v.UniqueKeys) (h : v.toTree? = some t) : t.UniqueKeys := by
  induction v generalizing t with
  | undefined => cases h
  | null | bool | str => cases h; trivial
  | num n => cases n <;> cases h <;> trivial
  | arr items ih =>
    rw [toTree?_arr] at h
    cases h
    refine everywhere_arr.mpr fun t ht => ?_
    obtain ⟨v, hmem, rfl⟩ := List.mem_map.mp ht
    cases hwritten : v.toTree? with
    | none => trivial
    | some t => exact ih v hmem (uniqueKeys_arr.mp hv v hmem) hwritten
  | obj members ih =>
    rw [toTree?_obj] at h
    cases h
    obtain ⟨hnodup, hvalues⟩ := uniqueKeys_obj.mp hv
    refine everywhere_obj.mpr ⟨(map_fst_written members).nodup hnodup, fun m' hm' => ?_⟩
    obtain ⟨m, hmem, hwritten⟩ := List.mem_filterMap.mp hm'
    obtain ⟨t, ht, rfl⟩ := Option.map_eq_some_iff.mp hwritten
    exact ih m hmem (hvalues m hmem) ht

theorem uniqueKeys_value {t : Tree} (h : t.UniqueKeys) : t.value.UniqueKeys := by
  induction t with
  | null | bool | num | str => trivial
  | arr items ih =>
    rw [value_arr, uniqueKeys_arr, List.forall_mem_map]
    exact fun t ht => ih t ht (everywhere_arr.mp h t ht)
  | obj members ih =>
    obtain ⟨hnodup, hvalues⟩ := everywhere_obj.mp h
    rw [value_obj, uniqueKeys_obj, List.forall_mem_map, List.map_map]
    exact ⟨hnodup, fun m hm => ih m hm (hvalues m hm)⟩

end Sdp.Lib.Json
