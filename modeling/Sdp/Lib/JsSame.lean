import Sdp.Lib.JsValues

/-!
# Values up to the order of their members

Two values are the same if they have the same properties: the order of members does not matter, nor whether a member is
undefined or missing. A serializer blurs two more things, which are a parameter here: an undefined item of an array is
written as `null`, and so is a number that is not finite.
-/

namespace Sdp.Lib.Json

variable {α : Type}

/-- What an object has under a key. -/
def valueAt (members : Members α) (key : String) : Option α := (members.find? fun m => m.1 = key).map Prod.snd

/-- A missing property reads as undefined. -/
def propertyAt (members : Members JsValue) (key : String) : JsValue := (valueAt members key).getD .undefined

/-- An item of an array, as it is or as it is written. -/
def itemAt (asWritten : Bool) (items : List JsValue) (i : Nat) : JsValue :=
  match items.getD i .undefined with
  | .undefined => if asWritten then .null else .undefined
  | v => v

inductive Same (asWritten : Bool) : JsValue → JsValue → Prop
  | refl (v : JsValue) : Same asWritten v v
  | notFinite (h : asWritten = true) : Same asWritten (.num none) .null
  | nullNotFinite (h : asWritten = true) : Same asWritten .null (.num none)
  | arr {items items' : List JsValue} (hlength : items.length = items'.length)
      (hitems : ∀ i, Same asWritten (itemAt asWritten items i) (itemAt asWritten items' i)) :
      Same asWritten (.arr items) (.arr items')
  | obj {members members' : Members JsValue}
      (hproperties : ∀ key, Same asWritten (propertyAt members key) (propertyAt members' key)) :
      Same asWritten (.obj members) (.obj members')

section

variable {b : Bool}

@[simp] theorem same_str {s s' : String} : Same b (.str s) (.str s') ↔ s = s' :=
  ⟨fun h => by cases h; rfl, fun h => h ▸ .refl _⟩

@[simp] theorem same_null_str {s : String} : ¬Same b .null (.str s) := fun h => by cases h

@[simp] theorem same_str_null {s : String} : ¬Same b (.str s) .null := fun h => by cases h

theorem same_obj {members members' : Members JsValue} :
    Same b (.obj members) (.obj members') ↔ ∀ key, Same b (propertyAt members key) (propertyAt members' key) :=
  ⟨fun h => by cases h with
    | refl => exact fun key => .refl _
    | obj hproperties => exact hproperties, .obj⟩

theorem same_arr {items items' : List JsValue} :
    Same b (.arr items) (.arr items') ↔
      items.length = items'.length ∧ ∀ i, Same b (itemAt b items i) (itemAt b items' i) :=
  ⟨fun h => by cases h with
    | refl => exact ⟨rfl, fun i => .refl _⟩
    | arr hlength hitems => exact ⟨hlength, hitems⟩, fun ⟨hlength, hitems⟩ => .arr hlength hitems⟩

end

/-! ## Properties -/

theorem valueAt_eq_some {members : Members α} (hnodup : (members.map Prod.fst).Nodup) {key : String} {a : α} :
    valueAt members key = some a ↔ (key, a) ∈ members := by
  unfold valueAt
  rw [Option.map_eq_some_iff]
  constructor
  · rintro ⟨m, hfind, rfl⟩
    have hkey : m.1 = key := by simpa using List.find?_some hfind
    exact hkey ▸ List.mem_of_find?_eq_some hfind
  · intro hmem
    cases hfind : members.find? fun m => m.1 = key with
    | none => exact absurd (List.find?_eq_none.mp hfind _ hmem) (by simp)
    | some m =>
      have hkey : m.1 = key := by simpa using List.find?_some hfind
      have hsame := member_unique hnodup (List.mem_of_find?_eq_some hfind) hmem hkey
      exact ⟨m, rfl, by rw [hsame]⟩

theorem perm_iff_valueAt {l l' : Members α} (hl : (l.map Prod.fst).Nodup) (hl' : (l'.map Prod.fst).Nodup) :
    l.Perm l' ↔ ∀ key, valueAt l key = valueAt l' key := by
  rw [List.perm_ext_iff_of_nodup hl.of_map hl'.of_map]
  constructor
  · intro h key
    refine Option.ext fun a => ?_
    rw [valueAt_eq_some hl, valueAt_eq_some hl', h]
  · rintro h ⟨key, a⟩
    rw [← valueAt_eq_some hl, ← valueAt_eq_some hl', h]

/-! ## Writing -/

/-- What is written of a value, up to the order of its members. -/
def JsValue.written (v : JsValue) : Option Tree := v.toTree?.map Tree.stored

def storedMember (m : String × JsValue) : Option (String × Tree) := m.2.written.map fun t => (m.1, t)

theorem written_arr (items : List JsValue) :
    (JsValue.arr items).written = some (.arr (items.map fun v => v.written.getD .null)) := by
  rw [JsValue.written, toTree?_arr, Option.map_some, Tree.stored, reorder_arr, List.map_map]
  refine congrArg (some ∘ Tree.arr) (List.map_congr_left fun v _ => ?_)
  simp only [Function.comp_apply, JsValue.written]
  cases v.toTree? <;> rfl

theorem written_obj (members : Members JsValue) :
    (JsValue.obj members).written = some (.obj (sortMembers storageOrder (members.filterMap storedMember))) := by
  have hmembers : (members.filterMap writtenMember).map (reorderValue (sortMembers storageOrder)) =
      members.filterMap storedMember := by
    rw [List.map_filterMap]
    refine List.filterMap_congr fun m _ => ?_
    simp only [writtenMember, storedMember, JsValue.written, Option.map_map]
    rfl
  rw [JsValue.written, toTree?_obj, Option.map_some, Tree.stored, reorder_obj, hmembers]

theorem map_fst_storedMember (members : Members JsValue) :
    List.Sublist ((members.filterMap storedMember).map Prod.fst) (members.map Prod.fst) := by
  induction members with
  | nil => simp
  | cons m members ih =>
    rw [List.filterMap_cons, storedMember]
    cases m.2.written with
    | none => exact ih.cons _
    | some t => exact ih.cons_cons _

theorem valueAt_storedMember {members : Members JsValue} (hnodup : (members.map Prod.fst).Nodup) (key : String) :
    valueAt (members.filterMap storedMember) key = (propertyAt members key).written := by
  refine Option.ext fun t => ?_
  rw [valueAt_eq_some ((map_fst_storedMember members).nodup hnodup), List.mem_filterMap]
  constructor
  · rintro ⟨⟨key', v⟩, hmem, hstored⟩
    obtain ⟨t', ht', heq⟩ := Option.map_eq_some_iff.mp hstored
    cases heq
    rw [propertyAt, (valueAt_eq_some hnodup).mpr hmem]
    exact ht'
  · intro h
    cases hvalue : valueAt members key with
    | none =>
      rw [propertyAt, hvalue] at h
      cases h
    | some v =>
      rw [propertyAt, hvalue] at h
      exact ⟨(key, v), (valueAt_eq_some hnodup).mp hvalue, Option.map_eq_some_iff.mpr ⟨t, h, rfl⟩⟩

theorem written_itemAt (items : List JsValue) (i : Nat) :
    (itemAt true items i).written = some ((items.map fun v => v.written.getD .null).getD i .null) := by
  have hitem (v : JsValue) : (match v with | .undefined => JsValue.null | v => v).written = some (v.written.getD .null) := by
    cases v with
    | undefined | null | bool | str => rfl
    | num n => cases n <;> rfl
    | arr items => rw [written_arr]; rfl
    | obj members => rw [written_obj]; rfl
  rw [itemAt, if_pos rfl, hitem]
  simp only [List.getD_eq_getElem?_getD, List.getElem?_map]
  cases items[i]? <;> rfl

/-! ## The same when written -/

theorem uniqueKeys_propertyAt {members : Members JsValue} (h : (JsValue.obj members).UniqueKeys) (key : String) :
    (propertyAt members key).UniqueKeys := by
  obtain ⟨hnodup, hvalues⟩ := uniqueKeys_obj.mp h
  unfold propertyAt
  cases hvalue : valueAt members key with
  | none => trivial
  | some v => exact hvalues _ ((valueAt_eq_some hnodup).mp hvalue)

theorem itemAt_cases (items : List JsValue) (i : Nat) : itemAt true items i = .null ∨ itemAt true items i ∈ items := by
  unfold itemAt
  rw [List.getD_eq_getElem?_getD]
  cases hitem : items[i]? with
  | none => exact .inl rfl
  | some v =>
    have hmem := List.mem_of_getElem? hitem
    cases v with
    | undefined => exact .inl rfl
    | null | bool | num | str | arr | obj => exact .inr hmem

theorem uniqueKeys_itemAt {items : List JsValue} (h : (JsValue.arr items).UniqueKeys) (i : Nat) :
    (itemAt true items i).UniqueKeys := by
  rcases itemAt_cases items i with hnull | hmem
  · rw [hnull]
    trivial
  · exact uniqueKeys_arr.mp h _ hmem

theorem written_of_same {v w : JsValue} (h : Same true v w) (hv : v.UniqueKeys) (hw : w.UniqueKeys) :
    v.written = w.written := by
  induction h with
  | refl | notFinite | nullNotFinite => rfl
  | @arr items items' hlength _ ih =>
    rw [written_arr, written_arr]
    refine congrArg (some ∘ Tree.arr) (List.ext_getElem (by simpa using hlength) fun i hi hi' => ?_)
    have hitem := ih i (uniqueKeys_itemAt hv i) (uniqueKeys_itemAt hw i)
    rw [written_itemAt, written_itemAt, Option.some_inj] at hitem
    simpa only [List.getD_eq_getElem?_getD, List.getElem?_eq_getElem hi, List.getElem?_eq_getElem hi',
      Option.getD_some] using hitem
  | @obj members members' _ ih =>
    have hnodup := (map_fst_storedMember members).nodup (uniqueKeys_obj.mp hv).1
    have hnodup' := (map_fst_storedMember members').nodup (uniqueKeys_obj.mp hw).1
    have hperm := (perm_iff_valueAt hnodup hnodup').mpr fun key => by
      rw [valueAt_storedMember (uniqueKeys_obj.mp hv).1, valueAt_storedMember (uniqueKeys_obj.mp hw).1,
        ih key (uniqueKeys_propertyAt hv key) (uniqueKeys_propertyAt hw key)]
    rw [written_obj, written_obj, sortMembers_storageOrder _ _ hperm hnodup]

/-- What is written of a value tells it, but for its members and what is written as `null`. -/
def Shape : Option Tree → JsValue → Prop
  | none, v => v = .undefined
  | some .null, v => v = .null ∨ v = .num none
  | some (.bool b), v => v = .bool b
  | some (.num n), v => v = .num (some n)
  | some (.str s), v => v = .str s
  | some (.arr _), v => ∃ items, v = .arr items
  | some (.obj _), v => ∃ members, v = .obj members

theorem shape_written (v : JsValue) : Shape v.written v := by
  cases v with
  | undefined | bool | str => rfl
  | null => exact .inl rfl
  | num n =>
    cases n with
    | none => exact .inr rfl
    | some n => rfl
  | arr items =>
    rw [written_arr]
    exact ⟨items, rfl⟩
  | obj members =>
    rw [written_obj]
    exact ⟨members, rfl⟩

theorem same_of_written_null {w : JsValue} (h : w.written = some .null) : Same true .null w := by
  have hshape : w = .null ∨ w = .num none := by
    have hshape := shape_written w
    rwa [h] at hshape
  rcases hshape with rfl | rfl
  · exact .refl _
  · exact .nullNotFinite rfl

theorem same_of_written {v w : JsValue} (hv : v.UniqueKeys) (hw : w.UniqueKeys) (h : v.written = w.written) :
    Same true v w := by
  have hshape := shape_written w
  rw [← h] at hshape
  induction v generalizing w with
  | undefined | bool | str =>
    cases hshape
    exact .refl _
  | null => exact same_of_written_null h.symm
  | num n =>
    cases n with
    | none =>
      rcases hshape with rfl | rfl
      · exact .notFinite rfl
      · exact .refl _
    | some n =>
      cases hshape
      exact .refl _
  | arr items ih =>
    rw [written_arr] at hshape
    obtain ⟨items', rfl⟩ := hshape
    have hitems : items.map (fun v => v.written.getD .null) = items'.map fun v => v.written.getD .null := by
      simpa [written_arr] using h
    refine .arr (by simpa using congrArg List.length hitems) fun i => ?_
    have hitem : (itemAt true items i).written = (itemAt true items' i).written := by
      rw [written_itemAt, written_itemAt, hitems]
    rcases itemAt_cases items i with hnull | hmem
    · rw [hnull] at hitem ⊢
      exact same_of_written_null hitem.symm
    · have hshape := shape_written (itemAt true items' i)
      rw [← hitem] at hshape
      exact ih _ hmem (uniqueKeys_itemAt hv i) (uniqueKeys_itemAt hw i) hitem hshape
  | obj members ih =>
    rw [written_obj] at hshape
    obtain ⟨members', rfl⟩ := hshape
    obtain ⟨hnodup, -⟩ := uniqueKeys_obj.mp hv
    obtain ⟨hnodup', -⟩ := uniqueKeys_obj.mp hw
    rw [written_obj, written_obj, Option.some_inj, Tree.obj.injEq] at h
    have hperm : (members.filterMap storedMember).Perm (members'.filterMap storedMember) :=
      (sortMembers_perm storageOrder _).symm.trans (h ▸ sortMembers_perm storageOrder _)
    refine .obj fun key => ?_
    have hvalue : (propertyAt members key).written = (propertyAt members' key).written := by
      rw [← valueAt_storedMember hnodup, ← valueAt_storedMember hnodup']
      exact (perm_iff_valueAt ((map_fst_storedMember members).nodup hnodup)
        ((map_fst_storedMember members').nodup hnodup')).mp hperm key
    have hshape := shape_written (propertyAt members' key)
    rw [← hvalue] at hshape
    cases hfind : valueAt members key with
    | none =>
      have hundefined : propertyAt members key = .undefined := by rw [propertyAt, hfind]; rfl
      rw [hundefined] at hshape ⊢
      have hundefined' : propertyAt members' key = .undefined := hshape
      rw [hundefined']
      exact .refl _
    | some v =>
      have hproperty : propertyAt members key = v := by rw [propertyAt, hfind]; rfl
      have hunique := uniqueKeys_propertyAt hv key
      rw [hproperty] at hunique hvalue hshape ⊢
      exact ih _ ((valueAt_eq_some hnodup).mp hfind) hunique (uniqueKeys_propertyAt hw key) hvalue hshape

end Sdp.Lib.Json
