import Sdp.Code.TenantGuard
import Sdp.Lib.Traversal

/-!
# What the tenant guard finds

It goes through the objects of the arguments in depth. Of properties it follows those `Object.values` lists, and of
Maps and Sets it follows none.
-/

namespace Sdp.TenantGuard

open Sdp.Lib

variable {Ref : Type}

/-! ## What an object holds -/

/-- A plain object with a member that is not the tenant's. -/
def Foreign (scope : TenantScope) (record : Object Ref) : Prop :=
  record.kind = .plain ∧ ∃ property ∈ record.properties,
    (property.key ∈ [.string "organizationId", .string "organization_id"] ∧ property.value ≠ scope.organization) ∨
    (property.key ∈ [.string "projectId", .string "project_id"] ∧ property.value ≠ scope.project)

/-- The values that an object holds, through the properties that are followed. -/
inductive Holds (follows : Object Ref → Property Ref → Prop) (object : Object Ref) : Value Ref → Prop where
  | property {property : Property Ref} (mem : property ∈ object.properties) (followed : follows object property) :
    Holds follows object property.value
  | key {entries : List (Value Ref × Value Ref)} {entry : Value Ref × Value Ref} (kind : object.kind = .map entries)
    (mem : entry ∈ entries) : Holds follows object entry.1
  | value {entries : List (Value Ref × Value Ref)} {entry : Value Ref × Value Ref} (kind : object.kind = .map entries)
    (mem : entry ∈ entries) : Holds follows object entry.2
  | member {members : List (Value Ref)} {value : Value Ref} (kind : object.kind = .set members)
    (mem : value ∈ members) : Holds follows object value

/-- An object that the arguments lead to. -/
def Reaches (follows : Object Ref → Property Ref → Prop) (heap : Ref → Object Ref) (args : List (Value Ref))
    (object : Ref) : Prop :=
  ∃ start, .ref start ∈ args ∧
    Relation.ReflTransGen (fun parent child => Holds follows (heap parent) (.ref child)) start object

/-- Every enumerable own property. -/
def Enumerable (_ : Object Ref) (property : Property Ref) : Prop := property.enumerable = true

/-- The properties of plain objects and arrays that have a string for a key. -/
def Named (object : Object Ref) (property : Property Ref) : Prop :=
  (object.kind = .plain ∨ object.kind = .array) ∧ (∃ name, property.key = .string name) ∧ property.enumerable = true

theorem reaches_cons {heap : Ref → Object Ref} {follows : Object Ref → Property Ref → Prop} {argument : Value Ref}
    {args : List (Value Ref)} {object : Ref} :
    Reaches follows heap (argument :: args) object ↔
      Reaches follows heap [argument] object ∨ Reaches follows heap args object := by
  simp only [Reaches, List.mem_cons, List.not_mem_nil, or_false, or_and_right, exists_or]

theorem mem_values {object : Object Ref} {value : Value Ref} :
    value ∈ object.values ↔
      ∃ property ∈ object.properties, (∃ name, property.key = .string name) ∧ property.enumerable = true ∧
        property.value = value := by
  unfold Object.values
  rw [List.mem_filterMap]
  refine exists_congr fun property => and_congr_right fun _ => ?_
  unfold Property.listed
  cases property.key <;> simp

/-! ## The traversal -/

/-- The values the guard goes on to. -/
def Object.nested (object : Object Ref) : List (Value Ref) :=
  match object.kind with
  | .map entries => entries.flatMap fun entry => [entry.1, entry.2]
  | .set members => members
  | .array | .plain => object.values

def Value.object? : Value Ref → Option Ref
  | .ref object => some object
  | _ => none

def children (heap : Ref → Object Ref) (object : Ref) : List Ref := (heap object).nested.filterMap Value.object?

theorem object?_eq_some {value : Value Ref} {object : Ref} : value.object? = some object ↔ value = .ref object := by
  cases value <;> simp [Value.object?]

theorem mem_nested {object : Object Ref} {value : Value Ref} : value ∈ object.nested ↔ Holds Named object value := by
  unfold Object.nested
  constructor
  · split
    · next entries hkind =>
      simp only [List.mem_flatMap, List.mem_cons, List.not_mem_nil, or_false]
      rintro ⟨entry, hentry, rfl | rfl⟩
      · exact .key hkind hentry
      · exact .value hkind hentry
    · next members hkind => exact .member hkind
    all_goals
      next hkind =>
      rw [mem_values]
      rintro ⟨property, hmem, hname, henumerable, rfl⟩
      exact .property hmem ⟨by simp [hkind], hname, henumerable⟩
  · rintro (⟨hmem, hkind | hkind, hname, henumerable⟩ | ⟨hkind, hmem⟩ | ⟨hkind, hmem⟩ | ⟨hkind, hmem⟩)
    · rw [hkind]
      exact mem_values.mpr ⟨_, hmem, hname, henumerable, rfl⟩
    · rw [hkind]
      exact mem_values.mpr ⟨_, hmem, hname, henumerable, rfl⟩
    all_goals simp only [hkind]
    · exact List.mem_flatMap.mpr ⟨_, hmem, by simp⟩
    · exact List.mem_flatMap.mpr ⟨_, hmem, by simp⟩
    · exact hmem

theorem mem_children {heap : Ref → Object Ref} {parent child : Ref} :
    child ∈ children heap parent ↔ Holds Named (heap parent) (.ref child) := by
  simp only [children, List.mem_filterMap, object?_eq_some, exists_eq_right, mem_nested]

theorem foldlM_entries {m : Type → Type} [Monad m] [LawfulMonad m] {state : Type} (f : state → Value Ref → m state)
    (entries : List (Value Ref × Value Ref)) (init : state) :
    entries.foldlM (fun s entry => do
      let s ← f s entry.1
      f s entry.2) init = (entries.flatMap fun entry => [entry.1, entry.2]).foldlM f init := by
  induction entries generalizing init with
  | nil => rfl
  | cons entry entries ih => simp only [List.foldlM_cons, List.flatMap_cons, List.foldlM_append, List.foldlM_nil,
      bind_assoc, bind_pure, ih]

/-! ## The checks -/

theorem get_eq_some {record : Object Ref} {name : String} {value : Value Ref} :
    record.get name = some value ↔
      ∃ property ∈ record.properties, property.key = .string name ∧ property.value = value := by
  unfold Object.get
  rw [Option.map_eq_some_iff]
  constructor
  · rintro ⟨property, hfind, rfl⟩
    exact ⟨property, List.mem_of_find?_eq_some hfind, by simpa using List.find?_some hfind, rfl⟩
  · rintro ⟨property, hmem, hkey, rfl⟩
    have hfound : (record.properties.find? fun property => property.key == .string name).isSome :=
      List.find?_isSome.mpr ⟨property, hmem, by simpa using hkey⟩
    obtain ⟨found, hfind⟩ := Option.isSome_iff_exists.mp hfound
    have hsame : found = property :=
      List.inj_on_of_nodup_map record.distinct (List.mem_of_find?_eq_some hfind) hmem
        ((by simpa using List.find?_some hfind : found.key = .string name).trans hkey.symm)
    exact ⟨found, hfind, by rw [hsame]⟩

variable [DecidableEq Ref]

theorem assertClaim_ok {record : Object Ref} {name : String} {expected : Value Ref} {message : String} :
    assertClaim record name expected message = .ok () ↔
      ∀ property ∈ record.properties, property.key = .string name → property.value = expected := by
  unfold assertClaim
  constructor
  · intro h property hmem hkey
    rw [get_eq_some.mpr ⟨property, hmem, hkey, rfl⟩] at h
    by_contra hne
    simp [hne] at h
  · intro h
    cases hget : record.get name with
    | none => rfl
    | some value =>
      obtain ⟨property, hmem, hkey, rfl⟩ := get_eq_some.mp hget
      simp [h property hmem hkey]

theorem bind_ok {ε : Type} {first second : Except ε Unit} :
    (do first; second) = .ok () ↔ first = .ok () ∧ second = .ok () := by
  cases first <;> simp [bind, Except.bind]

theorem assertRecordClaims_ok {scope : TenantScope} {record : Object Ref} {operation : String}
    (hkind : record.kind = .plain) : assertRecordClaims scope record operation = .ok () ↔ ¬Foreign scope record := by
  unfold assertRecordClaims Foreign
  simp only [bind_ok, assertClaim_ok, hkind, true_and, not_exists, not_and, not_or, not_not, List.mem_cons,
    List.not_mem_nil, or_false]
  constructor
  · rintro ⟨horganization, hproject, horganization', hproject'⟩ property hmem
    exact ⟨fun hkey => hkey.elim (horganization property hmem) (horganization' property hmem),
      fun hkey => hkey.elim (hproject property hmem) (hproject' property hmem)⟩
  · intro h
    exact ⟨fun property hmem hkey => (h property hmem).1 (.inl hkey),
      fun property hmem hkey => (h property hmem).2 (.inl hkey),
      fun property hmem hkey => (h property hmem).1 (.inr hkey),
      fun property hmem hkey => (h property hmem).2 (.inr hkey)⟩

/-- What the guard asks of one object. -/
def assertObject (heap : Ref → Object Ref) (scope : TenantScope) (operation : String) (object : Ref) :
    Except String Unit :=
  match (heap object).kind with
  | .plain => assertRecordClaims scope (heap object) operation
  | _ => .ok ()

theorem assertObject_ok {heap : Ref → Object Ref} {scope : TenantScope} {operation : String} {object : Ref} :
    assertObject heap scope operation object = .ok () ↔ ¬Foreign scope (heap object) := by
  unfold assertObject
  split
  · next hkind => exact assertRecordClaims_ok hkind
  · next hkind => exact ⟨fun _ h => hkind h.1, fun _ => rfl⟩

theorem assertNestedTenantClaims_eq (heap : Ref → Object Ref) (scope : TenantScope) (operation : String) (depth : Nat)
    (value : Value Ref) (visited : Finset Ref) :
    assertNestedTenantClaims heap scope operation depth value visited =
      match value.object? with
      | some object => visit (assertObject heap scope operation) (children heap) depth object visited
      | none => .ok visited := by
  induction depth generalizing value visited with
  | zero => cases value <;> rfl
  | succ depth ih =>
    cases value with
    | ref object =>
      -- The values gone on to are those of `nested`, and of these the objects are visited.
      have hfold : ∀ (nested : List (Value Ref)) (visited : Finset Ref),
          nested.foldlM
            (fun visited nested => assertNestedTenantClaims heap scope operation depth nested visited) visited =
          (nested.filterMap Value.object?).foldlM
            (fun visited object => visit (assertObject heap scope operation) (children heap) depth object visited)
            visited := by
        intro nested visited
        rw [List.foldlM_filterMap]
        refine congrArg (fun f => List.foldlM f visited nested) (funext fun visited => funext fun value => ?_)
        exact ih value visited
      unfold assertNestedTenantClaims
      simp only [Value.object?]
      unfold visit
      split
      · rfl
      · unfold children assertObject Object.nested
        split
        · next entries hkind =>
          rw [foldlM_entries fun visited nested =>
            assertNestedTenantClaims heap scope operation depth nested visited, hfold, hkind]
          rfl
        · next members hkind =>
          rw [hfold, hkind]
          rfl
        · next hkind =>
          rw [hfold, hkind]
          rfl
        · next hkind =>
          rw [hkind]
          simp only [hfold]
          rfl
    | _ => rfl

/-! ## The bound repository -/

variable [Fintype Ref]

section

variable (heap : Ref → Object Ref) (scope : TenantScope) (operation : String)

theorem argument_ok_iff (argument : Value Ref) :
    (∃ visited, assertNestedTenantClaims heap scope operation (Fintype.card Ref) argument ∅ = .ok visited) ↔
      ∀ object, Reaches Named heap [argument] object → ¬Foreign scope (heap object) := by
  rw [assertNestedTenantClaims_eq]
  cases hobject : argument.object? with
  | none =>
    refine ⟨fun _ object ⟨start, hstart, _⟩ => ?_, fun _ => ⟨∅, rfl⟩⟩
    rw [List.mem_singleton.mp hstart |>.symm] at hobject
    cases hobject
  | some start =>
    obtain rfl := object?_eq_some.mp hobject
    simp only [visit_ok_iff, assertObject_ok, Reaches, List.mem_singleton, LeadsTo, mem_children, Value.ref.injEq,
      exists_eq_left]

theorem argument_ends (argument : Value Ref) :
    assertNestedTenantClaims heap scope operation (Fintype.card Ref) argument ∅ ≠ .error none := by
  rw [assertNestedTenantClaims_eq]
  cases argument.object? with
  | none => exact fun h => by cases h
  | some start => exact visit_ends (by simp)

theorem arguments_checked (args : List (Value Ref)) :
    (assertArguments heap scope operation args = .ok () ∧
      ∀ object, Reaches Named heap args object → ¬Foreign scope (heap object)) ∨
    ((∃ message, assertArguments heap scope operation args = .error (some message)) ∧
      ∃ object, Reaches Named heap args object ∧ Foreign scope (heap object)) := by
  induction args with
  | nil => exact .inl ⟨rfl, fun object ⟨start, hstart, _⟩ => absurd hstart List.not_mem_nil⟩
  | cons argument args ih =>
    have hargument := argument_ok_iff heap scope operation argument
    unfold assertArguments
    cases hwalk : assertNestedTenantClaims heap scope operation (Fintype.card Ref) argument ∅ with
    | ok visited =>
      have hclean := hargument.mp ⟨visited, hwalk⟩
      rcases ih with ⟨hchecked, hall⟩ | ⟨⟨message, hchecked⟩, object, hreaches, hforeign⟩
      · refine .inl ⟨hchecked, fun object hreaches => ?_⟩
        exact (reaches_cons.mp hreaches).elim (hclean object) (hall object)
      · exact .inr ⟨⟨message, hchecked⟩, object, reaches_cons.mpr (.inr hreaches), hforeign⟩
    | error e =>
      cases e with
      | none => exact absurd hwalk (argument_ends heap scope operation argument)
      | some message =>
        have hfound : ¬∀ object, Reaches Named heap [argument] object → ¬Foreign scope (heap object) := by
          intro hclean
          obtain ⟨visited, hok⟩ := hargument.mpr hclean
          rw [hwalk] at hok
          cases hok
        push Not at hfound
        obtain ⟨object, hreaches, hforeign⟩ := hfound
        exact .inr ⟨⟨message, rfl⟩, object, reaches_cons.mpr (.inl hreaches), hforeign⟩

end

variable {State Result : Type}

/-- A method is applied to arguments that lead to no foreign object, and on others it is not called. -/
theorem boundMethod_reached_iff (heap : Ref → Object Ref) (repository : PropertyKey → Member Ref State Result)
    (scope : TenantScope) (repositoryName : String) (systemOnlyMethods : List String) {property : PropertyKey}
    {apply : List (Value Ref) → State → Result × State} (hmethod : repository property = .method apply)
    (hallowed : property.text ∉ systemOnlyMethods) :
    ∃ guarded,
      bindRepositoryToTenant heap repository scope repositoryName systemOnlyMethods property = .method guarded ∧
        ∀ args state,
          ((∀ object, Reaches Named heap args object → ¬Foreign scope (heap object)) →
            guarded args state = (.ok (apply args state).1, (apply args state).2)) ∧
          ((∃ object, Reaches Named heap args object ∧ Foreign scope (heap object)) →
            ∃ message, guarded args state = (.error (some message), state)) := by
  unfold bindRepositoryToTenant
  rw [hmethod]
  refine ⟨_, rfl, fun args state => ?_⟩
  simp only [if_neg hallowed]
  rcases arguments_checked heap scope (repositoryName ++ "." ++ property.text) args with
    ⟨hchecked, hall⟩ | ⟨⟨message, hchecked⟩, object, hreaches, hforeign⟩
  · rw [hchecked]
    exact ⟨fun _ => rfl, fun ⟨object, hreaches, hforeign⟩ => absurd hforeign (hall object hreaches)⟩
  · rw [hchecked]
    exact ⟨fun hclean => absurd hforeign (hclean object hreaches), fun _ => ⟨message, rfl⟩⟩

/-- The first object holds the last under a symbol, the second is a Map with a property of its own. -/
def sidePaths : Fin 3 → Object (Fin 3)
  | 0 => ⟨.plain, [⟨.symbol 0 "raw", .ref 2, true⟩], List.nodup_singleton _⟩
  | 1 => ⟨.map [], [⟨.string "raw", .ref 2, true⟩], List.nodup_singleton _⟩
  | 2 => ⟨.plain, [⟨.string "organizationId", .string "org_b", true⟩], List.nodup_singleton _⟩

/-- A repository that counts the calls of its methods. -/
def counting (_ : PropertyKey) : Member (Fin 3) Nat Unit := .method fun _ calls => ((), calls + 1)

theorem foreign_last : Foreign ⟨"org_a", none⟩ (sidePaths 2) :=
  ⟨rfl, _, List.mem_singleton_self _, .inl ⟨List.mem_cons_self, by decide⟩⟩

theorem boundMethod_refuses_foreign :
    ∃ guarded,
      bindRepositoryToTenant sidePaths counting ⟨"org_a", none⟩ "policies" ["purge"] (.string "list") =
        .method guarded ∧
      ∃ message, guarded [.null, .ref 2] 0 = (.error (some message), 0) := by
  have hallowed : (PropertyKey.string "list").text ∉ ["purge"] := by decide
  obtain ⟨guarded, hguarded, h⟩ :=
    boundMethod_reached_iff sidePaths counting ⟨"org_a", none⟩ "policies" ["purge"] rfl hallowed
  exact ⟨guarded, hguarded, (h [.null, .ref 2] 0).2 ⟨2, ⟨2, by simp, .refl⟩, foreign_last⟩⟩

/-- Neither what lies under a symbol nor the properties of a Map are looked at. -/
theorem side_paths_are_missed :
    ∃ guarded,
      bindRepositoryToTenant sidePaths counting ⟨"org_a", none⟩ "policies" [] (.string "list") = .method guarded ∧
      (Reaches Enumerable sidePaths [.ref 0] 2 ∧ guarded [.ref 0] 0 = (.ok (), 1)) ∧
      (Reaches Enumerable sidePaths [.ref 1] 2 ∧ guarded [.ref 1] 0 = (.ok (), 1)) ∧
      Foreign ⟨"org_a", none⟩ (sidePaths 2) := by
  have hsymbol : ⟨.symbol 0 "raw", .ref 2, true⟩ ∈ (sidePaths 0).properties := List.mem_singleton_self _
  have hname : ⟨.string "raw", .ref 2, true⟩ ∈ (sidePaths 1).properties := List.mem_singleton_self _
  refine ⟨_, rfl, ⟨⟨0, List.mem_singleton_self _, .single ?_⟩, rfl⟩, ⟨⟨1, List.mem_singleton_self _, .single ?_⟩, rfl⟩,
    foreign_last⟩
  · exact .property hsymbol rfl
  · exact .property hname rfl

theorem systemOnly_refused (heap : Ref → Object Ref) (repository : PropertyKey → Member Ref State Result)
    (scope : TenantScope) (repositoryName : String) (systemOnlyMethods : List String) {property : PropertyKey}
    {apply : List (Value Ref) → State → Result × State} (hmethod : repository property = .method apply)
    (hdenied : property.text ∈ systemOnlyMethods) :
    ∃ guarded,
      bindRepositoryToTenant heap repository scope repositoryName systemOnlyMethods property = .method guarded ∧
        ∀ args state, ∃ message, guarded args state = (.error (some message), state) := by
  unfold bindRepositoryToTenant
  rw [hmethod]
  refine ⟨_, rfl, fun args state => ?_⟩
  simp only [if_pos hdenied]
  exact ⟨_, rfl⟩

end Sdp.TenantGuard
