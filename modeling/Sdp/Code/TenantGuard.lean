import Mathlib.Data.Fintype.Card

/-!
# The tenant guard of the repositories

From `lib/tenant-scope.ts`. Arguments are values over a heap: objects are references into it, so that a graph can
share objects and have cycles.
-/

namespace Sdp.TenantGuard

inductive PropertyKey where
  | string (name : String)
  | symbol (id : Nat) (description : String)
deriving DecidableEq

/-- `String(property)`. -/
def PropertyKey.text : PropertyKey → String
  | .string name => name
  | .symbol _ description => "Symbol(" ++ description ++ ")"

variable {Ref : Type}

/-- A value; `other` stands for the numbers, booleans, functions and so on. -/
inductive Value (Ref : Type) where
  | undefined
  | null
  | string (text : String)
  | other (id : Nat)
  | ref (object : Ref)
deriving DecidableEq

structure Property (Ref : Type) where
  key : PropertyKey
  value : Value Ref
  enumerable : Bool

inductive Kind (Ref : Type) where
  | plain
  | array
  | map (entries : List (Value Ref × Value Ref))
  | set (members : List (Value Ref))

structure Object (Ref : Type) where
  kind : Kind Ref
  properties : List (Property Ref)
  distinct : (properties.map Property.key).Nodup

/-- `record[name]`, and whether `name in record`. -/
def Object.get (record : Object Ref) (name : String) : Option (Value Ref) :=
  (record.properties.find? fun property => property.key == .string name).map Property.value

/-- The value of an own property that `Object.values` lists. -/
def Property.listed (property : Property Ref) : Option (Value Ref) :=
  match property.key with
  | .string _ => if property.enumerable then some property.value else none
  | .symbol _ _ => none

/-- `Object.values(value)` -/
def Object.values (object : Object Ref) : List (Value Ref) := object.properties.filterMap Property.listed

structure TenantScope where
  organizationId : String
  projectId : Option String

def TenantScope.organization (scope : TenantScope) : Value Ref := .string scope.organizationId

def TenantScope.project (scope : TenantScope) : Value Ref := (scope.projectId.map Value.string).getD .null

def organizationMessage (operation : String) : String :=
  operation ++ " cannot override the repository organization scope"

def projectMessage (operation : String) : String := operation ++ " cannot override the repository project scope"

variable [DecidableEq Ref]

/-- `name in record && record[name] !== expected` throws. -/
def assertClaim (record : Object Ref) (name : String) (expected : Value Ref) (message : String) :
    Except String Unit :=
  match record.get name with
  | none => .ok ()
  | some value => if value ≠ expected then .error message else .ok ()

/-- The four checks of an object that is no array. -/
def assertRecordClaims (scope : TenantScope) (record : Object Ref) (operation : String) : Except String Unit := do
  assertClaim record "organizationId" scope.organization (organizationMessage operation)
  assertClaim record "projectId" scope.project (projectMessage operation)
  assertClaim record "organization_id" scope.organization (organizationMessage operation)
  assertClaim record "project_id" scope.project (projectMessage operation)

/-- The objects visited after a value; the error `none` is that the depth ran out. -/
def assertNestedTenantClaims (heap : Ref → Object Ref) (scope : TenantScope) (operation : String) :
    Nat → Value Ref → Finset Ref → Except (Option String) (Finset Ref)
  | depth, .ref object, visited =>
    if object ∈ visited then .ok visited
    else match depth with
      | 0 => .error none
      | depth + 1 =>
        match (heap object).kind with
        | .map entries =>
          entries.foldlM (fun visited entry => do
            let visited ← assertNestedTenantClaims heap scope operation depth entry.1 visited
            assertNestedTenantClaims heap scope operation depth entry.2 visited) (insert object visited)
        | .set members =>
          members.foldlM (fun visited nested => assertNestedTenantClaims heap scope operation depth nested visited)
            (insert object visited)
        | .array =>
          (heap object).values.foldlM
            (fun visited nested => assertNestedTenantClaims heap scope operation depth nested visited)
            (insert object visited)
        | .plain => do
          (assertRecordClaims scope (heap object) operation).mapError some
          (heap object).values.foldlM
            (fun visited nested => assertNestedTenantClaims heap scope operation depth nested visited)
            (insert object visited)
  | _, _, visited => .ok visited

/-- A member of a repository; a method works on the state of the outside world. -/
inductive Member (Ref State Result : Type) where
  | value (value : Value Ref)
  | method (apply : List (Value Ref) → State → Result × State)

variable [Fintype Ref]

/-- The loop over the arguments of a call. -/
def assertArguments (heap : Ref → Object Ref) (scope : TenantScope) (operation : String) :
    List (Value Ref) → Except (Option String) Unit
  | [] => .ok ()
  | argument :: args => do
    let _ ← assertNestedTenantClaims heap scope operation (Fintype.card Ref) argument ∅
    assertArguments heap scope operation args

variable {State Result : Type}

/-- The member that a tenant sees under a property of the repository. -/
def bindRepositoryToTenant (heap : Ref → Object Ref) (repository : PropertyKey → Member Ref State Result)
    (scope : TenantScope) (repositoryName : String) (systemOnlyMethods : List String) (property : PropertyKey) :
    Member Ref State (Except (Option String) Result) :=
  match repository property with
  | .value value => .value value
  | .method apply => .method fun args state =>
    if property.text ∈ systemOnlyMethods then
      (.error (some (repositoryName ++ "." ++ property.text ++ " is system-only and unavailable to tenant callers")),
        state)
    else
      match assertArguments heap scope (repositoryName ++ "." ++ property.text) args with
      | .error e => (.error e, state)
      | .ok () => let (result, state) := apply args state; (.ok result, state)

end Sdp.TenantGuard
