import Mathlib.Data.List.Sort
import Sdp.Code.ApiKeyPolicies

/-!
# Rotation of an API key

From `services/api-key.service.ts`: `rotateApiKey` with `cloneApiKeyPolicyFoundation`, and other
requests that write the same key between its statements. Under `READ COMMITTED` each statement reads
what is committed when it starts; the transaction locks the row of the key from its `UPDATE` on, and
a request that updates the key waits for that lock. The past states of the key are for the
statements only.
-/

namespace Sdp.KeyRotation

open ApiKeys Policy

/-! ## The clone -/

/-- `ORDER BY` -/
def orderBy {α : Type} (f : α → Nat) (l : List α) : List α := l.insertionSort fun a b => f a ≤ f b

/-- The copied rows, with `profileIdMap` and `revisionIdMap`. -/
structure PolicyClone where
  profiles : List ControlProfileRow
  revisions : List RevisionRow
  profileIdMap : List (String × String)
  revisionIdMap : List (String × String)

/-- The copies carry the start of the transaction as the time of their creation. -/
def ControlProfileRow.copy (profile : ControlProfileRow) (id : String) (activeRevisionId : Option String)
    (now : Nat) : ControlProfileRow :=
  { profile with id, activeRevisionId, createdAt := now }

/-- The revisions of one profile. -/
def KeyRows.revisionsOf (k : KeyRows) (profile : ControlProfileRow) : List RevisionRow :=
  orderBy (·.revisionNumber) (k.revisions.filter (·.profileId = profile.id))

def RevisionRow.copy (revision : RevisionRow) (profileId id : String) : RevisionRow := { revision with id, profileId }

namespace PolicyClone

def empty : PolicyClone := ⟨[], [], [], []⟩

/-- The ids are drawn at random; none of them is taken. -/
def newIds (c : PolicyClone) (targetProfileId : String) (targetRevisionIds : List String) : Prop :=
  targetProfileId ∉ c.profiles.map (·.id) ∧ (c.revisions.map (·.id) ++ targetRevisionIds).Nodup

instance (c : PolicyClone) (targetProfileId : String) (targetRevisionIds : List String) :
    Decidable (c.newIds targetProfileId targetRevisionIds) := by
  unfold newIds
  infer_instance

/-- One pass of the loop over the profiles, with the revisions that it reads. -/
def cloneProfile (c : PolicyClone) (profile : ControlProfileRow) (revisionRows : List RevisionRow)
    (targetProfileId : String) (targetRevisionIds : List String) (now : Nat) : PolicyClone :=
  let revisionIdMap := c.revisionIdMap ++ (revisionRows.map (·.id)).zip targetRevisionIds
  { profiles :=
      c.profiles ++ [profile.copy targetProfileId (profile.activeRevisionId.bind fun id => revisionIdMap.lookup id) now]
    revisions := c.revisions ++ List.zipWith (fun r id => r.copy targetProfileId id) revisionRows targetRevisionIds
    profileIdMap := c.profileIdMap ++ [(profile.id, targetProfileId)]
    revisionIdMap }

def cloneBinding (c : PolicyClone) (binding : PolicyBindingRow) : Except AppError PolicyBindingRow :=
  match binding.apiKeyControlProfileId with
  | none => pure binding
  | some profileId =>
    match c.profileIdMap.lookup profileId with
    | none => throw ⟨.internalError, "Failed to clone API key policy binding profile"⟩
    | some mappedProfileId => pure { binding with apiKeyControlProfileId := some mappedProfileId }

end PolicyClone

/-! ## The system -/

/-- Where the rotation stands. -/
inductive Rotation
  | idle
  | readKey (existing : ApiKeyRow)
  /-- The new key is inserted and the old one is locked. `now` is the start of the transaction. -/
  | locked (key : ApiKeyRow) (now : Nat)
  | copiedWallets (key : ApiKeyRow) (now : Nat)
  | cloning (key : ApiKeyRow) (now : Nat) (remaining : List ControlProfileRow) (clone : PolicyClone)
  | committed (target : KeyRows)
  | failed (error : AppError)

structure System where
  source : KeyRows
  rotation : Rotation
  /-- The states of the source since the rotation first read it. -/
  seen : List KeyRows

def System.start (source : KeyRows) : System := ⟨source, .idle, []⟩

/-- A statement of the rotation. The new ids and the time are given from outside. -/
inductive RotationStep
  | readKey
  | lockKey (newKeyId : String) (now : Nat)
  | copyWallets
  | readProfiles
  | cloneProfile (targetProfileId : String) (targetRevisionIds : List String)
  | readBindings (deadline : Nat)

inductive Step
  | write (w : KeyWrite)
  | rotate (step : RotationStep)

def Rotation.holdsLock : Rotation → Bool
  | .locked _ _ | .copiedWallets _ _ | .cloning _ _ _ _ => true
  | _ => false

def KeyWrite.needsLock : KeyWrite → Bool
  | .update _ _ | .retire _ => true
  | _ => false

def Rotation.running : Rotation → Bool
  | .readKey _ => true
  | rotation => rotation.holdsLock

section

variable (projectId : String) (candidates : String → Nat)

def System.write (s : System) (w : KeyWrite) : Option System :=
  if w.needsLock ∧ s.rotation.holdsLock then none
  else
    (w.apply projectId candidates s.source).map fun source =>
      { s with source, seen := if s.rotation.running then source :: s.seen else s.seen }

def System.rotate (s : System) : RotationStep → Option System
  | .readKey =>
    match s.rotation with
    | .idle =>
      if s.source.key.status = .active then
        some { s with rotation := .readKey s.source.key, seen := [s.source] }
      else some { s with rotation := .failed ⟨.notFound, "API key"⟩ }
    | _ => none
  | .lockKey newKeyId now =>
    match s.rotation with
    | .readKey existing => some { s with rotation := .locked (rotatedKey existing newKeyId) now }
    | _ => none
  | .copyWallets =>
    match s.rotation with
    | .locked key now =>
      some { s with rotation := .copiedWallets { key with walletPermissions := s.source.key.walletPermissions } now }
    | _ => none
  | .readProfiles =>
    match s.rotation with
    | .copiedWallets key now =>
      some { s with rotation := .cloning key now (orderBy (·.createdAt) s.source.profiles) .empty }
    | _ => none
  | .cloneProfile targetProfileId targetRevisionIds =>
    match s.rotation with
    | .cloning key now (profile :: remaining) clone =>
      if clone.newIds targetProfileId targetRevisionIds ∧
          targetRevisionIds.length = (s.source.revisionsOf profile).length then
        let clone := clone.cloneProfile profile (s.source.revisionsOf profile) targetProfileId targetRevisionIds now
        some { s with rotation := .cloning key now remaining clone }
      else none
    | _ => none
  | .readBindings deadline =>
    match s.rotation with
    | .cloning key _ [] clone =>
      match s.source.bindings.mapM clone.cloneBinding with
      | .error error => some { s with rotation := .failed error }
      | .ok bindings =>
        -- Commit: the new key and the deadline of the old one become visible.
        let source := { s.source with key := s.source.key.retire deadline }
        some { s with source, rotation := .committed ⟨key, clone.profiles, clone.revisions, bindings⟩ }
    | _ => none

def step (s : System) : Step → Option System
  | .write w => s.write projectId candidates w
  | .rotate r => s.rotate r

end

end Sdp.KeyRotation
