import Sdp.Code.Members
import Sdp.Lib.Run

/-!
# Steps of the requests on members

What a step can do to the members and the invitations, said once.
-/

namespace Sdp.Members

open Lib

/-! ## Rows after a write -/

theorem find?_put (members : MemberTable) (row : MemberRow) (userId : String) :
    (members.put row).find? userId = if userId = row.userId then some row else members.find? userId := by
  unfold MemberTable.put
  rw [Table.find?_update, Table.find?_insertNew, Table.find?_insertNew]
  split
  · next h =>
    subst h
    cases hrow : members.find? row.userId with
    | none => simp [MemberRow.set]
    | some r =>
      have hid : r.userId = row.userId := Table.key_of_find? hrow
      simp only [if_true, Option.some_or, Option.map_some, MemberRow.set, hid]
  · rfl

theorem find?_revokeFound (s : System) (found : List String) (id : String) :
    (s.revokeFound found).find? id =
      (s.invitations.find? id).map fun row =>
        if row.id ∈ found ∧ row.status = .pending then row.setStatus .revoked else row := by
  simp [System.revokeFound, Table.find?_updateAll]

theorem find?_setStatus {invitations : InvitationTable} {id : String} {row : InvitationRow} {guard : InvitationRow → Bool}
    {status : InvitationStatus} (hrow : invitations.find? id = some row) (hguard : guard row = true) (id' : String) :
    (invitations.update id guard (InvitationRow.setStatus status) (InvitationRow.id_setStatus _)).find? id' =
      if id' = id then some (row.setStatus status) else invitations.find? id' := by
  rw [Table.find?_update]
  split
  · simp [hrow, hguard]
  · rfl

theorem find?_setStatus_self {invitations : InvitationTable} {id : String} {row : InvitationRow}
    {guard : InvitationRow → Bool} {status : InvitationStatus} (hrow : invitations.find? id = some row)
    (hguard : guard row = true) :
    (invitations.update id guard (InvitationRow.setStatus status) (InvitationRow.id_setStatus _)).find? id =
      some (row.setStatus status) := by
  rw [find?_setStatus hrow hguard, if_pos rfl]

theorem userId_grantedRow (existing : Option MemberRow) (userId : String) (role : StoredRole) :
    (System.grantedRow existing userId role).userId = userId := by
  unfold System.grantedRow
  split
  · rfl
  · split
    · split <;> rfl
    · rfl

/-! ## What a step does -/

/-- Neither an acceptance nor the claim of an invitation. -/
def Request.isOther : Request → Bool
  | .accepting _ _ _ _ | .claimed _ => false
  | _ => true

/-- The user whom the request is about to remove, and the invitations that it has found. -/
def Request.removal? : Request → Option (String × List String)
  | .revoking userId false found | .countingAdmins userId found _ => some (userId, found)
  | _ => none

/-- A counted admin stays after the removal. -/
def Request.leavesAdmin (s : System) : Request → Prop
  | .countingAdmins userId _ admins => s.remainingAdmins userId admins ≠ []
  | _ => True

/-- The sync writes nothing: it found no active member, and `invitationWasRevoked`. -/
def System.Declines (primaryEmail : String → Option String) (s : System) (membership : ClerkMembership)
    (existing : Option MemberStatus) (latest : Option InvitationRow) (now : Nat) : Prop :=
  existing ≠ some .active ∧
    (primaryEmail membership.userId).any fun email => invitationWasRevoked s.invitations email latest now

variable (emails : String → List String) (primaryEmail : String → Option String)

inductive Effect (s : System) : Step → System → Prop
  | move {r : Nat} {action : Action} {request : Request} (hother : request.isOther = true) :
      Effect s (.request r action) (s.goto r request)
  | read {r : Nat} {action : Action} {userId id : String} {row : InvitationRow}
      (hrow : s.invitations.find? id = some row) (hemail : row.email ∈ emails userId) :
      Effect s (.request r action) (s.goto r (.accepting userId id row.role false))
  | retry {r : Nat} {action : Action} {userId id : String} {role : StoredRole} {retried : Bool}
      (hrequest : s.requests r = .accepting userId id role retried) :
      Effect s (.request r action) (s.goto r (.accepting userId id role true))
  | removed {r : Nat} {userId : String} {found : List String}
      (hrequest : (s.requests r).removal? = some (userId, found)) (hadmin : (s.requests r).leavesAdmin s)
      (hactive : s.isActive userId = true) :
      Effect s (.request r .commitRemoval) (s.finishRemoval r userId found)
  | invited {r : Nat} {action : Action} {id email : String} {role : OrganizationRole} {createdAt expiresAt : Nat}
      (hnew : s.invitations.find? id = none) :
      Effect s (.request r action)
        { s.goto r .succeeded with
          invitations := s.invitations.insertNew ⟨id, email, role.stored, createdAt, expiresAt, .pending⟩
          createdIn := Function.update s.createdIn id s.removals }
  | granted {r : Nat} {action : Action} {userId id : String} {role : StoredRole} {retried : Bool} {row : InvitationRow}
      (hrequest : s.requests r = .accepting userId id role retried) (hrow : s.invitations.find? id = some row)
      (hpending : row.status = .pending) :
      Effect s (.request r action)
        { (s.goto r .succeeded).putMember (System.grantedRow (s.members.find? userId) userId role)
            (s.createdIn id userId) with
          invitations := s.invitations.update id (fun _ => true) (InvitationRow.setStatus .accepted)
            (InvitationRow.id_setStatus _)
          grants := id :: s.grants }
  | claimed {r : Nat} {action : Action} {id : String} {row : InvitationRow}
      (hrow : s.invitations.find? id = some row) (hpending : row.status = .pending) :
      Effect s (.request r action)
        { s.goto r (.claimed id) with
          invitations := s.invitations.update id (fun _ => true) (InvitationRow.setStatus .revoked)
            (InvitationRow.id_setStatus _) }
  | reported {r : Nat} {action : Action} {id : String} (hrequest : s.requests r = .claimed id) :
      Effect s (.request r action) { s.goto r .succeeded with revocations := id :: s.revocations }
  | released {r : Nat} {id message : String} {clerk : ClerkRevocation} (hrequest : s.requests r = .claimed id)
      (hreleases : clerk.releasesClaim = true) :
      Effect s (.request r (.finishRevocation clerk))
        { s.goto r (.failed message) with
          invitations := s.invitations.update id (·.status = .revoked) (InvitationRow.setStatus .pending)
            (InvitationRow.id_setStatus _) }
  | synced {r : Nat} {membership : ClerkMembership} {reactivateRemoved : Bool} {existing : Option MemberStatus}
      {latest : Option InvitationRow} {now : Nat}
      (hrequest : s.requests r = .readMembership membership reactivateRemoved existing)
      (hwritten : ¬s.Declines primaryEmail membership existing latest now) :
      Effect s (.request r (.commitSync latest now))
        ((s.goto r .succeeded).putMember
          (System.syncedRow (s.members.find? membership.userId) membership reactivateRemoved) membership.happenedIn)
  | event {userId : String} {role : StoredRole} :
      Effect s (.clerkEvent userId role) { s with events := s.events ++ [⟨userId, role, s.removals userId⟩] }

variable {emails} {primaryEmail} {s t : System} {r : Nat} {action : Action}

theorem effect_of_removalStep (h : s.removalStep emails r action = some t) :
    Effect emails primaryEmail s (.request r action) t := by
  cases action with
  | readMember actor userId =>
    unfold System.removalStep at h
    dsimp only at h
    split at h
    · split at h
      · cases h
        exact .move rfl
      · split at h
        · cases h
          exact .move rfl
        · split at h
          · cases h
            exact .move rfl
          · cases h
            exact .move rfl
    · cases h
  | findInvitations =>
    unfold System.removalStep at h
    dsimp only at h
    split at h
    · cases h
      exact .move rfl
    · cases h
  | findAdmins =>
    unfold System.removalStep at h
    dsimp only at h
    split at h
    · cases h
      exact .move rfl
    · cases h
  | commitRemoval =>
    unfold System.removalStep at h
    dsimp only at h
    split at h
    · next userId found hr =>
      cases h
      by_cases hactive : s.isActive userId = true
      · exact .removed (by rw [hr]; rfl) (by rw [hr]; trivial) hactive
      · rw [System.finishRemoval, if_neg hactive]
        exact .move rfl
    · next userId found admins hr =>
      split at h
      · cases h
        exact .move rfl
      · next hremaining =>
        cases h
        by_cases hactive : s.isActive userId = true
        · exact .removed (by rw [hr]; rfl) (by rw [hr]; exact hremaining) hactive
        · rw [System.finishRemoval, if_neg hactive]
          exact .move rfl
    · cases h
  | _ => simp [System.removalStep] at h

theorem effect_of_inviteStep (primaryEmail : String → Option String) (h : s.inviteStep primaryEmail r action = some t) :
    Effect emails primaryEmail s (.request r action) t := by
  cases action with
  | checkMember email role =>
    unfold System.inviteStep at h
    dsimp only at h
    split at h
    · split at h <;> cases h <;> exact .move rfl
    · cases h
  | checkInvitation =>
    unfold System.inviteStep at h
    dsimp only at h
    split at h
    · split at h <;> cases h <;> exact .move rfl
    · cases h
  | insertInvitation id createdAt expiresAt =>
    unfold System.inviteStep at h
    dsimp only at h
    split at h
    · split at h
      · cases h
      · next hnew =>
        cases h
        exact .invited (by simpa using hnew)
    · cases h
  | _ => simp [System.inviteStep] at h

theorem effect_of_rolledBack {userId id message : String} {role : StoredRole} {retried : Bool}
    (hrequest : s.requests r = .accepting userId id role retried) :
    Effect emails primaryEmail s (.request r action) (s.rolledBack r userId id role retried message) := by
  unfold System.rolledBack
  split
  · exact .retry hrequest
  · exact .move rfl

theorem effect_of_acceptStep (h : s.acceptStep emails r action = some t) :
    Effect emails primaryEmail s (.request r action) t := by
  cases action with
  | readInvitation userId id now =>
    unfold System.acceptStep at h
    dsimp only at h
    split at h
    · split at h
      · cases h
        exact .move rfl
      · next row hrow =>
        split at h
        · cases h
          exact .move rfl
        · split at h
          · cases h
            exact .move rfl
          · split at h
            · cases h
              exact .move rfl
            · next hemail =>
              cases h
              exact .read hrow (not_not.mp hemail)
    · cases h
  | claimAndGrant now =>
    unfold System.acceptStep at h
    dsimp only at h
    split at h
    · next userId id role retried hr =>
      split at h
      · next hmatches =>
        cases h
        obtain ⟨row, hrow, hguard⟩ := (Option.any_eq_true _ _).mp hmatches
        exact .granted hr hrow (of_decide_eq_true hguard).1
      · cases h
        exact effect_of_rolledBack hr
    · cases h
  | insertConflict =>
    unfold System.acceptStep at h
    dsimp only at h
    split at h
    · next userId id role retried hr =>
      cases h
      exact effect_of_rolledBack hr
    · cases h
  | _ => simp [System.acceptStep] at h

theorem effect_of_revokeStep (h : s.revokeStep r action = some t) : Effect emails primaryEmail s (.request r action) t := by
  cases action with
  | claimRevocation id =>
    unfold System.revokeStep at h
    dsimp only at h
    split at h
    · split at h
      · next hmatches =>
        cases h
        obtain ⟨row, hrow, hpending⟩ := (Option.any_eq_true _ _).mp hmatches
        exact .claimed hrow (of_decide_eq_true hpending)
      · cases h
        exact .move rfl
    · cases h
  | finishRevocation clerk =>
    unfold System.revokeStep at h
    dsimp only at h
    split at h
    · next id hr =>
      split at h
      · cases h
        exact .reported hr
      · split at h
        · next hreleases =>
          cases h
          exact .released hr hreleases
        · cases h
          exact .move rfl
    · cases h
  | _ => simp [System.revokeStep] at h

theorem effect_of_syncStep (primaryEmail : String → Option String) (h : s.syncStep primaryEmail r action = some t) :
    Effect emails primaryEmail s (.request r action) t := by
  cases action with
  | startSync event =>
    unfold System.syncStep at h
    dsimp only at h
    split at h
    · cases h
      exact .move rfl
    · cases h
  | startUserSync userId role =>
    unfold System.syncStep at h
    dsimp only at h
    split at h
    · cases h
      exact .move rfl
    · cases h
  | readExisting =>
    unfold System.syncStep at h
    dsimp only at h
    split at h
    · cases h
      exact .move rfl
    · cases h
  | commitSync latest now =>
    unfold System.syncStep at h
    dsimp only at h
    split at h
    · next hr =>
      split at h
      · split at h
        · cases h
          exact .move rfl
        · next hwritten =>
          cases h
          exact .synced hr hwritten
      · cases h
    · cases h
  | _ => simp [System.syncStep] at h

theorem effect_of_step {l : Step} (h : step emails primaryEmail s l = some t) : Effect emails primaryEmail s l t := by
  cases l with
  | clerkEvent userId role =>
    cases h
    exact .event
  | request r action =>
    cases action with
    | readMember | findInvitations | findAdmins | commitRemoval => exact effect_of_removalStep h
    | checkMember | checkInvitation | insertInvitation => exact effect_of_inviteStep primaryEmail h
    | readInvitation | claimAndGrant | insertConflict => exact effect_of_acceptStep h
    | claimRevocation | finishRevocation => exact effect_of_revokeStep h
    | startSync | startUserSync | readExisting | commitSync => exact effect_of_syncStep primaryEmail h

/-! ## A small organization -/

def twoMembers : MemberTable := ⟨[⟨"alice", .admin, .active⟩, ⟨"bob", .member, .active⟩], by decide⟩

def addressOf (userId : String) : List String := [userId ++ "@example.com"]

def primaryAddress (userId : String) : Option String := some (userId ++ "@example.com")

end Sdp.Members
