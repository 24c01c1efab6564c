import Mathlib.Logic.Function.Basic
import Sdp.Lib.Table

/-!
# Members and invitations

From `routes/members/handlers.ts`, `routes/webhooks/handlers.ts` and `lib/invitations.ts`: any number of
requests on the members and the invitations of one organization. A transaction locks the rows that it
writes until it commits, so the rows are as its commit finds them; but which rows a statement finds is
settled when the statement starts. So a removal is its read, the start of each statement that finds several
rows, and its commit; a transaction that finds rows by their key is its commit. A user has
one row of `organization_members` and is named for it. The audit log and the sessions are left out, and the
numbers of removals are for the statements only.
-/

namespace Sdp.Members

/-! ## Rows -/

inductive OrganizationRole
  | admin | member
deriving DecidableEq, Repr

/-- A role as it is stored or as Clerk names it. -/
inductive StoredRole
  | admin | member | owner | developer | viewer | orgAdmin | orgOwner | orgMember
deriving DecidableEq, Repr

def normalizeOrganizationRole : StoredRole → OrganizationRole
  | .admin | .owner | .orgAdmin | .orgOwner => .admin
  | _ => .member

def mapClerkRoleToOrgRole : StoredRole → OrganizationRole
  | .orgAdmin => .admin
  | _ => .member

def OrganizationRole.stored : OrganizationRole → StoredRole
  | .admin => .admin
  | .member => .member

inductive MemberStatus
  | active | removed
deriving DecidableEq, Repr

/-- A row of `organization_members`. -/
structure MemberRow where
  userId : String
  role : StoredRole
  status : MemberStatus
deriving DecidableEq

abbrev MemberTable := Lib.Table String MemberRow (·.userId)

inductive InvitationStatus
  | pending | accepted | revoked | expired
deriving DecidableEq, Repr

/-- A row of `invitations`. -/
structure InvitationRow where
  id : String
  email : String
  role : StoredRole
  createdAt : Nat
  expiresAt : Nat
  status : InvitationStatus
deriving DecidableEq

abbrev InvitationTable := Lib.Table String InvitationRow (·.id)

def InvitationRow.setStatus (status : InvitationStatus) (row : InvitationRow) : InvitationRow := { row with status }

theorem InvitationRow.id_setStatus (status : InvitationStatus) (row : InvitationRow) :
    (row.setStatus status).id = row.id := rfl

def MemberRow.set (role : StoredRole) (status : MemberStatus) (row : MemberRow) : MemberRow := { row with role, status }

theorem MemberRow.userId_set (role : StoredRole) (status : MemberStatus) (row : MemberRow) :
    (row.set role status).userId = row.userId := rfl

def MemberRow.remove (row : MemberRow) : MemberRow := { row with status := .removed }

theorem MemberRow.userId_remove (row : MemberRow) : row.remove.userId = row.userId := rfl

def MemberRow.isActiveAdmin (row : MemberRow) : Bool := row.status = .active ∧ row.role = .admin

/-- `INSERT`, or `UPDATE` of the row that is there. -/
def MemberTable.put (members : MemberTable) (row : MemberRow) : MemberTable :=
  (members.insertNew row).update row.userId (fun _ => true) (MemberRow.set row.role row.status) (MemberRow.userId_set _ _)

/-! ## Clerk -/

/-- What `revokeInvitation` sees of Clerk: no call was made before the failure, or a call failed with this
status; and whether the invitation is still pending there, when Clerk can be asked. -/
inductive ClerkRevocation
  | revoked
  | failed (attempted : Bool) (status : Option Nat) (stillPending : Option Bool)

def clerkDefinitivelyRefused (status : Option Nat) : Bool :=
  status.any fun status => 400 ≤ status ∧ status < 500 ∧ status ≠ 404

def ClerkRevocation.releasesClaim : ClerkRevocation → Bool
  | .revoked => false
  | .failed attempted status stillPending =>
    !attempted || clerkDefinitivelyRefused status || stillPending.getD false

/-- `invitationWasRevoked`. `latest` is one of the last created invitations for the address. -/
def invitationWasRevoked (invitations : InvitationTable) (email : String) (latest : Option InvitationRow)
    (now : Nat) : Bool :=
  !(invitations.rows.any fun row => row.email = email ∧ row.status = .pending ∧ now < row.expiresAt) &&
    latest.any fun row => row.status = .revoked

/-- What `ORDER BY created_at DESC LIMIT 1` may return. -/
def isLatest (invitations : InvitationTable) (email : String) : Option InvitationRow → Bool
  | none => invitations.rows.all fun row => row.email ≠ email
  | some latest =>
    (latest ∈ invitations.rows ∧ latest.email = email) &&
      invitations.rows.all fun row => row.email = email → row.createdAt ≤ latest.createdAt

/-! ## Requests -/

/-- A membership that Clerk reports: when it happened, as the number of removals of the user before. -/
structure ClerkMembership where
  userId : String
  role : StoredRole
  happenedIn : Nat
deriving DecidableEq

/-- Where a request stands. -/
inductive Request
  | idle
  /-- `removeMember` has read the member. -/
  | removing (userId : String) (removesAnAdmin : Bool)
  /-- Its `UPDATE` has found these pending invitations. -/
  | revoking (userId : String) (removesAnAdmin : Bool) (found : List String)
  /-- It has found these active admins. -/
  | countingAdmins (userId : String) (found : List String) (admins : List String)
  | checkedMember (email : String) (role : OrganizationRole)
  | inviting (email : String) (role : OrganizationRole)
  | accepting (userId invitationId : String) (role : StoredRole) (retried : Bool)
  /-- `revokeInvitation` has set the invitation to revoked. -/
  | claimed (invitationId : String)
  | syncing (membership : ClerkMembership) (reactivateRemoved : Bool)
  | readMembership (membership : ClerkMembership) (reactivateRemoved : Bool) (existing : Option MemberStatus)
  | succeeded
  | failed (message : String)
deriving DecidableEq

inductive Action
  | readMember (actor : Option String) (userId : String)
  | findInvitations
  | findAdmins
  | commitRemoval
  | checkMember (email : String) (role : StoredRole)
  | checkInvitation
  | insertInvitation (id : String) (createdAt expiresAt : Nat)
  | readInvitation (userId invitationId : String) (now : Nat)
  | claimAndGrant (now : Nat)
  /-- The row of the member appeared before the `INSERT`. -/
  | insertConflict
  | claimRevocation (invitationId : String)
  | finishRevocation (clerk : ClerkRevocation)
  /-- A delivery of a membership event. -/
  | startSync (event : Nat)
  /-- An event of the user, with the membership that Clerk returns. -/
  | startUserSync (userId : String) (role : StoredRole)
  | readExisting
  | commitSync (latest : Option InvitationRow) (now : Nat)

inductive Step
  | request (r : Nat) (action : Action)
  /-- A membership is created or updated in Clerk. -/
  | clerkEvent (userId : String) (role : StoredRole)

/-! ## The system -/

/-- A member becomes active. `grantedIn` is the number of removals of the user before the invitation was
created or the event happened, `removals` the number of them now. -/
structure Activation where
  userId : String
  grantedIn : Nat
  removals : Nat
deriving DecidableEq

structure System where
  members : MemberTable
  invitations : InvitationTable
  requests : Nat → Request
  events : List ClerkMembership
  removals : String → Nat
  /-- The removals of each user before an invitation was created. -/
  createdIn : String → String → Nat
  activations : List Activation
  /-- The invitations that were accepted. -/
  grants : List String
  /-- The invitations whose revocation was reported successful. -/
  revocations : List String

def System.start (members : MemberTable) (invitations : InvitationTable) : System :=
  { members, invitations, requests := fun _ => .idle, events := [], removals := fun _ => 0
    createdIn := fun _ _ => 0, activations := [], grants := [], revocations := [] }

namespace System

def goto (s : System) (r : Nat) (request : Request) : System :=
  { s with requests := Function.update s.requests r request }

def isActive (s : System) (userId : String) : Bool := (s.members.find? userId).any (·.status = .active)

/-- Write a member; the write is an activation when the user was not active. -/
def putMember (s : System) (row : MemberRow) (grantedIn : Nat) : System :=
  { s with
    members := s.members.put row
    activations :=
      if row.status = .active ∧ !s.isActive row.userId then ⟨row.userId, grantedIn, s.removals row.userId⟩ :: s.activations
      else s.activations }

section

-- The addresses of a user, and the one in `users`.
variable (emails : String → List String) (primaryEmail : String → Option String)

/-- The admins among those that it has found who stay. -/
def remainingAdmins (s : System) (userId : String) (admins : List String) : List String :=
  admins.filter fun admin => admin ≠ userId ∧ (s.members.find? admin).any MemberRow.isActiveAdmin

def revokeFound (s : System) (found : List String) : InvitationTable :=
  s.invitations.updateAll (fun row => row.id ∈ found ∧ row.status = .pending) (InvitationRow.setStatus .revoked)
    (InvitationRow.id_setStatus _)

/-- The last statement of `removeMember`, and its commit. -/
def finishRemoval (s : System) (r : Nat) (userId : String) (found : List String) : System :=
  if s.isActive userId then
    { s with
      members := s.members.update userId (fun _ => true) MemberRow.remove MemberRow.userId_remove
      invitations := s.revokeFound found
      removals := Function.update s.removals userId (s.removals userId + 1)
      requests := Function.update s.requests r .succeeded }
  else s.goto r (.failed "Member has already been removed")

def removalStep (s : System) (r : Nat) : Action → Option System
  | .readMember actor userId =>
    match s.requests r with
    | .idle =>
      match s.members.find? userId with
      | none => some (s.goto r (.failed "Member"))
      | some member =>
        if member.status ≠ .active then some (s.goto r (.failed "Member has already been removed"))
        else if actor = some userId then
          some (s.goto r (.failed "You cannot remove yourself from the organization"))
        else some (s.goto r (.removing userId (normalizeOrganizationRole member.role = .admin)))
    | _ => none
  | .findInvitations =>
    match s.requests r with
    | .removing userId removesAnAdmin =>
      let found := s.invitations.rows.filter fun row => row.status = .pending ∧ row.email ∈ emails userId
      some (s.goto r (.revoking userId removesAnAdmin (found.map (·.id))))
    | _ => none
  | .findAdmins =>
    match s.requests r with
    | .revoking userId true found =>
      let admins := s.members.rows.filter MemberRow.isActiveAdmin
      some (s.goto r (.countingAdmins userId found (admins.map (·.userId))))
    | _ => none
  | .commitRemoval =>
    match s.requests r with
    | .revoking userId false found => some (s.finishRemoval r userId found)
    | .countingAdmins userId found admins =>
      if s.remainingAdmins userId admins = [] then some (s.goto r (.failed "The last admin cannot be removed"))
      else some (s.finishRemoval r userId found)
    | _ => none
  | _ => none

def inviteStep (s : System) (r : Nat) : Action → Option System
  | .checkMember email role =>
    match s.requests r with
    | .idle =>
      if s.members.rows.any fun row => row.status = .active ∧ primaryEmail row.userId = some email then
        some (s.goto r (.failed "User is already a member of this organization"))
      else some (s.goto r (.checkedMember email (normalizeOrganizationRole role)))
    | _ => none
  | .checkInvitation =>
    match s.requests r with
    | .checkedMember email role =>
      if s.invitations.rows.any fun row => row.email = email ∧ row.status = .pending then
        some (s.goto r (.failed "Invitation already sent to this email"))
      else some (s.goto r (.inviting email role))
    | _ => none
  | .insertInvitation id createdAt expiresAt =>
    match s.requests r with
    | .inviting email role =>
      if (s.invitations.find? id).isSome then none
      else
        some { s.goto r .succeeded with
          invitations := s.invitations.insertNew ⟨id, email, role.stored, createdAt, expiresAt, .pending⟩
          createdIn := Function.update s.createdIn id s.removals }
    | _ => none
  | _ => none

/-- The member after an acceptance: an active one is upgraded only. -/
def grantedRow (existing : Option MemberRow) (userId : String) (invited : StoredRole) : MemberRow :=
  match existing with
  | none => ⟨userId, (normalizeOrganizationRole invited).stored, .active⟩
  | some row =>
    if row.status = .active then
      if normalizeOrganizationRole invited = .admin ∧ normalizeOrganizationRole row.role ≠ .admin then
        ⟨userId, .admin, .active⟩
      else ⟨userId, row.role, .active⟩
    else ⟨userId, (normalizeOrganizationRole invited).stored, .active⟩

/-- The transaction of an acceptance that has rolled back: it runs once more when there is a member. -/
def rolledBack (s : System) (r : Nat) (userId invitationId : String) (role : StoredRole) (retried : Bool)
    (message : String) : System :=
  if (s.members.find? userId).isSome ∧ !retried then s.goto r (.accepting userId invitationId role true)
  else s.goto r (.failed message)

def acceptStep (s : System) (r : Nat) : Action → Option System
  | .readInvitation userId invitationId now =>
    match s.requests r with
    | .idle =>
      match s.invitations.find? invitationId with
      | none => some (s.goto r (.failed "Invalid invitation token"))
      | some invitation =>
        if invitation.status ≠ .pending then some (s.goto r (.failed "Invitation is no longer valid"))
        else if invitation.expiresAt < now then some (s.goto r (.failed "Invitation has expired"))
        else if invitation.email ∉ emails userId then
          some (s.goto r (.failed "This invitation was issued to a different email address"))
        else some (s.goto r (.accepting userId invitationId invitation.role false))
    | _ => none
  | .claimAndGrant now =>
    match s.requests r with
    | .accepting userId invitationId role retried =>
      if s.invitations.matches? invitationId fun row => row.status = .pending ∧ now < row.expiresAt then
        let granted := (s.goto r .succeeded).putMember (grantedRow (s.members.find? userId) userId role)
          (s.createdIn invitationId userId)
        some { granted with
          invitations := s.invitations.update invitationId (fun _ => true) (InvitationRow.setStatus .accepted)
            (InvitationRow.id_setStatus _)
          grants := invitationId :: s.grants }
      else some (s.rolledBack r userId invitationId role retried "Invitation is no longer valid")
    | _ => none
  | .insertConflict =>
    match s.requests r with
    | .accepting userId invitationId role retried =>
      some (s.rolledBack r userId invitationId role retried "duplicate key")
    | _ => none
  | _ => none

def revokeStep (s : System) (r : Nat) : Action → Option System
  | .claimRevocation invitationId =>
    match s.requests r with
    | .idle =>
      if s.invitations.matches? invitationId (·.status = .pending) then
        some { s.goto r (.claimed invitationId) with
          invitations := s.invitations.update invitationId (fun _ => true) (InvitationRow.setStatus .revoked)
            (InvitationRow.id_setStatus _) }
      else some (s.goto r (.failed "Only a pending invitation can be revoked"))
    | _ => none
  | .finishRevocation clerk =>
    match s.requests r with
    | .claimed invitationId =>
      match clerk with
      | .revoked => some { s.goto r .succeeded with revocations := invitationId :: s.revocations }
      | .failed _ _ _ =>
        if clerk.releasesClaim then
          some { s.goto r (.failed "Clerk") with
            invitations := s.invitations.update invitationId (·.status = .revoked) (InvitationRow.setStatus .pending)
              (InvitationRow.id_setStatus _) }
        else some (s.goto r (.failed "Clerk"))
    | _ => none
  | _ => none

/-- The row after `ON CONFLICT … DO UPDATE`. -/
def syncedRow (existing : Option MemberRow) (membership : ClerkMembership) (reactivateRemoved : Bool) : MemberRow :=
  ⟨membership.userId, (mapClerkRoleToOrgRole membership.role).stored,
    if existing.any (·.status = .removed) ∧ !reactivateRemoved then .removed else .active⟩

def syncStep (s : System) (r : Nat) : Action → Option System
  | .startSync event =>
    match s.requests r, s.events[event]? with
    | .idle, some membership => some (s.goto r (.syncing membership true))
    | _, _ => none
  | .startUserSync userId role =>
    match s.requests r with
    | .idle => some (s.goto r (.syncing ⟨userId, role, s.removals userId⟩ false))
    | _ => none
  | .readExisting =>
    match s.requests r with
    | .syncing membership reactivateRemoved =>
      let existing := (s.members.find? membership.userId).map (·.status)
      some (s.goto r (.readMembership membership reactivateRemoved existing))
    | _ => none
  | .commitSync latest now =>
    match s.requests r with
    | .readMembership membership reactivateRemoved existing =>
      if ∀ email ∈ primaryEmail membership.userId, isLatest s.invitations email latest then
        let declined := existing ≠ some .active ∧
          (primaryEmail membership.userId).any fun email => invitationWasRevoked s.invitations email latest now
        if declined then some (s.goto r .succeeded)
        else
          some ((s.goto r .succeeded).putMember
            (syncedRow (s.members.find? membership.userId) membership reactivateRemoved) membership.happenedIn)
      else none
    | _ => none
  | _ => none

/-- What a request does next. -/
def requestStep (s : System) (r : Nat) (action : Action) : Option System :=
  match action with
  | .readMember _ _ | .findInvitations | .findAdmins | .commitRemoval => s.removalStep emails r action
  | .checkMember _ _ | .checkInvitation | .insertInvitation _ _ _ => s.inviteStep primaryEmail r action
  | .readInvitation _ _ _ | .claimAndGrant _ | .insertConflict => s.acceptStep emails r action
  | .claimRevocation _ | .finishRevocation _ => s.revokeStep r action
  | .startSync _ | .startUserSync _ _ | .readExisting | .commitSync _ _ => s.syncStep primaryEmail r action

end

end System

variable (emails : String → List String) (primaryEmail : String → Option String)

def step (s : System) : Step → Option System
  | .request r action => s.requestStep emails primaryEmail r action
  | .clerkEvent userId role => some { s with events := s.events ++ [⟨userId, role, s.removals userId⟩] }

end Sdp.Members
