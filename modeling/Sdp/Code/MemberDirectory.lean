import Sdp.Lib.OffsetPages
import Sdp.Number

/-!
# The member directory

From `routes/members/handlers.ts`. A query may return rows that tie in its `ORDER BY` in any order, so that the orders
of one request come with it. What is counted is exact, as the numbers of the source are below 2^53.
-/

namespace Sdp.MemberDirectory

open Sdp.Amount (isTrimmed isDigit digitsValue signed nearestDouble)
open Sdp.Lib (Sorted window)

/-! ## The request -/

/-- `Number.parseInt(text, 10)` where `Number.isFinite` takes it. The double nearest to an integer is an integer. -/
def parseInt (text : List Char) : Option Int :=
  let (sign, rest) := signed (text.dropWhile isTrimmed)
  let digits := rest.takeWhile isDigit
  if digits = [] then none else (nearestDouble (sign * digitsValue digits)).map Int.floor

def membersDefaultPageSize : Nat := 25
def membersMaxPageSize : Nat := 100

structure Paging where
  page : Nat
  pageSize : Nat

def resolveMembersPaging (page pageSize : Option String) : Paging where
  page :=
    match parseInt (page.getD "").toList with
    | some rawPage => if 0 < rawPage then rawPage.toNat else 1
    | none => 1
  pageSize :=
    match parseInt (pageSize.getD "").toList with
    | some rawPageSize => if 0 < rawPageSize then min rawPageSize.toNat membersMaxPageSize else membersDefaultPageSize
    | none => membersDefaultPageSize

structure Credential where
  organizationId : String
  userId : Option String
  permissions : List String

/-- What the authentication left in the context of the request; an API key has no user. -/
structure AppContext where
  apiKey : Option Credential
  clerk : Option Credential
  session : Option Credential
  page : Option String
  pageSize : Option String

structure Actor where
  organizationId : String
  userId : Option String

def resolveActor (c : AppContext) : Except String Actor :=
  match c.apiKey with
  | some apiKey => .ok ⟨apiKey.organizationId, none⟩
  | none =>
    match c.clerk.or c.session with
    | some credential => .ok ⟨credential.organizationId, credential.userId⟩
    | none => .error "Authentication required"

def callerHasPermission (c : AppContext) (permission : String) : Bool :=
  match (c.apiKey.or (c.clerk.or c.session)).map Credential.permissions with
  | none => false
  | some permissions => permissions.contains "*" || permissions.contains permission

/-! ## The tables -/

variable {Time : Type}

structure Identity (Time : Type) where
  provider : String
  email : Option String
  updatedAt : Time

structure User (Time : Type) where
  id : String
  email : String
  name : Option String
  identities : List (Identity Time)

/-- A row of `organization_members` with the user its foreign key refers to. -/
structure Member (Time : Type) where
  id : String
  organizationId : String
  role : String
  status : String
  createdAt : Time
  user : User Time

structure Invitation (Time : Type) where
  id : String
  organizationId : String
  email : String
  role : String
  status : String
  createdAt : Time
  expiresAt : Time
  clerkInvitationId : Option String

structure Database (Time : Type) where
  organizationMembers : List (Member Time)
  invitations : List (Invitation Time)
  distinctMembers : (organizationMembers.map Member.id).Nodup
  distinctInvitations : (invitations.map Invitation.id).Nodup

def activeMembers (db : Database Time) (organizationId : String) : List (Member Time) :=
  db.organizationMembers.filter fun member => member.organizationId = organizationId && member.status = "active"

variable [LinearOrder Time]

def pendingInvitations (db : Database Time) (organizationId : String) (now : Time) : List (Invitation Time) :=
  db.invitations.filter fun invitation =>
    invitation.organizationId = organizationId && invitation.status = "pending" && now < invitation.expiresAt

/-- `NOT LIKE` two opening braces, and `LIKE '%@%.%'`. -/
def isAddress (email : String) : Bool :=
  !(email.toList.tails.any ['{', '{'].isPrefixOf) && (email.toList.dropWhile (· ≠ '@')).contains '.'

/-- The identities that the subselect of the email chooses from. -/
def clerkIdentities (user : User Time) : List (Identity Time) :=
  user.identities.filter fun identity => identity.provider = "clerk" && identity.email.any isAddress

structure ClerkInvitation where
  id : String
  emailAddress : Option String
  url : Option String

/-- What the queries of one request return, and Clerk. -/
structure Answers (db : Database Time) (organizationId : String) (now : Time) where
  members : List (Member Time)
  membersSorted : Sorted Member.createdAt (activeMembers db organizationId) members
  invitations : List (Invitation Time)
  invitationsSorted : Sorted (fun invitation => OrderDual.toDual invitation.createdAt)
    (pendingInvitations db organizationId now) invitations
  identities : User Time → List (Identity Time)
  identitiesSorted : ∀ user, Sorted (fun identity => OrderDual.toDual identity.updatedAt) (clerkIdentities user)
    (identities user)
  clerkInvitations : List ClerkInvitation

/-! ## The response -/

inductive OrganizationRole where
  | admin
  | member

def normalizeOrganizationRole (role : String) : OrganizationRole :=
  if role = "admin" ∨ role = "owner" ∨ role = "org:admin" ∨ role = "org:owner" then .admin else .member

structure MemberEntry (Time : Type) where
  id : String
  role : OrganizationRole
  status : String
  createdAt : Time
  isSelf : Bool
  userId : String
  userEmail : String
  userName : Option String

structure InvitationEntry (Time : Type) where
  id : String
  email : String
  role : OrganizationRole
  status : String
  createdAt : Time
  expiresAt : Time
  acceptUrl : Option String

structure Directory (Time : Type) where
  members : List (MemberEntry Time)
  invitations : List (InvitationEntry Time)
  total : Nat
  page : Nat
  pageSize : Nat
  hasMore : Bool
  activeAdminCount : Nat

def matchesClerkInvitation (toLowerCase : String → String) (invitation : Invitation Time) (entry : ClerkInvitation) :
    Bool :=
  match invitation.clerkInvitationId.filter (· ≠ "") with
  | some clerkInvitationId => entry.id = clerkInvitationId
  | none => entry.emailAddress.map toLowerCase = some (toLowerCase invitation.email)

def memberEntry (actorUserId : Option String) (identities : User Time → List (Identity Time)) (row : Member Time) :
    MemberEntry Time where
  id := row.id
  role := normalizeOrganizationRole row.role
  status := row.status
  createdAt := row.createdAt
  isSelf := actorUserId ≠ some "" && actorUserId = some row.user.id
  userId := row.user.id
  userEmail :=
    if isAddress row.user.email then row.user.email
    else ((identities row.user).head?.bind Identity.email).getD row.user.email
  userName := row.user.name

def invitationEntry (toLowerCase : String → String) (clerkInvitations : List ClerkInvitation) (row : Invitation Time) :
    InvitationEntry Time where
  id := row.id
  email := row.email
  role := normalizeOrganizationRole row.role
  status := row.status
  createdAt := row.createdAt
  expiresAt := row.expiresAt
  acceptUrl := (clerkInvitations.find? (matchesClerkInvitation toLowerCase row)).bind ClerkInvitation.url

/-- The handler; of the answers it reads those of the actor's organization. -/
def listMembers (toLowerCase : String → String) (db : Database Time) (c : AppContext) (now : Time)
    (answers : ∀ organizationId, Answers db organizationId now) : Except String (Directory Time) := do
  let actor ← resolveActor c
  let paging := resolveMembersPaging c.page c.pageSize
  let canReadInvitations := callerHasPermission c "org:write"
  let rows := answers actor.organizationId
  let memberTotal := (activeMembers db actor.organizationId).length
  let invitationTotal := if canReadInvitations then (pendingInvitations db actor.organizationId now).length else 0
  let offset := (paging.page - 1) * paging.pageSize
  let memberList := (window offset paging.pageSize rows.members).map (memberEntry actor.userId rows.identities)
  let invitationLimit := paging.pageSize - memberList.length
  let invitationOffset := offset - memberTotal
  let invitationRows :=
    if canReadInvitations && 0 < invitationLimit then window invitationOffset invitationLimit rows.invitations else []
  let clerkInvitations := if 0 < invitationRows.length then rows.clerkInvitations else []
  return {
    members := memberList
    invitations := invitationRows.map (invitationEntry toLowerCase clerkInvitations)
    total := memberTotal + invitationTotal
    page := paging.page
    pageSize := paging.pageSize
    hasMore := paging.page * paging.pageSize < memberTotal + invitationTotal
    activeAdminCount :=
      (db.organizationMembers.filter fun member =>
        member.organizationId = actor.organizationId && member.status = "active" && member.role = "admin").length
  }

end Sdp.MemberDirectory
