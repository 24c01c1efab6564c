import Sdp.Members

/-!
# Removed members and their invitations

An invitation grants once, and not after a revocation of it that was reported. A removed member comes back by a
grant that is newer than the removal as long as three things do not happen: a removal misses a
pending invitation of the user, a revocation gives an invitation back that a removal has passed, and
an event of Clerk from before the removal is written after it.
-/

namespace Sdp.Members

open Lib

variable {emails : String → List String} {primaryEmail : String → Option String} {s t : System} {l : Step}

/-! ## Invitations after a step -/

def System.HasStatus (s : System) (id : String) (status : InvitationStatus) : Prop :=
  ∃ row, s.invitations.find? id = some row ∧ row.status = status

theorem Effect.hasStatus (h : Effect emails primaryEmail s l t) {id : String} {status : InvitationStatus}
    (hstatus : s.HasStatus id status) (hsettled : status ≠ .pending) :
    t.HasStatus id status ∨
      ∃ r clerk, l = .request r (.finishRevocation clerk) ∧ s.requests r = .claimed id ∧ status = .revoked := by
  obtain ⟨row, hrow, rfl⟩ := hstatus
  cases h with
  | move | read | retry | reported | synced | event => exact .inl ⟨row, hrow, rfl⟩
  | removed hrequest hadmin hactive =>
    refine .inl ⟨row, ?_, rfl⟩
    rw [System.finishRemoval, if_pos hactive]
    simp [find?_revokeFound, hrow, hsettled]
  | @invited r action id' email role createdAt expiresAt hnew =>
    refine .inl ⟨row, ?_, rfl⟩
    rw [Table.find?_insertNew]
    split
    · rw [hrow, Option.some_or]
    · exact hrow
  | @granted r action userId id' role retried row' hrequest hrow' hpending =>
    refine .inl ⟨row, ?_, rfl⟩
    rw [find?_setStatus hrow' rfl, if_neg ?_]
    · exact hrow
    · rintro rfl
      rw [hrow] at hrow'
      cases hrow'
      exact hsettled hpending
  | @claimed r action id' row' hrow' hpending =>
    refine .inl ⟨row, ?_, rfl⟩
    rw [find?_setStatus hrow' rfl, if_neg ?_]
    · exact hrow
    · rintro rfl
      rw [hrow] at hrow'
      cases hrow'
      exact hsettled hpending
  | @released r id' message clerk hrequest hreleases =>
    by_cases hid : id = id' ∧ row.status = .revoked
    · exact .inr ⟨r, clerk, rfl, hid.1 ▸ hrequest, hid.2⟩
    · refine .inl ⟨row, ?_, rfl⟩
      rw [Table.find?_update]
      split
      · next heq =>
        subst heq
        have hnot : row.status ≠ .revoked := fun hrevoked => hid ⟨rfl, hrevoked⟩
        simp [hrow, hnot]
      · exact hrow

theorem Effect.find?_invitation (h : Effect emails primaryEmail s l t) {id : String} {row : InvitationRow}
    (hrow : s.invitations.find? id = some row) :
    ∃ row', t.invitations.find? id = some row' ∧ row'.email = row.email := by
  cases h with
  | move | read | retry | reported | synced | event => exact ⟨row, hrow, rfl⟩
  | removed hrequest hadmin hactive =>
    rw [System.finishRemoval, if_pos hactive]
    simp only [find?_revokeFound, hrow, Option.map_some]
    refine ⟨_, rfl, ?_⟩
    split <;> rfl
  | invited hnew =>
    refine ⟨row, ?_, rfl⟩
    rw [Table.find?_insertNew]
    split
    · rw [hrow, Option.some_or]
    · exact hrow
  | granted hrequest hrow' hpending | claimed hrow' hpending =>
    rw [find?_setStatus hrow' rfl]
    split
    · next hid =>
      subst hid
      rw [hrow] at hrow'
      cases hrow'
      exact ⟨_, rfl, rfl⟩
    · exact ⟨row, hrow, rfl⟩
  | released hrequest hreleases =>
    rw [Table.find?_update]
    split
    · next hid =>
      subst hid
      rw [hrow, Option.map_some]
      refine ⟨_, rfl, ?_⟩
      split <;> rfl
    · exact ⟨row, hrow, rfl⟩

/-! ## Claims of invitations -/

/-- The request that takes the step. -/
def Step.requester : Step → Option Nat
  | .request r _ => some r
  | .clerkEvent _ _ => none

theorem requests_finishRemoval {r : Nat} {userId : String} {found : List String} (hactive : s.isActive userId = true) :
    (s.finishRemoval r userId found).requests = Function.update s.requests r .succeeded := by
  rw [System.finishRemoval, if_pos hactive]

theorem Effect.requests_of_ne (h : Effect emails primaryEmail s l t) {r : Nat} (hne : l.requester ≠ some r) :
    t.requests r = s.requests r := by
  cases h with
  | event => rfl
  | removed hrequest hadmin hactive =>
    rw [requests_finishRemoval hactive]
    exact Function.update_of_ne (fun heq => hne (congrArg some heq.symm)) ..
  | move | read | retry | invited | granted | claimed | reported | released | synced =>
    exact Function.update_of_ne (fun heq => hne (congrArg some heq.symm)) ..

theorem Effect.own_claim (h : Effect emails primaryEmail s l t) {r : Nat} {id : String} (hl : l.requester = some r)
    (hr : t.requests r = .claimed id) : s.HasStatus id .pending ∧ t.HasStatus id .revoked := by
  cases h with
  | event => cases hl
  | move hother =>
    cases hl
    simp only [System.goto, Function.update_self] at hr
    rw [hr] at hother
    cases hother
  | removed hrequest hadmin hactive =>
    cases hl
    rw [requests_finishRemoval hactive, Function.update_self] at hr
    cases hr
  | claimed hrow hpending =>
    cases hl
    simp only [System.goto, Function.update_self, Request.claimed.injEq] at hr
    subst hr
    exact ⟨⟨_, hrow, hpending⟩, _, find?_setStatus_self hrow rfl, rfl⟩
  | read | retry | invited | granted | reported | released | synced =>
    cases hl
    simp [System.goto, System.putMember] at hr

theorem Effect.grants_cases (h : Effect emails primaryEmail s l t) :
    t.grants = s.grants ∨ ∃ id, t.grants = id :: s.grants ∧ s.HasStatus id .pending ∧ t.HasStatus id .accepted := by
  cases h with
  | granted hrequest hrow hpending =>
    exact .inr ⟨_, rfl, ⟨_, hrow, hpending⟩, _, find?_setStatus_self hrow rfl, rfl⟩
  | removed hrequest hadmin hactive =>
    rw [System.finishRemoval, if_pos hactive]
    exact .inl rfl
  | move | read | retry | invited | claimed | reported | released | synced | event => exact .inl rfl

theorem Effect.revocations_cases (h : Effect emails primaryEmail s l t) :
    t.revocations = s.revocations ∨
      ∃ r id, t.revocations = id :: s.revocations ∧ l.requester = some r ∧ s.requests r = .claimed id ∧
        t.requests r = .succeeded ∧ t.invitations = s.invitations := by
  cases h with
  | reported hrequest => exact .inr ⟨_, _, rfl, rfl, hrequest, Function.update_self .., rfl⟩
  | removed hrequest hadmin hactive =>
    rw [System.finishRemoval, if_pos hactive]
    exact .inl rfl
  | move | read | retry | invited | granted | claimed | released | synced | event => exact .inl rfl

/-- At most one request has claimed an invitation; what was granted or reported is settled. -/
structure ClaimInv (s : System) : Prop where
  granted : ∀ id ∈ s.grants, s.HasStatus id .accepted
  nodup : s.grants.Nodup
  claimed : ∀ r id, s.requests r = .claimed id → s.HasStatus id .revoked
  oneClaim : ∀ r r' id, s.requests r = .claimed id → s.requests r' = .claimed id → r = r'
  reported : ∀ id ∈ s.revocations, s.HasStatus id .revoked ∧ ∀ r, s.requests r ≠ .claimed id

theorem System.HasStatus.unique {id : String} {a b : InvitationStatus} (ha : s.HasStatus id a) (hb : s.HasStatus id b) :
    a = b := by
  obtain ⟨row, hrow, rfl⟩ := ha
  obtain ⟨row', hrow', rfl⟩ := hb
  rw [hrow] at hrow'
  cases hrow'
  rfl

namespace ClaimInv

theorem claimed_step (hs : ClaimInv s) (h : Effect emails primaryEmail s l t) {r : Nat} {id : String}
    (hr : t.requests r = .claimed id) : t.HasStatus id .revoked := by
  by_cases hl : l.requester = some r
  · exact (h.own_claim hl hr).2
  · rw [h.requests_of_ne hl] at hr
    rcases h.hasStatus (hs.claimed r id hr) nofun with hstatus | ⟨r', clerk, rfl, hr', -⟩
    · exact hstatus
    · exact absurd (congrArg some (hs.oneClaim r' r id hr' hr)) hl

theorem not_claimed_step (h : Effect emails primaryEmail s l t) {id : String}
    (hstatus : s.HasStatus id .revoked) (hfree : ∀ r, s.requests r ≠ .claimed id) (r : Nat) :
    t.requests r ≠ .claimed id := by
  intro hr
  by_cases hl : l.requester = some r
  · cases (h.own_claim hl hr).1.unique hstatus
  · exact hfree r (h.requests_of_ne hl ▸ hr)

theorem oneClaim_step (hs : ClaimInv s) (h : Effect emails primaryEmail s l t) {r r' : Nat} {id : String}
    (hr : t.requests r = .claimed id) (hr' : t.requests r' = .claimed id) : r = r' := by
  by_contra hne
  -- One of the two has claimed it before, so that it is not pending for the other.
  have hother : ∀ {a b : Nat}, t.requests a = .claimed id → t.requests b = .claimed id → a ≠ b →
      l.requester = some a → False := by
    intro a b ha hb hab hl
    have hlb : l.requester ≠ some b := fun hlb => hab (Option.some.inj (hl.symm.trans hlb))
    rw [h.requests_of_ne hlb] at hb
    cases (h.own_claim hl ha).1.unique (hs.claimed b id hb)
  by_cases hl : l.requester = some r
  · exact hother hr hr' hne hl
  · by_cases hl' : l.requester = some r'
    · exact hother hr' hr (Ne.symm hne) hl'
    · rw [h.requests_of_ne hl] at hr
      rw [h.requests_of_ne hl'] at hr'
      exact hne (hs.oneClaim r r' id hr hr')

theorem granted_step (hs : ClaimInv s) (h : Effect emails primaryEmail s l t) :
    (∀ id ∈ t.grants, t.HasStatus id .accepted) ∧ t.grants.Nodup := by
  have hkept : ∀ id ∈ s.grants, t.HasStatus id .accepted := by
    intro id hid
    rcases h.hasStatus (hs.granted id hid) nofun with hstatus | ⟨-, -, -, -, hrevoked⟩
    · exact hstatus
    · cases hrevoked
  rcases h.grants_cases with heq | ⟨id, heq, hpending, haccepted⟩
  · rw [heq]
    exact ⟨hkept, hs.nodup⟩
  · rw [heq]
    constructor
    · intro id' hid'
      rcases List.mem_cons.mp hid' with rfl | hid'
      · exact haccepted
      · exact hkept id' hid'
    · refine List.nodup_cons.mpr ⟨fun hid => ?_, hs.nodup⟩
      cases hpending.unique (hs.granted id hid)

theorem reported_step (hs : ClaimInv s) (h : Effect emails primaryEmail s l t) :
    ∀ id ∈ t.revocations, t.HasStatus id .revoked ∧ ∀ r, t.requests r ≠ .claimed id := by
  have hkept : ∀ id ∈ s.revocations, t.HasStatus id .revoked ∧ ∀ r, t.requests r ≠ .claimed id := by
    intro id hid
    obtain ⟨hstatus, hfree⟩ := hs.reported id hid
    refine ⟨?_, not_claimed_step h hstatus hfree⟩
    rcases h.hasStatus hstatus nofun with hstatus | ⟨r, -, -, hr, -⟩
    · exact hstatus
    · exact absurd hr (hfree r)
  rcases h.revocations_cases with heq | ⟨r, id, heq, hl, hr, hdone, hinvitations⟩
  · rw [heq]
    exact hkept
  · rw [heq]
    intro id' hid'
    rcases List.mem_cons.mp hid' with rfl | hid'
    · refine ⟨?_, fun r' hr' => ?_⟩
      · unfold System.HasStatus
        rw [hinvitations]
        exact hs.claimed r id' hr
      · by_cases hne : l.requester = some r'
        · obtain rfl : r = r' := Option.some.inj (hl.symm.trans hne)
          rw [hdone] at hr'
          cases hr'
        · rw [h.requests_of_ne hne] at hr'
          exact hne (hs.oneClaim r r' id' hr hr' ▸ hl)
    · exact hkept id' hid'

theorem step (hs : ClaimInv s) (h : Effect emails primaryEmail s l t) : ClaimInv t where
  granted := (hs.granted_step h).1
  nodup := (hs.granted_step h).2
  claimed _ _ hr := hs.claimed_step h hr
  oneClaim _ _ _ hr hr' := hs.oneClaim_step h hr hr'
  reported := hs.reported_step h

end ClaimInv

/-! ## Grants that are newer than the removal -/

/-- A removal finds every pending invitation of the user; a revocation does not give an invitation back to a user
who was removed since it was created; an event that is written for a removed member happened after the removal. -/
def grantsAreNew (emails : String → List String) (primaryEmail : String → Option String) (s : System) : Step → Prop
  | .request r .commitRemoval =>
    ∀ userId found, (s.requests r).removal? = some (userId, found) →
      ∀ row ∈ s.invitations.rows, row.status = .pending → row.email ∈ emails userId → row.id ∈ found
  | .request r (.finishRevocation clerk) =>
    ∀ id, s.requests r = .claimed id → clerk.releasesClaim = true →
      ∀ row, s.invitations.find? id = some row → ∀ userId, row.email ∈ emails userId →
        s.createdIn id userId = s.removals userId
  | .request r (.commitSync latest now) =>
    ∀ membership existing, s.requests r = .readMembership membership true existing →
      ¬s.Declines primaryEmail membership existing latest now →
      (s.members.find? membership.userId).any (·.status = .removed) = true →
        membership.happenedIn = s.removals membership.userId
  | _ => True

/-- The pending invitations of a user are newer than the removals of the user. -/
structure RemovalInv (emails : String → List String) (s : System) : Prop where
  accepting : ∀ r userId id role retried, s.requests r = .accepting userId id role retried →
    ∃ row, s.invitations.find? id = some row ∧ row.email ∈ emails userId
  pending : ∀ id row, s.invitations.find? id = some row → row.status = .pending →
    ∀ userId, row.email ∈ emails userId → s.createdIn id userId = s.removals userId
  removed : ∀ userId, 0 < s.removals userId → (s.members.find? userId).isSome = true
  activations : ∀ a ∈ s.activations, a.removals ≤ a.grantedIn

theorem Effect.own_accepting (h : Effect emails primaryEmail s l t) {r : Nat} {userId id : String} {role : StoredRole}
    {retried : Bool} (hl : l.requester = some r) (hr : t.requests r = .accepting userId id role retried) :
    (∃ row, s.invitations.find? id = some row ∧ row.email ∈ emails userId) ∨
      ∃ retried', s.requests r = .accepting userId id role retried' := by
  cases h with
  | event => cases hl
  | move hother =>
    cases hl
    simp only [System.goto, Function.update_self] at hr
    rw [hr] at hother
    cases hother
  | removed hrequest hadmin hactive =>
    cases hl
    rw [requests_finishRemoval hactive, Function.update_self] at hr
    cases hr
  | read hrow hemail =>
    cases hl
    simp only [System.goto, Function.update_self, Request.accepting.injEq] at hr
    obtain ⟨rfl, rfl, -⟩ := hr
    exact .inl ⟨_, hrow, hemail⟩
  | retry hrequest =>
    cases hl
    simp only [System.goto, Function.update_self, Request.accepting.injEq] at hr
    obtain ⟨rfl, rfl, rfl, -⟩ := hr
    exact .inr ⟨_, hrequest⟩
  | invited | granted | claimed | reported | released | synced =>
    cases hl
    simp [System.goto, System.putMember] at hr

theorem Effect.isSome_member (h : Effect emails primaryEmail s l t) {userId : String}
    (hrow : (s.members.find? userId).isSome = true) : (t.members.find? userId).isSome = true := by
  have hput : ∀ row : MemberRow, ((s.members.put row).find? userId).isSome = true := by
    intro row
    rw [find?_put]
    split
    · rfl
    · exact hrow
  cases h with
  | move | read | retry | invited | claimed | reported | released | event => exact hrow
  | granted | synced => exact hput _
  | removed hrequest hadmin hactive =>
    rw [System.finishRemoval, if_pos hactive]
    simp only [Table.find?_update]
    split
    · next hid =>
      subst hid
      simpa using hrow
    · exact hrow

theorem Effect.removals_cases (h : Effect emails primaryEmail s l t) :
    t.removals = s.removals ∨
      ∃ userId, t.removals = Function.update s.removals userId (s.removals userId + 1) ∧ s.isActive userId = true := by
  cases h with
  | removed hrequest hadmin hactive =>
    refine .inr ⟨_, ?_, hactive⟩
    rw [System.finishRemoval, if_pos hactive]
  | move | read | retry | invited | granted | claimed | reported | released | synced | event => exact .inl rfl

namespace RemovalInv

theorem accepting_step (hs : RemovalInv emails s) (h : Effect emails primaryEmail s l t) {r : Nat} {userId id : String}
    {role : StoredRole} {retried : Bool} (hr : t.requests r = .accepting userId id role retried) :
    ∃ row, t.invitations.find? id = some row ∧ row.email ∈ emails userId := by
  have hbefore : ∃ row, s.invitations.find? id = some row ∧ row.email ∈ emails userId := by
    by_cases hl : l.requester = some r
    · rcases h.own_accepting hl hr with hrow | ⟨retried', hr'⟩
      · exact hrow
      · exact hs.accepting r userId id role retried' hr'
    · rw [h.requests_of_ne hl] at hr
      exact hs.accepting r userId id role retried hr
  obtain ⟨row, hrow, hemail⟩ := hbefore
  obtain ⟨row', hrow', hsame⟩ := h.find?_invitation hrow
  exact ⟨row', hrow', hsame ▸ hemail⟩

theorem removed_step (hs : RemovalInv emails s) (h : Effect emails primaryEmail s l t) {userId : String}
    (hremoved : 0 < t.removals userId) : (t.members.find? userId).isSome = true := by
  refine h.isSome_member ?_
  rcases h.removals_cases with heq | ⟨removed, heq, hactive⟩
  · exact hs.removed userId (heq ▸ hremoved)
  · by_cases hid : userId = removed
    · subst hid
      obtain ⟨row, hrow, -⟩ := (Option.any_eq_true _ _).mp hactive
      rw [hrow]
      rfl
    · rw [heq, Function.update_of_ne hid] at hremoved
      exact hs.removed userId hremoved

theorem pending_step (hs : RemovalInv emails s) (hok : grantsAreNew emails primaryEmail s l) (h : Effect emails primaryEmail s l t) {id : String}
    {row : InvitationRow} (hrow : t.invitations.find? id = some row) (hpending : row.status = .pending)
    {userId : String} (hemail : row.email ∈ emails userId) : t.createdIn id userId = t.removals userId := by
  cases h with
  | move | read | retry | reported | synced | event => exact hs.pending id row hrow hpending userId hemail
  | @removed r removed found hrequest hadmin hactive =>
    rw [System.finishRemoval, if_pos hactive] at hrow ⊢
    simp only [find?_revokeFound] at hrow
    obtain ⟨row₀, hrow₀, hset⟩ := Option.map_eq_some_iff.mp hrow
    split at hset
    · rw [← hset] at hpending
      cases hpending
    · next hfound =>
      subst hset
      have hne : userId ≠ removed := by
        rintro rfl
        have hmem := (Table.find?_eq_some_iff.mp hrow₀).1
        exact hfound ⟨hok userId found hrequest row₀ hmem hpending hemail, hpending⟩
      simp only [Function.update_of_ne hne]
      exact hs.pending id row₀ hrow₀ hpending userId hemail
  | @invited r action new email role createdAt expiresAt hnew =>
    by_cases hid : id = new
    · subst hid
      exact congrFun (Function.update_self id s.removals s.createdIn) userId
    · have hcreated : Function.update s.createdIn new s.removals id = s.createdIn id := Function.update_of_ne hid ..
      simp only [hcreated]
      refine hs.pending id row ?_ hpending userId hemail
      rwa [Table.find?_insertNew, if_neg hid] at hrow
  | granted hrequest hrow' hpending' | claimed hrow' hpending' =>
    rw [find?_setStatus hrow' rfl] at hrow
    split at hrow
    · cases hrow
      cases hpending
    · exact hs.pending id row hrow hpending userId hemail
  | released hrequest hreleases =>
    rw [Table.find?_update] at hrow
    split at hrow
    · next hid =>
      subst hid
      obtain ⟨row₀, hrow₀, hset⟩ := Option.map_eq_some_iff.mp hrow
      have hsame : row₀.email = row.email := by
        rw [← hset]
        split <;> rfl
      exact hok _ hrequest hreleases row₀ hrow₀ userId (hsame ▸ hemail)
    · exact hs.pending id row hrow hpending userId hemail

theorem putMember_activations {row : MemberRow} {grantedIn : Nat} (hs : RemovalInv emails s)
    (hnew : row.status = .active → s.isActive row.userId = false → s.removals row.userId ≤ grantedIn) :
    ∀ a ∈ (s.putMember row grantedIn).activations, a.removals ≤ a.grantedIn := by
  simp only [System.putMember]
  split
  · next h =>
    intro a ha
    rcases List.mem_cons.mp ha with rfl | ha
    · exact hnew h.1 (by simpa using h.2)
    · exact hs.activations a ha
  · exact hs.activations

theorem synced_new (hs : RemovalInv emails s) {r : Nat} {membership : ClerkMembership} {reactivateRemoved : Bool}
    {existing : Option MemberStatus} {latest : Option InvitationRow} {now : Nat}
    (hok : grantsAreNew emails primaryEmail s (.request r (.commitSync latest now)))
    (hrequest : s.requests r = .readMembership membership reactivateRemoved existing)
    (hwritten : ¬s.Declines primaryEmail membership existing latest now)
    (hactive : (System.syncedRow (s.members.find? membership.userId) membership reactivateRemoved).status = .active)
    (hinactive : s.isActive membership.userId = false) : s.removals membership.userId ≤ membership.happenedIn := by
  cases hrow : s.members.find? membership.userId with
  | none =>
    -- Without a row there was no removal.
    have hzero : s.removals membership.userId = 0 := by
      by_contra hne
      have := hs.removed membership.userId (Nat.pos_of_ne_zero hne)
      rw [hrow] at this
      cases this
    omega
  | some row =>
    have hremoved : row.status = .removed := by
      cases hstatus : row.status with
      | active => simp [System.isActive, hrow, hstatus] at hinactive
      | removed => rfl
    have hreactivates : reactivateRemoved = true := by
      cases hreactivate : reactivateRemoved with
      | true => rfl
      | false => simp [System.syncedRow, hrow, hremoved, hreactivate] at hactive
    subst hreactivates
    exact (hok membership existing hrequest hwritten (by simp [hrow, hremoved])).ge

theorem activations_step (hs : RemovalInv emails s) (hok : grantsAreNew emails primaryEmail s l) (h : Effect emails primaryEmail s l t) :
    ∀ a ∈ t.activations, a.removals ≤ a.grantedIn := by
  cases h with
  | move | read | retry | invited | claimed | reported | released | event => exact hs.activations
  | removed hrequest hadmin hactive =>
    rw [System.finishRemoval, if_pos hactive]
    exact hs.activations
  | @granted r action userId id role retried row hrequest hrow hpending =>
    refine putMember_activations (s := s) hs fun _ _ => ?_
    obtain ⟨row', hrow', hemail⟩ := hs.accepting r userId id role retried hrequest
    rw [hrow] at hrow'
    cases hrow'
    rw [userId_grantedRow]
    exact (hs.pending id row hrow hpending userId hemail).ge
  | synced hrequest hwritten =>
    exact putMember_activations (s := s) hs fun hactive => hs.synced_new hok hrequest hwritten hactive

theorem step (hs : RemovalInv emails s) (hok : grantsAreNew emails primaryEmail s l) (h : Effect emails primaryEmail s l t) :
    RemovalInv emails t where
  accepting _ _ _ _ _ hr := hs.accepting_step h hr
  pending _ _ hrow hpending _ hemail := hs.pending_step hok h hrow hpending hemail
  removed _ hremoved := hs.removed_step h hremoved
  activations := hs.activations_step hok h

end RemovalInv

/-- Members come back by grants that are newer than their removals, and an invitation grants once, unless its
revocation was reported. -/
structure System.RespectsGrants (s : System) : Prop where
  reinstated : ∀ a ∈ s.activations, a.removals ≤ a.grantedIn
  once : s.grants.Nodup
  notRevoked : ∀ id ∈ s.revocations, id ∉ s.grants

theorem removed_member_needs_new_grant (emails : String → List String) (primaryEmail : String → Option String)
    (members : MemberTable) (invitations : InvitationTable) {s : System}
    (hs : Reachable (step emails primaryEmail) (· = .start members invitations) (grantsAreNew emails primaryEmail) s) :
    s.RespectsGrants := by
  have hinv : ClaimInv s ∧ RemovalInv emails s := by
    refine Reachable.invariant (P := fun s => ClaimInv s ∧ RemovalInv emails s) ?_ ?_ hs
    · rintro _ rfl
      refine ⟨⟨?_, List.nodup_nil, ?_, ?_, ?_⟩, ⟨?_, ?_, ?_, ?_⟩⟩
      · exact fun _ h => absurd h List.not_mem_nil
      · nofun
      · nofun
      · exact fun _ h => absurd h List.not_mem_nil
      · nofun
      · exact fun _ _ _ _ _ _ => rfl
      · exact fun _ h => absurd h (Nat.lt_irrefl 0)
      · exact fun _ h => absurd h List.not_mem_nil
    · intro s l t _ hs hok h
      exact ⟨hs.1.step (effect_of_step h), hs.2.step hok (effect_of_step h)⟩
  refine ⟨hinv.2.activations, hinv.1.nodup, fun id hrevoked hgranted => ?_⟩
  cases (hinv.1.reported id hrevoked).1.unique (hinv.1.granted id hgranted)

/-! ## An invitation that is given back after the removal -/

/-- Bob was invited before he signed in. -/
def openInvitation : InvitationTable := ⟨[⟨"inv_1", "bob@example.com", .member, 0, 10, .pending⟩], by decide⟩

def afterRequests (steps : List Step) : System :=
  (Lib.run (step addressOf primaryAddress) (.start twoMembers openInvitation) steps).getD
    (.start twoMembers openInvitation)

/-- Bob is removed, invited again and accepts. -/
def inviteAgain : List Step :=
  [.request 1 (.checkMember "bob@example.com" .member), .request 1 .checkInvitation,
    .request 1 (.insertInvitation "inv_2" 5 20), .request 2 (.readInvitation "bob" "inv_2" 6),
    .request 2 (.claimAndGrant 6)]

def findBob : List Step := [.request 0 (.readMember (some "alice") "bob"), .request 0 .findInvitations]

theorem invited_again_is_reinstated :
    (afterRequests (findBob ++ .request 0 .commitRemoval :: inviteAgain)).activations = [⟨"bob", 1, 1⟩] ∧
      (afterRequests (findBob ++ .request 0 .commitRemoval :: inviteAgain)).RespectsGrants := by
  refine ⟨by rfl, ?_⟩
  have hfound : Reachable (step addressOf primaryAddress) (· = .start twoMembers openInvitation)
      (grantsAreNew addressOf primaryAddress) _ :=
    Reachable.run_of (.start rfl) (by simp [findBob, grantsAreNew]) (by rfl : Lib.run _ _ findBob = some _)
  have hremoved := hfound.step (l := Step.request 0 .commitRemoval)
    (by
      rintro userId found ⟨⟩ row hrow - -
      obtain rfl := List.mem_singleton.mp hrow
      decide)
    rfl
  have hinvited := hremoved.run_of (by simp [inviteAgain, grantsAreNew]) (by rfl : Lib.run _ _ inviteAgain = some _)
  exact removed_member_needs_new_grant addressOf primaryAddress twoMembers openInvitation hinvited

/-- Alice revokes the invitation and removes Bob; Clerk cannot be reached, so that the revocation gives the
invitation back, and Bob accepts it. -/
def revokeAndRemove : List Step :=
  [.request 1 (.claimRevocation "inv_1"), .request 0 (.readMember (some "alice") "bob"),
    .request 0 .findInvitations, .request 0 .commitRemoval, .request 1 (.finishRevocation (.failed false none none)),
    .request 2 (.readInvitation "bob" "inv_1" 1), .request 2 (.claimAndGrant 1)]

theorem removed_member_reinstated_by_old_invitation :
    ¬ ∀ (emails : String → List String) (primaryEmail : String → Option String) (members : MemberTable)
      (invitations : InvitationTable) (s : System),
      Reachable (step emails primaryEmail) (· = .start members invitations) anyStep s → s.RespectsGrants := by
  intro h
  have hreach : Reachable (step addressOf primaryAddress) (· = .start twoMembers openInvitation) anyStep
      (afterRequests revokeAndRemove) :=
    Reachable.run (.start rfl) (by rfl : Lib.run _ _ revokeAndRemove = some _)
  have hgrants := h addressOf primaryAddress twoMembers openInvitation _ hreach
  have hold : (afterRequests revokeAndRemove).activations = [⟨"bob", 0, 1⟩] := rfl
  have hnew := hgrants.reinstated ⟨"bob", 0, 1⟩ (hold ▸ List.mem_singleton.mpr rfl)
  exact absurd hnew (by decide)

end Sdp.Members
