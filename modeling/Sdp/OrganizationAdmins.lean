import Sdp.Members

/-!
# The last administrator

A removal counts the other admins only when the role that it read first was the one of an admin. As long
as no removal that has skipped the count writes a member who is an admin by then, an organization with
an admin keeps one.
-/

namespace Sdp.Members

open Lib

variable {emails : String → List String} {primaryEmail : String → Option String}

def System.HasAdmin (s : System) : Prop := ∃ row ∈ s.members.rows, row.isActiveAdmin = true

theorem hasAdmin_iff {s : System} :
    s.HasAdmin ↔ ∃ userId row, s.members.find? userId = some row ∧ row.isActiveAdmin = true := by
  constructor
  · rintro ⟨row, hrow, hadmin⟩
    exact ⟨row.userId, row, Table.mem_rows_iff.mp hrow, hadmin⟩
  · rintro ⟨userId, row, hrow, hadmin⟩
    exact ⟨row, (Table.find?_eq_some_iff.mp hrow).1, hadmin⟩

/-- Steps of `removeMember` and of `acceptInvitation`. -/
def Step.isRemovalOrAcceptance : Step → Bool
  | .request _ (.readMember _ _) | .request _ .findInvitations | .request _ .findAdmins | .request _ .commitRemoval
  | .request _ (.readInvitation _ _ _) | .request _ (.claimAndGrant _) | .request _ .insertConflict => true
  | _ => false

def removalOrAcceptance (_ : System) (l : Step) : Prop := l.isRemovalOrAcceptance = true

/-- A removal that has skipped the count does not find an admin. -/
def countsAdmins (s : System) : Step → Prop
  | .request r .commitRemoval =>
    match s.requests r with
    | .revoking userId false _ => ∀ row, s.members.find? userId = some row → row.role ≠ .admin
    | _ => True
  | _ => True

section

variable {s t : System}

theorem find?_finishRemoval {r : Nat} {userId : String} {found : List String} (hactive : s.isActive userId = true)
    (userId' : String) :
    (s.finishRemoval r userId found).members.find? userId' =
      if userId' = userId then (s.members.find? userId).map MemberRow.remove else s.members.find? userId' := by
  rw [System.finishRemoval, if_pos hactive]
  simp [Table.find?_update]

theorem hasAdmin_removed {r : Nat} {userId : String} {found : List String} (hs : s.HasAdmin)
    (hrequest : (s.requests r).removal? = some (userId, found)) (hadmin : (s.requests r).leavesAdmin s)
    (hactive : s.isActive userId = true) (hcounts : countsAdmins s (.request r .commitRemoval)) :
    (s.finishRemoval r userId found).HasAdmin := by
  -- Another admin than the removed member keeps the row.
  suffices ∃ admin row, admin ≠ userId ∧ s.members.find? admin = some row ∧ row.isActiveAdmin = true by
    obtain ⟨admin, row, hne, hrow, hadmin⟩ := this
    refine hasAdmin_iff.mpr ⟨admin, row, ?_, hadmin⟩
    rw [find?_finishRemoval hactive, if_neg hne, hrow]
  simp only [countsAdmins] at hcounts
  unfold Request.removal? at hrequest
  split at hrequest
  · next hr =>
    cases hrequest
    rw [hr] at hcounts
    obtain ⟨admin, row, hrow, hadmin⟩ := hasAdmin_iff.mp hs
    refine ⟨admin, row, ?_, hrow, hadmin⟩
    rintro rfl
    exact hcounts row hrow (of_decide_eq_true hadmin).2
  · next hr =>
    cases hrequest
    rw [hr] at hadmin
    obtain ⟨admin, hmem⟩ := List.exists_mem_of_ne_nil _ hadmin
    obtain ⟨-, hmem⟩ := List.mem_filter.mp hmem
    obtain ⟨hne, hany⟩ := of_decide_eq_true hmem
    obtain ⟨row, hrow, hadmin⟩ := (Option.any_eq_true _ _).mp hany
    exact ⟨admin, row, hne, hrow, hadmin⟩
  · cases hrequest

theorem isActiveAdmin_grantedRow {userId : String} {row : MemberRow} {role : StoredRole}
    (hadmin : row.isActiveAdmin = true) : (System.grantedRow (some row) userId role).isActiveAdmin = true := by
  obtain ⟨hactive, hrole⟩ := of_decide_eq_true hadmin
  simp [System.grantedRow, hactive, hrole, normalizeOrganizationRole, MemberRow.isActiveAdmin]

theorem hasAdmin_granted {userId : String} {role : StoredRole} (hs : s.HasAdmin)
    (ht : t.members = s.members.put (System.grantedRow (s.members.find? userId) userId role)) : t.HasAdmin := by
  have hid := userId_grantedRow (s.members.find? userId) userId role
  obtain ⟨admin, row, hrow, hadmin⟩ := hasAdmin_iff.mp hs
  by_cases hne : admin = userId
  · subst hne
    refine hasAdmin_iff.mpr ⟨admin, System.grantedRow (s.members.find? admin) admin role, ?_, ?_⟩
    · rw [ht, find?_put, if_pos hid.symm]
    · rw [hrow]
      exact isActiveAdmin_grantedRow hadmin
  · refine hasAdmin_iff.mpr ⟨admin, row, ?_, hadmin⟩
    rw [ht, find?_put, if_neg (hid.symm ▸ hne), hrow]

theorem hasAdmin_step {l : Step} (hs : s.HasAdmin) (hl : l.isRemovalOrAcceptance = true) (hok : countsAdmins s l)
    (h : step emails primaryEmail s l = some t) : t.HasAdmin := by
  cases effect_of_step h with
  | removed hrequest hadmin hactive => exact hasAdmin_removed hs hrequest hadmin hactive hok
  | granted hrequest hrow hpending => exact hasAdmin_granted hs rfl
  | synced => cases hl
  | move | read | retry | invited | claimed | reported | released | event => exact hs

end

/-- An organization with an active admin keeps one. -/
theorem organization_keeps_admin (emails : String → List String) (primaryEmail : String → Option String)
    (members : MemberTable) (invitations : InvitationTable) (hstart : (System.start members invitations).HasAdmin)
    {s : System}
    (hs : Reachable (step emails primaryEmail) (· = .start members invitations)
      (fun s l => removalOrAcceptance s l ∧ countsAdmins s l) s) : s.HasAdmin := by
  refine hs.invariant ?_ ?_
  · rintro _ rfl
    exact hstart
  · intro s l t _ hs hok h
    exact hasAdmin_step hs hok.1 hok.2 h

/-! ## A member who is upgraded while being removed -/

/-- Bob was invited as an admin before he signed in as a member. -/
def adminInvitation : InvitationTable := ⟨[⟨"inv_1", "bob@example.com", .admin, 0, 10, .pending⟩], by decide⟩

def removeBob : List Step :=
  [.request 0 (.readMember (some "alice") "bob"), .request 0 .findInvitations, .request 0 .commitRemoval]

/-- Alice is about to remove Bob; he accepts the invitation and removes her first. -/
def removeEachOther : List Step :=
  [.request 0 (.readMember (some "alice") "bob"), .request 1 (.readInvitation "bob" "inv_1" 1),
    .request 1 (.claimAndGrant 1), .request 2 (.readMember (some "bob") "alice"), .request 2 .findInvitations,
    .request 2 .findAdmins, .request 2 .commitRemoval, .request 0 .findInvitations, .request 0 .commitRemoval]

def afterSteps (steps : List Step) : System :=
  (Lib.run (step addressOf primaryAddress) (.start twoMembers adminInvitation) steps).getD
    (.start twoMembers adminInvitation)

theorem bob_removed_alice_stays :
    (System.start twoMembers adminInvitation).HasAdmin ∧ (afterSteps removeBob).isActive "bob" = false ∧
      (afterSteps removeBob).HasAdmin := by
  have hstart : (System.start twoMembers adminInvitation).HasAdmin := ⟨⟨"alice", .admin, .active⟩, by decide, by decide⟩
  refine ⟨hstart, by rfl, ?_⟩
  have hfound : Reachable (step addressOf primaryAddress) (· = .start twoMembers adminInvitation)
      (fun s l => removalOrAcceptance s l ∧ countsAdmins s l) _ :=
    Reachable.run_of (.start rfl) (by simp [removeBob, removalOrAcceptance, Step.isRemovalOrAcceptance, countsAdmins])
      (by rfl : Lib.run _ _ (removeBob.take 2) = some _)
  have hremoved := hfound.step (l := Step.request 0 .commitRemoval)
    ⟨rfl, fun row hrow => by cases hrow; decide⟩ rfl
  exact organization_keeps_admin addressOf primaryAddress twoMembers adminInvitation hstart hremoved

/-- Two removals and one acceptance leave an organization without an admin. -/
theorem removals_leave_no_admin :
    ¬ ∀ (emails : String → List String) (primaryEmail : String → Option String) (members : MemberTable)
      (invitations : InvitationTable), (System.start members invitations).HasAdmin →
      ∀ s, Reachable (step emails primaryEmail) (· = .start members invitations) removalOrAcceptance s →
        s.HasAdmin := by
  intro h
  have hstart : (System.start twoMembers adminInvitation).HasAdmin := ⟨⟨"alice", .admin, .active⟩, by decide, by decide⟩
  have hreach : Reachable (step addressOf primaryAddress) (· = .start twoMembers adminInvitation) removalOrAcceptance
      (afterSteps removeEachOther) :=
    Reachable.run_of (.start rfl)
      (by simp [removeEachOther, removalOrAcceptance, Step.isRemovalOrAcceptance])
      (by rfl : Lib.run _ _ removeEachOther = some _)
  obtain ⟨row, hrow, hadmin⟩ := h addressOf primaryAddress twoMembers adminInvitation hstart _ hreach
  have hrows : (afterSteps removeEachOther).members.rows = [⟨"alice", .admin, .removed⟩, ⟨"bob", .admin, .removed⟩] := rfl
  rw [hrows] at hrow
  simp only [List.mem_cons, List.not_mem_nil, or_false] at hrow
  rcases hrow with rfl | rfl
  · cases hadmin
  · cases hadmin

end Sdp.Members
