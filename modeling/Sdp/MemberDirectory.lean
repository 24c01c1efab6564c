import Sdp.Code.MemberDirectory

/-!
# The member directory as one sequence

The members of a page are a window of the members, its invitations one of the invitations that starts where the
members ran out. Rows that tie at the edge of a page can come up on both sides of it.
-/

namespace Sdp.MemberDirectory

open Sdp.Amount (isTrimmed isDigit digitsValue isDigit_not_trimmed isDigit_of_mem_toDigits digitsValue_toDigits
  signed_digits nearestDouble_natCast)
open Sdp.Lib

/-! ## The request -/

theorem parseInt_repr {n : Nat} (hn : n < 2 ^ 53) : parseInt n.repr.toList = some (n : Int) := by
  have hdigits : ∀ c ∈ Nat.toDigits 10 n, isDigit c = true := fun c hc => isDigit_of_mem_toDigits hc
  have htrimmed : (Nat.toDigits 10 n).dropWhile isTrimmed = Nat.toDigits 10 n := by
    rw [List.dropWhile_eq_self_iff]
    intro hlength
    simp [isDigit_not_trimmed _ (hdigits _ (List.getElem_mem hlength))]
  unfold parseInt
  rw [Nat.toList_repr, htrimmed, signed_digits hdigits]
  dsimp only
  rw [List.takeWhile_eq_self_iff.mpr hdigits, if_neg Nat.toDigits_ne_nil, digitsValue_toDigits, Int.cast_one, one_mul,
    nearestDouble_natCast hn, Option.map_some, Int.floor_natCast]

theorem page_repr {page : Nat} (h : 0 < page) (hpage : page < 2 ^ 53) (pageSize : Option String) :
    (resolveMembersPaging (some page.repr) pageSize).page = page := by
  unfold resolveMembersPaging
  dsimp only [Option.getD_some]
  rw [parseInt_repr hpage]
  simp [h]

theorem pageSize_repr {size : Nat} (h : 0 < size) (hmax : size ≤ membersMaxPageSize) (page : Option String) :
    (resolveMembersPaging page (some size.repr)).pageSize = size := by
  unfold resolveMembersPaging
  dsimp only [Option.getD_some]
  rw [parseInt_repr (lt_of_le_of_lt hmax (by decide))]
  simp [h, hmax]

theorem pageSize_bounds (page pageSize : Option String) :
    0 < (resolveMembersPaging page pageSize).pageSize ∧
      (resolveMembersPaging page pageSize).pageSize ≤ membersMaxPageSize := by
  unfold resolveMembersPaging
  dsimp only
  split
  · split <;> simp_all [membersMaxPageSize, membersDefaultPageSize]
  · simp [membersMaxPageSize, membersDefaultPageSize]

/-! ## One page -/

variable {Time : Type} [LinearOrder Time]

/-- The ids of a page, the members in front of the invitations. -/
def entryIds (directory : Directory Time) : List (String ⊕ String) :=
  directory.members.map (fun member => .inl member.id) ++
    directory.invitations.map fun invitation => .inr invitation.id

section

variable {toLowerCase : String → String} {db : Database Time} {c : AppContext} {actor : Actor} {now : Time}
  {answers : ∀ organizationId, Answers db organizationId now}

theorem listMembers_page (hactor : resolveActor c = .ok actor) (hwrite : callerHasPermission c "org:write" = true) :
    let paging := resolveMembersPaging c.page c.pageSize
    let memberTotal := (activeMembers db actor.organizationId).length
    let total := memberTotal + (pendingInvitations db actor.organizationId now).length
    let offset := (paging.page - 1) * paging.pageSize
    ∃ directory, listMembers toLowerCase db c now answers = .ok directory ∧
      entryIds directory =
        (window offset paging.pageSize (answers actor.organizationId).members).map (fun row => .inl row.id) ++
        (window (offset - memberTotal) (offset + paging.pageSize - memberTotal - (offset - memberTotal))
          (answers actor.organizationId).invitations).map (fun row => .inr row.id) ∧
      directory.total = total ∧ directory.hasMore = decide (paging.page * paging.pageSize < total) := by
  intro paging memberTotal total offset
  have hlength := (answers actor.organizationId).membersSorted.perm.length_eq
  have hlimit : paging.pageSize - (window offset paging.pageSize (answers actor.organizationId).members).length =
      offset + paging.pageSize - memberTotal - (offset - memberTotal) := by
    rw [window, List.length_take, List.length_drop, hlength]
    omega
  unfold listMembers
  simp only [hactor, hwrite, List.length_map]
  refine ⟨_, rfl, ?_, rfl, rfl⟩
  unfold entryIds
  simp only [List.map_map]
  refine congrArg₂ (· ++ ·) rfl ?_
  rw [hlimit]
  -- The links of Clerk change no id.
  have hids : ∀ clerkInvitations (rows : List (Invitation Time)),
      rows.map ((fun entry => (.inr entry.id : String ⊕ String)) ∘ invitationEntry toLowerCase clerkInvitations) =
        rows.map fun row => .inr row.id := fun _ _ => rfl
  refine (hids _ _).trans (congrArg (List.map _) ?_)
  by_cases hroom : 0 < offset + paging.pageSize - memberTotal - (offset - memberTotal)
  · rw [if_pos (by simpa using hroom)]
  · rw [if_neg (by simpa using hroom), Nat.eq_zero_of_not_pos hroom]
    rfl

end

/-! ## All pages -/

/-- The pages requested from one on, until a page says that there are no more. -/
inductive Walk (request : Nat → Except String (Directory Time)) : Nat → List (Directory Time) → Prop where
  | last {page : Nat} {directory : Directory Time} (ok : request page = .ok directory)
    (done : directory.hasMore = false) : Walk request page [directory]
  | next {page : Nat} {directory : Directory Time} {rest : List (Directory Time)} (ok : request page = .ok directory)
    (more : directory.hasMore = true) (walk : Walk request (page + 1) rest) : Walk request page (directory :: rest)

/-- Every member once and then every invitation once, on full pages, with the right total. -/
structure Complete (memberIds invitationIds : List String) (pageSize : Nat) (pages : List (Directory Time)) : Prop where
  once : ∃ members invitations : List String, members.Perm memberIds ∧ invitations.Perm invitationIds ∧
    pages.flatMap entryIds = members.map .inl ++ invitations.map .inr
  full : ∀ directory ∈ pages.dropLast, (entryIds directory).length = pageSize
  total : ∀ directory ∈ pages, directory.total = memberIds.length + invitationIds.length

/-- No edge of a page falls between entries of one kind that were made at one time. -/
def NoTieAtEdge (members : List (Member Time)) (invitations : List (Invitation Time)) (pageSize : Nat) : Prop :=
  ∀ page, ¬SplitsTie Member.createdAt members (page * pageSize) ∧
    ¬SplitsTie (fun invitation => OrderDual.toDual invitation.createdAt) invitations (page * pageSize - members.length)

section

omit [LinearOrder Time]

variable {request : Nat → Except String (Directory Time)}

theorem Walk.unique {page : Nat} {pages pages' : List (Directory Time)} (h : Walk request page pages)
    (h' : Walk request page pages') : pages = pages' := by
  induction h generalizing pages' with
  | last hok hdone =>
    cases h' with
    | last hok' _ => rw [Except.ok.inj (hok.symm.trans hok')]
    | next hok' hmore _ =>
      obtain rfl := Except.ok.inj (hok.symm.trans hok')
      rw [hdone] at hmore
      cases hmore
  | next hok hmore _ ih =>
    cases h' with
    | last hok' hdone =>
      obtain rfl := Except.ok.inj (hok.symm.trans hok')
      rw [hdone] at hmore
      cases hmore
    | next hok' _ hwalk => rw [Except.ok.inj (hok.symm.trans hok'), ih hwalk]

theorem walk_pages {directories : Nat → Directory Time} {pageSize total limit : Nat}
    (hok : ∀ page < limit, request (page + 1) = .ok (directories page))
    (hmore : ∀ page < limit, (directories page).hasMore = decide ((page + 1) * pageSize < total)) {page more : Nat}
    (hlimit : page + more < limit) (hlast : total ≤ (page + more + 1) * pageSize) (hbefore : ∀ j < more, (page + j + 1) * pageSize < total) :
    Walk request (page + 1) ((List.range (more + 1)).map fun j => directories (page + j)) := by
  induction more generalizing page with
  | zero => exact .last (hok page hlimit) (by simpa [hmore page hlimit] using hlast)
  | succ more ih =>
    rw [List.range_succ_eq_map, List.map_cons, List.map_map]
    have hpage : page < limit := by omega
    refine .next (hok page hpage) (by simpa [hmore page hpage] using hbefore 0 (Nat.succ_pos more)) ?_
    have hrest := @ih (page + 1) (by omega) (by convert hlast using 2; omega) fun j hj => by
      convert hbefore (j + 1) (by omega) using 2
      omega
    convert hrest using 2
    funext j
    exact congrArg directories (by omega)

theorem exists_lastPage {pageSize : Nat} (hsize : 0 < pageSize) (total : Nat) :
    ∃ pages ≤ total - 1, total ≤ (pages + 1) * pageSize ∧ ∀ j < pages, (j + 1) * pageSize < total := by
  refine ⟨(total - 1) / pageSize, Nat.div_le_self _ _, ?_, fun j hj => ?_⟩
  · have := Nat.lt_mul_div_succ (total - 1) hsize
    rw [Nat.mul_comm] at this
    omega
  · have hle : (j + 1) * pageSize ≤ total - 1 := (Nat.le_div_iff_mul_le hsize).mp hj
    have hpos : 0 < (j + 1) * pageSize := Nat.mul_pos (Nat.succ_pos j) hsize
    omega

end

section

variable (toLowerCase : String → String) {db : Database Time} {c : AppContext} {actor : Actor} {now : Nat → Time}
  {pageSize : Nat} {members : List (Member Time)} {invitations : List (Invitation Time)}

theorem exists_directories (hactor : resolveActor c = .ok actor) (hwrite : callerHasPermission c "org:write" = true)
    (hsize : (resolveMembersPaging none c.pageSize).pageSize = pageSize)
    (hactive : activeMembers db actor.organizationId = members)
    (hsteady : ∀ page, pendingInvitations db actor.organizationId (now page) = invitations)
    (answers : ∀ page organizationId, Answers db organizationId (now page)) :
    ∃ directories : Nat → Directory Time, ∀ page < 2 ^ 53 - 1,
      listMembers toLowerCase db { c with page := some (page + 1).repr } (now (page + 1)) (answers (page + 1)) =
        .ok (directories page) ∧
      entryIds (directories page) =
        (window (page * pageSize) ((page + 1) * pageSize - page * pageSize)
          (answers (page + 1) actor.organizationId).members).map (fun row => .inl row.id) ++
        (window (page * pageSize - members.length)
          ((page + 1) * pageSize - members.length - (page * pageSize - members.length))
          (answers (page + 1) actor.organizationId).invitations).map (fun row => .inr row.id) ∧
      (directories page).total = members.length + invitations.length ∧
      (directories page).hasMore = decide ((page + 1) * pageSize < members.length + invitations.length) := by
  have hpage : ∀ page, ∃ directory : Directory Time,
      listMembers toLowerCase db { c with page := some (page + 1).repr } (now (page + 1)) (answers (page + 1)) =
        .ok directory ∧ _ := fun page => listMembers_page hactor hwrite
  choose directories hok hids htotal hmore using hpage
  refine ⟨directories, fun page hlt => ?_⟩
  have hpaging : resolveMembersPaging (some (page + 1).repr) c.pageSize = ⟨page + 1, pageSize⟩ :=
    congrArg₂ Paging.mk (page_repr (Nat.succ_pos page) (Nat.add_lt_of_lt_sub hlt) c.pageSize) hsize
  have hids' := hids page
  have htotal' := htotal page
  have hmore' := hmore page
  simp only [hpaging, Nat.add_sub_cancel, hactive, hsteady] at hids' htotal' hmore'
  refine ⟨hok page, ?_, htotal', hmore'⟩
  rw [hids', Nat.succ_mul, Nat.add_sub_cancel_left]

theorem exists_walk (hactor : resolveActor c = .ok actor) (hwrite : callerHasPermission c "org:write" = true)
    (hsize : (resolveMembersPaging none c.pageSize).pageSize = pageSize)
    (hactive : activeMembers db actor.organizationId = members)
    (hsteady : ∀ page, pendingInvitations db actor.organizationId (now page) = invitations)
    (hcount : members.length + invitations.length < 2 ^ 53)
    (answers : ∀ page organizationId, Answers db organizationId (now page)) :
    ∃ pages more, members.length + invitations.length ≤ (more + 1) * pageSize ∧
      Walk (fun page => listMembers toLowerCase db { c with page := some page.repr } (now page) (answers page)) 1
        pages ∧
      pages.flatMap entryIds =
        (windows (· * pageSize) (fun page => (answers (page + 1) actor.organizationId).members) (more + 1)).map
          (fun row => .inl row.id) ++
        (windows (· * pageSize - members.length) (fun page => (answers (page + 1) actor.organizationId).invitations)
          (more + 1)).map (fun row => .inr row.id) ∧
      (∀ directory ∈ pages.dropLast, (entryIds directory).length = pageSize) ∧
      ∀ directory ∈ pages, directory.total = members.length + invitations.length := by
  obtain ⟨directories, hpage⟩ := exists_directories toLowerCase hactor hwrite hsize hactive hsteady answers
  obtain ⟨more, hmore, hlast, hbefore⟩ :=
    exists_lastPage (hsize ▸ (pageSize_bounds none c.pageSize).1) (members.length + invitations.length)
  -- The text of every page up to the last gives its number.
  have hbelow {page : Nat} (hmem : page ∈ List.range (more + 1)) : page < 2 ^ 53 - 1 := by
    have hle := List.mem_range.mp hmem
    omega
  have hmembers : ∀ page, (answers page actor.organizationId).members.length = members.length :=
    fun page => hactive ▸ (answers page actor.organizationId).membersSorted.perm.length_eq
  have hinvitations : ∀ page, (answers page actor.organizationId).invitations.length = invitations.length :=
    fun page => hsteady page ▸ (answers page actor.organizationId).invitationsSorted.perm.length_eq
  refine ⟨(List.range (more + 1)).map directories, more, hlast, ?_, ?_, ?_, ?_⟩
  · have hwalk : Walk (fun page => listMembers toLowerCase db { c with page := some page.repr } (now page)
        (answers page)) (0 + 1) ((List.range (more + 1)).map fun j => directories (0 + j)) :=
      walk_pages (fun page hlt => (hpage page hlt).1) (fun page hlt => (hpage page hlt).2.2.2) (by omega)
        (by rwa [Nat.zero_add]) (by simpa only [Nat.zero_add] using hbefore)
    simpa only [Nat.zero_add] using hwalk
  · rw [List.flatMap_map, List.flatMap_congr fun page hmem => (hpage page (hbelow hmem)).2.1, flatMap_spliced, windows, windows,
      List.map_flatMap, List.map_flatMap]
    intro page later hlater hne
    have hroom : members.length < (page + 1) * pageSize := by
      by_contra hfull
      exact hne (by rw [Nat.sub_eq_zero_of_le (not_lt.mp hfull), Nat.zero_sub]; rfl)
    have hbehind : (page + 1) * pageSize ≤ later * pageSize := Nat.mul_le_mul_right _ hlater
    rw [window, List.drop_of_length_le (by rw [hmembers]; omega), List.take_nil, List.map_nil]
  · intro directory hdirectory
    rw [List.range_succ, List.map_append, List.map_singleton, List.dropLast_concat] at hdirectory
    obtain ⟨page, hmem, rfl⟩ := List.mem_map.mp hdirectory
    have hlt := List.mem_range.mp hmem
    have hroom := hbefore page hlt
    rw [(hpage page (by omega)).2.1]
    simp only [window, List.length_append, List.length_map, List.length_take, List.length_drop, hmembers, hinvitations]
    rw [Nat.succ_mul] at hroom ⊢
    omega
  · intro directory hdirectory
    obtain ⟨page, hmem, rfl⟩ := List.mem_map.mp hdirectory
    exact (hpage page (hbelow hmem)).2.2.1

/-! ## Ties -/

theorem memberCut_mono (pageSize : Nat) : Monotone (· * pageSize) := fun _ _ h => Nat.mul_le_mul_right _ h

theorem invitationCut_mono (pageSize memberTotal : Nat) : Monotone (· * pageSize - memberTotal) :=
  fun _ _ h => Nat.sub_le_sub_right (Nat.mul_le_mul_right _ h) _

theorem answers_nonempty (db : Database Time) (organizationId : String) (now : Time) :
    Nonempty (Answers db organizationId now) := by
  obtain ⟨members, hmembers⟩ := exists_sorted Member.createdAt (activeMembers db organizationId)
  obtain ⟨invitations, hinvitations⟩ := exists_sorted (fun invitation => OrderDual.toDual invitation.createdAt)
    (pendingInvitations db organizationId now)
  choose identities hidentities using fun user : User Time =>
    exists_sorted (fun identity => OrderDual.toDual identity.updatedAt) (clerkIdentities user)
  exact ⟨⟨members, hmembers, invitations, hinvitations, identities, hidentities, []⟩⟩

theorem exists_answers (hactive : activeMembers db actor.organizationId = members)
    (hsteady : ∀ page, pendingInvitations db actor.organizationId (now page) = invitations)
    {memberOrders : Nat → List (Member Time)} {invitationOrders : Nat → List (Invitation Time)}
    (hmembers : ∀ page, Sorted Member.createdAt members (memberOrders page))
    (hinvitations : ∀ page, Sorted (fun invitation => OrderDual.toDual invitation.createdAt) invitations
      (invitationOrders page)) :
    ∃ answers : ∀ page organizationId, Answers db organizationId (now page),
      ∀ page, (answers (page + 1) actor.organizationId).members = memberOrders page ∧
        (answers (page + 1) actor.organizationId).invitations = invitationOrders page := by
  have hanswers : ∀ page organizationId, ∃ answers : Answers db organizationId (now page),
      organizationId = actor.organizationId →
        answers.members = memberOrders (page - 1) ∧ answers.invitations = invitationOrders (page - 1) := by
    intro page organizationId
    obtain ⟨answers⟩ := answers_nonempty db organizationId (now page)
    by_cases hactor : organizationId = actor.organizationId
    · subst hactor
      refine ⟨{ answers with
        members := memberOrders (page - 1)
        membersSorted := hactive ▸ hmembers (page - 1)
        invitations := invitationOrders (page - 1)
        invitationsSorted := hsteady page ▸ hinvitations (page - 1) }, fun _ => ⟨rfl, rfl⟩⟩
    · exact ⟨answers, fun h => absurd h hactor⟩
  choose answers h using hanswers
  exact ⟨answers, fun page => h (page + 1) actor.organizationId rfl⟩

omit [LinearOrder Time] in
theorem complete_nodup {pages : List (Directory Time)} {shown : List (Member Time)} {invited : List (Invitation Time)}
    (h : Complete (members.map Member.id) (invitations.map Invitation.id) pageSize pages)
    (hentries : pages.flatMap entryIds = shown.map (fun row => .inl row.id) ++ invited.map fun row => .inr row.id)
    (hdistinct : (members.map Member.id).Nodup) (hdistinct' : (invitations.map Invitation.id).Nodup) :
    shown.Nodup ∧ invited.Nodup := by
  obtain ⟨memberIds, invitationIds, hmembers, hinvitations, honce⟩ := h.once
  have hsame := hentries.symm.trans honce
  have hleft := congrArg (List.filterMap Sum.getLeft?) hsame
  have hright := congrArg (List.filterMap Sum.getRight?) hsame
  simp only [List.filterMap_append, List.filterMap_map, Function.comp_def, Sum.getLeft?_inl, Sum.getLeft?_inr,
    Sum.getRight?_inl, Sum.getRight?_inr, List.filterMap_none, List.append_nil, List.nil_append,
    List.filterMap_some, List.filterMap_eq_map'] at hleft hright
  constructor
  · exact .of_map Member.id (hleft ▸ hmembers.nodup_iff.mpr hdistinct)
  · exact .of_map Invitation.id (hright ▸ hinvitations.nodup_iff.mpr hdistinct')

/-- The walk of answers that never disagree on the edge of a page is complete. -/
theorem complete_of_noTie (hactor : resolveActor c = .ok actor) (hwrite : callerHasPermission c "org:write" = true)
    (hsize : (resolveMembersPaging none c.pageSize).pageSize = pageSize)
    (hactive : activeMembers db actor.organizationId = members)
    (hsteady : ∀ page, pendingInvitations db actor.organizationId (now page) = invitations)
    (hcount : members.length + invitations.length < 2 ^ 53) (hties : NoTieAtEdge members invitations pageSize)
    (answers : ∀ page organizationId, Answers db organizationId (now page)) :
    ∃ pages,
      Walk (fun page => listMembers toLowerCase db { c with page := some page.repr } (now page) (answers page)) 1
        pages ∧
      Complete (members.map Member.id) (invitations.map Invitation.id) pageSize pages := by
  obtain ⟨pages, more, hlast, hwalk, hentries, hfull, htotal⟩ :=
    exists_walk toLowerCase hactor hwrite hsize hactive hsteady hcount answers
  have hmembers := windows_perm (memberCut_mono pageSize) (Nat.zero_mul _) (le_trans (Nat.le_add_right _ _) hlast)
    (fun page => (hties page).1) fun page => hactive ▸ (answers (page + 1) actor.organizationId).membersSorted
  have hinvitations := windows_perm (invitationCut_mono pageSize members.length)
    (by rw [Nat.zero_mul, Nat.zero_sub]) (Nat.le_sub_of_add_le' hlast) (fun page => (hties page).2) fun page =>
    hsteady (page + 1) ▸ (answers (page + 1) actor.organizationId).invitationsSorted
  refine ⟨pages, hwalk, ⟨_, _, hmembers.map Member.id, hinvitations.map Invitation.id, ?_⟩, hfull, ?_⟩
  · rw [hentries, List.map_map, List.map_map]
    rfl
  · simpa only [List.length_map] using htotal

/-- If entries tie across the edge of a page, there are answers with which one comes up twice. -/
theorem noTie_of_complete (hactor : resolveActor c = .ok actor) (hwrite : callerHasPermission c "org:write" = true)
    (hsize : (resolveMembersPaging none c.pageSize).pageSize = pageSize)
    (hactive : activeMembers db actor.organizationId = members)
    (hsteady : ∀ page, pendingInvitations db actor.organizationId (now page) = invitations)
    (hcount : members.length + invitations.length < 2 ^ 53)
    (hcomplete : ∀ answers : ∀ page organizationId, Answers db organizationId (now page), ∃ pages,
      Walk (fun page => listMembers toLowerCase db { c with page := some page.repr } (now page) (answers page)) 1
        pages ∧
      Complete (members.map Member.id) (invitations.map Invitation.id) pageSize pages) :
    NoTieAtEdge members invitations pageSize := by
  have hdistinct : (members.map Member.id).Nodup := hactive ▸ db.distinctMembers.sublist (List.filter_sublist.map _)
  have hdistinct' : (invitations.map Invitation.id).Nodup :=
    hsteady 0 ▸ db.distinctInvitations.sublist (List.filter_sublist.map _)
  -- Whatever the orders, the windows of the two queries repeat no row.
  have hnodup : ∀ {memberOrders : Nat → List (Member Time)} {invitationOrders : Nat → List (Invitation Time)},
      (∀ page, Sorted Member.createdAt members (memberOrders page)) →
      (∀ page, Sorted (fun invitation => OrderDual.toDual invitation.createdAt) invitations (invitationOrders page)) →
      ∃ pages, members.length + invitations.length ≤ pages * pageSize ∧
        (windows (· * pageSize) memberOrders pages).Nodup ∧
        (windows (· * pageSize - members.length) invitationOrders pages).Nodup := by
    intro memberOrders invitationOrders hmembers hinvitations
    obtain ⟨answers, hanswers⟩ := exists_answers hactive hsteady hmembers hinvitations
    obtain ⟨pages, more, hlast, hwalk, hentries, _⟩ :=
      exists_walk toLowerCase hactor hwrite hsize hactive hsteady hcount answers
    obtain ⟨pages', hwalk', hall⟩ := hcomplete answers
    obtain rfl := hwalk.unique hwalk'
    simp only [hanswers] at hentries
    exact ⟨more + 1, hlast, complete_nodup hall hentries hdistinct hdistinct'⟩
  refine fun page => ⟨fun hcut => ?_, fun hcut => ?_⟩
  · obtain ⟨memberOrders, hmembers, hrepeated⟩ :=
      exists_repeated (memberCut_mono pageSize) (Nat.zero_mul _) hcut
    obtain ⟨invitationOrder, hinvitations⟩ := exists_sorted
      (fun invitation : Invitation Time => OrderDual.toDual invitation.createdAt) invitations
    obtain ⟨pages, hlast, hshown, -⟩ := hnodup hmembers fun _ => hinvitations
    exact hrepeated pages (le_trans (Nat.le_add_right _ _) hlast) hshown
  · obtain ⟨invitationOrders, hinvitations, hrepeated⟩ :=
      exists_repeated (invitationCut_mono pageSize members.length) (by rw [Nat.zero_mul, Nat.zero_sub]) hcut
    obtain ⟨memberOrder, hmembers⟩ := exists_sorted Member.createdAt members
    obtain ⟨pages, hlast, -, hinvited⟩ := hnodup (fun _ => hmembers) hinvitations
    exact hrepeated pages (Nat.le_sub_of_add_le' hlast) hinvited

end

/-- The pages make up one sequence, whatever the queries do with ties, if and only if no entries tie at an edge. The
entries are no more than a double can count. -/
theorem directory_complete_iff (toLowerCase : String → String) {db : Database Time} {c : AppContext} {actor : Actor}
    {now : Nat → Time} {invitations : List (Invitation Time)} (hactor : resolveActor c = .ok actor)
    (hwrite : callerHasPermission c "org:write" = true)
    (hsteady : ∀ page, pendingInvitations db actor.organizationId (now page) = invitations)
    (hcount : (activeMembers db actor.organizationId).length + invitations.length < 2 ^ 53) :
    (∀ answers : ∀ page organizationId, Answers db organizationId (now page), ∃ pages,
      Walk (fun page => listMembers toLowerCase db { c with page := some page.repr } (now page) (answers page)) 1
        pages ∧
      Complete ((activeMembers db actor.organizationId).map Member.id) (invitations.map Invitation.id)
        (resolveMembersPaging none c.pageSize).pageSize pages) ↔
      NoTieAtEdge (activeMembers db actor.organizationId) invitations (resolveMembersPaging none c.pageSize).pageSize :=
  ⟨noTie_of_complete toLowerCase hactor hwrite rfl rfl hsteady hcount,
    complete_of_noTie toLowerCase hactor hwrite rfl rfl hsteady hcount⟩

/-- Two members, the second made a while after the first. -/
def twoMembers (later : Nat) : Database Nat where
  organizationMembers :=
    [⟨"mem_a", "org", "admin", "active", 0, ⟨"usr_a", "a@example.com", none, []⟩⟩,
      ⟨"mem_b", "org", "member", "active", later, ⟨"usr_b", "b@example.com", none, []⟩⟩]
  invitations := []
  distinctMembers := by simp
  distinctInvitations := .nil

def onePerPage : AppContext := ⟨none, some ⟨"org", some "usr_a", ["org:write"]⟩, none, none, some (Nat.repr 1)⟩

def stillClock (_ : Nat) : Nat := 0

theorem activeMembers_two (later : Nat) :
    activeMembers (twoMembers later) "org" = (twoMembers later).organizationMembers := by
  simp [activeMembers, twoMembers]

theorem resolveActor_onePerPage : resolveActor onePerPage = .ok ⟨"org", some "usr_a"⟩ := rfl

theorem pageSize_onePerPage : (resolveMembersPaging none onePerPage.pageSize).pageSize = 1 :=
  pageSize_repr Nat.one_pos (by decide) none

theorem no_invitations (later page : Nat) : pendingInvitations (twoMembers later) "org" (stillClock page) = [] := rfl

theorem apart_is_complete :
    NoTieAtEdge (activeMembers (twoMembers 1) "org") [] 1 ∧
      ∀ answers : ∀ page organizationId, Answers (twoMembers 1) organizationId (stillClock page), ∃ pages,
        Walk (fun page => listMembers id (twoMembers 1) { onePerPage with page := some page.repr } (stillClock page)
          (answers page)) 1 pages ∧
        Complete ((activeMembers (twoMembers 1) "org").map Member.id) [] 1 pages := by
  have hties : NoTieAtEdge (activeMembers (twoMembers 1) "org") [] 1 := by
    rw [activeMembers_two]
    refine fun page => ⟨fun ⟨k, hbelow, hupTo⟩ => ?_, fun ⟨k, _, hupTo⟩ => absurd hupTo (Nat.not_lt_zero _)⟩
    simp only [twoMembers, List.countP_cons, List.countP_nil] at hbelow hupTo
    split_ifs at hbelow hupTo <;> simp_all <;> omega
  have hiff := directory_complete_iff id resolveActor_onePerPage (by decide) (no_invitations 1)
    (by rw [activeMembers_two]; exact Nat.lt_of_le_of_lt (by decide : 2 + 0 ≤ 2) (by decide))
  rw [pageSize_onePerPage] at hiff
  exact ⟨hties, hiff.mpr hties⟩

/-- Two members made at one time, one on a page: the first can be on both. -/
theorem tie_is_incomplete :
    ¬∀ answers : ∀ page organizationId, Answers (twoMembers 0) organizationId (stillClock page), ∃ pages,
      Walk (fun page => listMembers id (twoMembers 0) { onePerPage with page := some page.repr } (stillClock page)
        (answers page)) 1 pages ∧
      Complete ((activeMembers (twoMembers 0) "org").map Member.id) [] 1 pages := by
  intro hcomplete
  have hties := noTie_of_complete id resolveActor_onePerPage (by decide) pageSize_onePerPage rfl (no_invitations 0)
    (by rw [activeMembers_two]; exact Nat.lt_of_le_of_lt (by decide : 2 + 0 ≤ 2) (by decide)) hcomplete
  rw [activeMembers_two] at hties
  exact (hties 1).1 ⟨0, by decide, by decide⟩

end Sdp.MemberDirectory
