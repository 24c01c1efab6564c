import Sdp.Code.KeyRotation
import Sdp.Lib.Checks

/-!
# Clones of a key

A clone has the rows of its source up to the ids of the profiles and revisions. When one profile is the
first by activation, the two resolve the same rules and the same default action for every wallet.
The loop of `cloneApiKeyPolicyFoundation` makes a clone when all that it reads is of one moment.
-/

namespace Sdp.KeyRotation

open ApiKeys Policy Lib

/-! ## Keys whose rows refer to each other -/

structure KeyRows.Consistent (k : KeyRows) : Prop where
  profileIds : (k.profiles.map (·.id)).Nodup
  revisionIds : (k.revisions.map (·.id)).Nodup
  revisionProfiles : ∀ r ∈ k.revisions, r.profileId ∈ k.profiles.map (·.id)
  activeRevisions : ∀ p ∈ k.profiles, ∀ id ∈ p.activeRevisionId, ∃ r ∈ k.revisions, r.id = id ∧ r.profileId = p.id
  bindingProfiles : ∀ b ∈ k.bindings, ∀ id ∈ b.apiKeyControlProfileId, id ∈ k.profiles.map (·.id)

/-! ## Clones -/

/-- What the key itself allows. -/
structure Authority where
  role : ApiKeyRole
  permissions : Option (List Permission)
  allowedIps : Option (List String)
  signingWalletId : Option String
  walletPermissions : List ApiKeyWalletBinding
deriving DecidableEq

def Authority.of (key : ApiKeyRow) : Authority :=
  ⟨key.role, key.permissions, key.allowedIps, key.signingWalletId, key.walletPermissions⟩

/-- New ids for the profiles and the revisions. -/
structure Renaming where
  profile : String → String
  revision : String → String

namespace Renaming

variable (ren : Renaming)

def profileRow (now : Nat) (p : ControlProfileRow) : ControlProfileRow :=
  p.copy (ren.profile p.id) (p.activeRevisionId.map ren.revision) now

def revisionRow (r : RevisionRow) : RevisionRow := r.copy (ren.profile r.profileId) (ren.revision r.id)

def bindingRow (b : PolicyBindingRow) : PolicyBindingRow :=
  { b with apiKeyControlProfileId := b.apiKeyControlProfileId.map ren.profile }

end Renaming

/-- The rows of `target` are those of `source`, renamed. -/
structure CloneOf (ren : Renaming) (now : Nat) (target source : KeyRows) : Prop where
  status : target.key.status = source.key.status
  authority : Authority.of target.key = Authority.of source.key
  profiles : target.profiles.Perm (source.profiles.map (ren.profileRow now))
  revisions : target.revisions.Perm (source.revisions.map ren.revisionRow)
  bindings : target.bindings = source.bindings.map ren.bindingRow
  profileIds : (target.profiles.map (·.id)).Nodup
  revisionIds : (target.revisions.map (·.id)).Nodup

/-! ## Rows by their ids -/

section

variable {ρ : Type} (key : ρ → String) {l : List ρ}

theorem find?_eq_of_mem (hkeys : (l.map key).Nodup) {r : ρ} (hr : r ∈ l) :
    l.find? (fun r' => key r' = key r) = some r :=
  Lib.Table.find?_eq_some_iff (t := ⟨l, hkeys⟩) |>.mpr ⟨hr, rfl⟩

theorem find?_renamed {l' : List ρ} (ren : ρ → ρ) (f : String → String) (hren : ∀ r, key (ren r) = f (key r))
    (hperm : l'.Perm (l.map ren)) (hkeys : (l.map key).Nodup) (hkeys' : (l'.map key).Nodup) {id : String}
    (hid : id ∈ l.map key) : l'.find? (fun r => key r = f id) = (l.find? fun r => key r = id).map ren := by
  obtain ⟨r, hr, rfl⟩ := List.mem_map.mp hid
  have hmem : ren r ∈ l' := hperm.mem_iff.mpr (List.mem_map_of_mem hr)
  rw [find?_eq_of_mem key hkeys hr, ← hren, find?_eq_of_mem key hkeys' hmem]
  rfl

end

namespace CloneOf

variable {ren : Renaming} {now : Nat} {target source : KeyRows}

theorem profile?_eq (h : CloneOf ren now target source) (hs : source.Consistent) {id : String}
    (hid : id ∈ source.profiles.map (·.id)) :
    target.profile? (ren.profile id) = (source.profile? id).map (ren.profileRow now) :=
  find?_renamed ControlProfileRow.id (ren.profileRow now) ren.profile (fun _ => rfl) h.profiles hs.profileIds h.profileIds hid

theorem revision?_eq (h : CloneOf ren now target source) (hs : source.Consistent) {id : String}
    (hid : id ∈ source.revisions.map (·.id)) :
    target.revision? (ren.revision id) = (source.revision? id).map ren.revisionRow :=
  find?_renamed RevisionRow.id ren.revisionRow ren.revision (fun _ => rfl) h.revisions hs.revisionIds h.revisionIds hid

theorem activeRevision?_eq (h : CloneOf ren now target source) (hs : source.Consistent) {p : ControlProfileRow}
    (hp : p ∈ source.profiles) :
    target.activeRevision? (ren.profileRow now p) = (source.activeRevision? p).map ren.revisionRow := by
  unfold KeyRows.activeRevision?
  cases hactive : p.activeRevisionId with
  | none => simp [Renaming.profileRow, ControlProfileRow.copy, hactive]
  | some id =>
    obtain ⟨r, hr, rfl, -⟩ := hs.activeRevisions p hp id hactive
    have hid : r.id ∈ source.revisions.map (·.id) := List.mem_map_of_mem hr
    simpa [Renaming.profileRow, ControlProfileRow.copy, hactive] using h.revision?_eq hs hid

end CloneOf

/-! ## The default profile -/

section

variable {projectId : String} {k : KeyRows}

theorem mem_firstActivated {p : ControlProfileRow} :
    p ∈ k.firstActivated projectId ↔
      p ∈ k.activeProfiles projectId ∧
        ∀ q ∈ k.activeProfiles projectId, q.activation projectId ≤ p.activation projectId := by
  simp [KeyRows.firstActivated]

theorem defaultProfiles_eq_firstActivated (hone : (k.firstActivated projectId).length ≤ 1) :
    k.defaultProfiles projectId = k.firstActivated projectId := by
  unfold KeyRows.defaultProfiles KeyRows.firstActivated
  refine List.filter_congr fun p hp => ?_
  rw [Bool.eq_iff_iff]
  simp only [List.all_eq_true, decide_eq_true_eq, Prod.Lex.toLex_le_toLex]
  constructor
  · intro h q hq
    rcases h q hq with hlt | ⟨heq, -⟩
    · exact hlt.le
    · exact heq.le
  · intro h q hq
    have hfirst : p ∈ k.firstActivated projectId := mem_firstActivated.mpr ⟨hp, h⟩
    rcases (h q hq).lt_or_eq with hlt | heq
    · exact .inl hlt
    · have hq' : q ∈ k.firstActivated projectId := mem_firstActivated.mpr ⟨hq, fun r hr => heq ▸ h r hr⟩
      -- Two first profiles would be two members of a list with at most one.
      obtain rfl : q = p := by
        obtain ⟨a, ha⟩ := List.length_eq_one_iff.mp (le_antisymm hone (List.length_pos_of_mem hq'))
        rw [ha, List.mem_singleton] at hq' hfirst
        rw [hq', hfirst]
      exact .inr ⟨rfl, le_rfl⟩

end

namespace CloneOf

variable (projectId : String) {ren : Renaming} {now : Nat} {target source : KeyRows}

theorem activeProfiles_perm (h : CloneOf ren now target source) :
    (target.activeProfiles projectId).Perm ((source.activeProfiles projectId).map (ren.profileRow now)) := by
  unfold KeyRows.activeProfiles
  refine (h.profiles.filter _).trans (.of_eq ?_)
  rw [List.filter_map]
  rfl

theorem defaultProfiles_perm (h : CloneOf ren now target source) :
    (target.defaultProfiles projectId).Perm ((source.firstActivated projectId).map (ren.profileRow now)) := by
  have hactive := h.activeProfiles_perm projectId
  unfold KeyRows.defaultProfiles KeyRows.firstActivated
  refine (hactive.filter _).trans (.of_eq ?_)
  rw [List.filter_map]
  congr 1
  refine List.filter_congr fun p _ => ?_
  rw [Bool.eq_iff_iff]
  simp only [Function.comp_apply, List.all_eq_true, decide_eq_true_eq, hactive.mem_iff, List.forall_mem_map,
    Prod.Lex.toLex_le_toLex]
  refine forall₂_congr fun q _ => ?_
  constructor
  · rintro (hlt | ⟨heq, -⟩)
    · exact hlt.le
    · exact heq.le
  · intro hle
    rcases hle.lt_or_eq with hlt | heq
    · exact .inl hlt
    · exact .inr ⟨heq, le_rfl⟩

end CloneOf

/-! ## The same rules and default action -/

/-- A policy without its ids. -/
def policyContent (policy : EffectivePolicy) : Option (List PolicyRule) × PolicyDefaultAction :=
  (policy.revision.map (·.rules), policy.defaultAction)

structure ScopeContent where
  apiKeyPolicy : Option (List PolicyRule) × PolicyDefaultAction
  walletPolicy : Option (Option (List PolicyRule) × PolicyDefaultAction)
  custodyWalletId : Option String

def ApiKeyOperationScope.content (scope : ApiKeyOperationScope) : ScopeContent :=
  ⟨policyContent scope.apiKeyPolicy, scope.walletPolicy.map policyContent, scope.custodyWalletId⟩

namespace CloneOf

variable (projectId : String) {ren : Renaming} {now : Nat} {target source : KeyRows}

theorem resolveEffectiveApiKeyPolicy_content (h : CloneOf ren now target source) (hs : source.Consistent)
    (hone : (source.firstActivated projectId).length ≤ 1) :
    (target.resolveEffectiveApiKeyPolicy projectId).map policyContent =
      (source.resolveEffectiveApiKeyPolicy projectId).map policyContent := by
  have hactive := h.activeProfiles_perm projectId
  have hempty : target.activeProfiles projectId = [] ↔ source.activeProfiles projectId = [] := by
    rw [← List.length_eq_zero_iff, ← List.length_eq_zero_iff, hactive.length_eq, List.length_map]
  -- At most one profile is left to choose, so that the order of the rows says nothing.
  have hdefault : target.defaultProfiles projectId =
      (source.defaultProfiles projectId).map (ren.profileRow now) := by
    have hperm := h.defaultProfiles_perm projectId
    rw [defaultProfiles_eq_firstActivated hone]
    match hfirst : source.firstActivated projectId with
    | [] => simpa [hfirst] using hperm
    | [p] => simpa [hfirst] using hperm
    | _ :: _ :: _ => simp [hfirst] at hone
  unfold KeyRows.resolveEffectiveApiKeyPolicy
  by_cases hnil : source.activeProfiles projectId = []
  · rw [if_pos hnil, if_pos (hempty.mpr hnil)]
  · rw [if_neg hnil, if_neg (mt hempty.mp hnil), hdefault, List.map_map, List.map_map, List.map_map]
    refine List.map_congr_left fun p hp => ?_
    have hp : p ∈ source.profiles := (List.mem_filter.mp (List.mem_filter.mp hp).1).1
    simp only [Function.comp_apply, h.activeRevision?_eq hs hp]
    cases source.activeRevision? p <;> rfl

theorem resolveApiKeyPolicyProfileForBinding_content (h : CloneOf ren now target source) (hs : source.Consistent)
    {id : String} (hid : id ∈ source.profiles.map (·.id)) :
    (target.resolveApiKeyPolicyProfileForBinding projectId (ren.profile id)).map policyContent =
      (source.resolveApiKeyPolicyProfileForBinding projectId id).map policyContent := by
  obtain ⟨p, hp, rfl⟩ := List.mem_map.mp hid
  have hfind : source.profile? p.id = some p := find?_eq_of_mem ControlProfileRow.id hs.profileIds hp
  unfold KeyRows.resolveApiKeyPolicyProfileForBinding
  rw [h.profile?_eq hs hid, hfind]
  have hstatus : (ren.profileRow now p).status = p.status := rfl
  have hproject : (ren.profileRow now p).projectId = p.projectId := rfl
  by_cases hactive : p.status = .active
  · simp only [Option.map_some, Option.filter_some, hstatus, hactive, decide_true, if_true,
      h.activeRevision?_eq hs hp]
    cases source.activeRevision? p with
    | none => rfl
    | some revision =>
      simp only [Option.map_some, hproject]
      split <;> rfl
  · simp only [Option.map_some, Option.filter_some, hstatus, hactive, decide_false]
    rfl

theorem permissionRows_eq (h : CloneOf ren now target source) :
    target.key.permissionRows = source.key.permissionRows := by
  obtain ⟨-, -, -, hsigning, hwallets⟩ := Authority.mk.inj h.authority
  unfold ApiKeyRow.permissionRows
  rw [hsigning, hwallets]

theorem assertApiKeyWalletPolicyTarget_eq (h : CloneOf ren now target source) (custody : Custody)
    (custodyWalletId : String) :
    target.assertApiKeyWalletPolicyTarget projectId custody custodyWalletId =
      source.assertApiKeyWalletPolicyTarget projectId custody custodyWalletId := by
  unfold KeyRows.assertApiKeyWalletPolicyTarget KeyRows.getApiKeyWalletPolicyTarget
  rw [h.status, h.permissionRows_eq]

theorem bindingWalletPolicy_eq (h : CloneOf ren now target source) (custody : Custody) (binding : PolicyBindingRow)
    (custodyWalletId : String) :
    target.bindingWalletPolicy projectId custody (ren.bindingRow binding) custodyWalletId =
      source.bindingWalletPolicy projectId custody binding custodyWalletId := by
  unfold KeyRows.bindingWalletPolicy
  rw [h.assertApiKeyWalletPolicyTarget_eq]
  rfl

theorem applicableBinding_eq (h : CloneOf ren now target source) (custodyWalletId : String) :
    target.applicableBinding custodyWalletId = (source.applicableBinding custodyWalletId).map ren.bindingRow := by
  unfold KeyRows.applicableBinding
  rw [h.bindings, List.find?_map, List.find?_map, Option.map_or]
  rfl

theorem bindingPolicies_content (h : CloneOf ren now target source) (hs : source.Consistent)
    (hone : (source.firstActivated projectId).length ≤ 1) {binding : PolicyBindingRow}
    (hb : binding ∈ source.bindings) :
    (target.bindingPolicies projectId (ren.bindingRow binding)).map (Except.map policyContent) =
      (source.bindingPolicies projectId binding).map (Except.map policyContent) := by
  unfold KeyRows.bindingPolicies
  cases hprofile : binding.apiKeyControlProfileId with
  | none =>
    have heffective := congrArg (List.map (Except.ok (ε := AppError)))
      (h.resolveEffectiveApiKeyPolicy_content projectId hs hone)
    simpa [Renaming.bindingRow, hprofile, Function.comp_def, Except.map] using heffective
  | some id =>
    have hid := hs.bindingProfiles binding hb id hprofile
    simp [Renaming.bindingRow, hprofile, h.resolveApiKeyPolicyProfileForBinding_content projectId hs hid]

theorem bindingScope_content {policies policies' : List (Except AppError EffectivePolicy)}
    (h : policies.map (Except.map policyContent) = policies'.map (Except.map policyContent))
    (wallet : Except AppError (Option EffectivePolicy × String)) :
    (policies.map (bindingScope wallet)).map (Except.map ApiKeyOperationScope.content) =
      (policies'.map (bindingScope wallet)).map (Except.map ApiKeyOperationScope.content) := by
  let combine (content : Except AppError (Option (List PolicyRule) × PolicyDefaultAction)) :
      Except AppError ScopeContent :=
    wallet.bind fun w => content.map fun c => ⟨c, w.1.map policyContent, some w.2⟩
  have hcombine : Except.map ApiKeyOperationScope.content ∘ bindingScope wallet =
      combine ∘ Except.map policyContent := by
    funext policy
    cases wallet with
    | error e => rfl
    | ok w => cases policy <;> rfl
  rw [List.map_map, List.map_map, hcombine, ← List.map_map, ← List.map_map, h]

/-- For every wallet the clone resolves what its source does. -/
theorem resolveOperationScope_content (h : CloneOf ren now target source) (hs : source.Consistent)
    (hone : (source.firstActivated projectId).length ≤ 1) (custody : Custody) (custodyWalletId : String) :
    (target.resolveOperationScope projectId custody custodyWalletId).map (Except.map ApiKeyOperationScope.content) =
      (source.resolveOperationScope projectId custody custodyWalletId).map
        (Except.map ApiKeyOperationScope.content) := by
  have hbindings : target.bindings = [] ↔ source.bindings = [] := by
    rw [h.bindings, List.map_eq_nil_iff]
  unfold KeyRows.resolveOperationScope
  simp only [hbindings]
  split
  · have heffective := congrArg (List.map fun content => (Except.ok ⟨content, none, none⟩ : Except AppError ScopeContent))
      (h.resolveEffectiveApiKeyPolicy_content projectId hs hone)
    simpa [Function.comp_def, Except.map, ApiKeyOperationScope.content] using heffective
  · rw [h.applicableBinding_eq]
    cases hbinding : source.applicableBinding custodyWalletId with
    | none => rfl
    | some binding =>
      have hmem : binding ∈ source.bindings := by
        rcases Option.or_eq_some_iff.mp hbinding with hfind | ⟨-, hfind⟩ <;> exact List.mem_of_find?_eq_some hfind
      simp only [Option.map_some, h.bindingWalletPolicy_eq]
      exact bindingScope_content (h.bindingPolicies_content projectId hs hone hmem) _

end CloneOf

/-! ## The loop over the profiles -/

section

variable {α : Type} {m m' : List (String × String)}

theorem lookup_isSome_of_mem {id : String} (h : id ∈ m.map (·.1)) : (m.lookup id).isSome = true := by
  induction m with
  | nil => simp at h
  | cons pair m ih =>
    rw [List.lookup_cons]
    by_cases hid : id = pair.1
    · simp [hid]
    · have hne : (id == pair.1) = false := by simpa using hid
      rw [hne]
      refine ih ?_
      rw [List.map_cons, List.mem_cons] at h
      exact h.resolve_left hid

theorem lookup_eq_none_of_not_mem {id : String} (h : id ∉ m.map (·.1)) : m.lookup id = none := by
  induction m with
  | nil => rfl
  | cons pair m ih =>
    rw [List.map_cons, List.mem_cons, not_or] at h
    have hne : (id == pair.1) = false := by simpa using h.1
    rw [List.lookup_cons, hne]
    exact ih h.2

theorem zipWith_eq_map_lookup (f : α → String → α) (key : α → String) {rows : List α} {ids : List String}
    (hlength : ids.length = rows.length) (hkeys : (rows.map key).Nodup) :
    List.zipWith f rows ids = rows.map fun r => f r ((((rows.map key).zip ids).lookup (key r)).getD (key r)) := by
  induction rows generalizing ids with
  | nil => simp
  | cons r rows ih =>
    obtain ⟨id, ids, rfl⟩ := List.exists_cons_of_length_eq_add_one hlength
    rw [List.map_cons, List.nodup_cons] at hkeys
    rw [List.zipWith_cons_cons, List.map_cons, List.map_cons, List.zip_cons_cons, List.lookup_cons_self,
      ih (by simpa using hlength) hkeys.2]
    congr 1
    refine List.map_congr_left fun r' hr' => ?_
    have hne : (key r' == key r) = false := by
      have : key r' ≠ key r := fun h => hkeys.1 (h ▸ List.mem_map_of_mem hr')
      simpa using this
    rw [List.lookup_cons, hne]

end

/-- The map of the ids, as a function. -/
def PolicyClone.renaming (c : PolicyClone) : Renaming :=
  ⟨fun id => (c.profileIdMap.lookup id).getD id, fun id => (c.revisionIdMap.lookup id).getD id⟩

/-- `c` has the copies of the profiles in `done` and of all their revisions. -/
structure PolicyClone.Covers (c : PolicyClone) (now : Nat) (source : KeyRows) (done : List ControlProfileRow) :
    Prop where
  profileKeys : c.profileIdMap.map (·.1) = done.map (·.id)
  revisionKeys : c.revisionIdMap.map (·.1) = (done.flatMap source.revisionsOf).map (·.id)
  profiles : c.profiles = done.map (c.renaming.profileRow now)
  revisions : c.revisions = (done.flatMap source.revisionsOf).map c.renaming.revisionRow
  profileIds : (c.profiles.map (·.id)).Nodup
  revisionIds : (c.revisions.map (·.id)).Nodup

theorem PolicyClone.empty_covers (now : Nat) (source : KeyRows) : PolicyClone.empty.Covers now source [] :=
  ⟨rfl, rfl, rfl, rfl, List.nodup_nil, List.nodup_nil⟩

theorem mem_revisionsOf {k : KeyRows} {p : ControlProfileRow} {r : RevisionRow} :
    r ∈ k.revisionsOf p ↔ r ∈ k.revisions ∧ r.profileId = p.id := by
  simp [KeyRows.revisionsOf, orderBy]

theorem revisionsOf_ids_nodup {k : KeyRows} (hk : k.Consistent) {p : ControlProfileRow} :
    ((k.revisionsOf p).map (·.id)).Nodup := by
  unfold KeyRows.revisionsOf orderBy
  rw [((List.perm_insertionSort _ _).map _).nodup_iff]
  exact hk.revisionIds.sublist (List.filter_sublist.map _)

theorem lookup_append_of_mem {m m' : List (String × String)} {id : String} (h : id ∈ m.map (·.1)) :
    (m ++ m').lookup id = m.lookup id := by
  obtain ⟨x, hx⟩ := Option.isSome_iff_exists.mp (lookup_isSome_of_mem h)
  rw [List.lookup_append, hx, Option.some_or]

theorem lookup_append_of_not_mem {m m' : List (String × String)} {id : String} (h : id ∉ m.map (·.1)) :
    (m ++ m').lookup id = m'.lookup id := by
  rw [List.lookup_append, lookup_eq_none_of_not_mem h, Option.none_or]

namespace PolicyClone.Covers

variable {c : PolicyClone} {now : Nat} {source : KeyRows} {done : List ControlProfileRow} {p : ControlProfileRow}
  {targetProfileId : String} {targetRevisionIds : List String}

theorem revision_not_mem (h : c.Covers now source done) (hs : source.Consistent)
    (hp : p.id ∉ done.map (·.id)) {r : RevisionRow} (hr : r ∈ source.revisionsOf p) :
    r.id ∉ c.revisionIdMap.map (·.1) := by
  rw [h.revisionKeys]
  intro hmem
  obtain ⟨r', hr', hid⟩ := List.mem_map.mp hmem
  obtain ⟨q, hq, hr'⟩ := List.mem_flatMap.mp hr'
  obtain ⟨hr, hprofile⟩ := mem_revisionsOf.mp hr
  obtain ⟨hr', hprofile'⟩ := mem_revisionsOf.mp hr'
  obtain rfl : r' = r := List.inj_on_of_nodup_map hs.revisionIds hr' hr hid
  exact hp (List.mem_map.mpr ⟨q, hq, by rw [← hprofile, hprofile']⟩)

/-- `ren` gives the ids that are already drawn. -/
structure Extends (c : PolicyClone) (ren : Renaming) : Prop where
  profile : ∀ id ∈ c.profileIdMap.map (·.1), ren.profile id = c.renaming.profile id
  revision : ∀ id ∈ c.revisionIdMap.map (·.1), ren.revision id = c.renaming.revision id

theorem profileRow_extends {ren : Renaming} (h : c.Covers now source done) (hs : source.Consistent)
    (hren : Extends c ren) {q : ControlProfileRow} (hq : q ∈ done) (hmem : q ∈ source.profiles) :
    ren.profileRow now q = c.renaming.profileRow now q := by
  have hid : ren.profile q.id = c.renaming.profile q.id :=
    hren.profile _ (h.profileKeys ▸ List.mem_map_of_mem hq)
  have hactive : q.activeRevisionId.map ren.revision = q.activeRevisionId.map c.renaming.revision := by
    refine Option.map_congr fun id hid => hren.revision id ?_
    obtain ⟨r, hr, rfl, hr'⟩ := hs.activeRevisions q hmem id hid
    rw [h.revisionKeys]
    exact List.mem_map_of_mem (List.mem_flatMap.mpr ⟨q, hq, mem_revisionsOf.mpr ⟨hr, hr'⟩⟩)
  unfold Renaming.profileRow
  rw [hid, hactive]

theorem revisionRow_extends {ren : Renaming} (h : c.Covers now source done) (hren : Extends c ren) {r : RevisionRow}
    (hr : r ∈ done.flatMap source.revisionsOf) : ren.revisionRow r = c.renaming.revisionRow r := by
  have hid : ren.revision r.id = c.renaming.revision r.id :=
    hren.revision _ (h.revisionKeys ▸ List.mem_map_of_mem hr)
  have hprofileId : ren.profile r.profileId = c.renaming.profile r.profileId := by
    obtain ⟨q, hq, hr⟩ := List.mem_flatMap.mp hr
    refine hren.profile _ ?_
    rw [h.profileKeys, (mem_revisionsOf.mp hr).2]
    exact List.mem_map_of_mem hq
  unfold Renaming.revisionRow
  rw [hid, hprofileId]

section

variable {revisionRows : List RevisionRow}

theorem cloneProfile_extends :
    Extends c (c.cloneProfile p revisionRows targetProfileId targetRevisionIds now).renaming where
  profile id hid := by simp only [PolicyClone.renaming, PolicyClone.cloneProfile, lookup_append_of_mem hid]
  revision id hid := by simp only [PolicyClone.renaming, PolicyClone.cloneProfile, lookup_append_of_mem hid]

theorem cloneProfile_newProfile (hp : p.id ∉ c.profileIdMap.map (·.1)) :
    (c.cloneProfile p revisionRows targetProfileId targetRevisionIds now).renaming.profile p.id = targetProfileId := by
  simp only [PolicyClone.renaming, PolicyClone.cloneProfile]
  rw [lookup_append_of_not_mem hp, List.lookup_cons_self, Option.getD_some]

theorem cloneProfile_newRevision {r : RevisionRow} (hr : r.id ∉ c.revisionIdMap.map (·.1)) :
    (c.cloneProfile p revisionRows targetProfileId targetRevisionIds now).renaming.revision r.id =
      (((revisionRows.map (·.id)).zip targetRevisionIds).lookup r.id).getD r.id := by
  simp only [PolicyClone.renaming, PolicyClone.cloneProfile]
  rw [lookup_append_of_not_mem hr]

theorem cloneProfile_active (hlength : targetRevisionIds.length = revisionRows.length)
    (hactive : ∀ id ∈ p.activeRevisionId, id ∈ revisionRows.map (·.id)) :
    let c' := c.cloneProfile p revisionRows targetProfileId targetRevisionIds now
    (p.activeRevisionId.bind fun id => c'.revisionIdMap.lookup id) = p.activeRevisionId.map c'.renaming.revision := by
  intro c'
  cases hid : p.activeRevisionId with
  | none => rfl
  | some id =>
    have hkey : id ∈ c'.revisionIdMap.map (·.1) := by
      simp only [c', PolicyClone.cloneProfile, List.map_append, List.mem_append]
      right
      rw [List.map_fst_zip (by simp [hlength])]
      exact hactive id hid
    obtain ⟨x, hx⟩ := Option.isSome_iff_exists.mp (lookup_isSome_of_mem hkey)
    simp [PolicyClone.renaming, hx]

end

theorem cloneProfile (h : c.Covers now source done) (hs : source.Consistent)
    (hmem : ∀ q ∈ done ++ [p], q ∈ source.profiles) (hnodup : ((done ++ [p]).map (·.id)).Nodup)
    (hnew : c.newIds targetProfileId targetRevisionIds)
    (hlength : targetRevisionIds.length = (source.revisionsOf p).length) :
    (c.cloneProfile p (source.revisionsOf p) targetProfileId targetRevisionIds now).Covers now source
      (done ++ [p]) := by
  set c' := c.cloneProfile p (source.revisionsOf p) targetProfileId targetRevisionIds now with hc'
  have hp : p.id ∉ done.map (·.id) := by
    rw [List.map_append, List.nodup_append] at hnodup
    exact fun hmem => hnodup.2.2 _ hmem _ (List.mem_singleton.mpr rfl) rfl
  have hkey : p.id ∉ c.profileIdMap.map (·.1) := h.profileKeys ▸ hp
  have hnewProfile : c'.renaming.profile p.id = targetProfileId := cloneProfile_newProfile hkey
  refine ⟨?_, ?_, ?_, ?_, ?_, ?_⟩
  · simp only [hc', PolicyClone.cloneProfile, List.map_append, h.profileKeys]
    rfl
  · simp only [hc', PolicyClone.cloneProfile, List.map_append, h.revisionKeys, List.flatMap_append]
    rw [List.map_fst_zip (by simp [hlength])]
    simp
  · have hold : c.profiles = done.map (c'.renaming.profileRow now) := by
      rw [h.profiles]
      refine List.map_congr_left fun q hq => ?_
      exact (h.profileRow_extends hs cloneProfile_extends hq (hmem q (List.mem_append_left _ hq))).symm
    have hcopy : p.copy targetProfileId (p.activeRevisionId.bind fun id => c'.revisionIdMap.lookup id) now =
        c'.renaming.profileRow now p := by
      rw [cloneProfile_active hlength, ← hnewProfile]
      · rfl
      · intro id hid
        obtain ⟨r, hr, rfl, hr'⟩ := hs.activeRevisions p (hmem p (by simp)) id hid
        exact List.mem_map_of_mem (mem_revisionsOf.mpr ⟨hr, hr'⟩)
    rw [List.map_append, ← hold, List.map_singleton, ← hcopy]
    rfl
  · have hold : c.revisions = (done.flatMap source.revisionsOf).map c'.renaming.revisionRow := by
      rw [h.revisions]
      exact List.map_congr_left fun r hr => (h.revisionRow_extends cloneProfile_extends hr).symm
    have hcopies : List.zipWith (fun r id => RevisionRow.copy r targetProfileId id) (source.revisionsOf p)
        targetRevisionIds = (source.revisionsOf p).map c'.renaming.revisionRow := by
      rw [zipWith_eq_map_lookup _ RevisionRow.id hlength (revisionsOf_ids_nodup hs)]
      refine List.map_congr_left fun r hr => ?_
      unfold Renaming.revisionRow
      rw [hc', cloneProfile_newRevision (h.revision_not_mem hs hp hr), (mem_revisionsOf.mp hr).2, ← hc', hnewProfile]
    rw [List.flatMap_append, List.map_append, ← hold, List.flatMap_singleton, ← hcopies]
    rfl
  · simp only [hc', PolicyClone.cloneProfile, List.map_append]
    exact List.nodup_append_comm.mp (List.nodup_cons.mpr ⟨hnew.1, h.profileIds⟩)
  · have hids : (List.zipWith (fun r id => RevisionRow.copy r targetProfileId id) (source.revisionsOf p)
        targetRevisionIds).map (·.id) = targetRevisionIds := by
      rw [← List.map_uncurry_zip_eq_zipWith, List.map_map]
      exact List.map_snd_zip hlength.le
    simp only [hc', PolicyClone.cloneProfile, List.map_append, hids]
    exact hnew.2

theorem flatMap_revisionsOf_perm (hs : source.Consistent) (hdone : done.Perm source.profiles) :
    (done.flatMap source.revisionsOf).Perm source.revisions := by
  have hnodup : source.revisions.Nodup := hs.revisionIds.of_map
  have hprofiles : (done.map (·.id)).Nodup := (hdone.map _).nodup_iff.mpr hs.profileIds
  rw [List.perm_ext_iff_of_nodup ?_ hnodup]
  · intro r
    constructor
    · intro hr
      obtain ⟨p, -, hr⟩ := List.mem_flatMap.mp hr
      exact (mem_revisionsOf.mp hr).1
    · intro hr
      obtain ⟨p, hp, hid⟩ := List.mem_map.mp (hs.revisionProfiles r hr)
      exact List.mem_flatMap.mpr ⟨p, hdone.mem_iff.mpr hp, mem_revisionsOf.mpr ⟨hr, hid.symm⟩⟩
  · rw [List.nodup_flatMap]
    refine ⟨fun p _ => ?_, ?_⟩
    · exact (List.perm_insertionSort _ _).nodup_iff.mpr (hnodup.filter _)
    · refine (List.pairwise_map.mp hprofiles).imp fun hne => ?_
      intro r hr hr'
      exact hne ((mem_revisionsOf.mp hr).2.symm.trans (mem_revisionsOf.mp hr').2)

theorem cloneBinding_ok {b b' : PolicyBindingRow} (h : c.cloneBinding b = .ok b') : b' = c.renaming.bindingRow b := by
  unfold PolicyClone.cloneBinding at h
  split at h
  · next hprofile =>
    cases h
    obtain ⟨target, walletProfile, _⟩ := b
    cases hprofile
    rfl
  · next id hprofile =>
    split at h
    · cases h
    · next mapped hmapped =>
      cases h
      simp [Renaming.bindingRow, hprofile, PolicyClone.renaming, hmapped]

theorem mapM_cloneBinding_ok {bindings bindings' : List PolicyBindingRow}
    (h : bindings.mapM c.cloneBinding = .ok bindings') : bindings' = bindings.map c.renaming.bindingRow := by
  induction bindings generalizing bindings' with
  | nil =>
    cases h
    rfl
  | cons b bindings ih =>
    simp only [List.mapM_cons, bind_eq_ok, pure_eq_ok] at h
    obtain ⟨b', hb', bs', hbs', rfl⟩ := h
    rw [List.map_cons, cloneBinding_ok hb', ih hbs']

theorem cloneOf (h : c.Covers now source done) (hs : source.Consistent) (hdone : done.Perm source.profiles)
    {key : ApiKeyRow} (hstatus : key.status = source.key.status)
    (hauthority : Authority.of key = Authority.of source.key) {bindings : List PolicyBindingRow}
    (hbindings : source.bindings.mapM c.cloneBinding = .ok bindings) :
    CloneOf c.renaming now ⟨key, c.profiles, c.revisions, bindings⟩ source where
  status := hstatus
  authority := hauthority
  profiles := by
    simp only [h.profiles]
    exact hdone.map _
  revisions := by
    simp only [h.revisions]
    exact (flatMap_revisionsOf_perm hs hdone).map _
  bindings := mapM_cloneBinding_ok hbindings
  profileIds := h.profileIds
  revisionIds := h.revisionIds

end PolicyClone.Covers

end Sdp.KeyRotation
