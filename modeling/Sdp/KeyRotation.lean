import Sdp.Lib.Run
import Sdp.PolicyClones

/-!
# Rotation with other requests in between

The rotation reads the key in five statements. When no request changes the authority of the key
between the first read and the lock, and none creates a revision or writes a binding between the
read of the profiles and the read of the bindings, the new key is a clone of the key as it was when the
profiles were read.
-/

namespace Sdp.KeyRotation

open ApiKeys Policy Lib

variable {projectId : String} {candidates : String → Nat}

/-! ## Requests that write the key -/

/-- The request changes neither permissions nor addresses nor wallets. -/
def KeyWrite.keepsAuthority : KeyWrite → Prop
  | .update _ body => body.permissions = none ∧ body.allowedIps = none ∧ body.wallets.walletScope = none
  | _ => True

/-- The request changes neither the revisions nor the bindings. -/
def KeyWrite.keepsRevisionsAndBindings : KeyWrite → Prop
  | .createRevision _ _ _ _ | .writeBindings _ _ _ => False
  | _ => True

theorem resolveUpdateWallets_untouched {wallets : WalletScopeInput} {patch : ParsedWalletBindingPatch}
    (hscope : wallets.walletScope = none) (h : resolveUpdateWallets candidates wallets = .ok patch) :
    patch.touched = false := by
  unfold resolveUpdateWallets resolveUpdateWalletScope at h
  simp only [hscope, bind_eq_ok, check_eq_ok, pure_eq_ok] at h
  obtain ⟨selection, ⟨parsed, -, -, rfl⟩, h⟩ := h
  simp only [Bool.false_eq_true, if_false, pure_eq_ok] at h
  rw [← h]

theorem updateApiKey_apply {actor : ApiKeyContext} {existing key : ApiKeyRow} {body : UpdateBody}
    (h : updateApiKey candidates actor existing body = .ok key) :
    ∃ patch, resolveUpdateWallets candidates body.wallets = .ok patch ∧ key = body.apply patch existing := by
  unfold updateApiKey at h
  simp only [bind_eq_ok, check_eq_ok] at h
  obtain ⟨patch, hpatch, ⟨⟩, -, -, hkey⟩ := h
  cases hkey
  exact ⟨patch, hpatch, rfl⟩

theorem mem_foldl_upsertPolicyBinding {inputs bindings : List PolicyBindingRow} {b : PolicyBindingRow}
    (hb : b ∈ inputs.foldl upsertPolicyBinding bindings) : b ∈ bindings ∨ b ∈ inputs := by
  induction inputs generalizing bindings with
  | nil => exact .inl hb
  | cons input inputs ih =>
    rcases ih hb with h | h
    · rcases List.mem_append.mp h with h | h
      · exact .inl (List.mem_filter.mp h).1
      · exact .inr (List.mem_cons.mpr (.inl (List.mem_singleton.mp h)))
    · exact .inr (List.mem_cons_of_mem _ h)

theorem mem_profileIds_of_profile? {k : KeyRows} {id : String} {p : ControlProfileRow} (h : k.profile? id = some p) :
    id ∈ k.profiles.map (·.id) := by
  have hid : p.id = id := by simpa using List.find?_some h
  exact hid ▸ List.mem_map_of_mem (List.mem_of_find?_eq_some h)

theorem resolveApiKeyPolicyProfileForBinding_ok {k : KeyRows} {id : String} {policy : EffectivePolicy}
    (h : k.resolveApiKeyPolicyProfileForBinding projectId id = .ok policy) : id ∈ k.profiles.map (·.id) := by
  unfold KeyRows.resolveApiKeyPolicyProfileForBinding at h
  split at h
  · cases h
  · next p hp => exact mem_profileIds_of_profile? (Option.eq_some_of_filter_eq_some hp)

theorem validateBinding_ok {k : KeyRows} {custody : Custody} {input : PolicyBindingRow}
    (h : k.validateBinding projectId custody input = .ok ()) :
    ∀ id ∈ input.apiKeyControlProfileId, id ∈ k.profiles.map (·.id) := by
  intro id hid
  unfold KeyRows.validateBinding at h
  simp only [Option.mem_def.mp hid, check_eq_ok] at h
  obtain ⟨-, h⟩ := h
  split at h
  · simp only [bind_eq_ok] at h
    obtain ⟨-, -, policy, hpolicy, -⟩ := h
    exact resolveApiKeyPolicyProfileForBinding_ok hpolicy
  · simp only [check_eq_ok, bind_eq_ok] at h
    obtain ⟨-, -, policy, hpolicy, -⟩ := h
    exact resolveApiKeyPolicyProfileForBinding_ok hpolicy

section

variable {k k' : KeyRows} {w : KeyWrite}

theorem KeyWrite.key_apply (h : w.apply projectId candidates k = some k') :
    k'.key.status = k.key.status ∧ (w.keepsAuthority → Authority.of k'.key = Authority.of k.key) := by
  cases w with
  | update actor body =>
    obtain ⟨key, hkey, rfl⟩ := Option.map_eq_some_iff.mp h
    obtain ⟨patch, hpatch, rfl⟩ := updateApiKey_apply (toOption_eq_some.mp hkey)
    refine ⟨rfl, fun ⟨hpermissions, hips, hscope⟩ => ?_⟩
    have huntouched := resolveUpdateWallets_untouched hscope hpatch
    simp [Authority.of, UpdateBody.apply, hpermissions, hips, huntouched]
  | retire deadline =>
    cases h
    exact ⟨rfl, fun _ => rfl⟩
  | createProfile id name now | createRevision id profileId rules defaultAction
  | activateRevision profileId revisionId now | writeBindings custody kept inputs =>
    simp only [KeyWrite.apply, Option.ite_none_right_eq_some, Option.some.injEq] at h
    obtain ⟨-, rfl⟩ := h
    exact ⟨rfl, fun _ => rfl⟩

theorem KeyWrite.revisionsAndBindings_apply (hkeeps : w.keepsRevisionsAndBindings)
    (h : w.apply projectId candidates k = some k') : k'.revisions = k.revisions ∧ k'.bindings = k.bindings := by
  cases w with
  | update actor body =>
    obtain ⟨key, -, rfl⟩ := Option.map_eq_some_iff.mp h
    exact ⟨rfl, rfl⟩
  | retire deadline =>
    cases h
    exact ⟨rfl, rfl⟩
  | createProfile id name now | activateRevision profileId revisionId now =>
    simp only [KeyWrite.apply, Option.ite_none_right_eq_some, Option.some.injEq] at h
    obtain ⟨-, rfl⟩ := h
    exact ⟨rfl, rfl⟩
  | createRevision | writeBindings => exact hkeeps.elim

/-! ## The rows of a key keep referring to each other -/

namespace KeyRows.Consistent

theorem withKey (hk : k.Consistent) (key : ApiKeyRow) : { k with key }.Consistent :=
  ⟨hk.profileIds, hk.revisionIds, hk.revisionProfiles, hk.activeRevisions, hk.bindingProfiles⟩

theorem addProfile (hk : k.Consistent) {p : ControlProfileRow} (hnew : k.profile? p.id = none)
    (hactive : p.activeRevisionId = none) : { k with profiles := k.profiles ++ [p] }.Consistent := by
  have hfresh : p.id ∉ k.profiles.map (·.id) := by simpa [KeyRows.profile?, List.find?_eq_none] using hnew
  have hsub : ∀ id ∈ k.profiles.map (·.id), id ∈ (k.profiles ++ [p]).map (·.id) := by
    intro id hid
    rw [List.map_append]
    exact List.mem_append_left _ hid
  refine ⟨?_, hk.revisionIds, fun r hr => hsub _ (hk.revisionProfiles r hr), ?_,
    fun b hb id hid => hsub _ (hk.bindingProfiles b hb id hid)⟩
  · rw [List.map_append]
    exact List.nodup_append_comm.mp (List.nodup_cons.mpr ⟨hfresh, hk.profileIds⟩)
  · intro q hq id hid
    rcases List.mem_append.mp hq with hq | hq
    · exact hk.activeRevisions q hq id hid
    · rw [List.mem_singleton.mp hq, hactive] at hid
      cases hid

theorem addRevision (hk : k.Consistent) {r : RevisionRow} (hnew : k.revision? r.id = none)
    (hprofile : r.profileId ∈ k.profiles.map (·.id)) : { k with revisions := k.revisions ++ [r] }.Consistent := by
  have hfresh : r.id ∉ k.revisions.map (·.id) := by simpa [KeyRows.revision?, List.find?_eq_none] using hnew
  refine ⟨hk.profileIds, ?_, ?_, ?_, hk.bindingProfiles⟩
  · rw [List.map_append]
    exact List.nodup_append_comm.mp (List.nodup_cons.mpr ⟨hfresh, hk.revisionIds⟩)
  · intro r' hr'
    rcases List.mem_append.mp hr' with hr' | hr'
    · exact hk.revisionProfiles r' hr'
    · rw [List.mem_singleton.mp hr']
      exact hprofile
  · intro p hp id hid
    obtain ⟨r', hr', h⟩ := hk.activeRevisions p hp id hid
    exact ⟨r', List.mem_append_left _ hr', h⟩

theorem activate (hk : k.Consistent) {r : RevisionRow} (hr : r ∈ k.revisions) (now : Nat) :
    { k with
      profiles := k.profiles.map fun p : ControlProfileRow =>
        if p.id = r.profileId then p.activate r.id now else p }.Consistent := by
  have hids : (k.profiles.map fun p => if p.id = r.profileId then p.activate r.id now else p).map (·.id) =
      k.profiles.map (·.id) := by
    rw [List.map_map]
    refine List.map_congr_left fun p _ => ?_
    simp only [Function.comp_apply]
    split <;> rfl
  refine ⟨hids ▸ hk.profileIds, hk.revisionIds, fun r' hr' => hids ▸ hk.revisionProfiles r' hr', ?_,
    fun b hb id hid => hids ▸ hk.bindingProfiles b hb id hid⟩
  intro q hq id hid
  obtain ⟨p, hp, rfl⟩ := List.mem_map.mp hq
  split at hid
  · next hprofile =>
    obtain rfl : r.id = id := by simpa [ControlProfileRow.activate] using hid
    rw [if_pos hprofile]
    exact ⟨r, hr, rfl, hprofile.symm⟩
  · next hprofile =>
    rw [if_neg hprofile]
    exact hk.activeRevisions p hp id hid

end KeyRows.Consistent

theorem KeyWrite.consistent_apply (hk : k.Consistent) (h : w.apply projectId candidates k = some k') :
    k'.Consistent := by
  cases w with
  | update actor body =>
    obtain ⟨key, -, rfl⟩ := Option.map_eq_some_iff.mp h
    exact hk.withKey key
  | retire deadline =>
    cases h
    exact hk.withKey _
  | createProfile id name now =>
    simp only [KeyWrite.apply, Option.ite_none_right_eq_some, Option.some.injEq] at h
    obtain ⟨⟨-, hnew⟩, rfl⟩ := h
    exact hk.addProfile (Option.isNone_iff_eq_none.mp hnew) rfl
  | createRevision id profileId rules defaultAction =>
    simp only [KeyWrite.apply, Option.ite_none_right_eq_some, Option.some.injEq] at h
    obtain ⟨⟨-, hprofile, hnew⟩, rfl⟩ := h
    obtain ⟨p, hp⟩ := Option.isSome_iff_exists.mp hprofile
    exact hk.addRevision (Option.isNone_iff_eq_none.mp hnew)
      (mem_profileIds_of_profile? (Option.eq_some_of_filter_eq_some hp))
  | activateRevision profileId revisionId now =>
    simp only [KeyWrite.apply, Option.ite_none_right_eq_some, Option.some.injEq] at h
    obtain ⟨⟨-, -, hrevision⟩, rfl⟩ := h
    obtain ⟨r, hr, hprofile⟩ := (Option.any_eq_true _ _).mp hrevision
    obtain rfl : r.id = revisionId := by simpa using List.find?_some hr
    obtain rfl : r.profileId = profileId := by simpa using hprofile
    exact hk.activate (List.mem_of_find?_eq_some hr) now
  | writeBindings custody kept inputs =>
    simp only [KeyWrite.apply, Option.ite_none_right_eq_some, Option.some.injEq] at h
    obtain ⟨⟨-, -, hvalid⟩, rfl⟩ := h
    refine ⟨hk.profileIds, hk.revisionIds, hk.revisionProfiles, hk.activeRevisions, fun b hb id hid => ?_⟩
    rcases mem_foldl_upsertPolicyBinding hb with hb | hb
    · exact hk.bindingProfiles b (List.mem_filter.mp hb).1 id hid
    · have hok : k.validateBinding projectId custody b = .ok () := isOk_unit.mp (hvalid b hb)
      exact validateBinding_ok hok id hid

end

/-! ## Runs -/

/-- The new key has the authority that the source has now. -/
structure Copied (source : KeyRows) (seen : List KeyRows) (key : ApiKeyRow) : Prop where
  seen : source ∈ seen
  status : source.key.status = .active
  keyStatus : key.status = .active
  authority : Authority.of key = Authority.of source.key

/-- The clone is about the source as it was when its profiles were read. -/
structure Cloning (projectId : String) (source : KeyRows) (seen : List KeyRows) (key : ApiKeyRow) (now : Nat)
    (remaining : List ControlProfileRow) (clone : PolicyClone) (moment : KeyRows) (done : List ControlProfileRow) :
    Prop where
  seen : moment ∈ seen
  consistent : moment.Consistent
  status : key.status = moment.key.status
  authority : Authority.of key = Authority.of moment.key
  oneFirst : (moment.firstActivated projectId).length ≤ 1
  revisions : source.revisions = moment.revisions
  bindings : source.bindings = moment.bindings
  profiles : (done ++ remaining).Perm moment.profiles
  covers : clone.Covers now moment done

/-- The new key is the clone of the source at one moment of the rotation. -/
def ClonesOneMoment (projectId : String) (seen : List KeyRows) (target : KeyRows) : Prop :=
  ∃ moment ∈ seen, moment.Consistent ∧ (moment.firstActivated projectId).length ≤ 1 ∧
    ∃ ren now, CloneOf ren now target moment

def Rotation.Inv (projectId : String) (source : KeyRows) (seen : List KeyRows) : Rotation → Prop
  | .idle | .failed _ => True
  | .readKey key | .locked key _ | .copiedWallets key _ => Copied source seen key
  | .cloning key now remaining clone =>
    ∃ moment done, Cloning projectId source seen key now remaining clone moment done
  | .committed target => ClonesOneMoment projectId seen target

structure System.Inv (projectId : String) (s : System) : Prop where
  consistent : s.source.Consistent
  rotation : s.rotation.Inv projectId s.source s.seen

/-- What keeps a step from mixing two states of the key. -/
def stepOk (projectId : String) (s : System) : Step → Prop
  | .write w =>
    match s.rotation with
    | .readKey _ => w.keepsAuthority
    | .cloning _ _ _ _ => w.keepsRevisionsAndBindings
    | _ => True
  | .rotate .readProfiles => (s.source.firstActivated projectId).length ≤ 1
  | .rotate _ => True

section

variable {source k : KeyRows} {seen : List KeyRows} {key : ApiKeyRow} {w : KeyWrite}

theorem Copied.write (h : Copied source seen key) (hkeeps : w.keepsAuthority)
    (hw : w.apply projectId candidates source = some k) : Copied k (k :: seen) key := by
  obtain ⟨hstatus, hauthority⟩ := KeyWrite.key_apply hw
  exact ⟨List.mem_cons_self, hstatus.trans h.status, h.keyStatus, h.authority.trans (hauthority hkeeps).symm⟩

theorem KeyWrite.keepsAuthority_of_needsLock (h : w.needsLock = false) : w.keepsAuthority := by
  cases w with
  | update actor body => cases h
  | _ => trivial

variable {now : Nat} {remaining done : List ControlProfileRow} {clone : PolicyClone} {moment : KeyRows}

theorem Cloning.write (h : Cloning projectId source seen key now remaining clone moment done)
    (hkeeps : w.keepsRevisionsAndBindings) (hw : w.apply projectId candidates source = some k) :
    Cloning projectId k (k :: seen) key now remaining clone moment done := by
  obtain ⟨hrevisions, hbindings⟩ := KeyWrite.revisionsAndBindings_apply hkeeps hw
  exact { h with
    seen := List.mem_cons_of_mem _ h.seen
    revisions := hrevisions.trans h.revisions
    bindings := hbindings.trans h.bindings }

theorem Cloning.next {p : ControlProfileRow} {targetProfileId : String} {targetRevisionIds : List String}
    (h : Cloning projectId source seen key now (p :: remaining) clone moment done)
    (hnew : clone.newIds targetProfileId targetRevisionIds)
    (hlength : targetRevisionIds.length = (source.revisionsOf p).length) :
    Cloning projectId source seen key now remaining
      (clone.cloneProfile p (source.revisionsOf p) targetProfileId targetRevisionIds now) moment (done ++ [p]) := by
  have hrevisions : source.revisionsOf p = moment.revisionsOf p := by
    unfold KeyRows.revisionsOf
    rw [h.revisions]
  have hprofiles : (done ++ [p] ++ remaining).Perm moment.profiles := by
    simpa using h.profiles
  have hmem : ∀ q ∈ done ++ [p], q ∈ moment.profiles := fun q hq =>
    hprofiles.mem_iff.mp (List.mem_append_left _ hq)
  have hnodup : ((done ++ [p]).map (·.id)).Nodup := by
    have hall := (hprofiles.map (·.id)).nodup_iff.mpr h.consistent.profileIds
    rw [List.map_append] at hall
    exact hall.of_append_left
  rw [hrevisions] at hlength ⊢
  exact { h with
    profiles := hprofiles
    covers := h.covers.cloneProfile h.consistent hmem hnodup hnew hlength }

end

section

variable {s t : System}

theorem inv_write {w : KeyWrite} (hs : s.Inv projectId) (hok : stepOk projectId s (.write w))
    (h : s.write projectId candidates w = some t) : t.Inv projectId := by
  simp only [System.write, Option.ite_none_left_eq_some] at h
  obtain ⟨hlock, h⟩ := h
  obtain ⟨k, hk, rfl⟩ := Option.map_eq_some_iff.mp h
  refine ⟨KeyWrite.consistent_apply hs.consistent hk, ?_⟩
  have hrotation := hs.rotation
  -- While the lock is held a request that needs it waits.
  have hunlocked : s.rotation.holdsLock = true → w.needsLock = false := by
    intro hholds
    cases hneeds : w.needsLock with
    | false => rfl
    | true => exact absurd ⟨hneeds, hholds⟩ hlock
  match hr : s.rotation with
  | .idle | .failed _ => trivial
  | .committed target =>
    rw [hr] at hrotation
    exact hrotation
  | .readKey key =>
    rw [hr] at hrotation
    simp only [stepOk, hr] at hok
    exact Copied.write hrotation hok hk
  | .locked key _ | .copiedWallets key _ =>
    rw [hr] at hrotation
    exact Copied.write hrotation (KeyWrite.keepsAuthority_of_needsLock (hunlocked (by rw [hr]; rfl))) hk
  | .cloning key now remaining clone =>
    rw [hr] at hrotation
    simp only [stepOk, hr] at hok
    obtain ⟨moment, done, hcloning⟩ := hrotation
    exact ⟨moment, done, hcloning.write hok hk⟩

theorem inv_rotate {r : RotationStep} (hs : s.Inv projectId) (hok : stepOk projectId s (.rotate r))
    (h : s.rotate r = some t) : t.Inv projectId := by
  have hrotation := hs.rotation
  cases r with
  | readKey =>
    simp only [System.rotate] at h
    split at h
    · split at h
      · next hactive =>
        cases h
        exact ⟨hs.consistent, List.mem_singleton.mpr rfl, hactive, hactive, rfl⟩
      · cases h
        exact ⟨hs.consistent, trivial⟩
    · cases h
  | lockKey newKeyId now =>
    simp only [System.rotate] at h
    split at h
    · next existing hr =>
      cases h
      rw [hr] at hrotation
      exact ⟨hs.consistent, hrotation.seen, hrotation.status, rfl, hrotation.authority⟩
    · cases h
  | copyWallets =>
    simp only [System.rotate] at h
    split at h
    · next key now hr =>
      cases h
      rw [hr] at hrotation
      obtain ⟨hrole, hpermissions, hips, hsigning, -⟩ := Authority.mk.inj hrotation.authority
      refine ⟨hs.consistent, hrotation.seen, hrotation.status, hrotation.keyStatus, ?_⟩
      exact Authority.mk.injEq .. |>.mpr ⟨hrole, hpermissions, hips, hsigning, rfl⟩
    · cases h
  | readProfiles =>
    simp only [System.rotate] at h
    split at h
    · next key now hr =>
      cases h
      rw [hr] at hrotation
      refine ⟨hs.consistent, s.source, [], ?_⟩
      exact
        { seen := hrotation.seen, consistent := hs.consistent, authority := hrotation.authority
          status := hrotation.keyStatus.trans hrotation.status.symm
          oneFirst := hok, revisions := rfl, bindings := rfl
          profiles := List.perm_insertionSort _ _, covers := PolicyClone.empty_covers now s.source }
    · cases h
  | cloneProfile targetProfileId targetRevisionIds =>
    simp only [System.rotate] at h
    split at h
    · next key now p remaining clone hr =>
      simp only [Option.ite_none_right_eq_some, Option.some.injEq] at h
      obtain ⟨⟨hnew, hlength⟩, rfl⟩ := h
      rw [hr] at hrotation
      obtain ⟨moment, done, hcloning⟩ := hrotation
      exact ⟨hs.consistent, moment, done ++ [p], hcloning.next hnew hlength⟩
    · cases h
  | readBindings deadline =>
    simp only [System.rotate] at h
    split at h
    · next key now clone hr =>
      rw [hr] at hrotation
      obtain ⟨moment, done, hcloning⟩ := hrotation
      split at h
      · cases h
        exact ⟨hs.consistent, trivial⟩
      · next bindings hbindings =>
        cases h
        rw [hcloning.bindings] at hbindings
        have hdone : done.Perm moment.profiles := by simpa using hcloning.profiles
        refine ⟨hs.consistent.withKey _, moment, hcloning.seen, hcloning.consistent, hcloning.oneFirst,
          clone.renaming, now, ?_⟩
        exact hcloning.covers.cloneOf hcloning.consistent hdone hcloning.status hcloning.authority hbindings
    · cases h

end

/-- A key whose rows refer to each other, before its rotation. -/
def Starts (s : System) : Prop := ∃ source : KeyRows, source.Consistent ∧ s = .start source

/-- The new key has the rows of `moment`, renamed, and resolves its rules and default actions. -/
structure ClonesMoment (projectId : String) (target moment : KeyRows) : Prop where
  rows : ∃ ren now, CloneOf ren now target moment
  apiKeyPolicy : (target.resolveEffectiveApiKeyPolicy projectId).map policyContent =
    (moment.resolveEffectiveApiKeyPolicy projectId).map policyContent
  operationScope : ∀ custody custodyWalletId,
    (target.resolveOperationScope projectId custody custodyWalletId).map (Except.map ApiKeyOperationScope.content) =
      (moment.resolveOperationScope projectId custody custodyWalletId).map (Except.map ApiKeyOperationScope.content)

/-- A new key is a clone of the source at one moment of the rotation. -/
theorem rotation_clones_one_moment (projectId : String) (candidates : String → Nat) {s : System}
    (hs : Reachable (step projectId candidates) Starts (stepOk projectId) s) {target : KeyRows}
    (htarget : s.rotation = .committed target) : ∃ moment ∈ s.seen, ClonesMoment projectId target moment := by
  have hinv : s.Inv projectId := by
    refine hs.invariant ?_ ?_
    · rintro _ ⟨source, hsource, rfl⟩
      exact ⟨hsource, trivial⟩
    · intro s l t _ hs hok h
      cases l with
      | write w => exact inv_write hs hok h
      | rotate r => exact inv_rotate hs hok h
  have hrotation := hinv.rotation
  rw [htarget] at hrotation
  obtain ⟨moment, hseen, hconsistent, hone, ren, now, hclone⟩ := hrotation
  refine ⟨moment, hseen, ⟨ren, now, hclone⟩, ?_, ?_⟩
  · exact hclone.resolveEffectiveApiKeyPolicy_content projectId hconsistent hone
  · exact hclone.resolveOperationScope_content projectId hconsistent hone

/-! ## A rotation with an update in between -/

def rotatingKey : ApiKeyRow :=
  { id := "key_1", name := "key", description := none, role := .apiDeveloper, permissions := some [.paymentsWrite]
    allowedIps := none, signingWalletId := none, status := .active, expiresAt := none, rotatedFrom := none
    rotationDeadline := none, walletPermissions := [⟨"wallet_1", [.all]⟩] }

/-- One active profile, which a binding for all wallets uses. -/
def rotatingRows : KeyRows where
  key := rotatingKey
  profiles := [⟨"akcp_1", some "project", "profile", .active, some "akcpr_1", 1, some 2, none⟩]
  revisions := [⟨"akcpr_1", "akcp_1", 1, [], .deny⟩]
  bindings := [⟨.all, none, some "akcp_1"⟩]

theorem rotatingRows_consistent : rotatingRows.Consistent where
  profileIds := by decide
  revisionIds := by decide
  revisionProfiles := by decide
  activeRevisions := by
    intro p hp id hid
    obtain rfl := List.mem_singleton.mp hp
    cases hid
    exact ⟨_, List.mem_singleton.mpr rfl, rfl, rfl⟩
  bindingProfiles := by decide

def oneCandidate : String → Nat := fun _ => 1

/-- Fewer permissions, on another wallet. -/
def moveToReadOnly : UpdateBody :=
  { name := none, description := none, allowedIps := none, expiresAt := none
    permissions := some (some [.paymentsRead])
    wallets := ⟨some .selected, none, none, some (some [⟨"wallet_2", none⟩]), false, none⟩ }

/-- The statements of the transaction. -/
def transactionSteps : List Step :=
  [.rotate (.lockKey "key_2" 5), .rotate .copyWallets, .rotate .readProfiles,
    .rotate (.cloneProfile "akcp_2" ["akcpr_2"]), .rotate (.readBindings 9)]

def rotated (steps : List Step) : System :=
  (Lib.run (step "project" oneCandidate) (.start rotatingRows) steps).getD (.start rotatingRows)

def updatedInBetween : List Step :=
  .rotate .readKey :: .write (.update ⟨"key_0", [.all], .all, []⟩ moveToReadOnly) :: transactionSteps

theorem undisturbed_rotation_clones :
    ∃ target, (rotated (.rotate .readKey :: transactionSteps)).rotation = .committed target ∧
      ∃ moment ∈ (rotated (.rotate .readKey :: transactionSteps)).seen, ClonesMoment "project" target moment := by
  have hstart : Reachable (step "project" oneCandidate) Starts (stepOk "project") (.start rotatingRows) :=
    .start ⟨rotatingRows, rotatingRows_consistent, rfl⟩
  have hcopied := hstart.run_of (by simp [stepOk])
    (by rfl : Lib.run _ _ [.rotate .readKey, .rotate (.lockKey "key_2" 5), .rotate .copyWallets] = some _)
  have hone : (rotatingRows.firstActivated "project").length ≤ 1 := by decide
  have hprofiles := hcopied.step (l := Step.rotate .readProfiles) hone rfl
  have hcommitted := hprofiles.run_of (by simp [stepOk])
    (by rfl : Lib.run _ _ [.rotate (.cloneProfile "akcp_2" ["akcpr_2"]), .rotate (.readBindings 9)] = some _)
  exact ⟨_, rfl, rotation_clones_one_moment "project" oneCandidate hcommitted rfl⟩

/-- The key is updated between its first read and the lock: the new key has the old permissions on
the new wallet, which the source never had. -/
theorem update_mixed_into_rotation :
    ¬ ∀ (projectId : String) (candidates : String → Nat) (s : System),
      Reachable (step projectId candidates) Starts anyStep s → ∀ target, s.rotation = .committed target →
        ∃ moment ∈ s.seen, ClonesMoment projectId target moment := by
  intro h
  have hreach : Reachable (step "project" oneCandidate) Starts anyStep (rotated updatedInBetween) :=
    Reachable.run (.start ⟨rotatingRows, rotatingRows_consistent, rfl⟩)
      (by rfl : Lib.run _ _ updatedInBetween = some _)
  obtain ⟨moment, hmoment, hclone⟩ := h "project" oneCandidate _ hreach _ rfl
  obtain ⟨ren, now, hrows⟩ := hclone.rows
  have hauthority := hrows.authority
  -- The source had the permissions with `wallet_1` and the wallet without them.
  rcases List.mem_cons.mp hmoment with rfl | hmoment
  · exact absurd hauthority (by decide)
  · rcases List.mem_cons.mp hmoment with rfl | hmoment
    · exact absurd hauthority (by decide)
    · cases hmoment

end Sdp.KeyRotation
