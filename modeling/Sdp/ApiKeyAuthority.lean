import Sdp.Lib.Checks
import Sdp.Lib.Run
import Sdp.Code.ApiKeyRequests
import Mathlib.Data.Set.Basic

/-!
# The authority of API keys

What a key may use is a set of permissions on wallets. Creating and updating a key check the
permissions that they grant against the ones of the actor, but no wallet, and rotating checks
nothing. So a request hands out more than the actor has exactly when the wallets that it asks for, or
the key that it rotates, reach further.
-/

namespace Sdp.ApiKeys

open Lib (bind_eq_ok check_eq_ok pure_eq_ok ite_throw_eq_ok)

variable {candidates : String → Nat} {p : Permission} {w : String}

/-! ## Authority -/

/-- What a key may use. -/
def authority (candidates : String → Nat) (key : ApiKeyRow) : Set (Permission × String) :=
  {x | (key.context candidates).mayUse x.1 x.2 = true}

/-- Bindings reach a permission on a wallet. No bindings at all reach every wallet. -/
def Reaches (candidates : String → Nat) (bindings : List ApiKeyWalletBinding) (p : Permission) (w : String) : Prop :=
  bindings = [] ∨ candidates w = 1 ∧
    ∃ b, bindings.find? (·.walletId = w) = some b ∧
      hasBindingPermission ⟨b.walletId, normalizeApiKeyWalletPermissions b.permissions⟩ [p] = true

theorem walletScope_eq_all {key : ApiKeyRow} : key.walletScope = .all ↔ key.permissionRows = [] := by
  unfold ApiKeyRow.walletScope ApiKeyRow.permissionRows
  cases key.signingWalletId <;> by_cases h : key.walletPermissions = [] <;> simp [h]

theorem find?_walletBindings (key : ApiKeyRow) (w : String) :
    (key.walletBindings candidates).find? (·.walletId = w) =
      if candidates w = 1 then (key.permissionRows.find? (·.walletId = w)).map fun b =>
        ⟨b.walletId, normalizeApiKeyWalletPermissions b.permissions⟩
      else none := by
  unfold ApiKeyRow.walletBindings
  rw [List.find?_map, List.find?_filter]
  split
  · next hw =>
    congr 2
    funext b
    by_cases hb : b.walletId = w <;> simp [hb, hw]
  · next hw =>
    rw [Option.map_eq_none_iff, List.find?_eq_none]
    intro b _
    by_cases hb : b.walletId = w <;> simp [hb, hw]

theorem mem_authority {key : ApiKeyRow} :
    (p, w) ∈ authority candidates key ↔
      hasPermission key.effectivePermissions p = true ∧ Reaches candidates key.permissionRows p w := by
  simp only [authority, Set.mem_ofPred_eq, ApiKeyContext.mayUse, Bool.and_eq_true, ApiKeyRow.context]
  refine and_congr_right fun _ => ?_
  unfold assertApiKeyWalletAccess Reaches
  cases hscope : key.walletScope with
  | all => simp [walletScope_eq_all.mp hscope, Except.isOk, Except.toBool, pure, Except.pure]
  | selected =>
    have hrows : key.permissionRows ≠ [] := by
      rw [Ne, ← walletScope_eq_all, hscope]
      exact fun h => by cases h
    simp only [find?_walletBindings, hrows, false_or]
    by_cases hw : candidates w = 1
    · cases hb : key.permissionRows.find? (·.walletId = w) with
      | none => simp [hw, Except.isOk, Except.toBool, throw, throwThe, MonadExceptOf.throw]
      | some b =>
        by_cases hp : hasBindingPermission ⟨b.walletId, normalizeApiKeyWalletPermissions b.permissions⟩ [p] = true <;>
          simp [hw, hp, Except.isOk, Except.toBool, throw, throwThe, MonadExceptOf.throw, pure, Except.pure]
    · simp [hw, Except.isOk, Except.toBool, throw, throwThe, MonadExceptOf.throw]

theorem hasBindingPermission_normalize (walletId : String) (permissions : List Permission) :
    hasBindingPermission ⟨walletId, normalizeApiKeyWalletPermissions permissions⟩ [p] = true ↔
      permissions = [] ∨ .all ∈ permissions ∨ p ∈ permissions := by
  unfold hasBindingPermission normalizeApiKeyWalletPermissions
  split
  · simp_all
  · split <;> simp_all

theorem reaches_storedBindings (bindings : List ApiKeyWalletBinding) :
    Reaches candidates (storedBindings bindings) p w ↔ Reaches candidates bindings p w := by
  have hfind : (storedBindings bindings).find? (·.walletId = w) =
      (bindings.find? (·.walletId = w)).map fun b => ⟨b.walletId, normalizeApiKeyWalletPermissions b.permissions⟩ := by
    unfold storedBindings
    rw [List.find?_map]
    rfl
  have hnormalize (permissions : List Permission) :
      normalizeApiKeyWalletPermissions permissions = [] ∨ .all ∈ normalizeApiKeyWalletPermissions permissions ∨
          p ∈ normalizeApiKeyWalletPermissions permissions ↔
        permissions = [] ∨ .all ∈ permissions ∨ p ∈ permissions := by
    unfold normalizeApiKeyWalletPermissions
    split
    · simp_all
    · next hne =>
      split
      · simp_all
      · have hkept : permissions.eraseDups ≠ [] := by
          obtain ⟨q, hq⟩ := List.exists_mem_of_ne_nil _ hne
          exact List.ne_nil_of_mem (List.mem_eraseDups.mpr hq)
        simp [hne, hkept]
  unfold Reaches
  rw [hfind]
  refine or_congr (by simp [storedBindings]) (and_congr_right fun _ => ?_)
  cases bindings.find? (·.walletId = w) with
  | none => simp
  | some b =>
    simp only [Option.map_some, Option.some.injEq, exists_eq_left', hasBindingPermission_normalize]
    exact hnormalize b.permissions

/-! ## What a request asks for -/

theorem resolveWalletBindingsInScope_ok {bindings resolved : List ApiKeyWalletBinding}
    (h : resolveWalletBindingsInScope candidates bindings = .ok resolved) : resolved = bindings := by
  unfold resolveWalletBindingsInScope at h
  simp only [check_eq_ok, pure_eq_ok] at h
  exact h.2.2.symm

theorem resolveCreateWalletScope_ok {input : WalletScopeInput} {patch : ParsedWalletBindingPatch}
    (h : resolveCreateWalletScope input = .ok patch) (hprovision : input.provisionWallet = false) :
    patch.bindings = [] → patch.defaultSigningWalletId = none := by
  unfold resolveCreateWalletScope at h
  split at h
  · simp only [check_eq_ok, bind_eq_ok] at h
    obtain ⟨-, parsed, -, h⟩ := h
    split at h
    · simp only [check_eq_ok, pure_eq_ok] at h
      obtain ⟨-, -, rfl⟩ := h
      exact fun _ => rfl
    · simp only [check_eq_ok, pure_eq_ok, hprovision] at h
      obtain ⟨hsome, rfl⟩ := h
      intro hnone
      exact absurd (by simpa using hnone) hsome
  · cases h

theorem resolveUpdateWalletScope_ok {input : WalletScopeInput} {patch : ParsedWalletBindingPatch}
    (h : resolveUpdateWalletScope input = .ok patch) (htouched : patch.touched = true) :
    patch.bindings = [] → patch.defaultSigningWalletId = none := by
  unfold resolveUpdateWalletScope at h
  simp only [bind_eq_ok] at h
  obtain ⟨parsed, -, h⟩ := h
  split at h
  · simp only [check_eq_ok, pure_eq_ok] at h
    obtain ⟨-, rfl⟩ := h
    cases htouched
  · simp only [check_eq_ok, pure_eq_ok] at h
    obtain ⟨-, -, rfl⟩ := h
    exact fun _ => rfl
  · simp only [check_eq_ok, pure_eq_ok] at h
    obtain ⟨-, hsome, rfl⟩ := h
    intro hnone
    have hnone : parsed.bindings = [] := hnone
    exact absurd (by simp [hnone]) hsome

def CreateBody.askedPermissions (body : CreateBody) : List Permission :=
  body.permissions.getD (getPermissionsForApiKeyRole (body.role.getD .apiDeveloper))

def CreateBody.askedBindings (body : CreateBody) (provisioned : Except AppError String) :
    Except AppError (List ApiKeyWalletBinding) :=
  if body.wallets.provisionWallet then provisioned.map fun walletId => [⟨walletId, [.all]⟩]
  else (resolveCreateWalletScope body.wallets).map (·.bindings)

def UpdateBody.askedPermissions (body : UpdateBody) (key : ApiKeyRow) : List Permission :=
  (body.permissions.getD key.permissions).getD (getPermissionsForApiKeyRole key.role)

def UpdateBody.askedBindings (body : UpdateBody) (key : ApiKeyRow) : Except AppError (List ApiKeyWalletBinding) :=
  (resolveUpdateWalletScope body.wallets).map fun patch => if patch.touched then patch.bindings else key.permissionRows

theorem grantable_ok {actorPermissions : List Permission} {role : ApiKeyRole} {requested : Option (List Permission)}
    (hadmin : hasAnyPermission actorPermissions [.orgAdmin] = false)
    (h : assertGrantableApiKeyPermissions actorPermissions role requested = .ok ())
    (hp : hasPermission (requested.getD (getPermissionsForApiKeyRole role)) p = true) :
    hasPermission actorPermissions p = true := by
  unfold assertGrantableApiKeyPermissions at h
  rw [hadmin] at h
  have hall : hasAllPermissions actorPermissions (requested.getD (getPermissionsForApiKeyRole role)) = true := by
    by_contra hnot
    simp only [Bool.not_eq_true] at hnot
    simp [hnot, throw, throwThe, MonadExceptOf.throw] at h
  simp only [hasAnyPermission, hasAllPermissions, hasPermission, Bool.or_eq_true, Bool.or_eq_false_iff,
    decide_eq_true_eq, decide_eq_false_iff_not, List.all_eq_true] at hadmin hall hp ⊢
  have hheld := hall.resolve_left hadmin.1
  exact hp.imp (hheld _) (hheld _)

theorem permissionRows_stored {key : ApiKeyRow} {bindings : List ApiKeyWalletBinding}
    (hrows : key.walletPermissions = storedBindings bindings) (hsigning : bindings = [] → key.signingWalletId = none) :
    key.permissionRows = storedBindings bindings := by
  unfold ApiKeyRow.permissionRows
  rw [hrows]
  split
  · next hnone =>
    rw [hsigning (by simpa [storedBindings] using hnone), hnone]
    rfl
  · rfl

theorem createApiKey_ok {actor : ApiKeyContext} {body : CreateBody} {newId : String}
    {provisioned : Except AppError String} {key : ApiKeyRow}
    (h : createApiKey candidates actor body newId provisioned = .ok key) :
    ∃ bindings, body.askedBindings provisioned = .ok bindings ∧
      assertGrantableApiKeyPermissions actor.permissions (body.role.getD .apiDeveloper) body.permissions = .ok () ∧
      key.id = newId ∧ key.effectivePermissions = body.askedPermissions ∧ key.permissionRows = storedBindings bindings := by
  unfold createApiKey at h
  simp only [bind_eq_ok] at h
  obtain ⟨⟨signingWalletId, bindings⟩, hwallets, ⟨⟩, hgrant, hkey⟩ := h
  cases hkey
  unfold resolveCreateWallets at hwallets
  simp only [bind_eq_ok] at hwallets
  obtain ⟨selection, hselection, hwallets⟩ := hwallets
  unfold CreateBody.askedBindings
  by_cases hprovision : body.wallets.provisionWallet = true
  · rw [if_pos hprovision] at hwallets ⊢
    simp only [check_eq_ok, bind_eq_ok] at hwallets
    obtain ⟨-, walletId, hok, hpair⟩ := hwallets
    cases hpair
    exact ⟨_, by rw [hok]; rfl, hgrant, rfl, rfl, permissionRows_stored rfl nofun⟩
  · rw [if_neg hprovision] at hwallets ⊢
    obtain ⟨resolved, hresolved, hpair⟩ := bind_eq_ok.mp hwallets
    cases hpair
    obtain rfl := resolveWalletBindingsInScope_ok hresolved
    refine ⟨_, by rw [hselection]; rfl, hgrant, rfl, rfl, permissionRows_stored rfl ?_⟩
    exact resolveCreateWalletScope_ok hselection (by simpa using hprovision)

theorem updateApiKey_ok {actor : ApiKeyContext} {existing key : ApiKeyRow} {body : UpdateBody}
    (h : updateApiKey candidates actor existing body = .ok key) :
    ∃ bindings, body.askedBindings existing = .ok bindings ∧ body.assertGrantable actor existing.role = .ok () ∧
      key.id = existing.id ∧ key.effectivePermissions = body.askedPermissions existing ∧
      ∀ p w, Reaches candidates key.permissionRows p w ↔ Reaches candidates bindings p w := by
  unfold updateApiKey at h
  simp only [bind_eq_ok, check_eq_ok] at h
  obtain ⟨patch, hpatch, ⟨⟩, hgrant, -, hkey⟩ := h
  cases hkey
  unfold resolveUpdateWallets at hpatch
  obtain ⟨selection, hselection, hpatch⟩ := bind_eq_ok.mp hpatch
  have hasked : body.askedBindings existing =
      .ok (if selection.touched then selection.bindings else existing.permissionRows) := by
    unfold UpdateBody.askedBindings
    rw [hselection]
    rfl
  refine ⟨_, hasked, hgrant, rfl, rfl, fun p w => ?_⟩
  by_cases htouched : selection.touched = true
  · rw [if_pos htouched] at hpatch ⊢
    obtain ⟨resolved, hresolved, hpair⟩ := bind_eq_ok.mp hpatch
    cases hpair
    obtain rfl := resolveWalletBindingsInScope_ok hresolved
    have hsigning := resolveUpdateWalletScope_ok hselection htouched
    have hrows : (body.apply selection existing).permissionRows = storedBindings selection.bindings :=
      permissionRows_stored (by simp [UpdateBody.apply, htouched]) (by simpa [UpdateBody.apply, htouched] using hsigning)
    rw [← reaches_storedBindings selection.bindings, ← hrows]
  · rw [if_neg htouched] at hpatch ⊢
    cases hpatch
    have hrows : (body.apply patch existing).permissionRows = existing.permissionRows := by
      simp [ApiKeyRow.permissionRows, UpdateBody.apply, htouched]
    rw [hrows]

/-! ## One request -/

/-- No secret of a key with more than the actor's authority is disclosed, and no key gains more than that. -/
def NoAmplification (candidates : String → Nat) (keys : ApiKeyTable) (actor : ApiKeyRow) (keys' : ApiKeyTable)
    (disclosed : Option ApiKeyRow) : Prop :=
  (∀ key ∈ disclosed, ∀ row, keys'.find? key.id = some row → authority candidates row ⊆ authority candidates actor) ∧
    ∀ id row row', keys.find? id = some row → keys'.find? id = some row' →
      authority candidates row' ⊆ authority candidates row ∪ authority candidates actor

/-- The checks that the code leaves out. -/
def Within (candidates : String → Nat) (keys : ApiKeyTable) (actor : ApiKeyRow) : KeyRequest → Prop
  | .create body _ provisioned =>
    ∀ bindings, body.askedBindings provisioned = .ok bindings →
      ∀ p w, hasPermission body.askedPermissions p = true → Reaches candidates bindings p w →
        Reaches candidates actor.permissionRows p w
  | .update keyId body =>
    ∀ key, keys.find? keyId = some key → ∀ bindings, body.askedBindings key = .ok bindings →
      ∀ p w, hasPermission (body.askedPermissions key) p = true → Reaches candidates bindings p w →
        (p, w) ∈ authority candidates key ∨
          Reaches candidates actor.permissionRows p w ∧
            (body.permissions.isSome = true ∨ hasPermission actor.effectivePermissions p = true)
  | .rotate keyId _ _ _ =>
    ∀ key, keys.find? keyId = some key → authority candidates key ⊆ authority candidates actor

/-- Everything an accepted request does. -/
inductive Handled (candidates : String → Nat) (keys : ApiKeyTable) (actor : ApiKeyRow) :
    KeyRequest → ApiKeyTable → Option ApiKeyRow → Prop
  | create {body : CreateBody} {newId : String} {provisioned : Except AppError String} {key : ApiKeyRow}
      (h : createApiKey candidates (actor.context candidates) body newId provisioned = .ok key)
      (hnew : keys.find? key.id = none) :
      Handled candidates keys actor (.create body newId provisioned) (keys.insertNew key) (some key)
  | update {keyId : String} {body : UpdateBody} {existing key : ApiKeyRow} (hfind : keys.find? keyId = some existing)
      (h : updateApiKey candidates (actor.context candidates) existing body = .ok key) :
      Handled candidates keys actor (.update keyId body)
        (keys.update keyId (fun _ => true) (fun row => { key with id := row.id }) fun _ => rfl) none
  | rotate {keyId newId : String} {gracePeriodMs : Option Nat} {now : Nat} {existing : ApiKeyRow}
      (hfind : keys.find? keyId = some existing) (hnew : keys.find? newId = none) :
      Handled candidates keys actor (.rotate keyId gracePeriodMs newId now)
        ((keys.insertNew (rotatedKey existing newId)).update keyId (fun _ => true)
          (ApiKeyRow.retire (deadlineOf gracePeriodMs now)) (ApiKeyRow.id_retire _))
        (some (rotatedKey existing newId))

theorem insertKey_ok {keys keys' : ApiKeyTable} {key : ApiKeyRow} (h : insertKey keys key = .ok keys') :
    keys.find? key.id = none ∧ keys' = keys.insertNew key := by
  unfold insertKey at h
  simp only [check_eq_ok, pure_eq_ok, Option.not_isSome_iff_eq_none] at h
  exact ⟨h.1, h.2.symm⟩

theorem handle_ok {keys keys' : ApiKeyTable} {actorId : String} {request : KeyRequest} {disclosed : Option ApiKeyRow}
    (h : handle candidates keys actorId request = .ok (keys', disclosed)) :
    ∃ actor, keys.find? actorId = some actor ∧ Handled candidates keys actor request keys' disclosed := by
  unfold handle at h
  split at h
  · next actor hactor =>
    refine ⟨actor, hactor, ?_⟩
    simp only [check_eq_ok] at h
    obtain ⟨-, h⟩ := h
    cases request with
    | create body newId provisioned =>
      simp only [bind_eq_ok] at h
      obtain ⟨key, hkey, keys'', hinsert, hout⟩ := h
      cases hout
      obtain ⟨hnew, rfl⟩ := insertKey_ok hinsert
      exact .create hkey hnew
    | update keyId body =>
      dsimp only at h
      split at h
      · next existing hfind =>
        obtain ⟨key, hkey, hout⟩ := bind_eq_ok.mp h
        cases hout
        exact .update hfind hkey
      · cases h
    | rotate keyId gracePeriodMs newId now =>
      simp only [bind_eq_ok] at h
      obtain ⟨key, hkey, keys'', hinsert, hout⟩ := h
      cases hout
      unfold rotateApiKey at hkey
      simp only [check_eq_ok] at hkey
      obtain ⟨-, hkey⟩ := hkey
      split at hkey
      · next existing hfind =>
        simp only [ite_throw_eq_ok, pure_eq_ok] at hkey
        obtain ⟨-, rfl⟩ := hkey
        obtain ⟨hnew, rfl⟩ := insertKey_ok hinsert
        exact .rotate hfind hnew
      · cases hkey
  · cases h

variable {keys keys' : ApiKeyTable} {actor : ApiKeyRow} {request : KeyRequest} {disclosed : Option ApiKeyRow}

theorem find?_insertNew_self (key : ApiKeyRow) (hnew : keys.find? key.id = none) :
    (keys.insertNew key).find? key.id = some key := by
  simp [Lib.Table.find?_insertNew, hnew]

theorem find?_insertNew_of_some {key row : ApiKeyRow} {id : String} (hrow : keys.find? id = some row) :
    (keys.insertNew key).find? id = some row := by
  rw [Lib.Table.find?_insertNew, hrow]
  split <;> rfl

theorem authority_congr {key key' : ApiKeyRow} (hpermissions : key'.effectivePermissions = key.effectivePermissions)
    (hrows : key'.permissionRows = key.permissionRows) : authority candidates key' = authority candidates key := by
  ext ⟨p, w⟩
  rw [mem_authority, mem_authority, hpermissions, hrows]

/-- A created key grants what was asked for. -/
theorem create_within_iff {body : CreateBody} {newId : String} {provisioned : Except AppError String} {key : ApiKeyRow}
    (hadmin : hasAnyPermission actor.effectivePermissions [.orgAdmin] = false)
    (h : createApiKey candidates (actor.context candidates) body newId provisioned = .ok key) :
    authority candidates key ⊆ authority candidates actor ↔
      Within candidates keys actor (.create body newId provisioned) := by
  obtain ⟨bindings, hasked, hgrant, -, hpermissions, hrows⟩ := createApiKey_ok h
  have hkey (p : Permission) (w : String) : (p, w) ∈ authority candidates key ↔
      hasPermission body.askedPermissions p = true ∧ Reaches candidates bindings p w := by
    rw [mem_authority, hpermissions, hrows, reaches_storedBindings]
  constructor
  · intro hsub bindings' hasked' p w hp hreach
    obtain rfl : bindings = bindings' := Except.ok.inj (hasked.symm.trans hasked')
    exact (mem_authority.mp (hsub ((hkey p w).mpr ⟨hp, hreach⟩))).2
  · rintro hwithin ⟨p, w⟩ hmem
    obtain ⟨hp, hreach⟩ := (hkey p w).mp hmem
    exact mem_authority.mpr ⟨grantable_ok hadmin hgrant hp, hwithin bindings hasked p w hp hreach⟩

/-- An updated key grants what was asked for and what it keeps. -/
theorem update_within_iff {keyId : String} {body : UpdateBody} {existing key : ApiKeyRow}
    (hadmin : hasAnyPermission actor.effectivePermissions [.orgAdmin] = false)
    (hfind : keys.find? keyId = some existing)
    (h : updateApiKey candidates (actor.context candidates) existing body = .ok key) :
    authority candidates key ⊆ authority candidates existing ∪ authority candidates actor ↔
      Within candidates keys actor (.update keyId body) := by
  obtain ⟨bindings, hasked, hgrant, -, hpermissions, hreaches⟩ := updateApiKey_ok h
  have hkey (p : Permission) (w : String) : (p, w) ∈ authority candidates key ↔
      hasPermission (body.askedPermissions existing) p = true ∧ Reaches candidates bindings p w := by
    rw [mem_authority, hpermissions, hreaches]
  constructor
  · intro hsub existing' hfind' bindings' hasked' p w hp hreach
    obtain rfl : existing = existing' := Option.some.inj (hfind.symm.trans hfind')
    obtain rfl : bindings = bindings' := Except.ok.inj (hasked.symm.trans hasked')
    refine (hsub ((hkey p w).mpr ⟨hp, hreach⟩)).imp_right fun hactor => ?_
    obtain ⟨hheld, hreach⟩ := mem_authority.mp hactor
    exact ⟨hreach, .inr hheld⟩
  · rintro hwithin ⟨p, w⟩ hmem
    obtain ⟨hp, hreach⟩ := (hkey p w).mp hmem
    refine (hwithin existing hfind bindings hasked p w hp hreach).imp_right fun ⟨hactor, hheld⟩ => ?_
    refine mem_authority.mpr ⟨?_, hactor⟩
    -- Permissions in the body were checked, the ones of the key were not.
    rcases hheld with hsome | hheld
    · obtain ⟨permissions, hbody⟩ := Option.isSome_iff_exists.mp hsome
      simp only [UpdateBody.assertGrantable, hbody] at hgrant
      simp only [UpdateBody.askedPermissions, hbody, Option.getD_some] at hp
      exact grantable_ok hadmin hgrant hp
    · exact hheld

theorem Handled.noAmplification_iff (h : Handled candidates keys actor request keys' disclosed)
    (hadmin : hasAnyPermission actor.effectivePermissions [.orgAdmin] = false) :
    NoAmplification candidates keys actor keys' disclosed ↔ Within candidates keys actor request := by
  cases h with
  | @create body newId provisioned key hkey hnew =>
    rw [← create_within_iff hadmin hkey]
    constructor
    · intro h
      exact h.1 key rfl key (find?_insertNew_self _ hnew)
    · refine fun hsub => ⟨?_, ?_⟩
      · rintro _ ⟨⟩ row hrow
        obtain rfl : key = row := Option.some.inj ((find?_insertNew_self _ hnew).symm.trans hrow)
        exact hsub
      · intro id row row' hrow hrow'
        obtain rfl : row = row' := Option.some.inj ((find?_insertNew_of_some hrow).symm.trans hrow')
        exact Set.subset_union_left
  | @update keyId body existing key hfind hkey =>
    rw [← update_within_iff hadmin hfind hkey]
    have hid : { key with id := existing.id } = key := by
      rw [← (updateApiKey_ok hkey).choose_spec.2.2.1]
    constructor
    · intro h
      exact h.2 keyId existing key hfind (by simp [Lib.Table.find?_update, hfind, hid])
    · refine fun hsub => ⟨fun key hnone => absurd hnone (Option.not_mem_none key), ?_⟩
      intro id row row' hrow hrow'
      rw [Lib.Table.find?_update] at hrow'
      split at hrow'
      · next heq =>
        subst heq
        obtain rfl : existing = row := Option.some.inj (hfind.symm.trans hrow)
        obtain rfl : key = row' := by simpa [hfind, hid] using hrow'
        exact hsub
      · obtain rfl : row = row' := Option.some.inj (hrow.symm.trans hrow')
        exact Set.subset_union_left
  | @rotate keyId newId gracePeriodMs now existing hfind hnew =>
    have hclone : authority candidates (rotatedKey existing newId) = authority candidates existing :=
      authority_congr rfl rfl
    have hne : (rotatedKey existing newId).id ≠ keyId := by
      intro heq
      have heq : newId = keyId := heq
      rw [heq, hfind] at hnew
      cases hnew
    have hinsert := find?_insertNew_self (rotatedKey existing newId) hnew
    constructor
    · intro h key hkey
      obtain rfl : existing = key := Option.some.inj (hfind.symm.trans hkey)
      rw [← hclone]
      refine h.1 _ rfl _ ?_
      rw [Lib.Table.find?_update, if_neg hne]
      exact hinsert
    · refine fun hwithin => ⟨?_, ?_⟩
      · rintro _ ⟨⟩ row hrow
        rw [Lib.Table.find?_update, if_neg hne] at hrow
        obtain rfl : rotatedKey existing newId = row := Option.some.inj (hinsert.symm.trans hrow)
        rw [hclone]
        exact hwithin existing hfind
      · intro id row row' hrow hrow'
        rw [Lib.Table.find?_update] at hrow'
        split at hrow'
        · next heq =>
          subst heq
          rw [find?_insertNew_of_some hrow] at hrow'
          have hsame : authority candidates row' = authority candidates row := by
            cases hrow'
            exact authority_congr rfl rfl
          rw [hsame]
          exact Set.subset_union_left
        · obtain rfl : row = row' := Option.some.inj ((find?_insertNew_of_some hrow).symm.trans hrow')
          exact Set.subset_union_left

/-! ## Chains of requests -/

/-- The keys of a project and the ones whose secrets are at hand. -/
structure Chain where
  keys : ApiKeyTable
  held : List String

/-- A request that is made with one of the secrets. A key with `org:admin` may grant anything. -/
def chainStep (candidates : String → Nat) (s : Chain) (e : String × KeyRequest) : Option Chain :=
  if e.1 ∈ s.held ∧ (s.keys.find? e.1).any fun key => !hasAnyPermission key.effectivePermissions [.orgAdmin] then
    match handle candidates s.keys e.1 e.2 with
    | .ok (keys, disclosed) => some ⟨keys, disclosed.toList.map (·.id) ++ s.held⟩
    | .error _ => none
  else none

def ChainWithin (candidates : String → Nat) (s : Chain) (e : String × KeyRequest) : Prop :=
  ∀ actor, s.keys.find? e.1 = some actor → Within candidates s.keys actor e.2

theorem chainStep_ok {s t : Chain} {e : String × KeyRequest} (h : chainStep candidates s e = some t) :
    e.1 ∈ s.held ∧ ∃ actor keys disclosed, s.keys.find? e.1 = some actor ∧
      hasAnyPermission actor.effectivePermissions [.orgAdmin] = false ∧
      Handled candidates s.keys actor e.2 keys disclosed ∧ t = ⟨keys, disclosed.toList.map (·.id) ++ s.held⟩ := by
  unfold chainStep at h
  split at h
  · next hguard =>
    obtain ⟨hheld, hadmin⟩ := hguard
    split at h
    · next keys disclosed hhandle =>
      cases h
      obtain ⟨actor, hactor, hhandled⟩ := handle_ok hhandle
      rw [hactor] at hadmin
      exact ⟨hheld, actor, keys, disclosed, hactor, by simpa using hadmin, hhandled, rfl⟩
    · cases h
  · cases h

theorem Handled.found (h : Handled candidates keys actor request keys' disclosed) :
    (∀ id row, keys.find? id = some row → ∃ row', keys'.find? id = some row') ∧
      ∀ key ∈ disclosed, ∃ row, keys'.find? key.id = some row := by
  have hupdate {keys : ApiKeyTable} {id keyId : String} {row : ApiKeyRow} {set : ApiKeyRow → ApiKeyRow}
      (hset : ∀ row, (set row).id = row.id) (hrow : keys.find? id = some row) :
      ∃ row', (keys.update keyId (fun _ => true) set hset).find? id = some row' := by
    rw [Lib.Table.find?_update]
    split
    · next heq =>
      subst heq
      exact ⟨set row, by simp [hrow]⟩
    · exact ⟨row, hrow⟩
  cases h with
  | create hkey hnew =>
    refine ⟨fun id row hrow => ⟨row, find?_insertNew_of_some hrow⟩, ?_⟩
    rintro _ ⟨⟩
    exact ⟨_, find?_insertNew_self _ hnew⟩
  | update hfind hkey => exact ⟨fun id row hrow => hupdate _ hrow, fun key hnone => absurd hnone (Option.not_mem_none key)⟩
  | @rotate keyId newId gracePeriodMs now existing hfind hnew =>
    refine ⟨fun id row hrow => hupdate _ (find?_insertNew_of_some hrow), ?_⟩
    rintro _ ⟨⟩
    exact hupdate _ (find?_insertNew_self (rotatedKey existing newId) hnew)

/-- Every secret at hand is within a bound. -/
def HeldWithin (candidates : String → Nat) (bound : Set (Permission × String)) (s : Chain) : Prop :=
  ∀ id ∈ s.held, ∃ row, s.keys.find? id = some row ∧ authority candidates row ⊆ bound

theorem HeldWithin.step {bound : Set (Permission × String)} {s t : Chain} {e : String × KeyRequest}
    (h : HeldWithin candidates bound s) (hwithin : ChainWithin candidates s e)
    (ht : chainStep candidates s e = some t) : HeldWithin candidates bound t := by
  obtain ⟨hheld, actor, keys, disclosed, hactor, hadmin, hhandled, rfl⟩ := chainStep_ok ht
  obtain ⟨hdisclosed, hexisting⟩ := (hhandled.noAmplification_iff hadmin).mpr (hwithin actor hactor)
  obtain ⟨hkept, hnew⟩ := hhandled.found
  have hbound : authority candidates actor ⊆ bound := by
    obtain ⟨row, hrow, hsub⟩ := h e.1 hheld
    obtain rfl : actor = row := Option.some.inj (hactor.symm.trans hrow)
    exact hsub
  intro id hid
  rcases List.mem_append.mp hid with hid | hid
  · obtain ⟨key, hkey, rfl⟩ := List.mem_map.mp hid
    have hkey : key ∈ disclosed := by simpa using hkey
    obtain ⟨row, hrow⟩ := hnew key hkey
    exact ⟨row, hrow, (hdisclosed key hkey row hrow).trans hbound⟩
  · obtain ⟨row, hrow, hsub⟩ := h id hid
    obtain ⟨row', hrow'⟩ := hkept id row hrow
    exact ⟨row', hrow', (hexisting id row row' hrow hrow').trans (Set.union_subset hsub hbound)⟩

/-- An accepted request hands out no more than the actor has exactly when it stays within the checks that are left
out, and a chain of such requests never goes beyond its first key. -/
theorem authority_within_actor (candidates : String → Nat) :
    (∀ (keys : ApiKeyTable) (actorId : String) (actor : ApiKeyRow) (request : KeyRequest) (keys' : ApiKeyTable)
      (disclosed : Option ApiKeyRow), keys.find? actorId = some actor →
      hasAnyPermission actor.effectivePermissions [.orgAdmin] = false →
      handle candidates keys actorId request = .ok (keys', disclosed) →
      (NoAmplification candidates keys actor keys' disclosed ↔ Within candidates keys actor request)) ∧
    ∀ (keys : ApiKeyTable) (first : ApiKeyRow) (s : Chain), keys.find? first.id = some first →
      Lib.Reachable (chainStep candidates) (· = ⟨keys, [first.id]⟩) (ChainWithin candidates) s →
      ∀ id ∈ s.held, ∀ row, s.keys.find? id = some row → authority candidates row ⊆ authority candidates first := by
  refine ⟨?_, ?_⟩
  · intro keys actorId actor request keys' disclosed hactor hadmin hhandle
    obtain ⟨actor', hactor', hhandled⟩ := handle_ok hhandle
    obtain rfl : actor = actor' := Option.some.inj (hactor.symm.trans hactor')
    exact hhandled.noAmplification_iff hadmin
  · intro keys first s hfirst hs id hid row hrow
    have hheld : HeldWithin candidates (authority candidates first) s := by
      refine Lib.Reachable.invariant ?_ (fun _ _ _ _ h hwithin ht => h.step hwithin ht) hs
      rintro _ rfl id hid
      obtain rfl : id = first.id := by simpa using hid
      exact ⟨first, hfirst, subset_rfl⟩
    obtain ⟨row', hrow', hsub⟩ := hheld id hid
    obtain rfl : row' = row := Option.some.inj (hrow'.symm.trans hrow)
    exact hsub

/-- Every wallet id has one custody wallet. -/
def oneEach : String → Nat := fun _ => 1

def sampleKey (id : String) (role : ApiKeyRole) (permissions : Option (List Permission))
    (walletPermissions : List ApiKeyWalletBinding) : ApiKeyRow :=
  { id, name := "key", description := none, role, permissions, allowedIps := none, signingWalletId := none
    status := .active, expiresAt := none, rotatedFrom := none, rotationDeadline := none, walletPermissions }

def paymentsKey : ApiKeyRow :=
  sampleKey "key_1" .apiDeveloper (some [.apiKeysWrite, .paymentsWrite]) [⟨"wallet_1", [.paymentsWrite]⟩]

def paymentsKeys : ApiKeyTable := ⟨[paymentsKey], by decide⟩

/-- A key for the wallet of the actor. -/
def sameWallet : CreateBody :=
  { name := "key", description := none, role := none, permissions := some [.paymentsWrite], allowedIps := none
    expiresAt := none
    wallets := ⟨some .selected, none, none, some (some [⟨"wallet_1", some [.paymentsWrite]⟩]), false, none⟩ }

def sameWalletChain : Chain :=
  (chainStep oneEach ⟨paymentsKeys, ["key_1"]⟩ ("key_1", .create sameWallet "key_2" (.ok "wallet_2"))).getD
    ⟨paymentsKeys, []⟩

theorem sameWalletChain_within :
    "key_2" ∈ sameWalletChain.held ∧ ∀ row, sameWalletChain.keys.find? "key_2" = some row →
      authority oneEach row ⊆ authority oneEach paymentsKey := by
  have hwithin : ChainWithin oneEach ⟨paymentsKeys, ["key_1"]⟩
      ("key_1", .create sameWallet "key_2" (.ok "wallet_2")) := by
    rintro _ ⟨⟩ bindings hasked p w - hreach
    obtain rfl : [⟨"wallet_1", [.paymentsWrite]⟩] = bindings := Except.ok.inj hasked
    exact hreach
  have hreach : Lib.Reachable (chainStep oneEach) (· = ⟨paymentsKeys, [paymentsKey.id]⟩) (ChainWithin oneEach)
      sameWalletChain := .step (.start rfl) hwithin rfl
  have hheld : "key_2" ∈ sameWalletChain.held := by decide
  exact ⟨hheld, (authority_within_actor oneEach).2 paymentsKeys paymentsKey sameWalletChain rfl hreach "key_2" hheld⟩

def adminKeys : ApiKeyTable := ⟨[paymentsKey, sampleKey "key_2" .apiAdmin none []], by decide⟩

/-- The key of one wallet rotates the key with every permission and gets its new secret. -/
theorem rotation_discloses_more :
    ¬ ∀ (candidates : String → Nat) (keys : ApiKeyTable) (actorId : String) (actor : ApiKeyRow)
      (request : KeyRequest) (keys' : ApiKeyTable) (disclosed : Option ApiKeyRow),
      keys.find? actorId = some actor → hasAnyPermission actor.effectivePermissions [.orgAdmin] = false →
      handle candidates keys actorId request = .ok (keys', disclosed) →
      NoAmplification candidates keys actor keys' disclosed := by
  intro h
  have hsafe := h oneEach adminKeys "key_1" paymentsKey (.rotate "key_2" none "key_3" 0) _ _ rfl rfl rfl
  have hsub := hsafe.1 _ rfl _ rfl (show (.tokensAdmin, "wallet_2") ∈ authority oneEach _ from rfl)
  have hmay : (paymentsKey.context oneEach).mayUse .tokensAdmin "wallet_2" = true := hsub
  exact absurd hmay (by decide)

end Sdp.ApiKeys
