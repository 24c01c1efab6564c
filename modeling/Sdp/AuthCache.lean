import Sdp.Lib.Run
import Sdp.Code.AuthCache

/-!
# Cached API keys stay recent

The cache holds no record that is older than a write whose request has returned, as long as nothing
older is written back once the request has deleted the record, and a request that deletes none finds
none: one that writes without a deletion, and one that finds the key out of use and does neither.
-/

namespace Sdp.AuthCache

open ApiKeys

variable {candidates : String → Nat} {s t : System} {e : Event}

/-- The request of the write is still to delete the cached record. -/
def System.AboutToDelete (s : System) (version : Nat) : Prop := ∃ r, s.requests r = .written version true

/-- A record in the cache is older than such writes only. -/
def System.MayHold (s : System) (entry : Entry) : Prop :=
  ∀ version, entry.version < version → version ≤ s.version → s.AboutToDelete version

/-- No write is lost on the cache. -/
def KeepsUp (s : System) : Event → Prop
  | .authenticate a .writeCache => ∀ floor entry, s.authentications a = .readWallets floor entry →
    s.floor ≤ entry.version ∧ s.MayHold entry
  | .request _ (.write w) => w.deletesCached = true ∨ s.cache = none
  | .request r .return => ∀ version entry, s.requests r = .answered version → s.cache = some entry →
    version ≤ entry.version
  | _ => True

/-- The record is the one of a row since its version. -/
def RecordOf (candidates : String → Nat) (s : System) (entry : Entry) : Prop :=
  ∃ j, entry.version ≤ j ∧ j ≤ s.version ∧
    entry.record = cachedApiKey candidates (s.rows entry.version) (s.rows j).walletPermissions

/-- What an authentication has read is as recent as it has to be. -/
def Recent (candidates : String → Nat) (s : System) : Authentication → Prop
  | .idle => True
  | .started floor | .missed floor => floor ≤ s.floor
  | .readRow floor row version => floor ≤ version ∧ version ≤ s.version ∧ row = s.rows version
  | .readWallets floor entry | .found floor entry => floor ≤ entry.version ∧ RecordOf candidates s entry
  | .decided floor entry result =>
    floor ≤ entry.version ∧ RecordOf candidates s entry ∧ ∃ now ipAllowed, result = authorize entry.record now ipAllowed

structure Inv (candidates : String → Nat) (s : System) : Prop where
  floor : s.floor ≤ s.version
  written : ∀ r version deletes, s.requests r = .written version deletes → version ≤ s.version
  answered : ∀ r version, s.requests r = .answered version → version ≤ s.version
  unique : ∀ r r' version deletes deletes', s.requests r = .written version deletes →
    s.requests r' = .written version deletes' → r = r'
  cached : ∀ entry, s.cache = some entry → s.floor ≤ entry.version ∧ RecordOf candidates s entry ∧ s.MayHold entry
  recent : ∀ a, Recent candidates s (s.authentications a)

theorem System.outOfUseSince_le (s : System) : s.outOfUseSince ≤ s.version := by
  unfold System.outOfUseSince
  cases hfind : (List.range (s.version + 1)).find? fun version => outOfUse (s.rows version) with
  | none => exact le_rfl
  | some version => exact Nat.le_of_lt_succ (List.mem_range.mp (List.mem_of_find?_eq_some hfind))

theorem authentication_of_update {authentications : Nat → Authentication} {a b : Nat} {x : Authentication}
    {P : Authentication → Prop} (hx : P x) (h : ∀ a, P (authentications a)) :
    P (Function.update authentications a x b) := by
  by_cases hb : b = a
  · subst hb
    rwa [Function.update_self]
  · rw [Function.update_of_ne hb]
    exact h b

/-! ## Authentications -/

theorem authenticationStep_recent {a : Nat} {step : AuthenticationStep} {cache : Option Entry} {x : Authentication}
    (h : Inv candidates s) (hok : KeepsUp s (.authenticate a step))
    (hstep : authenticationStep candidates s (s.authentications a) step = some (cache, x)) :
    Recent candidates s x ∧
      ∀ entry, cache = some entry → s.floor ≤ entry.version ∧ RecordOf candidates s entry ∧ s.MayHold entry := by
  have hrecent := h.recent a
  generalize hstate : s.authentications a = state at hstep hrecent
  unfold authenticationStep at hstep
  split at hstep
  · cases hstep
    exact ⟨le_rfl, h.cached⟩
  · next floor =>
    have hfloor : floor ≤ s.floor := hrecent
    split at hstep
    · next entry hcache =>
      cases hstep
      obtain ⟨hrecent', hrecord, -⟩ := h.cached entry hcache
      exact ⟨⟨hfloor.trans hrecent', hrecord⟩, hcache ▸ h.cached⟩
    · cases hstep
      exact ⟨hfloor, h.cached⟩
  · next floor =>
    cases hstep
    have hfloor : floor ≤ s.floor := hrecent
    exact ⟨⟨hfloor.trans h.floor, le_rfl, rfl⟩, h.cached⟩
  · next floor row version =>
    cases hstep
    obtain ⟨hfloor, hversion, rfl⟩ := hrecent
    exact ⟨⟨hfloor, s.version, hversion, le_rfl, rfl⟩, h.cached⟩
  · next floor entry =>
    cases hstep
    refine ⟨hrecent, fun entry' hcache => ?_⟩
    split at hcache
    · cases hcache
      obtain ⟨hfloor, hmay⟩ := hok floor entry hstate
      exact ⟨hfloor, hrecent.2, hmay⟩
    · exact h.cached entry' hcache
  · next floor entry now ipAllowed =>
    cases hstep
    exact ⟨⟨hrecent.1, hrecent.2, now, ipAllowed, rfl⟩, h.cached⟩
  · cases hstep

/-! ## Requests -/

theorem RecordOf.write {entry : Entry} {row : ApiKeyRow} {requests : Nat → RequestState}
    (h : RecordOf candidates s entry) :
    RecordOf candidates
      { s with rows := Function.update s.rows (s.version + 1) row, version := s.version + 1, requests } entry := by
  obtain ⟨j, hj, hversion, hrecord⟩ := h
  refine ⟨j, hj, by simp only; omega, ?_⟩
  simp only
  rw [hrecord, Function.update_of_ne (by omega), Function.update_of_ne (by omega)]

theorem Recent.write {x : Authentication} {row : ApiKeyRow} {requests : Nat → RequestState}
    (h : Recent candidates s x) :
    Recent candidates
      { s with rows := Function.update s.rows (s.version + 1) row, version := s.version + 1, requests } x := by
  cases x with
  | idle => trivial
  | started floor | missed floor => exact h
  | readRow floor row' version =>
    obtain ⟨hfloor, hversion, rfl⟩ := h
    refine ⟨hfloor, by simp only; omega, ?_⟩
    simp only
    rw [Function.update_of_ne (by omega)]
  | readWallets floor entry | found floor entry => exact ⟨h.1, h.2.write⟩
  | decided floor entry result => exact ⟨h.1, h.2.1.write, h.2.2⟩

theorem Recent.mono {x : Authentication} (h : Recent candidates s x) (hrows : t.rows = s.rows)
    (hversion : t.version = s.version) (hfloor : s.floor ≤ t.floor) : Recent candidates t x := by
  cases x with
  | idle => trivial
  | started floor | missed floor =>
    have hf : floor ≤ s.floor := h
    exact hf.trans hfloor
  | readRow | readWallets | found | decided => simpa only [Recent, RecordOf, hrows, hversion] using h

/-- A request that has not written is where it was before the step, or is the one of the step. -/
theorem updated_request {requests : Nat → RequestState} {r r' : Nat} {x y : RequestState}
    (h : Function.update requests r x r' = y) : r' = r ∧ x = y ∨ r' ≠ r ∧ requests r' = y := by
  by_cases hr : r' = r
  · subst hr
    rw [Function.update_self] at h
    exact .inl ⟨rfl, h⟩
  · rw [Function.update_of_ne hr] at h
    exact .inr ⟨hr, h⟩

theorem Inv.readStatus {r : Nat} (h : Inv candidates s) (hidle : s.requests r = .idle) :
    Inv candidates { s with
      requests := Function.update s.requests r (if outOfUse s.row then .answered s.outOfUseSince else .admitted) } := by
  have hold {r' version : Nat} {deletes : Bool} (hr' : Function.update s.requests r
      (if outOfUse s.row then .answered s.outOfUseSince else .admitted) r' = .written version deletes) :
      s.requests r' = .written version deletes := by
    obtain ⟨-, hx⟩ | ⟨-, hold⟩ := updated_request hr'
    · split at hx
      · cases hx
      · cases hx
    · exact hold
  refine ⟨h.floor, fun r' version deletes hr' => h.written r' version deletes (hold hr'), fun r' version hr' => ?_,
    fun r₁ r₂ version deletes deletes' h₁ h₂ => h.unique r₁ r₂ version deletes deletes' (hold h₁) (hold h₂),
    fun entry hcache => ?_, fun a => (h.recent a).mono rfl rfl le_rfl⟩
  · obtain ⟨-, hx⟩ | ⟨-, hold⟩ := updated_request hr'
    · split at hx
      · cases hx
        exact s.outOfUseSince_le
      · cases hx
    · exact h.answered r' version hold
  · obtain ⟨hfloor, hrecord, hmay⟩ := h.cached entry hcache
    refine ⟨hfloor, hrecord, fun version hlt hle => ?_⟩
    obtain ⟨r', hr'⟩ := hmay version hlt hle
    have hne : r' ≠ r := by
      rintro rfl
      rw [hidle] at hr'
      cases hr'
    exact ⟨r', (Function.update_of_ne hne ..).trans hr'⟩

theorem Inv.write {r : Nat} {w : KeyWrite} (h : Inv candidates s) (hok : w.deletesCached = true ∨ s.cache = none)
    (hbefore : s.requests r = w.before) :
    Inv candidates { s with
      rows := Function.update s.rows (s.version + 1) (w.apply s.row)
      version := s.version + 1
      requests := Function.update s.requests r (.written (s.version + 1) w.deletesCached) } := by
  refine ⟨Nat.le_succ_of_le h.floor, ?_, ?_, ?_, ?_, fun a => (h.recent a).write⟩
  · intro r' version deletes hr'
    rcases updated_request hr' with ⟨-, hx⟩ | ⟨-, hold⟩
    · cases hx
      exact le_rfl
    · exact Nat.le_succ_of_le (h.written r' version deletes hold)
  · intro r' version hr'
    rcases updated_request hr' with ⟨-, hx⟩ | ⟨-, hold⟩
    · cases hx
    · exact Nat.le_succ_of_le (h.answered r' version hold)
  · intro r₁ r₂ version deletes deletes' h₁ h₂
    rcases updated_request h₁ with ⟨rfl, hx⟩ | ⟨-, hold₁⟩ <;> rcases updated_request h₂ with ⟨rfl, hy⟩ | ⟨-, hold₂⟩
    · rfl
    · cases hx
      exact absurd (h.written r₂ _ deletes' hold₂) (by omega)
    · cases hy
      exact absurd (h.written r₁ _ deletes hold₁) (by omega)
    · exact h.unique r₁ r₂ version deletes deletes' hold₁ hold₂
  · intro entry hcache
    have hdeletes : w.deletesCached = true := hok.resolve_right fun hnone => by
      rw [hnone] at hcache
      cases hcache
    obtain ⟨hfloor, hrecord, hmay⟩ := h.cached entry hcache
    refine ⟨hfloor, hrecord.write, fun version hlt hle => ?_⟩
    by_cases hnew : version = s.version + 1
    · exact ⟨r, by rw [hnew, ← hdeletes]; exact Function.update_self ..⟩
    · obtain ⟨r', hr'⟩ := hmay version hlt (by simp only at hle; omega)
      refine ⟨r', ?_⟩
      have hne : r' ≠ r := by
        rintro rfl
        rw [hbefore] at hr'
        unfold KeyWrite.before at hr'
        split at hr'
        · cases hr'
        · cases hr'
      exact (Function.update_of_ne hne ..).trans hr'

theorem Inv.deleteCached {r version : Nat} (h : Inv candidates s) (hr : s.requests r = .written version true) :
    Inv candidates { s with cache := none, requests := Function.update s.requests r (.written version false) } := by
  -- What is written stays so, but for the deletion.
  have hold {r' version' : Nat} {deletes : Bool}
      (hr' : Function.update s.requests r (.written version false) r' = .written version' deletes) :
      ∃ deletes', s.requests r' = .written version' deletes' := by
    rcases updated_request hr' with ⟨rfl, hx⟩ | ⟨-, hold⟩
    · cases hx
      exact ⟨true, hr⟩
    · exact ⟨deletes, hold⟩
  refine ⟨h.floor, ?_, ?_, ?_, nofun, fun a => (h.recent a).mono rfl rfl le_rfl⟩
  · intro r' version' deletes hr'
    obtain ⟨deletes', hr'⟩ := hold hr'
    exact h.written r' version' deletes' hr'
  · intro r' version' hr'
    rcases updated_request hr' with ⟨-, hx⟩ | ⟨-, hold⟩
    · cases hx
    · exact h.answered r' version' hold
  · intro r₁ r₂ version' deletes deletes' h₁ h₂
    obtain ⟨d₁, h₁⟩ := hold h₁
    obtain ⟨d₂, h₂⟩ := hold h₂
    exact h.unique r₁ r₂ version' d₁ d₂ h₁ h₂

theorem Inv.return {r version : Nat} (h : Inv candidates s) (hversion : version ≤ s.version)
    (hdone : ∀ version, s.requests r ≠ .written version true)
    (hcached : ∀ entry, s.cache = some entry → version ≤ entry.version) :
    Inv candidates { s with floor := max s.floor version, requests := Function.update s.requests r .returned } := by
  have hold {r' : Nat} {x : RequestState} (hx : x ≠ .returned) (hr' : Function.update s.requests r .returned r' = x) :
      s.requests r' = x := by
    rcases updated_request hr' with ⟨-, hreturned⟩ | ⟨-, hold⟩
    · exact absurd hreturned.symm hx
    · exact hold
  refine ⟨max_le h.floor hversion, ?_, ?_, ?_, ?_, fun a => (h.recent a).mono rfl rfl (le_max_left ..)⟩
  · intro r' version' deletes hr'
    exact h.written r' version' deletes (hold (by simp) hr')
  · intro r' version' hr'
    exact h.answered r' version' (hold (by simp) hr')
  · intro r₁ r₂ version' deletes deletes' h₁ h₂
    exact h.unique r₁ r₂ version' deletes deletes' (hold (by simp) h₁) (hold (by simp) h₂)
  · intro entry hcache
    obtain ⟨hfloor, hrecord, hmay⟩ := h.cached entry hcache
    refine ⟨max_le hfloor (hcached entry hcache), hrecord, fun version' hlt hle => ?_⟩
    obtain ⟨r', hr'⟩ := hmay version' hlt hle
    have hne : r' ≠ r := by
      rintro rfl
      exact hdone version' hr'
    exact ⟨r', (Function.update_of_ne hne ..).trans hr'⟩

theorem Inv.cached_of_deleted {r version : Nat} (h : Inv candidates s) (hr : s.requests r = .written version false)
    {entry : Entry} (hcache : s.cache = some entry) : version ≤ entry.version := by
  by_contra hlt
  obtain ⟨r', hr'⟩ := (h.cached entry hcache).2.2 version (Nat.lt_of_not_le hlt) (h.written r version false hr)
  obtain rfl := h.unique r' r version true false hr' hr
  rw [hr] at hr'
  cases hr'

/-! ## Runs -/

theorem Inv.step (h : Inv candidates s) (hok : KeepsUp s e) (ht : step candidates s e = some t) : Inv candidates t := by
  cases e with
  | authenticate a step =>
    obtain ⟨⟨cache, x⟩, hstep, rfl⟩ := Option.map_eq_some_iff.mp ht
    obtain ⟨hx, hcache⟩ := authenticationStep_recent h hok hstep
    refine ⟨h.floor, h.written, h.answered, h.unique, hcache, fun b => ?_⟩
    exact authentication_of_update (P := Recent candidates _) (hx.mono rfl rfl le_rfl)
      fun b => (h.recent b).mono rfl rfl le_rfl
  | request r step =>
    simp only [AuthCache.step] at ht
    generalize hr : s.requests r = state at ht
    unfold requestStep at ht
    split at ht
    · cases ht
      exact h.readStatus hr
    · obtain ⟨hbefore, ht⟩ := Option.ite_none_right_eq_some.mp ht
      cases ht
      exact h.write hok (hr.trans hbefore)
    · cases ht
      exact h.deleteCached hr
    · cases ht
      exact h.return (h.written r _ false hr) (by simp [hr]) fun entry => h.cached_of_deleted hr
    · next version =>
      cases ht
      exact h.return (h.answered r version hr) (by simp [hr]) fun entry => hok version entry hr
    · cases ht
  | expire =>
    cases ht
    exact ⟨h.floor, h.written, h.answered, h.unique, nofun, h.recent⟩

theorem inv_start (candidates : String → Nat) (key : ApiKeyRow) : Inv candidates (.start key) :=
  ⟨le_rfl, nofun, nofun, nofun, nofun, fun _ => trivial⟩

/-- Each authentication decides from rows that are as recent as every write whose request had returned when it
started. -/
def DecidesFromRecent (candidates : String → Nat) (s : System) : Prop :=
  ∀ a floor entry result, s.authentications a = .decided floor entry result →
    ∃ i j now ipAllowed, floor ≤ i ∧ floor ≤ j ∧ i ≤ s.version ∧ j ≤ s.version ∧
      entry.record = cachedApiKey candidates (s.rows i) (s.rows j).walletPermissions ∧
      result = authorize entry.record now ipAllowed

/-- In every run whose steps keep up, every authentication decides from a recent record. -/
theorem authentication_decides_from_recent (candidates : String → Nat) (key : ApiKeyRow) {s : System}
    (hs : Lib.Reachable (step candidates) (· = .start key) KeepsUp s) : DecidesFromRecent candidates s := by
  have hinv : Inv candidates s :=
    Lib.Reachable.invariant (fun _ hstart => hstart ▸ inv_start candidates key)
      (fun _ _ _ _ h hok ht => h.step hok ht) hs
  intro a floor entry result hdecided
  have hrecent := hinv.recent a
  rw [hdecided] at hrecent
  obtain ⟨hfloor, ⟨j, hj, hversion, hrecord⟩, now, ipAllowed, hresult⟩ := hrecent
  exact ⟨entry.version, j, now, ipAllowed, hfloor, hfloor.trans hj, hj.trans hversion, hversion, hrecord, hresult⟩

/-- An authentication reads a key that is then revoked. -/
def readThenRevoke : List Event :=
  [.authenticate 0 .start, .authenticate 0 .readCache, .authenticate 0 .readRow, .authenticate 0 .readWallets,
    .request 0 .readStatus, .request 0 (.write .revoke)]

def authenticateAgain : List Event :=
  [.authenticate 1 .start, .authenticate 1 .readCache, .authenticate 1 (.decide 0 fun _ => true)]

/-- The request deletes the record and returns. -/
def deleteThenReturn : List Event := [.request 0 .deleteCached, .request 0 .return]

/-- The next authentication reads the key. -/
def readAgain : List Event :=
  [.authenticate 1 .start, .authenticate 1 .readCache, .authenticate 1 .readRow, .authenticate 1 .readWallets]

def activeKey : ApiKeyRow :=
  { id := "key_1", name := "key", description := none, role := .apiDeveloper, permissions := none, allowedIps := none
    signingWalletId := none, status := .active, expiresAt := none, rotatedFrom := none, rotationDeadline := none
    walletPermissions := [] }

def oneWallet : String → Nat := fun _ => 1

/-- The first authentication writes the record back before the request deletes it. -/
def earlySystem : System :=
  (Lib.run (step oneWallet) (.start activeKey)
    (readThenRevoke ++ .authenticate 0 .writeCache :: deleteThenReturn ++ readAgain ++
      [.authenticate 1 .writeCache, .authenticate 1 (.decide 0 fun _ => true)])).getD (.start activeKey)

theorem earlySystem_decides_from_recent :
    (∃ entry, earlySystem.authentications 1 = .decided 1 entry (.error .revokedApiKey)) ∧
      DecidesFromRecent oneWallet earlySystem := by
  have hread : Lib.Reachable (step oneWallet) (· = .start activeKey) KeepsUp
      ((Lib.run (step oneWallet) (.start activeKey) readThenRevoke).getD (.start activeKey)) := by
    refine Lib.Reachable.run_of (.start rfl) (fun u e he => ?_) (by rfl : Lib.run _ _ readThenRevoke = _)
    simp only [readThenRevoke, List.mem_cons, List.not_mem_nil, or_false] at he
    rcases he with rfl | rfl | rfl | rfl | rfl | rfl
    · trivial
    · trivial
    · trivial
    · trivial
    · trivial
    · exact .inl rfl
  -- The only write since is the one of the request that is about to delete the record.
  have hwritten := hread.step (l := .authenticate 0 .writeCache)
    (by
      rintro floor entry ⟨⟩
      refine ⟨Nat.zero_le _, fun version hlt hle => ?_⟩
      obtain rfl : version = 1 := le_antisymm hle hlt
      exact ⟨0, rfl⟩)
    rfl
  have hdeleted := hwritten.step (l := .request 0 .deleteCached) (by trivial) rfl
  have hreturned := hdeleted.step (l := .request 0 .return) (by rintro version entry ⟨⟩) rfl
  have hread' := hreturned.run_of
    (by
      intro u e he
      simp only [readAgain, List.mem_cons, List.not_mem_nil, or_false] at he
      rcases he with rfl | rfl | rfl | rfl <;> trivial)
    (by rfl : Lib.run _ _ readAgain = some _)
  have hagain := hread'.step (l := .authenticate 1 .writeCache)
    (by
      rintro floor entry ⟨⟩
      exact ⟨le_rfl, fun version hlt hle => absurd hle (Nat.not_le_of_lt hlt)⟩)
    rfl
  have hearly : Lib.Reachable (step oneWallet) (· = .start activeKey) KeepsUp earlySystem :=
    hagain.step (l := .authenticate 1 (.decide 0 fun _ => true)) trivial rfl
  exact ⟨⟨_, rfl⟩, authentication_decides_from_recent oneWallet activeKey hearly⟩

/-- A revoked key is accepted after the revocation has returned. -/
theorem revoked_key_accepted :
    ¬ ∀ (candidates : String → Nat) (key : ApiKeyRow) (s : System),
      Lib.Reachable (step candidates) (· = .start key) Lib.anyStep s → DecidesFromRecent candidates s := by
  intro h
  have hreach : Lib.Reachable (step oneWallet) (· = .start activeKey) Lib.anyStep _ :=
    Lib.Reachable.run (.start rfl)
      (by rfl : Lib.run _ _ (readThenRevoke ++ deleteThenReturn ++ .authenticate 0 .writeCache :: authenticateAgain) =
        some _)
  obtain ⟨i, j, now, ipAllowed, hi, -, hversion, -, hrecord, -⟩ := h oneWallet activeKey _ hreach 1 1 _ _ rfl
  obtain rfl : i = 1 := le_antisymm hversion hi
  have hstatus := congrArg CachedApiKey.status hrecord
  cases hstatus

end Sdp.AuthCache
