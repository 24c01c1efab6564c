import Sdp.KaminoWithdraw

/-!
# Resolving the burn-all sentinel

The list without a sentinel is left alone. With one, which must be the last redemption, the others are subtracted from
what is asked for and the rest is written into it; nothing else of the list changes.
-/

open Sdp.Lib

namespace Sdp.Kamino

variable {kvault : Address}

/-- An entry of the SDK with a true tag, or one that prepares the share balance. -/
def Genuine (kvault : Address) (entry : RoleTaggedInstruction) : Prop :=
  Tagged kvault entry ∨ ∃ i, entry = prepared i ∧ ∀ sdk, i ≠ .sdk sdk

/-- The shares that the bytes of an entry encode. -/
def decodedShares (kvault : Address) (entry : RoleTaggedInstruction) : Nat :=
  match entry.instruction with
  | .sdk i => (decodeKvaultWithdrawShares i kvault).getD 0
  | _ => 0

theorem Genuine.decoded {entry : RoleTaggedInstruction} (h : Genuine kvault entry) :
    decodedShares kvault entry = entry.sharesBaseUnits.getD 0 := by
  rcases h with h | ⟨i, rfl, hother⟩
  · cases h with
    | inert i role hrole hdecode => simp [decodedShares, hdecode]
    | redeeming i shares hdecode => simp [decodedShares, hdecode]
  · unfold decodedShares prepared
    split
    · next sdk hsdk => exact absurd hsdk (hother sdk)
    · rfl

theorem Genuine.withdraw_iff {entry : RoleTaggedInstruction} (h : Genuine kvault entry) :
    entry.role = .withdraw ↔ entry.sharesBaseUnits ≠ none := by
  rcases h with h | ⟨i, rfl, -⟩
  · cases h with
    | inert i role hrole hdecode => simp [hrole]
    | redeeming => simp
  · simp [prepared]

theorem Genuine.sentinel {entry : RoleTaggedInstruction} (h : Genuine kvault entry) (hsentinel : entry.isSentinel = true) :
    ∃ i, entry = ⟨.sdk i, .withdraw, some kvaultBurnAllSharesSentinel⟩ ∧
      decodeKvaultWithdrawShares i kvault = some kvaultBurnAllSharesSentinel := by
  have hshares := isSentinel_iff.mp hsentinel
  rcases h with h | ⟨i, rfl, -⟩
  · cases h with
    | inert => cases hshares
    | redeeming i shares hdecode =>
      cases hshares
      exact ⟨i, rfl, hdecode⟩
  · cases hshares

/-- How the sentinel is resolved: there is none, or it is the last redemption and takes the rest. -/
inductive Resolved (requested : Nat) (guarded : Bool) : List RoleTaggedInstruction → List RoleTaggedInstruction → Prop
  | literal (entries : List RoleTaggedInstruction) (hnone : ∀ entry ∈ entries, entry.isSentinel = false) :
      Resolved requested guarded entries entries
  | rest (before after : List RoleTaggedInstruction) (i : SdkInstruction) (remainder : Nat)
      (hbefore : ∀ entry ∈ before, entry.isSentinel = false)
      (hafter : ∀ entry ∈ after, entry.isSentinel = false ∧ entry.role ≠ .withdraw)
      (hsum : redeemed before + remainder = requested) (hpositive : 0 < remainder)
      (hrange : remainder ≤ kvaultBurnAllSharesSentinel)
      (hguarded : remainder = kvaultBurnAllSharesSentinel → guarded = true) :
      Resolved requested guarded (before ++ ⟨.sdk i, .withdraw, some kvaultBurnAllSharesSentinel⟩ :: after)
        (before ++ ⟨.sdk (i.withShares remainder), .withdraw, some remainder⟩ :: after)

/-! ## One sentinel -/

/-- What an entry counts for beside the sentinel. -/
def literalShares (entry : RoleTaggedInstruction) : Nat := if entry.isSentinel then 0 else entry.sharesBaseUnits.getD 0

theorem literal_sum {entries : List RoleTaggedInstruction} (hgenuine : ∀ entry ∈ entries, Genuine kvault entry) :
    ((entries.filter fun entry => entry.role = .withdraw).map literalShares).sum = (entries.map literalShares).sum := by
  induction entries with
  | nil => rfl
  | cons entry entries ih =>
    have hrest := ih fun entry hmem => hgenuine entry (List.mem_cons_of_mem _ hmem)
    by_cases hrole : entry.role = .withdraw
    · simp [hrole, hrest]
    · have hnone : entry.sharesBaseUnits = none := by
        by_contra hsome
        exact hrole ((hgenuine entry List.mem_cons_self).withdraw_iff.mpr hsome)
      simp [hrole, hrest, literalShares, hnone]

theorem literal_eq_redeemed {entries : List RoleTaggedInstruction} (hnone : ∀ entry ∈ entries, entry.isSentinel = false) :
    (entries.map literalShares).sum = redeemed entries := by
  unfold redeemed
  refine congrArg List.sum (List.map_congr_left fun entry hmem => ?_)
  simp [literalShares, hnone entry hmem]

theorem redeemed_inert {entries : List RoleTaggedInstruction} (hgenuine : ∀ entry ∈ entries, Genuine kvault entry)
    (hrole : ∀ entry ∈ entries, entry.role ≠ .withdraw) : redeemed entries = 0 := by
  unfold redeemed
  refine List.sum_eq_zero fun n hn => ?_
  obtain ⟨entry, hmem, rfl⟩ := List.mem_map.mp hn
  have hnone : entry.sharesBaseUnits = none := by
    by_contra hsome
    exact hrole entry hmem ((hgenuine entry hmem).withdraw_iff.mpr hsome)
  rw [hnone, Option.getD_none]

section

variable {before after : List RoleTaggedInstruction} {entry : RoleTaggedInstruction}

theorem filter_sentinel (hbefore : ∀ entry ∈ before, entry.isSentinel = false)
    (hafter : ∀ entry ∈ after, entry.isSentinel = false) (hentry : entry.isSentinel = true) :
    (before ++ entry :: after).filter RoleTaggedInstruction.isSentinel = [entry] := by
  rw [List.filter_append, List.filter_eq_nil_iff.mpr fun entry hmem => by simp [hbefore entry hmem],
    List.filter_cons_of_pos hentry, List.filter_eq_nil_iff.mpr fun entry hmem => by simp [hafter entry hmem]]
  rfl

theorem sentinelIndex_iff (hbefore : ∀ entry ∈ before, entry.isSentinel = false) (hentry : entry.isSentinel = true)
    (hrole : entry.role = .withdraw) :
    let redeeming := (before ++ entry :: after).filter fun tagged => tagged.role = .withdraw
    (redeeming.findIdx? RoleTaggedInstruction.isSentinel).elim (-1) Int.ofNat = (redeeming.length : Int) - 1 ↔
      ∀ entry ∈ after, entry.role ≠ .withdraw := by
  intro redeeming
  have hsplit : redeeming = (before.filter fun tagged => tagged.role = .withdraw) ++
      entry :: after.filter fun tagged => tagged.role = .withdraw := by
    simp [redeeming, List.filter_append, hrole]
  have hnone : (before.filter fun tagged => tagged.role = .withdraw).findIdx? RoleTaggedInstruction.isSentinel = none :=
    List.findIdx?_eq_none_iff.mpr fun entry hmem => hbefore entry (List.mem_filter.mp hmem).1
  have hindex : redeeming.findIdx? RoleTaggedInstruction.isSentinel =
      some (before.filter fun tagged => tagged.role = .withdraw).length := by
    rw [hsplit, List.findIdx?_append, hnone, List.findIdx?_cons, hentry]
    simp
  have hlength : redeeming.length = (before.filter fun tagged => tagged.role = .withdraw).length +
      (1 + (after.filter fun tagged => tagged.role = .withdraw).length) := by
    rw [hsplit, List.length_append, List.length_cons]
    omega
  rw [hindex, hlength]
  have hnone : (∀ entry ∈ after, entry.role ≠ .withdraw) ↔
      (after.filter fun tagged => tagged.role = .withdraw).length = 0 := by
    rw [List.length_eq_zero_iff, List.filter_eq_nil_iff]
    simp
  rw [hnone, Option.elim_some, Int.ofNat_eq_natCast]
  omega

end

/-! ## Resolving -/

theorem resolve_none {entries : List RoleTaggedInstruction} {requested : Nat} {guarded : Bool}
    (hnone : ∀ entry ∈ entries, entry.isSentinel = false) :
    resolveBurnAllSentinel entries requested guarded = .ok entries := by
  have hfilter : entries.filter RoleTaggedInstruction.isSentinel = [] :=
    List.filter_eq_nil_iff.mpr fun entry hmem => by simp [hnone entry hmem]
  unfold resolveBurnAllSentinel
  simp only [hfilter, List.length_nil, if_true]

theorem mapM_resolveEntry {before after : List RoleTaggedInstruction} {i : SdkInstruction} {remainder : Nat}
    (hbefore : ∀ entry ∈ before, entry.isSentinel = false) (hafter : ∀ entry ∈ after, entry.isSentinel = false)
    (hdecode : decodeKvaultWithdrawShares i kvault = some kvaultBurnAllSharesSentinel)
    (hrange : remainder ≤ kvaultBurnAllSharesSentinel) :
    (before ++ ⟨.sdk i, .withdraw, some kvaultBurnAllSharesSentinel⟩ :: after).mapM (resolveEntry remainder) =
      .ok (before ++ ⟨.sdk (i.withShares remainder), .withdraw, some remainder⟩ :: after) := by
  have hkept {entries : List RoleTaggedInstruction} (hnone : ∀ entry ∈ entries, entry.isSentinel = false) :
      entries.mapM (resolveEntry remainder) = .ok entries := by
    refine (mapM_eq_ok (g := id) fun entry hmem => ?_).trans (by rw [List.map_id])
    simp [resolveEntry, hnone entry hmem]
  have hentry : resolveEntry remainder ⟨.sdk i, .withdraw, some kvaultBurnAllSharesSentinel⟩ =
      .ok ⟨.sdk (i.withShares remainder), .withdraw, some remainder⟩ := by
    have hsentinel : (⟨.sdk i, .withdraw, some kvaultBurnAllSharesSentinel⟩ : RoleTaggedInstruction).isSentinel = true :=
      isSentinel_iff.mpr rfl
    simp only [resolveEntry, hsentinel, if_true, (rewriteKvaultWithdrawShares_ok hdecode hrange).1]
    rfl
  rw [List.mapM_append, List.mapM_cons, hkept hbefore, hkept hafter, hentry]
  rfl

section

variable {before after : List RoleTaggedInstruction} {i : SdkInstruction} {requested : Nat} {guarded : Bool}

/-- The entry of a sentinel. -/
def sentinelEntry (i : SdkInstruction) : RoleTaggedInstruction := ⟨.sdk i, .withdraw, some kvaultBurnAllSharesSentinel⟩

theorem isSentinel_sentinelEntry (i : SdkInstruction) : (sentinelEntry i).isSentinel = true := isSentinel_iff.mpr rfl

theorem literal_split (hgenuine : ∀ entry ∈ before ++ sentinelEntry i :: after, Genuine kvault entry)
    (hbefore : ∀ entry ∈ before, entry.isSentinel = false)
    (hafter : ∀ entry ∈ after, entry.isSentinel = false ∧ entry.role ≠ .withdraw) :
    (((before ++ sentinelEntry i :: after).filter fun tagged => tagged.role = .withdraw).map literalShares).sum =
      redeemed before := by
  have hinert : redeemed after = 0 :=
    redeemed_inert (fun entry hmem => hgenuine entry (by simp [hmem])) fun entry hmem => (hafter entry hmem).2
  rw [literal_sum hgenuine, List.map_append, List.map_cons, List.sum_append, List.sum_cons, literal_eq_redeemed hbefore,
    literal_eq_redeemed fun entry hmem => (hafter entry hmem).1, hinert]
  simp [literalShares, isSentinel_sentinelEntry]

theorem resolve_rest {remainder : Nat} (hgenuine : ∀ entry ∈ before ++ sentinelEntry i :: after, Genuine kvault entry)
    (hbefore : ∀ entry ∈ before, entry.isSentinel = false)
    (hafter : ∀ entry ∈ after, entry.isSentinel = false ∧ entry.role ≠ .withdraw)
    (hsum : redeemed before + remainder = requested) (hpositive : 0 < remainder)
    (hrange : remainder ≤ kvaultBurnAllSharesSentinel)
    (hguarded : remainder = kvaultBurnAllSharesSentinel → guarded = true) :
    resolveBurnAllSentinel (before ++ sentinelEntry i :: after) requested guarded =
      .ok (before ++ ⟨.sdk (i.withShares remainder), .withdraw, some remainder⟩ :: after) := by
  have hnone := fun entry hmem => (hafter entry hmem).1
  have hliteral := literal_split hgenuine hbefore hafter
  have hindex := (sentinelIndex_iff hbefore (isSentinel_sentinelEntry i) rfl).mpr fun entry hmem => (hafter entry hmem).2
  obtain ⟨i', hi', hdecode⟩ := (hgenuine (sentinelEntry i) (by simp)).sentinel (isSentinel_sentinelEntry i)
  cases hi'
  have hremainder : (requested : Int) - (redeemed before : Nat) = remainder := by omega
  unfold literalShares at hliteral
  unfold resolveBurnAllSentinel
  simp only [filter_sentinel hbefore hnone (isSentinel_sentinelEntry i), List.length_singleton, hindex, hliteral,
    hremainder, Int.toNat_natCast]
  rw [if_neg (by decide), if_neg (by decide), if_neg (by simp), if_neg (by omega), if_neg]
  · exact mapM_resolveEntry hbefore hnone hdecode hrange
  · rintro ⟨hmax, hunguarded⟩
    rw [hguarded (by omega)] at hunguarded
    cases hunguarded

theorem rest_of_resolve {tagged : List RoleTaggedInstruction}
    (hgenuine : ∀ entry ∈ before ++ sentinelEntry i :: after, Genuine kvault entry)
    (hbefore : ∀ entry ∈ before, entry.isSentinel = false) (hafter : ∀ entry ∈ after, entry.isSentinel = false)
    (h : resolveBurnAllSentinel (before ++ sentinelEntry i :: after) requested guarded = .ok tagged) :
    (∀ entry ∈ after, entry.role ≠ .withdraw) ∧ redeemed before < requested ∧
      requested - redeemed before ≤ kvaultBurnAllSharesSentinel ∧
        (requested - redeemed before = kvaultBurnAllSharesSentinel → guarded = true) := by
  have hindex := @sentinelIndex_iff before after _ hbefore (isSentinel_sentinelEntry i) rfl
  unfold resolveBurnAllSentinel at h
  simp only [filter_sentinel hbefore hafter (isSentinel_sentinelEntry i), List.length_singleton] at h
  rw [if_neg (by decide), if_neg (by decide)] at h
  split at h
  · cases h
  · next hlast =>
    have hrole := hindex.mp (not_not.mp hlast)
    have hliteral := literal_split hgenuine hbefore fun entry hmem => ⟨hafter entry hmem, hrole entry hmem⟩
    unfold literalShares at hliteral
    rw [hliteral] at h
    split at h
    · cases h
    · next hremainder =>
      split at h
      · cases h
      · next hmaximum =>
        refine ⟨hrole, by omega, by omega, fun hmax => ?_⟩
        by_contra hunguarded
        exact hmaximum ⟨by omega, by simpa using hunguarded⟩

end

/-- Exactly when the code succeeds, and with what. -/
theorem resolveBurnAllSentinel_iff {entries tagged : List RoleTaggedInstruction} {requested : Nat} {guarded : Bool}
    (hgenuine : ∀ entry ∈ entries, Genuine kvault entry) :
    resolveBurnAllSentinel entries requested guarded = .ok tagged ↔ Resolved requested guarded entries tagged := by
  by_cases hnone : ∀ entry ∈ entries, entry.isSentinel = false
  · rw [resolve_none hnone]
    constructor
    · intro h
      cases h
      exact .literal entries hnone
    · intro h
      cases h with
      | literal => rfl
      | rest before after i =>
        have hsentinel := hnone (sentinelEntry i) (by simp [sentinelEntry])
        rw [isSentinel_sentinelEntry] at hsentinel
        cases hsentinel
  · constructor
    · intro h
      have hcount : (entries.filter RoleTaggedInstruction.isSentinel).length = 1 := by
        by_contra hother
        have hsome : (entries.filter RoleTaggedInstruction.isSentinel).length ≠ 0 := fun hzero =>
          hnone fun entry hmem => by simpa using List.filter_eq_nil_iff.mp (List.length_eq_zero_iff.mp hzero) entry hmem
        unfold resolveBurnAllSentinel at h
        simp only [if_neg hsome, if_pos hother] at h
        cases h
      obtain ⟨entry, hentry⟩ := List.length_eq_one_iff.mp hcount
      obtain ⟨before, after, rfl, hbefore, hsentinel, hafter⟩ := List.filter_eq_cons_iff.mp hentry
      have hbefore' : ∀ entry ∈ before, entry.isSentinel = false := fun entry hmem => by simpa using hbefore entry hmem
      have hafter' : ∀ entry ∈ after, entry.isSentinel = false := fun entry hmem => by
        simpa using List.filter_eq_nil_iff.mp hafter entry hmem
      obtain ⟨i, rfl, hdecode⟩ := (hgenuine entry (by simp)).sentinel hsentinel
      obtain ⟨hrole, hless, hrange, hguarded⟩ := rest_of_resolve hgenuine hbefore' hafter' h
      have hresolved := resolve_rest hgenuine hbefore' (fun entry hmem => ⟨hafter' entry hmem, hrole entry hmem⟩)
        (Nat.add_sub_of_le hless.le) (Nat.sub_pos_of_lt hless) hrange hguarded
      cases hresolved.symm.trans h
      exact .rest before after i _ hbefore' (fun entry hmem => ⟨hafter' entry hmem, hrole entry hmem⟩)
        (Nat.add_sub_of_le hless.le) (Nat.sub_pos_of_lt hless) hrange hguarded
    · intro h
      cases h with
      | literal _ hnone' => exact absurd hnone' hnone
      | rest before after i remainder hbefore hafter hsum hpositive hrange hguarded =>
        exact resolve_rest hgenuine hbefore hafter hsum hpositive hrange hguarded

/-! ## What is resolved -/

/-- The shares that the redemptions of a list encode. -/
def decodedRedemptions (kvault : Address) (entries : List RoleTaggedInstruction) : Nat :=
  ((entries.filter fun entry => entry.role = .withdraw).map (decodedShares kvault)).sum

theorem decodedRedemptions_eq {entries : List RoleTaggedInstruction} (hgenuine : ∀ entry ∈ entries, Genuine kvault entry) :
    decodedRedemptions kvault entries = redeemed entries := by
  unfold decodedRedemptions
  induction entries with
  | nil => rfl
  | cons entry entries ih =>
    have hrest := ih fun entry hmem => hgenuine entry (List.mem_cons_of_mem _ hmem)
    have hentry := hgenuine entry List.mem_cons_self
    rw [redeemed_cons, ← hentry.decoded]
    by_cases hrole : entry.role = .withdraw
    · simp [hrole, hrest]
    · have hnone : entry.sharesBaseUnits = none := by
        by_contra hsome
        exact hrole (hentry.withdraw_iff.mpr hsome)
      simp [hrole, hrest, hentry.decoded, hnone]

/-- Resolving a list of true tags: without a sentinel nothing changes, and it is left to `encodeRedemptions` to compare
the sum. With one the redemptions encode what is asked for, and nothing changes but the amount of the sentinel, of which
none is left unless the rest is the sentinel itself and the balance is guarded. In every other case it throws. -/
theorem sentinel_is_resolved {entries : List RoleTaggedInstruction} {requested : Nat} {guarded : Bool}
    (hgenuine : ∀ entry ∈ entries, Genuine kvault entry) :
    (∀ tagged, resolveBurnAllSentinel entries requested guarded = .ok tagged →
      (tagged = entries ∧ ∀ entry ∈ entries, entry.isSentinel = false) ∨
      ∃ before after i remainder, entries = before ++ sentinelEntry i :: after ∧
        tagged = before ++ ⟨.sdk (i.withShares remainder), .withdraw, some remainder⟩ :: after ∧
        decodedRedemptions kvault tagged = requested ∧
        ((∃ entry ∈ tagged, entry.isSentinel = true) → remainder = kvaultBurnAllSharesSentinel ∧ guarded = true)) ∧
    ((¬∃ tagged, Resolved requested guarded entries tagged) →
      ∃ error, resolveBurnAllSentinel entries requested guarded = .error error) ∧
    (∀ i shares amount, decodeKvaultWithdrawShares i kvault = some shares → amount < 2 ^ 64 →
      rewriteKvaultWithdrawShares (.sdk i) amount = .ok (.sdk (i.withShares amount)) ∧
        decodeKvaultWithdrawShares (i.withShares amount) kvault = some amount) ∧
    ∀ owner consolidation decoded tagged, encodeRedemptions owner consolidation requested decoded = .ok tagged →
      redeemed tagged = requested := by
  refine ⟨fun tagged h => ?_, fun hnone => ?_, fun i shares amount hdecode hrange => ?_,
    fun owner consolidation decoded tagged h => ?_⟩
  · cases (resolveBurnAllSentinel_iff hgenuine).mp h with
    | literal _ hnone => exact .inl ⟨rfl, hnone⟩
    | rest before after i remainder hbefore hafter hsum hpositive hrange hguarded =>
      obtain ⟨i', hi', hdecode⟩ := (hgenuine (sentinelEntry i) (by simp [sentinelEntry])).sentinel (isSentinel_sentinelEntry i)
      cases hi'
      have hentry : Genuine kvault ⟨.sdk (i.withShares remainder), .withdraw, some remainder⟩ :=
        .inl (.redeeming _ _ (rewriteKvaultWithdrawShares_ok hdecode hrange).2)
      have htagged : ∀ entry ∈ before ++ ⟨.sdk (i.withShares remainder), .withdraw, some remainder⟩ :: after,
          Genuine kvault entry := by
        intro entry hmem
        rcases List.mem_append.mp hmem with hmem | hmem
        · exact hgenuine entry (List.mem_append_left _ hmem)
        · rcases List.mem_cons.mp hmem with rfl | hmem
          · exact hentry
          · exact hgenuine entry (List.mem_append_right _ (List.mem_cons_of_mem _ hmem))
      have hinert : redeemed after = 0 :=
        redeemed_inert (fun entry hmem => htagged entry (by simp [hmem])) fun entry hmem => (hafter entry hmem).2
      refine .inr ⟨before, after, i, remainder, rfl, rfl, ?_, fun ⟨entry, hmem, hsentinel⟩ => ?_⟩
      · rw [decodedRedemptions_eq htagged, redeemed_append, redeemed_cons, hinert]
        exact hsum
      · rcases List.mem_append.mp hmem with hmem | hmem
        · rw [hbefore entry hmem] at hsentinel
          cases hsentinel
        · rcases List.mem_cons.mp hmem with rfl | hmem
          · have hmax := Option.some.inj (isSentinel_iff.mp hsentinel)
            exact ⟨hmax, hguarded hmax⟩
          · rw [(hafter entry hmem).1] at hsentinel
            cases hsentinel
  · cases h : resolveBurnAllSentinel entries requested guarded with
    | error error => exact ⟨error, rfl⟩
    | ok tagged => exact absurd ⟨tagged, (resolveBurnAllSentinel_iff hgenuine).mp h⟩ hnone
  · have hmax : kvaultBurnAllSharesSentinel = 2 ^ 64 - 1 := rfl
    exact rewriteKvaultWithdrawShares_ok hdecode (by omega)
  · obtain ⟨guarded, -, -, hsum⟩ := encodeRedemptions_ok h
    exact hsum

/-- A redemption of three shares, and one of what is left. -/
def partialExit : List RoleTaggedInstruction :=
  [⟨.sdk (redemption 3), .withdraw, some 3⟩, sentinelEntry (redemption kvaultBurnAllSharesSentinel)]

/-- Of five shares the sentinel takes two. -/
theorem two_shares_are_left : ∃ tagged, resolveBurnAllSentinel partialExit 5 false = .ok tagged ∧
    decodedRedemptions (kaminoClusterConfig .mainnetBeta).kvaultProgramId tagged = 5 := by
  have hgenuine : ∀ entry ∈ partialExit, Genuine (kaminoClusterConfig .mainnetBeta).kvaultProgramId entry := by
    simp only [partialExit, List.forall_mem_cons]
    exact ⟨.inl (.redeeming _ _ rfl), .inl (.redeeming _ _ rfl), by simp⟩
  have hresolved : resolveBurnAllSentinel partialExit 5 false =
      .ok [⟨.sdk (redemption 3), .withdraw, some 3⟩, ⟨.sdk (redemption 2), .withdraw, some 2⟩] := rfl
  refine ⟨_, hresolved, ?_⟩
  rcases (sentinel_is_resolved hgenuine).1 _ hresolved with ⟨-, hnone⟩ | ⟨before, after, i, remainder, -, -, hsum, -⟩
  · have hsentinel := hnone (sentinelEntry (redemption kvaultBurnAllSharesSentinel)) (by simp [partialExit])
    rw [isSentinel_sentinelEntry] at hsentinel
    cases hsentinel
  · exact hsum

/-- Without a sentinel the sum is not looked at here: five shares are asked for and three are encoded. -/
theorem literal_list_is_unchecked :
    resolveBurnAllSentinel [⟨.sdk (redemption 3), .withdraw, some 3⟩] 5 false =
      .ok [⟨.sdk (redemption 3), .withdraw, some 3⟩] ∧
    decodedRedemptions (kaminoClusterConfig .mainnetBeta).kvaultProgramId [⟨.sdk (redemption 3), .withdraw, some 3⟩] = 3 :=
  ⟨rfl, rfl⟩

end Sdp.Kamino
