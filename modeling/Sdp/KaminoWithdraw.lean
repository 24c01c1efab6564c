import Sdp.Amount
import Sdp.KaminoRedemptions
import Sdp.Lib.Checks

/-!
# Executing a withdrawal plan

A plan that is built burns exactly what was asked for, and closes the share account only when nothing is left, if and only
if what the SDK redeems outside the list for it burns nothing.
-/

open Sdp.Amount Sdp.Lib

namespace Sdp.Kamino

/-! ## The requested amount -/

theorem formatDecimalAmount_zero (decimals : Nat) : formatDecimalAmount 0 decimals = "0" := by
  have hdigits : Nat.toDigits 10 0 = ['0'] := by decide
  unfold formatDecimalAmount
  rw [hdigits]
  simp only [List.length_singleton]
  split
  · rfl
  · have hlength : decimals + 1 - 1 = decimals := by omega
    rw [hlength, ← List.replicate_succ']
    simp [List.drop_replicate, List.take_replicate]

theorem acceptShares_ok {shares acceptedShares : String} {decimals requested : Nat}
    (h : acceptShares shares decimals = .ok (acceptedShares, requested)) :
    parseDecimalAmount acceptedShares decimals = .ok requested ∧ 0 < requested := by
  unfold acceptShares at h
  obtain ⟨accepted, haccepted, h⟩ := bind_eq_ok.mp h
  obtain ⟨hzero, h⟩ := check_eq_ok.mp h
  obtain ⟨baseUnits, rfl⟩ : ∃ baseUnits, formatDecimalAmount baseUnits decimals = accepted := by
    unfold acceptAtMintScale at haccepted
    simp only at haccepted
    split at haccepted
    · cases haccepted
    · split at haccepted
      · cases haccepted
      · split at haccepted
        · cases haccepted
        · split at haccepted <;> cases haccepted
          exact ⟨_, rfl⟩
  rw [parseDecimalAmount_format] at h
  obtain ⟨-, h⟩ := check_eq_ok.mp h
  cases h
  refine ⟨parseDecimalAmount_format .., Nat.pos_of_ne_zero fun hnone => hzero ?_⟩
  rw [hnone, formatDecimalAmount_zero]
  rfl

variable {kvault ata : Address} {s : Shares}

/-! ## The list of instructions -/

theorem tagged_tagWithdraw (i : SdkInstruction) : Tagged kvault (tagWithdraw kvault i) := by
  unfold tagWithdraw
  cases hdecode : decodeKvaultWithdrawShares i kvault with
  | none => exact .inert i .prepare nofun hdecode
  | some shares => exact .redeeming i shares hdecode

theorem instruction_withRole (role : WithdrawInstructionRole) (instructions : List (Option SdkInstruction)) :
    (withRole role instructions).map RoleTaggedInstruction.instruction = instructions.reduceOption.map .sdk := by
  rw [withRole, List.map_map]
  rfl

theorem sharesBaseUnits_withRole {role : WithdrawInstructionRole} {instructions : List (Option SdkInstruction)}
    {entry : RoleTaggedInstruction} (h : entry ∈ withRole role instructions) :
    entry.role = role ∧ entry.sharesBaseUnits = none := by
  obtain ⟨i, -, rfl⟩ := List.mem_map.mp h
  exact ⟨rfl, rfl⟩

theorem redeemed_withRole (role : WithdrawInstructionRole) (instructions : List (Option SdkInstruction)) :
    redeemed (withRole role instructions) = 0 := by
  refine List.sum_eq_zero fun n hn => ?_
  obtain ⟨entry, hentry, rfl⟩ := List.mem_map.mp hn
  rw [(sharesBaseUnits_withRole hentry).2, Option.getD_none]

/-- An instruction that prepares the share balance. -/
def prepared (instruction : Instruction) : RoleTaggedInstruction := ⟨instruction, .prepare, none⟩

theorem prepared_spec (instructions : List Instruction) :
    (instructions.map prepared).map RoleTaggedInstruction.instruction = instructions ∧
      redeemed (instructions.map prepared) = 0 := by
  induction instructions with
  | nil => exact ⟨rfl, rfl⟩
  | cons i instructions ih =>
    refine ⟨congrArg (i :: ·) ih.1, ?_⟩
    rw [List.map_cons, redeemed_cons, ih.2]
    rfl

theorem findIdx?_withRole {role : WithdrawInstructionRole} (hrole : role ≠ .withdraw)
    (instructions : List (Option SdkInstruction)) :
    (withRole role instructions).findIdx? (fun tagged => tagged.role = .withdraw) = none := by
  refine List.findIdx?_eq_none_iff.mpr fun entry hentry => ?_
  rw [(sharesBaseUnits_withRole hentry).1]
  exact decide_eq_false hrole

theorem guardRedemptions_ok {unstake post : List (Option SdkInstruction)} {entries guarded : List RoleTaggedInstruction}
    {pre : List Instruction}
    (h : guardRedemptions (withRole .unstake unstake ++ entries ++ withRole .post post) pre = .ok guarded) :
    ∃ before after, entries = before ++ after ∧ (∀ entry ∈ before, entry.role ≠ .withdraw) ∧
      guarded = withRole .unstake unstake ++ (before ++ pre.map prepared ++ after) ++ withRole .post post := by
  unfold guardRedemptions at h
  split at h
  · next hnil =>
    cases h
    exact ⟨[], entries, rfl, by simp, by simp [hnil]⟩
  · rw [List.findIdx?_append, List.findIdx?_append, findIdx?_withRole (by decide), findIdx?_withRole (by decide)] at h
    simp only [Option.none_or, Option.map_none, Option.or_none] at h
    cases hindex : entries.findIdx? (fun tagged => tagged.role = .withdraw) with
    | none =>
      rw [hindex] at h
      cases h
    | some index =>
      rw [hindex] at h
      cases h
      obtain ⟨hlt, -, hearlier⟩ := List.findIdx?_eq_some_iff_getElem.mp hindex
      refine ⟨_, _, (List.take_append_drop index entries).symm, fun entry hmem => ?_, ?_⟩
      · obtain ⟨j, hj, rfl⟩ := List.mem_take_iff_getElem.mp hmem
        simpa using hearlier j (by omega)
      · beta_reduce
        rw [Nat.add_comm index, List.append_assoc (withRole .unstake unstake), List.take_length_add_append,
          List.drop_length_add_append, List.take_append_of_le_length hlt.le, List.drop_append_of_le_length hlt.le]
        simp [prepared, List.append_assoc]

theorem run_guard (kvault : Address) (owner : Owner) {requested : Nat} (hcovered : requested ≤ s.balance owner.shareAta)
    (hpositive : 0 < requested) :
    ∃ s', run (Shares.execute kvault owner.shareAta) s
        (buildMaximumWithdrawalBalanceGuard owner requested).toList = some s' ∧
      s'.balance owner.shareAta = s.balance owner.shareAta ∧ s'.total = s.total ∧ s'.burned = s.burned := by
  unfold buildMaximumWithdrawalBalanceGuard
  split
  · exact ⟨s, rfl, rfl, rfl, rfl⟩
  · obtain ⟨row, hfind⟩ := Shares.exists_of_balance (Nat.lt_of_lt_of_le hpositive hcovered)
    obtain ⟨s', hs', hbalance, -, htotal, hburned⟩ := Shares.transfer_self hfind hcovered
    refine ⟨s', ?_, hbalance _, htotal, hburned⟩
    have hexecute : s.execute kvault owner.shareAta (owner.transfer owner.shareAta requested) = some s' := hs'
    simp only [Option.toList_some, run, hexecute, Option.bind_some]

theorem resolved_shape {unstake post : List (Option SdkInstruction)} {entries guarded tagged : List RoleTaggedInstruction}
    {pre : List Instruction} {requested : Nat} {m : Bool} (hentries : ∀ entry ∈ entries, Tagged kvault entry)
    (hguarded : guardRedemptions (withRole .unstake unstake ++ entries ++ withRole .post post) pre = .ok guarded)
    (htagged : resolveBurnAllSentinel guarded requested m = .ok tagged) :
    ∃ before after,
      tagged = withRole .unstake unstake ++ (before ++ pre.map prepared ++ after) ++ withRole .post post ∧
      (∀ entry ∈ before, Tagged kvault entry ∧ entry.role ≠ .withdraw) ∧ ∀ entry ∈ after, Tagged kvault entry := by
  obtain ⟨before, after, rfl, hrole, rfl⟩ := guardRedemptions_ok hguarded
  have hbefore := fun entry hmem => hentries entry (List.mem_append_left after hmem)
  have hafter := fun entry hmem => hentries entry (List.mem_append_right before hmem)
  have huntold : ∀ {role instructions}, ∀ entry ∈ withRole role instructions, entry.isSentinel = false := by
    intro role instructions entry hmem
    rw [RoleTaggedInstruction.isSentinel, (sharesBaseUnits_withRole hmem).2]
    rfl
  have hprepared : ∀ entry ∈ pre.map prepared, entry.isSentinel = false := by
    intro entry hmem
    obtain ⟨i, -, rfl⟩ := List.mem_map.mp hmem
    rfl
  have hsentinel : ∀ entry ∈ withRole .unstake unstake ++ (before ++ pre.map prepared ++ after) ++ withRole .post post,
      entry.isSentinel = true → Tagged kvault entry := by
    intro entry hmem hsentinel
    simp only [List.mem_append] at hmem
    rcases hmem with (hmem | (hmem | hmem) | hmem) | hmem
    · rw [huntold entry hmem] at hsentinel
      cases hsentinel
    · exact hbefore entry hmem
    · rw [hprepared entry hmem] at hsentinel
      cases hsentinel
    · exact hafter entry hmem
    · rw [huntold entry hmem] at hsentinel
      cases hsentinel
  obtain ⟨g, rfl, hg⟩ := resolveBurnAllSentinel_ok hsentinel htagged
  have hkept : ∀ {l : List RoleTaggedInstruction}, l ⊆ withRole .unstake unstake ++ (before ++ pre.map prepared ++ after) ++
      withRole .post post → (∀ entry ∈ l, entry.isSentinel = false) → l.map g = l := by
    intro l hl hnone
    exact (List.map_congr_left fun entry hmem => (hg entry (hl hmem)).1 (hnone entry hmem)).trans (List.map_id _)
  refine ⟨before.map g, after.map g, ?_, fun entry' hmem' => ?_, fun entry' hmem' => ?_⟩
  · rw [List.map_append, List.map_append, List.map_append, List.map_append, hkept _ huntold, hkept _ huntold,
      hkept _ hprepared]
    · intro entry hmem
      simp [hmem]
    · intro entry hmem
      simp [hmem]
    · intro entry hmem
      simp [hmem]
  · obtain ⟨entry, hmem, rfl⟩ := List.mem_map.mp hmem'
    obtain ⟨-, hsame, hkept⟩ := hg entry (by simp [hmem])
    exact ⟨hkept (hbefore entry hmem), hsame ▸ hrole entry hmem⟩
  · obtain ⟨entry, hmem, rfl⟩ := List.mem_map.mp hmem'
    exact (hg entry (by simp [hmem])).2.2 (hafter entry hmem)

/-- The instructions before the close burn what was asked for. -/
theorem run_tagged {owner : Owner} {held : Table Address ShareTokenAccountBalance ShareTokenAccountBalance.address}
    {requested : Nat} {c : Consolidation} {before after : List RoleTaggedInstruction}
    (hconsolidation : buildShareAccountConsolidation owner held.rows requested = .ok c) (hpositive : 0 < requested)
    (hbefore : ∀ entry ∈ before, Tagged kvault entry ∧ entry.role ≠ .withdraw)
    (hafter : ∀ entry ∈ after, Tagged kvault entry) {tagged : List RoleTaggedInstruction}
    (htagged : tagged = before ++ (c.instructions ++
      (buildMaximumWithdrawalBalanceGuard owner requested).toList).map prepared ++ after)
    (hredeemed : redeemed tagged = requested) :
    ∃ s', run (Shares.execute kvault owner.shareAta) (Shares.start held)
        (tagged.map RoleTaggedInstruction.instruction) = some s' ∧
      s'.balance owner.shareAta + requested = c.postConsolidationAtaBaseUnits ∧
      s'.total + requested = (Shares.start held).total ∧ s'.burned = requested ∧
      (s'.accounts.find? owner.shareAta).isSome = true := by
  subst htagged
  obtain ⟨hrun, hnone⟩ := run_inert owner.shareAta (Shares.start held)
    (fun entry hmem => (hbefore entry hmem).1) fun entry hmem => (hbefore entry hmem).2
  rw [redeemed_append, redeemed_append, hnone, (prepared_spec _).2, Nat.zero_add] at hredeemed
  obtain ⟨-, hrange, -, hpost, -⟩ := buildShareAccountConsolidation_ok hconsolidation
  obtain ⟨s₁, hs₁, hata₁, htotal₁, hburned₁⟩ := run_consolidation kvault hconsolidation
  have hcovered : requested ≤ s₁.balance owner.shareAta := by
    rw [hata₁, hpost]
    exact le_max_left ..
  obtain ⟨s₂, hs₂, hata₂, htotal₂, hburned₂⟩ := run_guard kvault owner hcovered hpositive
  have hle := Shares.balance_le_total s₁ owner.shareAta
  have hcovered₂ : requested ≤ s₂.balance owner.shareAta := by omega
  obtain ⟨row, hfind⟩ := Shares.exists_of_balance (Nat.lt_of_lt_of_le hpositive hcovered₂)
  obtain ⟨s', hs', hata', htotal', hburned', hfind'⟩ := run_redemptions hafter (Option.isSome_of_eq_some hfind)
    (by omega) (by omega)
  refine ⟨s', ?_, by omega, by omega, by omega, hfind'⟩
  rw [List.map_append, List.map_append, (prepared_spec _).1, run_append, run_append, hrun, Option.bind_some,
    run_append, hs₁, Option.bind_some, hs₂, Option.bind_some, hs']

/-- The guard of the maximum goes through only where the account holds it. -/
theorem covered_of_guard {owner : Owner} {requested : Nat} {s' : Shares} (hmaximum : requested = kvaultBurnAllSharesSentinel)
    (h : run (Shares.execute kvault owner.shareAta) s (buildMaximumWithdrawalBalanceGuard owner requested).toList = some s') :
    requested ≤ s'.balance owner.shareAta := by
  rw [buildMaximumWithdrawalBalanceGuard, if_neg (not_not.mpr hmaximum)] at h
  obtain ⟨s₁, hs₁, h⟩ := Option.bind_eq_some_iff.mp h
  obtain rfl : s₁ = s' := Option.some.inj h
  have htransfer : s.transfer owner.shareAta owner.shareAta requested = some s₁ := hs₁
  obtain ⟨hrefused, -⟩ := Option.ite_none_left_eq_some.mp htransfer
  obtain ⟨hcovered, hfound⟩ := not_or.mp hrefused
  obtain ⟨row, hfind⟩ := Option.ne_none_iff_exists'.mp hfound
  obtain ⟨s₂, hs₂, hbalance, -⟩ := Shares.transfer_self hfind (Nat.not_lt.mp hcovered)
  obtain rfl : s₂ = s₁ := Option.some.inj (hs₂.symm.trans htransfer)
  rw [hbalance]
  exact Nat.not_lt.mp hcovered

/-- From any state, what the tags say is burned if all goes through. -/
theorem requested_le_burned {owner : Owner} {requested : Nat} {c : Consolidation} {before after : List RoleTaggedInstruction}
    (hbefore : ∀ entry ∈ before, Tagged kvault entry ∧ entry.role ≠ .withdraw)
    (hafter : ∀ entry ∈ after, Tagged kvault entry) (hrange : requested ≤ kvaultBurnAllSharesSentinel) {s' : Shares}
    (hredeemed : redeemed (before ++ (c.instructions ++
      (buildMaximumWithdrawalBalanceGuard owner requested).toList).map prepared ++ after) = requested)
    (h : run (Shares.execute kvault owner.shareAta) s ((before ++ (c.instructions ++
      (buildMaximumWithdrawalBalanceGuard owner requested).toList).map prepared ++ after).map
        RoleTaggedInstruction.instruction) = some s') :
    s.burned + requested ≤ s'.burned := by
  obtain ⟨hrun, hnone⟩ := run_inert owner.shareAta s
    (fun entry hmem => (hbefore entry hmem).1) fun entry hmem => (hbefore entry hmem).2
  rw [redeemed_append, redeemed_append, hnone, (prepared_spec _).2, Nat.zero_add] at hredeemed
  rw [List.map_append, List.map_append, (prepared_spec _).1, run_append, run_append, hrun, Option.bind_some,
    run_append] at h
  obtain ⟨s₂, hs₂, h⟩ := Option.bind_eq_some_iff.mp h
  obtain ⟨s₁, hs₁, hs₂⟩ := Option.bind_eq_some_iff.mp hs₂
  have hcovered : redeemed after < kvaultBurnAllSharesSentinel ∨ redeemed after ≤ s₂.balance owner.shareAta := by
    rw [hredeemed]
    rcases Nat.lt_or_eq_of_le hrange with hlt | hmaximum
    · exact .inl hlt
    · exact .inr (covered_of_guard hmaximum hs₂)
  have hburned := redeemed_le_burned hafter h hcovered
  have hfirst := run_burned_le hs₁
  have hsecond := run_burned_le hs₂
  omega

theorem mem_consolidate {owner : Owner} {accounts : List ShareTokenAccountBalance} {remaining : Nat} {i : Instruction}
    (h : i ∈ (consolidate owner accounts remaining).1) : ∃ source amount, i = owner.transfer source amount := by
  induction accounts generalizing remaining with
  | nil => cases h
  | cons account accounts ih =>
    unfold consolidate at h
    split at h
    · cases h
    · split at h
      · exact ih h
      · rcases List.mem_cons.mp h with rfl | h
        · exact ⟨_, _, rfl⟩
        · exact ih h

theorem consolidation_closes_nothing {owner : Owner}
    {held : Table Address ShareTokenAccountBalance ShareTokenAccountBalance.address} {requested : Nat}
    {c : Consolidation} (h : buildShareAccountConsolidation owner held.rows requested = .ok c) (i : Instruction)
    (hmem : i ∈ c.instructions) (account destination signer : Address) : i ≠ .closeAccount account destination signer := by
  obtain ⟨-, -, -, -, hinstructions⟩ := buildShareAccountConsolidation_ok h
  rw [hinstructions] at hmem
  split at hmem
  · cases hmem
  · rcases List.mem_cons.mp hmem with rfl | hmem
    · nofun
    · obtain ⟨source, amount, rfl⟩ := mem_consolidate hmem
      nofun

theorem tagged_closes_nothing {owner : Owner}
    {held : Table Address ShareTokenAccountBalance ShareTokenAccountBalance.address} {requested : Nat}
    {c : Consolidation} {unstake post : List (Option SdkInstruction)} {before after : List RoleTaggedInstruction}
    (hconsolidation : buildShareAccountConsolidation owner held.rows requested = .ok c)
    (hbefore : ∀ entry ∈ before, Tagged kvault entry) (hafter : ∀ entry ∈ after, Tagged kvault entry)
    (i : Instruction) (hmem : i ∈ (withRole .unstake unstake ++ (before ++ (c.instructions ++
      (buildMaximumWithdrawalBalanceGuard owner requested).toList).map prepared ++ after) ++ withRole .post post).map
        RoleTaggedInstruction.instruction) (account destination signer : Address) :
    i ≠ .closeAccount account destination signer := by
  have hsdk : ∀ entry, Tagged kvault entry → entry.instruction ≠ .closeAccount account destination signer := by
    rintro entry (⟨i, role, -, -⟩ | ⟨i, shares, -⟩) <;> nofun
  have huntold : ∀ {instructions : List (Option SdkInstruction)}, i ∈ instructions.reduceOption.map Instruction.sdk →
      i ≠ .closeAccount account destination signer := by
    intro instructions hmem
    obtain ⟨j, -, rfl⟩ := List.mem_map.mp hmem
    nofun
  rw [List.map_append, List.map_append, List.map_append, List.map_append, (prepared_spec _).1, instruction_withRole,
    instruction_withRole] at hmem
  simp only [List.mem_append, Option.mem_toList] at hmem
  rcases hmem with (hmem | (hmem | hmem | hguard) | hmem) | hmem
  · exact huntold hmem
  · obtain ⟨entry, hentry, rfl⟩ := List.mem_map.mp hmem
    exact hsdk entry (hbefore entry hentry)
  · exact consolidation_closes_nothing hconsolidation i hmem account destination signer
  · unfold buildMaximumWithdrawalBalanceGuard at hguard
    split at hguard <;> cases hguard
    nofun
  · obtain ⟨entry, hentry, rfl⟩ := List.mem_map.mp hmem
    exact hsdk entry (hafter entry hentry)
  · exact huntold hmem

/-! ## The plan -/

theorem encodeRedemptions_ok {owner : Owner} {c : Consolidation} {requested : Nat}
    {decoded tagged : List RoleTaggedInstruction} (h : encodeRedemptions owner c requested decoded = .ok tagged) :
    ∃ guarded, guardRedemptions decoded
        (c.instructions ++ (buildMaximumWithdrawalBalanceGuard owner requested).toList) = .ok guarded ∧
      resolveBurnAllSentinel guarded requested (buildMaximumWithdrawalBalanceGuard owner requested).isSome =
        .ok tagged ∧ redeemed tagged = requested := by
  unfold encodeRedemptions at h
  obtain ⟨guarded, hguarded, h⟩ := bind_eq_ok.mp h
  obtain ⟨tagged', htagged, h⟩ := bind_eq_ok.mp h
  dsimp only at h
  split at h
  · cases h
  · next hencoded =>
    cases h
    exact ⟨guarded, hguarded, htagged, not_not.mp hencoded⟩

theorem assertPlanTargetsCluster_ok {plan plan' : KaminoInstructionPlan}
    (h : assertPlanTargetsCluster plan = .ok plan') : plan = plan' := by
  unfold assertPlanTargetsCluster at h
  split at h <;> cases h
  rfl

theorem buildKaminoWithdrawPlan_ok {cluster : SolanaCluster} {input : KaminoWithdrawInput} {reads : VaultReads}
    {plan : KaminoInstructionPlan} (h : buildKaminoWithdrawPlan cluster input reads = .ok plan) :
    ∃ decimals requested c tagged refundTo, mintDecimals reads.sharesMintDecimals "sharesMintDecimals" = .ok decimals ∧
      acceptShares input.shares decimals = .ok (plan.acceptedShares, requested) ∧
      let owner : Owner := ⟨input.owner, input.rentPayer, reads.assetIdentity.shareMint, decimals, reads.shareAta⟩
      buildShareAccountConsolidation owner reads.shareAccounts requested = .ok c ∧
      encodeRedemptions owner c requested (decodeBundle reads.bundle (kaminoClusterConfig cluster).kvaultProgramId) =
        .ok tagged ∧
      plan.instructions = tagged.map RoleTaggedInstruction.instruction ++
        (buildShareAccountCloseInstruction owner refundTo c.postConsolidationAtaBaseUnits requested
          c.totalBaseUnits).toList := by
  unfold buildKaminoWithdrawPlan at h
  obtain ⟨decimals, hdecimals, h⟩ := bind_eq_ok.mp h
  obtain ⟨⟨acceptedShares, requested⟩, haccepted, h⟩ := bind_eq_ok.mp h
  obtain ⟨c, hc, h⟩ := bind_eq_ok.mp h
  obtain ⟨-, -, h⟩ := bind_eq_ok.mp h
  obtain ⟨tagged, htagged, h⟩ := bind_eq_ok.mp h
  obtain rfl := assertPlanTargetsCluster_ok h
  exact ⟨decimals, requested, c, tagged, _, hdecimals, haccepted, hc, htagged, rfl⟩

theorem close_is_last {body before after : List Instruction} {close : Option Instruction}
    {account destination owner : Address} (hbody : ∀ i ∈ body, i ≠ .closeAccount account destination owner)
    (h : body ++ close.toList = before ++ .closeAccount account destination owner :: after) :
    before = body ∧ close = some (.closeAccount account destination owner) ∧ after = [] := by
  rcases List.append_eq_append_iff.mp h with ⟨rest, hbefore, hrest⟩ | ⟨rest, hmem, hrest⟩
  · cases close with
    | none => simp at hrest
    | some i =>
      cases rest with
      | nil =>
        simp only [Option.toList_some, List.nil_append, List.cons.injEq, List.nil_eq] at hrest
        exact ⟨by simpa using hbefore, congrArg some hrest.1, hrest.2⟩
      | cons j rest => simp at hrest
  · cases rest with
    | nil =>
      cases close with
      | none => simp at hrest
      | some i =>
        simp only [Option.toList_some, List.nil_append, List.cons.injEq] at hrest
        exact ⟨by simpa using hmem.symm, congrArg some hrest.1.symm, hrest.2⟩
    | cons j rest =>
      simp only [List.cons_append, List.cons.injEq] at hrest
      exact absurd hrest.1.symm (hbody j (by simp [hmem]))

/-- The instructions go through, burn what was asked for, and close only the associated account, when nothing is left. -/
def Burns (kvault ata : Address) (held : Table Address ShareTokenAccountBalance ShareTokenAccountBalance.address)
    (requested : Nat) (instructions : List Instruction) : Prop :=
  ∃ s, run (Shares.execute kvault ata) (Shares.start held) instructions = some s ∧ s.burned = requested ∧
    s.total + requested = (Shares.start held).total ∧
    ∀ before account destination owner after, instructions = before ++ .closeAccount account destination owner :: after →
      ∃ s', run (Shares.execute kvault ata) (Shares.start held) before = some s' ∧ account = ata ∧
        s'.balance account = 0 ∧ s'.total = 0

/-- A plan that is built burns what was asked for exactly if what the SDK redeems outside the list for it burns nothing:
before the redemptions of what the associated account holds, and after them of what is left there. -/
theorem withdraw_plan_burns_request_iff {cluster : SolanaCluster} {input : KaminoWithdrawInput} {reads : VaultReads}
    {held : Table Address ShareTokenAccountBalance ShareTokenAccountBalance.address} {plan : KaminoInstructionPlan}
    (hread : reads.shareAccounts = held.rows) (hplan : buildKaminoWithdrawPlan cluster input reads = .ok plan) :
    let kvault := (kaminoClusterConfig cluster).kvaultProgramId
    let balance := (Shares.start held).balance reads.shareAta
    ∃ decimals requested, mintDecimals reads.sharesMintDecimals "sharesMintDecimals" = .ok decimals ∧
      acceptShares input.shares decimals = .ok (plan.acceptedShares, requested) ∧
      (Burns kvault reads.shareAta held requested plan.instructions ↔
        (∀ i ∈ reads.bundle.unstakeFromFarmIfNeededIxs.reduceOption, BurnsNothing kvault balance i) ∧
          ∀ i ∈ reads.bundle.postWithdrawIxs.reduceOption, BurnsNothing kvault (balance - requested) i) := by
  intro kvault balance
  obtain ⟨decimals, requested, c, tagged, refundTo, hdecimals, haccepted, hc, hencoded, hinstructions⟩ :=
    buildKaminoWithdrawPlan_ok hplan
  obtain ⟨-, hpositive⟩ := acceptShares_ok haccepted
  obtain ⟨guarded, hguarded, hresolved, hredeemed⟩ := encodeRedemptions_ok hencoded
  have hentries : ∀ entry ∈ reads.bundle.withdrawIxs.reduceOption.map (tagWithdraw kvault), Tagged kvault entry := by
    intro entry hmem
    obtain ⟨i, -, rfl⟩ := List.mem_map.mp hmem
    exact tagged_tagWithdraw i
  obtain ⟨before, after, htagged, hbefore, hafter⟩ := resolved_shape hentries hguarded hresolved
  rw [hread] at hc
  obtain ⟨htotalUnits, htotalRange, hrequested, hpostUnits, -⟩ := buildShareAccountConsolidation_ok hc
  rw [htagged, redeemed_append, redeemed_append, redeemed_withRole, redeemed_withRole, Nat.zero_add, Nat.add_zero]
    at hredeemed
  obtain ⟨s, hs, hata, htotal, hburned, hfind⟩ := run_tagged hc hpositive hbefore hafter rfl hredeemed
  have hbody : ∀ i ∈ tagged.map RoleTaggedInstruction.instruction, ∀ account destination signer,
      i ≠ .closeAccount account destination signer := by
    rw [htagged]
    exact tagged_closes_nothing hc (fun entry hmem => (hbefore entry hmem).1) hafter
  have hleft : s.balance reads.shareAta = balance - requested := by
    simp only at hata hpostUnits
    omega
  refine ⟨decimals, requested, hdecimals, haccepted, ?_, ?_⟩
  · rintro ⟨last, hlast, hall, -, -⟩
    rw [hinstructions, htagged, List.map_append, List.map_append, instruction_withRole, instruction_withRole, run_append,
      run_append, run_append] at hlast
    obtain ⟨third, hthird, hlast⟩ := Option.bind_eq_some_iff.mp hlast
    obtain ⟨second, hsecond, hthird⟩ := Option.bind_eq_some_iff.mp hthird
    obtain ⟨first, hfirst, hsecond⟩ := Option.bind_eq_some_iff.mp hsecond
    have hmiddle := requested_le_burned hbefore hafter (hrequested.trans htotalRange) hredeemed hsecond
    have hlater := run_burned_le hthird
    have hclosed := run_burned_le hlast
    have hnone : (Shares.start held).burned = 0 := rfl
    obtain ⟨hunstake, rfl⟩ := burnsNothing_of_run hfirst (by omega)
    obtain rfl : s = second := Option.some.inj (hs.symm.trans hsecond)
    obtain ⟨hpost, -⟩ := burnsNothing_of_run hthird (by omega)
    rw [hleft] at hpost
    exact ⟨hunstake, hpost⟩
  · rintro ⟨hunstake, hpost⟩
    rw [← hleft] at hpost
    have hrun : run (Shares.execute kvault reads.shareAta) (Shares.start held)
        (tagged.map RoleTaggedInstruction.instruction) = some s := by
      rw [htagged, List.map_append, List.map_append, instruction_withRole, instruction_withRole, run_append, run_append,
        run_untold _ hunstake, Option.bind_some]
      exact Option.bind_eq_some_iff.mpr ⟨s, hs, run_untold _ hpost⟩
    rw [hinstructions]
    refine ⟨s, ?_, hburned, htotal, ?_⟩
    · -- a close goes through, as nothing is left
      refine (run_append ..).trans ?_
      rw [hrun, Option.bind_some]
      unfold buildShareAccountCloseInstruction
      split
      · rfl
      · next hexact =>
        split
        · rfl
        · obtain ⟨row, hrow⟩ := Option.isSome_iff_exists.mp hfind
          have hbalance := Shares.balance_of_find? hrow
          have hempty : row.amount = 0 := by
            simp only at hata hrow hbalance
            omega
          simp [run, Shares.execute, hrow, hempty]
    · intro before' account destination signer after' heq
      obtain ⟨rfl, hclose, -⟩ := close_is_last (fun i hmem => hbody i hmem account destination signer) heq
      unfold buildShareAccountCloseInstruction at hclose
      split at hclose
      · cases hclose
      · next hexact =>
        split at hclose
        · cases hclose
        · next hall =>
          cases hclose
          refine ⟨s, hrun, rfl, ?_, ?_⟩
          · simp only at hata ⊢
            omega
          · omega

/-- A redemption of the SDK. -/
def redemption (shares : Nat) : SdkInstruction :=
  ⟨(kaminoClusterConfig .mainnetBeta).kvaultProgramId, none, some ([183, 18, 70, 156, 148, 109, 161, 34] ++ toBytes 8 shares)⟩

def fiveShares : KaminoWithdrawInput := ⟨"vault", "owner", none, "5", none⟩

/-- Reads with the answer of the SDK for five shares, and what it appends. -/
def someReads (accounts : List ShareTokenAccountBalance) (post : List (Option SdkInstruction)) : VaultReads :=
  ⟨⟨"deposit", "shares"⟩, "0", "ata", accounts, true, none, true, ⟨[], [some (redemption 5)], post⟩, []⟩

def somePlan (instructions : List Instruction) : KaminoInstructionPlan :=
  ⟨.mainnetBeta, instructions, [], ⟨"deposit", "shares"⟩, "5", false⟩

def exitInstructions : List Instruction :=
  [.createAssociatedTokenIdempotent "owner" "ata" "owner" "shares",
    .transferChecked "auxiliary" "shares" "ata" "owner" 2 0, .sdk (redemption 5), .closeAccount "ata" "owner" "owner"]

def lastShares : Table Address ShareTokenAccountBalance ShareTokenAccountBalance.address :=
  ⟨[⟨"ata", 3⟩, ⟨"auxiliary", 2⟩], by decide⟩

/-- The last five shares, of two accounts. -/
theorem last_five_shares_are_burned :
    buildKaminoWithdrawPlan .mainnetBeta fiveShares (someReads lastShares.rows []) =
      .ok (somePlan exitInstructions) ∧
    Burns (kaminoClusterConfig .mainnetBeta).kvaultProgramId "ata" lastShares 5 exitInstructions := by
  have hplan : buildKaminoWithdrawPlan .mainnetBeta fiveShares (someReads lastShares.rows []) =
      .ok (somePlan exitInstructions) := rfl
  have hread : (someReads lastShares.rows []).shareAccounts = lastShares.rows := rfl
  obtain ⟨decimals, requested, hdecimals, haccepted, hiff⟩ := withdraw_plan_burns_request_iff hread hplan
  obtain rfl : 0 = decimals := Except.ok.inj hdecimals
  have hfive : acceptShares "5" 0 = .ok ("5", 5) := rfl
  have hrequested := Except.ok.inj (hfive.symm.trans haccepted)
  cases hrequested
  have hnone : ∀ balance, ∀ i ∈ ([] : List SdkInstruction),
      BurnsNothing (kaminoClusterConfig .mainnetBeta).kvaultProgramId balance i := by
    intro balance i hi
    cases hi
  exact ⟨hplan, hiff.mpr ⟨hnone _, hnone _⟩⟩

/-- A redemption that the SDK appends is not counted: five shares are asked for and eight are burned. -/
theorem appended_redemption_is_not_counted : ∃ plan,
    buildKaminoWithdrawPlan .mainnetBeta fiveShares (someReads [⟨"ata", 10⟩] [some (redemption 3)]) = .ok plan ∧
      acceptShares fiveShares.shares 0 = .ok (plan.acceptedShares, 5) ∧
      (run (Shares.execute (kaminoClusterConfig .mainnetBeta).kvaultProgramId "ata")
        (Shares.start ⟨[⟨"ata", 10⟩], by decide⟩) plan.instructions).map Shares.burned = some 8 :=
  ⟨somePlan [.sdk (redemption 5), .sdk (redemption 3)], rfl, rfl, rfl⟩

end Sdp.Kamino
