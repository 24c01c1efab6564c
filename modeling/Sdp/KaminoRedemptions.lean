import Sdp.KaminoShares
import Sdp.Lib.Checks

/-!
# What redemptions burn

An entry with a true tag burns what the tag says while the account covers it. What the SDK redeems without a tag must
burn nothing, and then changes nothing. Resolving the sentinel keeps the tags true.
-/

open Sdp.Lib

namespace Sdp.Kamino

variable {kvault ata : Address} {s : Shares}

/-- An entry whose tag is true: a redemption has its role and its amount, anything else no amount. -/
inductive Tagged (kvault : Address) : RoleTaggedInstruction → Prop
  | inert (i : SdkInstruction) (role : WithdrawInstructionRole) (hrole : role ≠ .withdraw)
      (hdecode : decodeKvaultWithdrawShares i kvault = none) : Tagged kvault ⟨.sdk i, role, none⟩
  | redeeming (i : SdkInstruction) (shares : Nat) (hdecode : decodeKvaultWithdrawShares i kvault = some shares) :
      Tagged kvault ⟨.sdk i, .withdraw, some shares⟩

/-- What entries redeem. -/
def redeemed (entries : List RoleTaggedInstruction) : Nat :=
  (entries.map fun entry => entry.sharesBaseUnits.getD 0).sum

@[simp] theorem redeemed_cons (entry : RoleTaggedInstruction) (entries : List RoleTaggedInstruction) :
    redeemed (entry :: entries) = entry.sharesBaseUnits.getD 0 + redeemed entries := rfl

theorem redeemed_append (entries entries' : List RoleTaggedInstruction) :
    redeemed (entries ++ entries') = redeemed entries + redeemed entries' := by
  simp [redeemed]

theorem burn_spec {row : ShareTokenAccountBalance} (hfind : s.accounts.find? ata = some row) (shares : Nat)
    (hshares : shares ≤ s.balance ata) (hrange : s.balance ata ≤ kvaultBurnAllSharesSentinel) :
    ∃ s', s.burn ata shares = some s' ∧ s'.balance ata + shares = s.balance ata ∧ s'.total + shares = s.total ∧
      s'.burned = s.burned + shares ∧ (s'.accounts.find? ata).isSome = true := by
  have hamount : (if shares = kvaultBurnAllSharesSentinel then s.balance ata else shares) = shares := by
    split <;> omega
  have htotal := Shares.total_setAmount hfind (s.balance ata - shares)
  refine ⟨{ s.setAmount ata (s.balance ata - shares) with burned := s.burned + shares }, ?_, ?_, ?_, rfl, ?_⟩
  · rw [Shares.burn, hamount]
    exact if_neg (Nat.not_lt.mpr hshares)
  · have hself := Shares.balance_setAmount_self hfind (s.balance ata - shares)
    simp only [Shares.balance] at hself hshares ⊢
    omega
  · simp only [Shares.total] at htotal ⊢
    omega
  · have hsome := Shares.isSome_setAmount (s := s) ata (s.balance ata - shares) ata
    rw [hfind] at hsome
    exact hsome

theorem run_redemptions {entries : List RoleTaggedInstruction} (htagged : ∀ entry ∈ entries, Tagged kvault entry)
    (hata : (s.accounts.find? ata).isSome = true) (hcovered : redeemed entries ≤ s.balance ata)
    (hrange : s.balance ata ≤ kvaultBurnAllSharesSentinel) :
    ∃ s', run (Shares.execute kvault ata) s (entries.map RoleTaggedInstruction.instruction) = some s' ∧
      s'.balance ata + redeemed entries = s.balance ata ∧ s'.total + redeemed entries = s.total ∧
      s'.burned = s.burned + redeemed entries ∧ (s'.accounts.find? ata).isSome = true := by
  induction entries generalizing s with
  | nil => exact ⟨s, rfl, rfl, rfl, rfl, hata⟩
  | cons entry entries ih =>
    have hrest := fun entry hmem => htagged entry (List.mem_cons_of_mem _ hmem)
    rw [redeemed_cons] at hcovered ⊢
    cases htagged entry List.mem_cons_self with
    | inert i role hrole hdecode =>
      simp only [Option.getD_none, Nat.zero_add] at hcovered ⊢
      obtain ⟨s', hs', hspec⟩ := ih hrest hata hcovered hrange
      refine ⟨s', ?_, hspec⟩
      simpa only [List.map_cons, run, Shares.execute, hdecode, Option.bind_some] using hs'
    | redeeming i shares hdecode =>
      simp only [Option.getD_some] at hcovered ⊢
      obtain ⟨row, hfind⟩ := Option.isSome_iff_exists.mp hata
      obtain ⟨s₁, hs₁, hbalance, htotal, hburned, hata₁⟩ := burn_spec hfind shares (by omega) hrange
      obtain ⟨s', hs', hbalance', htotal', hburned', hata'⟩ := ih hrest hata₁ (by omega) (by omega)
      refine ⟨s', ?_, by omega, by omega, by omega, hata'⟩
      simpa only [List.map_cons, run, Shares.execute, hdecode, hs₁, Option.bind_some] using hs'

theorem run_inert (ata : Address) (s : Shares) {entries : List RoleTaggedInstruction}
    (htagged : ∀ entry ∈ entries, Tagged kvault entry)
    (hrole : ∀ entry ∈ entries, entry.role ≠ .withdraw) :
    run (Shares.execute kvault ata) s (entries.map RoleTaggedInstruction.instruction) = some s ∧ redeemed entries = 0 := by
  induction entries with
  | nil => exact ⟨rfl, rfl⟩
  | cons entry entries ih =>
    obtain ⟨hrun, hnone⟩ := ih (fun entry hmem => htagged entry (List.mem_cons_of_mem _ hmem))
      fun entry hmem => hrole entry (List.mem_cons_of_mem _ hmem)
    cases htagged entry List.mem_cons_self with
    | inert i role _ hdecode =>
      refine ⟨?_, by rw [redeemed_cons, hnone]; rfl⟩
      simpa only [List.map_cons, run, Shares.execute, hdecode, Option.bind_some] using hrun
    | redeeming i shares hdecode => exact absurd rfl (hrole _ List.mem_cons_self)

/-! ## Redemptions that are not counted -/

theorem setAmount_balance (s : Shares) (address : Address) : s.setAmount address (s.balance address) = s := by
  have haccounts : s.accounts.update address (fun _ => true) (fun row => { row with amount := s.balance address })
      (fun _ => rfl) = s.accounts := by
    refine Table.update_of_same _ fun row hfind _ => ?_
    rw [Shares.balance_of_find? hfind]
  rw [Shares.setAmount, haccounts]

theorem burn_eq_some {shares : Nat} {s' : Shares} (h : s.burn ata shares = some s') :
    ∃ amount, amount = (if shares = kvaultBurnAllSharesSentinel then s.balance ata else shares) ∧
      amount ≤ s.balance ata ∧ s' = { s.setAmount ata (s.balance ata - amount) with burned := s.burned + amount } := by
  obtain ⟨hcovered, h⟩ := Option.ite_none_left_eq_some.mp h
  exact ⟨_, rfl, Nat.not_lt.mp hcovered, (Option.some.inj h).symm⟩

theorem execute_burned_le {i : Instruction} {s' : Shares} (h : s.execute kvault ata i = some s') :
    s.burned ≤ s'.burned := by
  cases i with
  | createAssociatedTokenIdempotent payer account owner mint =>
    cases h
    exact le_rfl
  | transferChecked source mint destination owner amount decimals =>
    simp only [Shares.execute, Shares.transfer] at h
    split at h <;> cases h
    exact le_rfl
  | closeAccount account destination owner =>
    simp only [Shares.execute] at h
    split at h <;> cases h
    exact le_rfl
  | sdk i =>
    simp only [Shares.execute] at h
    split at h
    · cases h
      exact le_rfl
    · obtain ⟨amount, -, -, rfl⟩ := burn_eq_some h
      exact Nat.le_add_right _ _

theorem run_burned_le {instructions : List Instruction} {s' : Shares}
    (h : run (Shares.execute kvault ata) s instructions = some s') : s.burned ≤ s'.burned := by
  induction instructions generalizing s with
  | nil => exact (congrArg Shares.burned (Option.some.inj h)).le
  | cons i instructions ih =>
    obtain ⟨s₁, hs₁, h⟩ := Option.bind_eq_some_iff.mp h
    exact (execute_burned_le hs₁).trans (ih h)

/-- A redemption that burns nothing of so many shares: of none, or of all while there are none. -/
def BurnsNothing (kvault : Address) (balance : Nat) (i : SdkInstruction) : Prop :=
  ∀ shares, decodeKvaultWithdrawShares i kvault = some shares →
    shares = 0 ∨ shares = kvaultBurnAllSharesSentinel ∧ balance = 0

theorem BurnsNothing.execute {i : SdkInstruction} (h : BurnsNothing kvault (s.balance ata) i) :
    s.execute kvault ata (.sdk i) = some s := by
  simp only [Shares.execute]
  cases hdecode : decodeKvaultWithdrawShares i kvault with
  | none => rfl
  | some shares =>
    have hamount : (if shares = kvaultBurnAllSharesSentinel then s.balance ata else shares) = 0 := by
      obtain rfl | ⟨rfl, hnone⟩ := h shares hdecode
      · exact if_neg (by decide)
      · rw [if_pos rfl, hnone]
    simp only [Shares.burn, hamount, Nat.not_lt_zero, if_false, Nat.sub_zero, Nat.add_zero, setAmount_balance]

theorem burnsNothing_of_execute {i : SdkInstruction} {s' : Shares} (h : s.execute kvault ata (.sdk i) = some s')
    (hburned : s'.burned ≤ s.burned) : BurnsNothing kvault (s.balance ata) i := by
  intro shares hdecode
  simp only [Shares.execute, hdecode] at h
  obtain ⟨amount, hamount, -, rfl⟩ := burn_eq_some h
  have hzero : amount = 0 := by
    simp only at hburned
    omega
  rw [hzero] at hamount
  split at hamount
  · next hall => exact .inr ⟨hall, hamount.symm⟩
  · exact .inl hamount.symm

theorem run_untold (instructions : List SdkInstruction)
    (h : ∀ i ∈ instructions, BurnsNothing kvault (s.balance ata) i) :
    run (Shares.execute kvault ata) s (instructions.map .sdk) = some s := by
  induction instructions with
  | nil => rfl
  | cons i instructions ih =>
    rw [List.map_cons, run, (h i List.mem_cons_self).execute, Option.bind_some]
    exact ih fun i hi => h i (List.mem_cons_of_mem _ hi)

/-- A run of the SDK's instructions that burns nothing changes nothing. -/
theorem burnsNothing_of_run {instructions : List SdkInstruction} {s' : Shares}
    (h : run (Shares.execute kvault ata) s (instructions.map .sdk) = some s') (hburned : s'.burned ≤ s.burned) :
    (∀ i ∈ instructions, BurnsNothing kvault (s.balance ata) i) ∧ s' = s := by
  induction instructions with
  | nil => exact ⟨by simp, (Option.some.inj h).symm⟩
  | cons i instructions ih =>
    obtain ⟨s₁, hs₁, hrest⟩ := Option.bind_eq_some_iff.mp h
    have hfirst := burnsNothing_of_execute hs₁ ((run_burned_le hrest).trans hburned)
    obtain rfl : s = s₁ := Option.some.inj (hfirst.execute.symm.trans hs₁)
    obtain ⟨hothers, hsame⟩ := ih hrest
    exact ⟨List.forall_mem_cons.mpr ⟨hfirst, hothers⟩, hsame⟩

/-- What goes through burns all that its tags say, unless the sentinel finds less. -/
theorem redeemed_le_burned {entries : List RoleTaggedInstruction} (htagged : ∀ entry ∈ entries, Tagged kvault entry)
    {s' : Shares} (h : run (Shares.execute kvault ata) s (entries.map RoleTaggedInstruction.instruction) = some s')
    (hcovered : redeemed entries < kvaultBurnAllSharesSentinel ∨ redeemed entries ≤ s.balance ata) :
    s.burned + redeemed entries ≤ s'.burned := by
  induction entries generalizing s with
  | nil => exact (congrArg Shares.burned (Option.some.inj h)).le
  | cons entry entries ih =>
    have hrest := fun entry hmem => htagged entry (List.mem_cons_of_mem _ hmem)
    obtain ⟨s₁, hs₁, h⟩ := Option.bind_eq_some_iff.mp h
    rw [redeemed_cons] at hcovered ⊢
    cases htagged entry List.mem_cons_self with
    | inert i role hrole hdecode =>
      simp only [Shares.execute, hdecode, Option.some.injEq] at hs₁
      subst hs₁
      simp only [Option.getD_none, Nat.zero_add] at hcovered ⊢
      exact ih hrest h hcovered
    | redeeming i shares hdecode =>
      simp only [Shares.execute, hdecode] at hs₁
      simp only [Option.getD_some] at hcovered ⊢
      obtain ⟨amount, hamount, hle, rfl⟩ := burn_eq_some hs₁
      split at hamount
      · next hall =>
        -- The sentinel takes all there is, and that covers the rest too.
        have hburned := run_burned_le h
        simp only at hburned
        omega
      · have hbalance : (s.setAmount ata (s.balance ata - amount)).balance ata = s.balance ata - amount := by
          rcases Nat.eq_zero_or_pos (s.balance ata) with hzero | hpos
          · have hsame : s.balance ata - amount = s.balance ata := by omega
            rw [hsame, setAmount_balance]
          · obtain ⟨row, hfind⟩ := Shares.exists_of_balance hpos
            exact Shares.balance_setAmount_self hfind _
        have hburned := ih hrest h (hcovered.imp (fun hlt => by omega) fun hle' => by
          change _ ≤ (s.setAmount ata (s.balance ata - amount)).balance ata
          rw [hbalance]
          omega)
        simp only at hburned
        omega

/-! ## The sentinel -/

theorem length_of_discriminator {discriminator : List UInt8} (h : discriminator ∈ kvaultShareRedeemingDiscriminators) :
    discriminator.length = 8 := by
  simp only [kvaultShareRedeemingDiscriminators, List.mem_cons, List.not_mem_nil, or_false] at h
  rcases h with rfl | rfl <;> rfl

theorem redeems_take {data : List UInt8} (rest : List UInt8)
    (h : (kvaultShareRedeemingDiscriminators.any fun discriminator => discriminator.isPrefixOf data) = true) :
    (kvaultShareRedeemingDiscriminators.any fun discriminator => discriminator.isPrefixOf (data.take 8 ++ rest)) =
      true := by
  obtain ⟨discriminator, hmem, hprefix⟩ := List.any_eq_true.mp h
  have htake := List.prefix_iff_eq_take.mp (List.isPrefixOf_iff_prefix.mp hprefix)
  rw [length_of_discriminator hmem] at htake
  refine List.any_eq_true.mpr ⟨discriminator, hmem, List.isPrefixOf_iff_prefix.mpr ?_⟩
  rw [← htake]
  exact List.prefix_append ..

/-- The instruction with another amount in its bytes. -/
def SdkInstruction.withShares (i : SdkInstruction) (shares : Nat) : SdkInstruction :=
  { i with data := i.data.map fun data => data.take 8 ++ toBytes 8 shares ++ data.drop 16 }

theorem rewriteKvaultWithdrawShares_ok {i : SdkInstruction} {shares remainder : Nat}
    (hdecode : decodeKvaultWithdrawShares i kvault = some shares) (hrange : remainder ≤ kvaultBurnAllSharesSentinel) :
    rewriteKvaultWithdrawShares (.sdk i) remainder = .ok (.sdk (i.withShares remainder)) ∧
      decodeKvaultWithdrawShares (i.withShares remainder) kvault = some remainder := by
  obtain ⟨programAddress, accounts, data⟩ := i
  cases data with
  | none => simp [decodeKvaultWithdrawShares] at hdecode
  | some data =>
    simp only [decodeKvaultWithdrawShares] at hdecode
    split at hdecode
    · cases hdecode
    · next hprogram =>
      split at hdecode
      · cases hdecode
      · next hlength =>
        split at hdecode
        · next hdiscriminator =>
          have htake : (data.take 8).length = 8 := by
            rw [List.length_take]
            omega
          have hlong : ¬ (data.take 8 ++ (toBytes 8 remainder ++ data.drop 16)).length < 16 := by
            simp only [List.length_append, htake, length_toBytes]
            omega
          have hbytes : ((data.take 8 ++ (toBytes 8 remainder ++ data.drop 16)).drop 8).take 8 =
              toBytes 8 remainder := by
            rw [List.drop_left' htake, List.take_left' (length_toBytes 8 remainder)]
          constructor
          · simp only [rewriteKvaultWithdrawShares, if_neg hlength, SdkInstruction.withShares, Option.map_some]
          · simp only [SdkInstruction.withShares, Option.map_some, List.append_assoc, decodeKvaultWithdrawShares,
              if_neg hprogram, if_neg hlong, redeems_take _ hdiscriminator, if_true, hbytes]
            rw [ofBytes_toBytes]
            have hmax : kvaultBurnAllSharesSentinel < 256 ^ 8 := by decide
            omega
        · cases hdecode

theorem isSentinel_iff {entry : RoleTaggedInstruction} :
    entry.isSentinel = true ↔ entry.sharesBaseUnits = some kvaultBurnAllSharesSentinel := decide_eq_true_iff

theorem resolveEntry_ok {entry : RoleTaggedInstruction} {remainder : Nat}
    (hrange : remainder ≤ kvaultBurnAllSharesSentinel) (htagged : entry.isSentinel = true → Tagged kvault entry) :
    ∃ entry', resolveEntry remainder entry = .ok entry' ∧ (entry.isSentinel = false → entry' = entry) ∧
      entry'.role = entry.role ∧ (Tagged kvault entry → Tagged kvault entry') := by
  unfold resolveEntry
  cases hsentinel : entry.isSentinel with
  | false => exact ⟨entry, rfl, fun _ => rfl, rfl, fun h => h⟩
  | true =>
    have hshares := isSentinel_iff.mp hsentinel
    cases htagged hsentinel with
    | inert => cases hshares
    | redeeming i shares hdecode =>
      obtain ⟨hrewrite, hdecode'⟩ := rewriteKvaultWithdrawShares_ok hdecode hrange
      simp only [if_true, hrewrite]
      exact ⟨_, rfl, nofun, rfl, fun _ => .redeeming _ remainder hdecode'⟩

theorem resolveBurnAllSentinel_ok {entries tagged : List RoleTaggedInstruction} {requested : Nat} {guarded : Bool}
    (hsentinel : ∀ entry ∈ entries, entry.isSentinel = true → Tagged kvault entry)
    (h : resolveBurnAllSentinel entries requested guarded = .ok tagged) :
    ∃ g : RoleTaggedInstruction → RoleTaggedInstruction, tagged = entries.map g ∧ ∀ entry ∈ entries,
      (entry.isSentinel = false → g entry = entry) ∧ (g entry).role = entry.role ∧
        (Tagged kvault entry → Tagged kvault (g entry)) := by
  unfold resolveBurnAllSentinel at h
  simp only at h
  split at h
  · cases h
    exact ⟨id, (List.map_id _).symm, fun entry _ => ⟨fun _ => rfl, rfl, fun h => h⟩⟩
  · split at h
    · cases h
    · split at h
      · cases h
      · split at h
        · cases h
        · next hremainder =>
          split at h
          · cases h
          · obtain ⟨-, hle⟩ := not_or.mp hremainder
            have hrange := Int.toNat_le.mpr (Int.not_lt.mp hle)
            choose! g hg using fun entry hmem => resolveEntry_ok hrange (hsentinel entry hmem)
            rw [mapM_eq_ok fun entry hmem => (hg entry hmem).1] at h
            cases h
            exact ⟨g, rfl, fun entry hmem => (hg entry hmem).2⟩

end Sdp.Kamino
