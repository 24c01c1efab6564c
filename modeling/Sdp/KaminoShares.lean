import Sdp.Code.KaminoWithdraw
import Sdp.Lib.Run
import Mathlib.Tactic.Set

/-!
# Consolidating share accounts

What a transfer and a redemption do to the balances of an owner, and that a consolidation draws exactly what the
associated account is short of.
-/

open Sdp.Lib

namespace Sdp.Kamino

/-! ## Balances -/

namespace Shares

variable {s s' : Shares} {address other ata : Address} {row : ShareTokenAccountBalance} {amount : Nat}

theorem balance_of_find? (h : s.accounts.find? address = some row) : s.balance address = row.amount := by
  rw [balance, h, Option.elim_some]

theorem find?_setAmount (address : Address) (amount : Nat) (other : Address) :
    (s.setAmount address amount).accounts.find? other =
      if other = address then (s.accounts.find? address).map fun row => { row with amount }
      else s.accounts.find? other := by
  simp only [setAmount, Table.find?_update, if_true]

theorem balance_setAmount_of_ne (h : other ≠ address) (amount : Nat) :
    (s.setAmount address amount).balance other = s.balance other := by
  rw [balance, find?_setAmount, if_neg h, balance]

theorem balance_setAmount_self (h : s.accounts.find? address = some row) (amount : Nat) :
    (s.setAmount address amount).balance address = amount := by
  rw [balance, find?_setAmount, if_pos rfl, h, Option.map_some, Option.elim_some]

theorem isSome_setAmount (address : Address) (amount : Nat) (other : Address) :
    ((s.setAmount address amount).accounts.find? other).isSome = (s.accounts.find? other).isSome := by
  rw [find?_setAmount]
  split
  · next h => rw [h, Option.isSome_map]
  · rfl

theorem total_setAmount (h : s.accounts.find? address = some row) (amount : Nat) :
    (s.setAmount address amount).total + s.balance address = s.total + amount := by
  rw [balance_of_find? h]
  exact Table.sum_set h (fun row => { row with amount }) (fun _ => rfl) ShareTokenAccountBalance.amount

theorem exists_of_balance (h : 0 < s.balance address) : ∃ row, s.accounts.find? address = some row := by
  refine Option.ne_none_iff_exists'.mp fun hnone => ?_
  rw [balance, hnone, Option.elim_none] at h
  omega

theorem balance_le_total (s : Shares) (address : Address) : s.balance address ≤ s.total := by
  cases hfind : s.accounts.find? address with
  | none =>
    rw [balance, hfind, Option.elim_none]
    exact Nat.zero_le _
  | some row =>
    have hset := total_setAmount hfind 0
    omega

theorem transfer_eq {source destination : Address} (hamount : amount ≤ s.balance source)
    (hdestination : s.accounts.find? destination = some row) :
    s.transfer source destination amount =
      let taken := s.setAmount source (s.balance source - amount)
      some (taken.setAmount destination (taken.balance destination + amount)) := by
  rw [transfer, if_neg]
  rw [hdestination]
  simpa using hamount

/-- What a transfer between two accounts does. -/
structure Moved (s s' : Shares) (source destination : Address) (amount : Nat) : Prop where
  taken : s'.balance source + amount = s.balance source
  given : s'.balance destination = s.balance destination + amount
  others : ∀ other, other ≠ source → other ≠ destination → s'.balance other = s.balance other
  accounts : ∀ other, (s'.accounts.find? other).isSome = (s.accounts.find? other).isSome
  total : s'.total = s.total
  burned : s'.burned = s.burned

theorem transfer_moved {source destination : Address} (hne : source ≠ destination) (hpositive : 0 < amount)
    (hamount : amount ≤ s.balance source) (hdestination : (s.accounts.find? destination).isSome = true) :
    ∃ s', s.transfer source destination amount = some s' ∧ Moved s s' source destination amount := by
  obtain ⟨sourceRow, hsource⟩ := exists_of_balance (Nat.lt_of_lt_of_le hpositive hamount)
  obtain ⟨row, hrow⟩ := Option.isSome_iff_exists.mp hdestination
  have hrow' : (s.setAmount source (s.balance source - amount)).accounts.find? destination = some row := by
    rw [find?_setAmount, if_neg hne.symm, hrow]
  have hbalance := balance_setAmount_of_ne (s := s) hne.symm (s.balance source - amount)
  refine ⟨_, transfer_eq hamount hrow, ?_, ?_, fun other hother hother' => ?_, fun other => ?_, ?_, rfl⟩
  · rw [balance_setAmount_of_ne hne, balance_setAmount_self hsource]
    omega
  · rw [balance_setAmount_self hrow', hbalance]
  · rw [balance_setAmount_of_ne hother', balance_setAmount_of_ne hother]
  · rw [isSome_setAmount, isSome_setAmount]
  · have htaken := total_setAmount hsource (s.balance source - amount)
    have hgiven := total_setAmount hrow' ((s.setAmount source (s.balance source - amount)).balance destination + amount)
    omega

theorem transfer_self (hfind : s.accounts.find? address = some row) (hamount : amount ≤ s.balance address) :
    ∃ s', s.transfer address address amount = some s' ∧ (∀ other, s'.balance other = s.balance other) ∧
      (∀ other, (s'.accounts.find? other).isSome = (s.accounts.find? other).isSome) ∧ s'.total = s.total ∧
      s'.burned = s.burned := by
  have hrow : (s.setAmount address (s.balance address - amount)).accounts.find? address =
      some { row with amount := s.balance address - amount } := by
    rw [find?_setAmount, if_pos rfl, hfind, Option.map_some]
  have htaken := balance_setAmount_self hfind (s.balance address - amount)
  refine ⟨_, transfer_eq hamount hfind, fun other => ?_, fun other => ?_, ?_, rfl⟩
  · by_cases hother : other = address
    · subst hother
      rw [balance_setAmount_self hrow, htaken]
      omega
    · rw [balance_setAmount_of_ne hother, balance_setAmount_of_ne hother]
  · rw [isSome_setAmount, isSome_setAmount]
  · have hsub := total_setAmount hfind (s.balance address - amount)
    have hadd := total_setAmount hrow ((s.setAmount address (s.balance address - amount)).balance address + amount)
    omega

end Shares

/-! ## The loop -/

/-- Source, destination and amount of a transfer. -/
def Instruction.transfer? : Instruction → Option (Address × Address × Nat)
  | .transferChecked source _ destination _ amount _ => some (source, destination, amount)
  | _ => none

def transfers (instructions : List Instruction) : List (Address × Address × Nat) :=
  instructions.filterMap Instruction.transfer?

variable {owner : Owner} {accounts : List ShareTokenAccountBalance} {remaining : Nat}

@[simp] theorem transfers_cons (owner : Owner) (source : Address) (amount : Nat) (instructions : List Instruction) :
    transfers (owner.transfer source amount :: instructions) =
      (source, owner.shareAta, amount) :: transfers instructions := rfl

/-- What an owner has outside of the associated account. -/
def elsewhere (ata : Address) (accounts : List ShareTokenAccountBalance) : Nat :=
  ((accounts.filter fun account => account.address ≠ ata).map ShareTokenAccountBalance.amount).sum

theorem elsewhere_cons (ata : Address) (account : ShareTokenAccountBalance) (accounts : List ShareTokenAccountBalance) :
    elsewhere ata (account :: accounts) =
      (if account.address = ata then 0 else account.amount) + elsewhere ata accounts := by
  unfold elsewhere
  by_cases h : account.address = ata <;> simp [h]

@[simp] theorem consolidate_zero (accounts : List ShareTokenAccountBalance) :
    consolidate owner accounts 0 = ([], 0) := by
  cases accounts <;> rfl

theorem consolidate_remaining (owner : Owner) (accounts : List ShareTokenAccountBalance) (remaining : Nat) :
    (consolidate owner accounts remaining).2 = remaining - elsewhere owner.shareAta accounts := by
  induction accounts generalizing remaining with
  | nil => rfl
  | cons account accounts ih =>
    rw [elsewhere_cons]
    unfold consolidate
    split
    · omega
    · split
      · next hskip =>
        rw [ih]
        split
        · omega
        · next hother =>
          have hzero := hskip.resolve_left hother
          omega
      · next hskip =>
        obtain ⟨hother, -⟩ := not_or.mp hskip
        simp only [ih, if_neg hother]
        split <;> omega

theorem consolidate_transfers (owner : Owner) (accounts : List ShareTokenAccountBalance) (remaining : Nat) :
    let draws := transfers (consolidate owner accounts remaining).1
    (draws.map Prod.fst).Sublist (accounts.map ShareTokenAccountBalance.address) ∧
      (∀ d ∈ draws, ∃ account ∈ accounts, d.1 = account.address ∧ account.address ≠ owner.shareAta ∧
        d.2.1 = owner.shareAta ∧ d.2.2 ≤ account.amount) ∧
      (draws.map fun d => d.2.2).sum + (consolidate owner accounts remaining).2 = remaining := by
  induction accounts generalizing remaining with
  | nil => simp [consolidate, transfers]
  | cons account accounts ih =>
    unfold consolidate
    split
    · next hzero => simp [transfers, hzero]
    · split
      · obtain ⟨hsources, hdraws, hsum⟩ := ih remaining
        refine ⟨hsources.cons _, fun d hd => ?_, hsum⟩
        obtain ⟨account', hmem, hdraw⟩ := hdraws d hd
        exact ⟨account', List.mem_cons_of_mem _ hmem, hdraw⟩
      · next hskip =>
        obtain ⟨hother, -⟩ := not_or.mp hskip
        set amount := if account.amount < remaining then account.amount else remaining with hamount
        have hle : amount ≤ account.amount ∧ amount ≤ remaining := by
          rw [hamount]
          split <;> omega
        obtain ⟨hsources, hdraws, hsum⟩ := ih (remaining - amount)
        refine ⟨hsources.cons_cons _, fun d hd => ?_, ?_⟩
        · rcases List.mem_cons.mp hd with rfl | hd
          · exact ⟨account, List.mem_cons_self, rfl, hother, rfl, hle.1⟩
          · obtain ⟨account', hmem, hdraw⟩ := hdraws d hd
            exact ⟨account', List.mem_cons_of_mem _ hmem, hdraw⟩
        · rw [transfers_cons, List.map_cons, List.sum_cons]
          simp only
          omega

theorem run_consolidate (kvaultProgramAddress : Address) (owner : Owner) (remaining : Nat) {s : Shares}
    (hnodup : (accounts.map ShareTokenAccountBalance.address).Nodup)
    (hbalance : ∀ account ∈ accounts, account.address ≠ owner.shareAta → s.balance account.address = account.amount)
    (hata : (s.accounts.find? owner.shareAta).isSome = true) :
    ∃ s', run (Shares.execute kvaultProgramAddress owner.shareAta) s (consolidate owner accounts remaining).1 = some s' ∧
      s'.balance owner.shareAta + (consolidate owner accounts remaining).2 = s.balance owner.shareAta + remaining ∧
      (s'.accounts.find? owner.shareAta).isSome = true ∧ s'.total = s.total ∧ s'.burned = s.burned := by
  induction accounts generalizing s remaining with
  | nil => exact ⟨s, rfl, rfl, hata, rfl, rfl⟩
  | cons account accounts ih =>
    obtain ⟨hfresh, hnodup⟩ := List.nodup_cons.mp hnodup
    have hrest := fun account' hmem => hbalance account' (List.mem_cons_of_mem _ hmem)
    unfold consolidate
    split
    · next hzero => exact ⟨s, rfl, rfl, hata, rfl, rfl⟩
    · split
      · exact ih remaining hnodup hrest hata
      · next hne hskip =>
        obtain ⟨hother, hfull⟩ := not_or.mp hskip
        set amount := if account.amount < remaining then account.amount else remaining with hamount
        have hle : amount ≤ account.amount ∧ amount ≤ remaining ∧ 0 < amount := by
          rw [hamount]
          split <;> omega
        have hself := hbalance account List.mem_cons_self hother
        obtain ⟨s₁, hs₁, hmoved⟩ := Shares.transfer_moved hother hle.2.2 (by rw [hself]; exact hle.1) hata
        have hbalance₁ : ∀ account' ∈ accounts, account'.address ≠ owner.shareAta →
            s₁.balance account'.address = account'.amount := by
          intro account' hmem hother'
          have hne' : account'.address ≠ account.address := by
            intro heq
            exact hfresh (heq ▸ List.mem_map_of_mem hmem)
          rw [hmoved.others _ hne' hother', hrest account' hmem hother']
        obtain ⟨s', hs', hsum, hata', htotal, hburned⟩ :=
          ih (remaining - amount) hnodup hbalance₁ (by rw [hmoved.accounts, hata])
        refine ⟨s', ?_, ?_, hata', htotal.trans hmoved.total, hburned.trans hmoved.burned⟩
        · have hfirst : s.execute kvaultProgramAddress owner.shareAta (owner.transfer account.address amount) =
              some s₁ := hs₁
          simp only [run, hfirst, Option.bind_some, hs']
        · have hgiven := hmoved.given
          simp only
          omega

/-! ## The consolidation -/

/-- The shares of an owner before a withdrawal. -/
def Shares.start (held : Table Address ShareTokenAccountBalance ShareTokenAccountBalance.address) : Shares := ⟨held, 0⟩

variable {held : Table Address ShareTokenAccountBalance ShareTokenAccountBalance.address}

theorem start_balance (held : Table Address ShareTokenAccountBalance ShareTokenAccountBalance.address)
    (address : Address) : (Shares.start held).balance address =
      ((held.rows.filter fun row => row.address = address).map ShareTokenAccountBalance.amount).sum :=
  (held.sum_filter_key ShareTokenAccountBalance.amount address).symm

theorem start_total (held : Table Address ShareTokenAccountBalance ShareTokenAccountBalance.address) (ata : Address) :
    (Shares.start held).total = (Shares.start held).balance ata + elsewhere ata held.rows := by
  rw [start_balance]
  change (held.rows.map ShareTokenAccountBalance.amount).sum = _
  unfold elsewhere
  induction held.rows with
  | nil => rfl
  | cons row rows ih =>
    by_cases hrow : row.address = ata <;> simp [hrow, ih] <;> omega

theorem create_spec (kvaultProgramAddress ata payer owner mint : Address) (s : Shares) :
    ∃ s', s.execute kvaultProgramAddress ata (.createAssociatedTokenIdempotent payer ata owner mint) = some s' ∧
      (∀ other, s'.balance other = s.balance other) ∧ (s'.accounts.find? ata).isSome = true ∧ s'.total = s.total ∧
      s'.burned = s.burned := by
  refine ⟨_, rfl, fun other => ?_, ?_, ?_, rfl⟩
  · simp only [Shares.balance, Table.find?_insertNew]
    cases hfind : s.accounts.find? other with
    | none => split <;> simp
    | some row => simp
  · simp [Table.find?_insertNew]
  · cases hfind : s.accounts.find? ata with
    | none => exact Table.sum_insertNew hfind ShareTokenAccountBalance.amount
    | some row =>
      have hsame := Table.find?_insertNew s.accounts ⟨ata, 0⟩
      refine Table.sum_eq fun k => ?_
      simp only [Table.valueAt, hsame]
      split
      · next hk => simp [hk, hfind]
      · rfl

theorem buildShareAccountConsolidation_ok {requested : Nat} {c : Consolidation}
    (h : buildShareAccountConsolidation owner held.rows requested = .ok c) :
    c.totalBaseUnits = (Shares.start held).total ∧ (Shares.start held).total ≤ kvaultBurnAllSharesSentinel ∧
      requested ≤ (Shares.start held).total ∧
      c.postConsolidationAtaBaseUnits = max requested ((Shares.start held).balance owner.shareAta) ∧
      c.instructions = if requested ≤ (Shares.start held).balance owner.shareAta then []
        else .createAssociatedTokenIdempotent (owner.rentPayer.getD owner.address) owner.shareAta owner.address
          owner.shareMint ::
            (consolidate owner held.rows (requested - (Shares.start held).balance owner.shareAta)).1 := by
  have htotal : (held.rows.map ShareTokenAccountBalance.amount).sum = (Shares.start held).total := rfl
  unfold buildShareAccountConsolidation at h
  rw [← start_balance, htotal] at h
  simp only at h
  split at h
  · cases h
  · next hsupply =>
    split at h
    · cases h
    · next hcovered =>
      split at h
      · next hfull =>
        cases h
        exact ⟨rfl, Nat.not_lt.mp hsupply, Nat.not_lt.mp hcovered, (max_eq_right hfull).symm, (if_pos hfull).symm⟩
      · next hshort =>
        split at h <;> cases h
        exact ⟨rfl, Nat.not_lt.mp hsupply, Nat.not_lt.mp hcovered, (max_eq_left (Nat.le_of_not_le hshort)).symm,
          (if_neg hshort).symm⟩

/-- A consolidation brings the associated account to what its result says, and keeps the total. -/
theorem run_consolidation (kvaultProgramAddress : Address) {requested : Nat} {c : Consolidation}
    (h : buildShareAccountConsolidation owner held.rows requested = .ok c) :
    ∃ s', run (Shares.execute kvaultProgramAddress owner.shareAta) (Shares.start held) c.instructions = some s' ∧
      s'.balance owner.shareAta = c.postConsolidationAtaBaseUnits ∧ s'.total = (Shares.start held).total ∧
      s'.burned = 0 := by
  obtain ⟨-, -, hcovered, hpost, hinstructions⟩ := buildShareAccountConsolidation_ok h
  rw [hpost, hinstructions]
  split
  · next hfull => exact ⟨_, rfl, (max_eq_right hfull).symm, rfl, rfl⟩
  · next hshort =>
    obtain ⟨s₁, hs₁, hbalance, hata, htotal, hburned⟩ := create_spec kvaultProgramAddress owner.shareAta
      (owner.rentPayer.getD owner.address) owner.address owner.shareMint (Shares.start held)
    have hread : ∀ account ∈ held.rows, account.address ≠ owner.shareAta →
        s₁.balance account.address = account.amount := by
      intro account hmem _
      rw [hbalance, Shares.balance_of_find? (Table.mem_rows_iff.mp hmem)]
    obtain ⟨s', hs', hsum, -, htotal', hburned'⟩ :=
      run_consolidate kvaultProgramAddress owner (requested - (Shares.start held).balance owner.shareAta)
        held.primaryKey hread hata
    refine ⟨s', by simp only [run, hs₁, Option.bind_some, hs'], ?_, htotal'.trans htotal, hburned'.trans hburned⟩
    have hsplit := start_total held owner.shareAta
    rw [consolidate_remaining, hbalance] at hsum
    rw [max_eq_left (Nat.le_of_not_le hshort)]
    omega

/-- For distinct accounts whose total is in the range of the mint and covers the request: the consolidation is built,
it transfers to the associated account only, from each other account at most once and at most what it has, in sum the
shortfall and without one nothing; and the transfers go through, keep the total and leave enough. -/
theorem consolidation_draws_shortfall (kvaultProgramAddress : Address) (owner : Owner)
    (held : Table Address ShareTokenAccountBalance ShareTokenAccountBalance.address) {requested : Nat}
    (hrequested : requested ≤ (Shares.start held).total)
    (hsupply : (Shares.start held).total ≤ kvaultBurnAllSharesSentinel) :
    ∃ c, buildShareAccountConsolidation owner held.rows requested = .ok c ∧
      ((transfers c.instructions).map Prod.fst).Nodup ∧
      (∀ d ∈ transfers c.instructions, d.1 ≠ owner.shareAta ∧ d.2.1 = owner.shareAta ∧
        d.2.2 ≤ (Shares.start held).balance d.1) ∧
      ((transfers c.instructions).map fun d => d.2.2).sum =
        requested - (Shares.start held).balance owner.shareAta ∧
      requested ≤ (Shares.start held).balance owner.shareAta + ((transfers c.instructions).map fun d => d.2.2).sum ∧
      (requested ≤ (Shares.start held).balance owner.shareAta → c.instructions = []) ∧
      ∃ s', run (Shares.execute kvaultProgramAddress owner.shareAta) (Shares.start held) c.instructions = some s' ∧
        s'.total = (Shares.start held).total ∧ s'.balance owner.shareAta = c.postConsolidationAtaBaseUnits ∧
        requested ≤ s'.balance owner.shareAta := by
  have hsplit := start_total held owner.shareAta
  have htotal : (held.rows.map ShareTokenAccountBalance.amount).sum = (Shares.start held).total := rfl
  have hbuilt : ∃ c, buildShareAccountConsolidation owner held.rows requested = .ok c := by
    unfold buildShareAccountConsolidation
    rw [← start_balance, htotal, if_neg (Nat.not_lt.mpr hsupply), if_neg (Nat.not_lt.mpr hrequested)]
    simp only
    split
    · exact ⟨_, rfl⟩
    · rw [if_neg]
      · exact ⟨_, rfl⟩
      · rw [consolidate_remaining]
        omega
  obtain ⟨c, hc⟩ := hbuilt
  obtain ⟨-, -, -, hpost, hinstructions⟩ := buildShareAccountConsolidation_ok hc
  obtain ⟨s', hrun, hata, htotal', -⟩ := run_consolidation kvaultProgramAddress hc
  obtain ⟨hsources, hdraws, hsum⟩ := consolidate_transfers owner held.rows
    (requested - (Shares.start held).balance owner.shareAta)
  rw [consolidate_remaining] at hsum
  have hafter : requested ≤ s'.balance owner.shareAta := by
    rw [hata, hpost]
    exact le_max_left ..
  by_cases hfull : requested ≤ (Shares.start held).balance owner.shareAta
  · rw [if_pos hfull] at hinstructions
    refine ⟨c, hc, ?_, ?_, ?_, ?_, fun _ => hinstructions, s', hrun, htotal', hata, hafter⟩
    · simp [hinstructions, transfers]
    · simp [hinstructions, transfers]
    · simp only [hinstructions, transfers, List.filterMap_nil, List.map_nil, List.sum_nil]
      omega
    · exact Nat.le_add_right_of_le hfull
  · rw [if_neg hfull] at hinstructions
    have htransfers : transfers c.instructions =
        transfers (consolidate owner held.rows (requested - (Shares.start held).balance owner.shareAta)).1 := by
      rw [hinstructions]
      rfl
    refine ⟨c, hc, ?_⟩
    rw [htransfers]
    refine ⟨hsources.nodup held.primaryKey, fun d hd => ?_, by omega, by omega,
      fun h => absurd h hfull, s', hrun, htotal', hata, hafter⟩
    obtain ⟨account, hmem, hsource, hother, hdestination, hamount⟩ := hdraws d hd
    refine ⟨hsource ▸ hother, hdestination, ?_⟩
    rw [hsource, Shares.balance_of_find? (Table.mem_rows_iff.mp hmem)]
    exact hamount

def someOwner : Owner := ⟨"owner", none, "shares", 6, "ata"⟩

/-- Nine of fourteen shares, four of them in the associated account. -/
theorem five_shares_are_moved : ∃ c, buildShareAccountConsolidation someOwner [⟨"ata", 4⟩, ⟨"auxiliary", 10⟩] 9 = .ok c ∧
    transfers c.instructions = [("auxiliary", "ata", 5)] ∧
    ((transfers c.instructions).map fun d => d.2.2).sum = 5 := by
  let held : Table Address ShareTokenAccountBalance ShareTokenAccountBalance.address :=
    ⟨[⟨"ata", 4⟩, ⟨"auxiliary", 10⟩], by decide⟩
  obtain ⟨c, hc, -, -, hsum, -⟩ := consolidation_draws_shortfall "kvault" someOwner held
    (show 9 ≤ (Shares.start held).total by decide) (by decide)
  have hbuilt : (buildShareAccountConsolidation someOwner held.rows 9).toOption.map (fun c => transfers c.instructions) =
      some [("auxiliary", "ata", 5)] := by decide
  rw [hc] at hbuilt
  exact ⟨c, hc, Option.some.inj hbuilt, hsum⟩

/-- Balances beyond the range of the mint are refused, whatever is asked for. -/
theorem excess_is_refused : 1 ≤ (Shares.start ⟨[⟨"auxiliary", 2 ^ 64⟩], by decide⟩).total ∧
    buildShareAccountConsolidation someOwner [⟨"auxiliary", 2 ^ 64⟩] 1 =
      .error (.kamino .vaultUnreadable "Kamino share-token balances exceed the mint's u64 supply range.") :=
  ⟨by decide, rfl⟩

end Sdp.Kamino
