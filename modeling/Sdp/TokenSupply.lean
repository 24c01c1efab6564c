import Sdp.Amount
import Sdp.SupplySteps

/-!
# The mint cap

The recorded supply covers the mint account, the mints that can still land and the burns that are yet
to be booked, as long as no refresh or booking is disturbed.
-/

open Sdp.Lib Sdp.Amount

namespace Sdp.Issuance

variable {s t : System}

/-! ## Amounts -/

theorem parse_of_parsePositive {amount : String} {decimals n : Nat}
    (h : parsePositiveTokenAmount amount decimals = some n) :
    isDecimalString amount = true ∧ parseDecimalAmount amount decimals = .ok n := by
  unfold parsePositiveTokenAmount at h
  split at h
  · next hd =>
    split at h
    · next m hm =>
      split at h
      · exact ⟨hd, by rw [hm, Option.some.inj h]⟩
      · exact absurd h.symm (Option.some_ne_none n)
    · exact absurd h.symm (Option.some_ne_none n)
  · exact absurd h.symm (Option.some_ne_none n)

theorem liveAmount_eq {amount : String} {decimals n : Nat} (hplain : plainDecimal amount = true)
    (h : parsePositiveTokenAmount amount decimals = some n) : liveAmount amount decimals = n := by
  obtain ⟨hd, hn⟩ := parse_of_parsePositive h
  obtain ⟨hlen, hvalue⟩ := parseDecimalAmount_value hd hn
  rw [liveAmount, if_pos hplain, hvalue]
  refine Nat.div_eq_of_eq_mul_left (Nat.pow_pos (by decide)) ?_
  rw [Nat.mul_assoc, ← Nat.pow_add, Nat.sub_add_cancel hlen]

/-! ## What the record has to cover -/

def MintTransaction.outstanding (mint : MintTransaction) : Nat :=
  if mint.stage = .admitted then mint.amountBaseUnits else 0

def MintStage.landedAfter (slot : Nat) : MintStage → Bool
  | .landed l => slot < l
  | _ => false

def MintTransaction.landedSince (slot : Nat) (mint : MintTransaction) : Nat :=
  if mint.stage.landedAfter slot then mint.amountBaseUnits else 0

def BurnTransaction.landedAfter (slot : Nat) (burn : BurnTransaction) : Bool := burn.landedAt.any (slot < ·)

def BurnTransaction.landedSince (slot : Nat) (burn : BurnTransaction) : Nat :=
  if burn.landedAfter slot then burn.amountBaseUnits else 0

/-- Landed after a slot and not booked. -/
def BurnTransaction.unbookedSince (slot : Nat) (burn : BurnTransaction) : Nat :=
  if burn.supplyBookkeepingAppliedAt = none ∧ burn.landedAfter slot then burn.amountBaseUnits else 0

namespace System

/-- What the admitted mints can still add to the mint account. -/
def outstanding (s : System) : Nat := s.mints.sum MintTransaction.outstanding

def mintedSince (s : System) (slot : Nat) : Nat := s.mints.sum (MintTransaction.landedSince slot)

def burnedSince (s : System) (slot : Nat) : Nat := s.burns.sum (BurnTransaction.landedSince slot)

def unbookedSince (s : System) (slot : Nat) : Nat := s.burns.sum (BurnTransaction.unbookedSince slot)

/-- What a record has to cover that accounts for the burns up to a slot. -/
def load (s : System) (slot : Nat) : Nat :=
  s.chainSupply + s.outstanding + s.unbookedSince (max s.reconciledSlot slot)

end System

theorem landedAfter_mono {burn : BurnTransaction} {slot slot' : Nat} (h : slot ≤ slot')
    (hl : burn.landedAfter slot' = true) : burn.landedAfter slot = true := by
  unfold BurnTransaction.landedAfter at hl ⊢
  obtain ⟨l, hl, hlt⟩ := Option.any_eq_true _ _ |>.mp hl
  rw [hl]
  simp only [decide_eq_true_eq] at hlt
  simp only [Option.any_some, decide_eq_true_eq]
  omega

theorem unbookedSince_antitone (s : System) {slot slot' : Nat} (h : slot ≤ slot') :
    s.unbookedSince slot' ≤ s.unbookedSince slot := by
  refine Table.sum_le fun _ burn _ => ?_
  unfold BurnTransaction.unbookedSince
  split
  · next hb => rw [if_pos ⟨hb.1, landedAfter_mono h hb.2⟩]
  · exact Nat.zero_le _

theorem unbookedSince_le_burnedSince (s : System) (slot : Nat) : s.unbookedSince slot ≤ s.burnedSince slot := by
  refine Table.sum_le fun _ burn _ => ?_
  unfold BurnTransaction.unbookedSince BurnTransaction.landedSince
  split
  · next hb => rw [if_pos hb.2]
  · exact Nat.zero_le _

/-! ## The condition -/

/-- A refresh that has read an old supply still finds the mints that landed since, and a plain text for each mint that
it has to count. -/
def countsAll (mints : MintTable) (slot since : Nat) : Bool :=
  mints.rows.all fun mint =>
    (mint.stage = .admitted → plainDecimal mint.amount) ∧
      (mint.stage.landedAfter slot → plainDecimal mint.amount ∧ isLive since mint)

/-- The steps that go wrong are left out: a refresh that misses a mint, one that overwrites a reservation, and the
booking of a burn that a refresh without a new stamp has accounted for. -/
def undisturbed (s : System) : Step → Bool
  | .resolveRefresh n =>
    match s.refreshes n with
    | .called _ slot now => countsAll s.mints slot (now - mintInFlightWindowMs)
    | _ => true
  | .writeRefresh n =>
    match s.refreshes n with
    | .resolved _ _ _ _ reservations => reservations = s.reservations
    | _ => true
  | .bookkeepBurn id _ =>
    match s.burns.find? id with
    | some burn =>
      burn.supplyBookkeepingAppliedAt.isSome || burn.landedAfter s.reconciledSlot ||
        supplyChangedSinceAdmission s.token burn
    | none => true
  | _ => true

/-! ## The invariant -/

structure MintOk (s : System) (mint : MintTransaction) : Prop where
  parsed : parsePositiveTokenAmount mint.amount s.token.decimals = some mint.amountBaseUnits
  window : mint.stage = .admitted → s.now ≤ mint.updatedAt + mintInFlightWindowMs ∧ mint.status.unsettled = true
  landed : ∀ slot, mint.stage = .landed slot → slot ≤ s.slot
  fresh : mint.stage = .created → mint.status.unsettled = true

def Refresh.Ok (s : System) : Refresh → Prop
  | .idle | .done => True
  | .read reading slot => slot ≤ s.slot ∧ reading + s.mintedSince slot = s.chainSupply + s.burnedSince slot
  | .called reading slot now =>
    now ≤ s.now ∧ slot ≤ s.slot ∧ reading + s.mintedSince slot = s.chainSupply + s.burnedSince slot
  | .resolved _ slot _ supply reservations =>
    reservations ≤ s.reservations ∧ (reservations = s.reservations → s.load slot ≤ supply)

/-- The record covers all that can be on chain, and the cap has room for it. -/
structure Covered (s : System) : Prop where
  mints : ∀ id mint, s.mints.find? id = some mint → MintOk s mint
  burns : ∀ id burn slot, s.burns.find? id = some burn → burn.landedAt = some slot → slot ≤ s.slot
  recorded : s.load 0 ≤ s.token.totalSupplyCached
  capped : ∀ cap, s.token.maxSupply = some cap → s.chainSupply + s.outstanding ≤ cap
  checked : ∀ n cap supply, s.capChanges n = .checked cap supply → supply ≤ cap
  refreshes : ∀ n, (s.refreshes n).Ok s

/-! ## What moves -/

/-- A step moves the mint account by what lands, and only a reservation adds to what it may come to hold. -/
structure Drift (s t : System) : Prop where
  now : s.now ≤ t.now
  slot : s.slot ≤ t.slot
  count : s.reservations ≤ t.reservations
  flow : ∀ slot ≤ s.slot, t.chainSupply + t.burnedSince slot + s.mintedSince slot =
    s.chainSupply + s.burnedSince slot + t.mintedSince slot
  load : t.reservations = s.reservations → ∀ slot, t.load slot ≤ s.load slot
  committed : t.reservations = s.reservations → t.chainSupply + t.outstanding ≤ s.chainSupply + s.outstanding

theorem Refresh.Ok.drift {r : Refresh} (h : r.Ok s) (hd : Drift s t) : r.Ok t := by
  cases r with
  | idle | done => trivial
  | read reading slot =>
    obtain ⟨hslot, hreading⟩ := h
    have hflow := hd.flow slot hslot
    exact ⟨hslot.trans hd.slot, by omega⟩
  | called reading slot now =>
    obtain ⟨hnow, hslot, hreading⟩ := h
    have hflow := hd.flow slot hslot
    exact ⟨hnow.trans hd.now, hslot.trans hd.slot, by omega⟩
  | resolved reading slot now supply reservations =>
    obtain ⟨hle, hload⟩ := h
    refine ⟨hle.trans hd.count, fun heq => ?_⟩
    have hsame : t.reservations = s.reservations := by
      have hcount := hd.count
      omega
    exact (hd.load hsame slot).trans (hload (heq.trans hsame))

theorem Drift.still (hnow : s.now ≤ t.now) (hslot : t.slot = s.slot) (hcount : t.reservations = s.reservations)
    (hchain : t.chainSupply = s.chainSupply) (hout : t.outstanding ≤ s.outstanding)
    (hminted : ∀ slot, t.mintedSince slot = s.mintedSince slot)
    (hburned : ∀ slot, t.burnedSince slot = s.burnedSince slot)
    (hunbooked : ∀ slot, t.unbookedSince slot ≤ s.unbookedSince slot)
    (hreconciled : s.reconciledSlot ≤ t.reconciledSlot) : Drift s t where
  now := hnow
  slot := hslot.ge
  count := hcount.ge
  flow slot _ := by rw [hchain, hminted, hburned]
  load _ slot := by
    have hle : t.unbookedSince (max t.reconciledSlot slot) ≤ s.unbookedSince (max s.reconciledSlot slot) :=
      (hunbooked _).trans (unbookedSince_antitone s (max_le_max_right slot hreconciled))
    unfold System.load
    omega
  committed _ := by omega

section Sums

variable {id : Nat} {mint : MintTransaction} {burn : BurnTransaction}

theorem outstanding_setMint (hmint : s.mints.find? id = some mint) (stage : MintStage) :
    (s.setMint id stage).outstanding + mint.outstanding = s.outstanding + (setStage stage mint).outstanding :=
  Table.sum_set hmint (setStage stage) (fun _ => rfl) _

theorem mintedSince_setMint (hmint : s.mints.find? id = some mint) (stage : MintStage) (slot : Nat) :
    (s.setMint id stage).mintedSince slot + mint.landedSince slot =
      s.mintedSince slot + (setStage stage mint).landedSince slot :=
  Table.sum_set hmint (setStage stage) (fun _ => rfl) _

theorem landedSince_eq_zero (h : mint.stage.hasLanded = false) (slot : Nat) : mint.landedSince slot = 0 := by
  unfold MintTransaction.landedSince
  rw [if_neg]
  cases hs : mint.stage <;> simp_all [MintStage.landedAfter, MintStage.hasLanded]

theorem drift_setMint {stage : MintStage} (hmint : s.mints.find? id = some mint) (hfrom : mint.stage.hasLanded = false)
    (hto : stage.hasLanded = false) (hstage : stage ≠ .admitted) : Drift s (s.setMint id stage) := by
  refine .still (Nat.le_refl _) rfl rfl rfl ?_ (fun slot => ?_) (fun _ => rfl) (fun _ => Nat.le_refl _) (Nat.le_refl _)
  · have hsum := outstanding_setMint hmint stage
    have hzero : (setStage stage mint).outstanding = 0 := if_neg hstage
    omega
  · have hsum := mintedSince_setMint hmint stage slot
    have hnew : (setStage stage mint).landedSince slot = 0 := landedSince_eq_zero hto slot
    have hold := landedSince_eq_zero hfrom slot
    omega

end Sums

theorem drift_createMint {id n : Nat} {amount : String} (hnew : s.mints.find? id = none) :
    Drift s { s with mints := s.mints.insertNew ⟨id, amount, n, .pending, s.now, .created⟩ } := by
  refine .still (Nat.le_refl _) rfl rfl rfl ?_ (fun slot => ?_) (fun _ => rfl) (fun _ => Nat.le_refl _) (Nat.le_refl _)
  · exact (Table.sum_insertNew hnew _).le
  · exact Table.sum_insertNew hnew _

theorem drift_updateMint {id : Nat} {mint : MintTransaction} (hmint : s.mints.find? id = some mint)
    (status : TransactionStatus) :
    Drift s { s with mints := s.mints.update id (fun _ => true) (setStatus status s.now) fun _ => rfl } := by
  refine .still (Nat.le_refl _) rfl rfl rfl ?_ (fun slot => ?_) (fun _ => rfl) (fun _ => Nat.le_refl _) (Nat.le_refl _)
  · have hsum := Table.sum_set hmint (setStatus status s.now) (fun _ => rfl) MintTransaction.outstanding
    exact (Nat.add_right_cancel hsum).le
  · have hsum := Table.sum_set hmint (setStatus status s.now) (fun _ => rfl) (MintTransaction.landedSince slot)
    exact Nat.add_right_cancel hsum

theorem drift_reserved {id : Nat} {mint : MintTransaction} {token : IssuedToken} {stage : MintStage}
    (hmint : s.mints.find? id = some mint) (hfrom : mint.stage.hasLanded = false) (hto : stage.hasLanded = false) :
    Drift s { s.setMint id stage with token, reservations := s.reservations + 1 } where
  now := Nat.le_refl _
  slot := Nat.le_refl _
  count := Nat.le_succ _
  flow slot _ := by
    have hsum := mintedSince_setMint hmint stage slot
    have hnew : (setStage stage mint).landedSince slot = 0 := landedSince_eq_zero hto slot
    have hold := landedSince_eq_zero hfrom slot
    have hsame : (s.setMint id stage).mintedSince slot = s.mintedSince slot := by omega
    exact congrArg (s.chainSupply + s.burnedSince slot + ·) hsame.symm
  load h := absurd h (Nat.succ_ne_self _)
  committed h := absurd h (Nat.succ_ne_self _)

theorem drift_landMint {id : Nat} {mint : MintTransaction} (hmint : s.mints.find? id = some mint)
    (hstage : mint.stage = .admitted) :
    Drift s { s.setMint id (.landed (s.slot + 1)) with
      slot := s.slot + 1, chainSupply := s.chainSupply + mint.amountBaseUnits } := by
  have hout := outstanding_setMint hmint (.landed (s.slot + 1))
  have hbefore : mint.outstanding = mint.amountBaseUnits := if_pos hstage
  have hafter : (setStage (.landed (s.slot + 1)) mint).outstanding = 0 := if_neg (by simp [setStage])
  refine ⟨Nat.le_refl _, Nat.le_succ _, Nat.le_refl _, fun slot hslot => ?_, fun _ slot => ?_, fun _ => ?_⟩
  · have hsum := mintedSince_setMint hmint (.landed (s.slot + 1)) slot
    have hold : mint.landedSince slot = 0 := landedSince_eq_zero (by rw [hstage]; rfl) slot
    have hnew : (setStage (.landed (s.slot + 1)) mint).landedSince slot = mint.amountBaseUnits :=
      if_pos (by simp [setStage, MintStage.landedAfter]; omega)
    change s.chainSupply + mint.amountBaseUnits + s.burnedSince slot + s.mintedSince slot =
      s.chainSupply + s.burnedSince slot + (s.setMint id (.landed (s.slot + 1))).mintedSince slot
    omega
  · change s.chainSupply + mint.amountBaseUnits + (s.setMint id (.landed (s.slot + 1))).outstanding +
      s.unbookedSince (max s.reconciledSlot slot) ≤ s.load slot
    unfold System.load
    omega
  · change s.chainSupply + mint.amountBaseUnits + (s.setMint id (.landed (s.slot + 1))).outstanding ≤
      s.chainSupply + s.outstanding
    omega

theorem drift_admitBurn {id n : Nat} (hnew : s.burns.find? id = none) :
    Drift s { s with burns := s.burns.insertNew (admittedBurn s.token id n) } := by
  refine .still (Nat.le_refl _) rfl rfl rfl (Nat.le_refl _) (fun _ => rfl) (fun slot => ?_) (fun slot => ?_)
    (Nat.le_refl _)
  · exact Table.sum_insertNew hnew _
  · exact (Table.sum_insertNew hnew _).le

theorem drift_landBurn {id : Nat} {burn : BurnTransaction} (hburn : s.burns.find? id = some burn)
    (hland : burn.landedAt = none) (hamount : burn.amountBaseUnits ≤ s.chainSupply) :
    Drift s { s with
      slot := s.slot + 1
      chainSupply := s.chainSupply - burn.amountBaseUnits
      burns := s.burns.update id (fun _ => true) (setLanded (s.slot + 1)) fun _ => rfl } := by
  refine ⟨Nat.le_refl _, Nat.le_succ _, Nat.le_refl _, fun slot hslot => ?_, fun _ slot => ?_, fun _ => ?_⟩
  · have hsum := Table.sum_set hburn (setLanded (s.slot + 1)) (fun _ => rfl) (BurnTransaction.landedSince slot)
    have hold : burn.landedSince slot = 0 := if_neg (by simp [BurnTransaction.landedAfter, hland])
    have hnew : (setLanded (s.slot + 1) burn).landedSince slot = burn.amountBaseUnits :=
      if_pos (by simp [setLanded, BurnTransaction.landedAfter]; omega)
    simp only [System.burnedSince, System.mintedSince]
    omega
  · have hsum := Table.sum_set hburn (setLanded (s.slot + 1)) (fun _ => rfl) (BurnTransaction.unbookedSince (max s.reconciledSlot slot))
    have hnew : (setLanded (s.slot + 1) burn).unbookedSince (max s.reconciledSlot slot) ≤ burn.amountBaseUnits := by
      unfold BurnTransaction.unbookedSince
      split
      · exact Nat.le_refl _
      · exact Nat.zero_le _
    simp only [System.load, System.outstanding, System.unbookedSince]
    omega
  · simp only [System.outstanding]
    omega

theorem applySettledBurnSupply_row {token token' : IssuedToken} {burn burn' : BurnTransaction} {now reconciledSlot : Nat}
    (h : applySettledBurnSupply token burn now reconciledSlot = (token', burn')) :
    burn'.id = burn.id ∧ burn'.amountBaseUnits = burn.amountBaseUnits ∧ burn'.landedAt = burn.landedAt ∧
      burn'.supplyBookkeepingAppliedAt.isSome = true := by
  unfold applySettledBurnSupply at h
  split at h
  · next happlied => cases h; exact ⟨rfl, rfl, rfl, happlied⟩
  · split at h
    · cases h; exact ⟨rfl, rfl, rfl, rfl⟩
    · cases h; exact ⟨rfl, rfl, rfl, rfl⟩

theorem drift_bookkeepBurn {id time : Nat} {burn burn' : BurnTransaction} {token : IssuedToken}
    (hburn : s.burns.find? id = some burn)
    (hbook : applySettledBurnSupply s.token burn time s.reconciledSlot = (token, burn')) :
    Drift s { s with token, burns := s.burns.update id (fun _ => true) (setBooked burn') fun _ => rfl } := by
  obtain ⟨-, hamount, hlanded, happlied⟩ := applySettledBurnSupply_row hbook
  refine .still (Nat.le_refl _) rfl rfl rfl (Nat.le_refl _) (fun _ => rfl) (fun slot => ?_) (fun slot => ?_)
    (Nat.le_refl _)
  · have hsum := Table.sum_set hburn (setBooked burn') (fun _ => rfl) (BurnTransaction.landedSince slot)
    have hsame : (setBooked burn' burn).landedSince slot = burn.landedSince slot := by
      unfold BurnTransaction.landedSince BurnTransaction.landedAfter
      rw [show (setBooked burn' burn).landedAt = burn.landedAt from hlanded,
        show (setBooked burn' burn).amountBaseUnits = burn.amountBaseUnits from hamount]
    rw [hsame] at hsum
    exact Nat.add_right_cancel hsum
  · have hsum := Table.sum_set hburn (setBooked burn') (fun _ => rfl) (BurnTransaction.unbookedSince slot)
    have hzero : (setBooked burn' burn).unbookedSince slot = 0 :=
      if_neg fun h => Option.isSome_iff_ne_none.mp happlied h.1
    simp only [System.unbookedSince]
    omega

theorem drift_of_effect {l : Step} (h : Effect s l t) : Drift s t := by
  cases h with
  | elapse hnow =>
    exact .still hnow rfl rfl rfl (Nat.le_refl _) (fun _ => rfl) (fun _ => rfl) (fun _ => Nat.le_refl _) (Nat.le_refl _)
  | createMint hnew => exact drift_createMint hnew
  | reserved hmint hstage =>
    refine drift_reserved hmint (by rw [hstage]; rfl) ?_
    split
    · rfl
    · rfl
  | refused hmint hstage => exact drift_setMint hmint (by rw [hstage]; rfl) rfl (by decide)
  | updateMint hmint => exact drift_updateMint hmint _
  | landMint hmint hstage => exact drift_landMint hmint hstage
  | expireMint hmint hstage => exact drift_setMint hmint (by rw [hstage]; rfl) rfl (by decide)
  | admitBurn hnew => exact drift_admitBurn hnew
  | landBurn hburn hland hamount => exact drift_landBurn hburn hland hamount
  | bookkeepBurn hburn _ hbook => exact drift_bookkeepBurn hburn hbook
  | writeRefresh =>
    exact .still (Nat.le_refl _) rfl rfl rfl (Nat.le_refl _) (fun _ => rfl) (fun _ => rfl) (fun _ => Nat.le_refl _)
      (Nat.le_max_left _ _)
  | checkedCap | refusedCap | writtenCap | lostCap | clearCap | readSupply | callRefresh | resolveRefresh =>
    exact .still (Nat.le_refl _) rfl rfl rfl (Nat.le_refl _) (fun _ => rfl) (fun _ => rfl) (fun _ => Nat.le_refl _)
      (Nat.le_refl _)

/-! ## Rows -/

theorem setStage_id (stage : MintStage) (mint : MintTransaction) : (setStage stage mint).id = mint.id := rfl

theorem setStatus_id (status : TransactionStatus) (now : Nat) (mint : MintTransaction) :
    (setStatus status now mint).id = mint.id := rfl

theorem setLanded_id (slot : Nat) (burn : BurnTransaction) : (setLanded slot burn).id = burn.id := rfl

theorem setBooked_id (burn' burn : BurnTransaction) : (setBooked burn' burn).id = burn.id := rfl

theorem MintOk.later {mint : MintTransaction} (h : MintOk s mint) (hdecimals : t.token.decimals = s.token.decimals)
    (hnow : t.now = s.now) (hslot : s.slot ≤ t.slot) : MintOk t mint where
  parsed := by rw [hdecimals]; exact h.parsed
  window hstage := by rw [hnow]; exact h.window hstage
  landed slot hstage := (h.landed slot hstage).trans hslot
  fresh := h.fresh

theorem decimals_of_effect {l : Step} (h : Effect s l t) : t.token.decimals = s.token.decimals := by
  cases h with
  | reserved _ _ htoken =>
    unfold reserveMintSupply at htoken
    split at htoken
    · cases htoken; rfl
    · contradiction
  | bookkeepBurn _ _ hbook =>
    unfold applySettledBurnSupply at hbook
    split at hbook
    · cases hbook; rfl
    · split at hbook
      · cases hbook; rfl
      · cases hbook; rfl
  | _ => rfl

theorem mints_set {id : Nat} {mint : MintTransaction} {set : MintTransaction → MintTransaction}
    (hset : ∀ r, (set r).id = r.id) (hmints : ∀ id mint, s.mints.find? id = some mint → MintOk s mint)
    (hmint : s.mints.find? id = some mint) (ht : t.mints = s.mints.update id (fun _ => true) set hset)
    (hdecimals : t.token.decimals = s.token.decimals) (hnow : t.now = s.now) (hslot : s.slot ≤ t.slot)
    (hnew : MintOk s mint → MintOk t (set mint)) {id' : Nat} {mint' : MintTransaction}
    (h : t.mints.find? id' = some mint') : MintOk t mint' := by
  rw [ht] at h
  obtain ⟨r, hr, rfl | ⟨rfl, -, rfl⟩⟩ := Table.row_of_update hset h
  · exact (hmints _ _ hr).later hdecimals hnow hslot
  · obtain rfl : mint = r := Option.some.inj (hmint.symm.trans hr)
    exact hnew (hmints _ _ hr)

theorem mints_of_effect {l : Step} (h : Effect s l t)
    (hmints : ∀ id mint, s.mints.find? id = some mint → MintOk s mint) {id : Nat} {mint : MintTransaction}
    (hmint' : t.mints.find? id = some mint) : MintOk t mint := by
  have hdecimals := decimals_of_effect h
  cases h with
  | elapse hnow hwindow =>
    have hok := hmints id mint hmint'
    refine ⟨hok.parsed, fun hstage => ⟨?_, (hok.window hstage).2⟩, hok.landed, hok.fresh⟩
    exact hwindow mint (Table.find?_eq_some_iff.mp hmint').1 hstage
  | createMint hnew hamount =>
    rw [Table.find?_insertNew] at hmint'
    split at hmint'
    · next hid =>
      subst hid
      rw [hnew] at hmint'
      cases hmint'
      exact ⟨hamount, by simp, by simp, fun _ => rfl⟩
    · exact (hmints id mint hmint').later rfl rfl (Nat.le_refl _)
  | @reserved _ _ mint₀ _ hmint hstage =>
    refine mints_set (setStage_id _) hmints hmint rfl hdecimals rfl (Nat.le_refl _) (fun hok => ?_) hmint'
    refine ⟨by rw [hdecimals]; exact hok.parsed, fun hadmitted => ?_, fun slot hlanded => ?_, fun hcreated => ?_⟩
    · have hnow : s.now ≤ mint₀.updatedAt + mintInFlightWindowMs := by
        by_contra hnot
        simp [setStage, hnot] at hadmitted
      exact ⟨hnow, hok.fresh hstage⟩
    · simp only [setStage] at hlanded
      split at hlanded <;> contradiction
    · simp only [setStage] at hcreated
      split at hcreated <;> contradiction
  | refused hmint hstage =>
    refine mints_set (setStage_id _) hmints hmint rfl hdecimals rfl (Nat.le_refl _) (fun hok => ?_) hmint'
    exact ⟨hok.parsed, by simp [setStage], by simp [setStage], by simp [setStage]⟩
  | @updateMint _ _ mint₀ hmint hstatus =>
    refine mints_set (setStatus_id _ _) hmints hmint rfl hdecimals rfl (Nat.le_refl _) (fun hok => ?_) hmint'
    refine ⟨hok.parsed, fun hstage => ⟨Nat.le_add_right _ _, ?_⟩, hok.landed, fun hstage => ?_⟩
    · have hadmitted : mint₀.stage = .admitted := hstage
      exact hstatus.resolve_right (by rw [hadmitted]; decide)
    · have hcreated : mint₀.stage = .created := hstage
      exact hstatus.resolve_right (by rw [hcreated]; decide)
  | landMint hmint hstage =>
    refine mints_set (setStage_id _) hmints hmint rfl hdecimals rfl (Nat.le_succ _) (fun hok => ?_) hmint'
    refine ⟨hok.parsed, by simp [setStage], fun slot hlanded => ?_, by simp [setStage]⟩
    cases hlanded
    exact Nat.le_refl _
  | expireMint hmint hstage =>
    refine mints_set (setStage_id _) hmints hmint rfl hdecimals rfl (Nat.le_refl _) (fun hok => ?_) hmint'
    exact ⟨hok.parsed, by simp [setStage], by simp [setStage], by simp [setStage]⟩
  | landBurn => exact (hmints id mint hmint').later hdecimals rfl (Nat.le_succ _)
  | _ => exact (hmints id mint hmint').later hdecimals rfl (Nat.le_refl _)

theorem burns_of_effect {l : Step} (h : Effect s l t)
    (hburns : ∀ id burn slot, s.burns.find? id = some burn → burn.landedAt = some slot → slot ≤ s.slot)
    {id slot : Nat} {burn : BurnTransaction} (hburn' : t.burns.find? id = some burn)
    (hland' : burn.landedAt = some slot) : slot ≤ t.slot := by
  have hslot := (drift_of_effect h).slot
  cases h with
  | admitBurn hnew =>
    rw [Table.find?_insertNew] at hburn'
    split at hburn'
    · next hid =>
      subst hid
      rw [hnew] at hburn'
      cases hburn'
      cases hland'
    · exact hburns id burn slot hburn' hland'
  | landBurn hburn hland =>
    obtain ⟨r, hr, rfl | ⟨rfl, -, rfl⟩⟩ := Table.row_of_update (setLanded_id _) hburn'
    · exact (hburns _ _ _ hr hland').trans hslot
    · cases hland'
      exact Nat.le_refl _
  | bookkeepBurn hburn _ hbook =>
    obtain ⟨r, hr, rfl | ⟨rfl, -, rfl⟩⟩ := Table.row_of_update (setBooked_id _) hburn'
    · exact hburns _ _ _ hr hland'
    · rw [setBooked, (applySettledBurnSupply_row hbook).2.2.1] at hland'
      exact hburns _ _ _ hburn hland'
  | _ => exact (hburns id burn slot hburn' hland').trans hslot

/-! ## Refreshes -/

theorem mintedSince_slot (h : Covered s) : s.mintedSince s.slot = 0 := by
  refine List.sum_eq_zero fun n hn => ?_
  obtain ⟨mint, hmint, rfl⟩ := List.mem_map.mp hn
  have hok := h.mints _ mint (Table.mem_rows_iff.mp hmint)
  refine if_neg fun hafter => ?_
  cases hstage : mint.stage with
  | landed slot =>
    have hle := hok.landed slot hstage
    simp only [hstage, MintStage.landedAfter, decide_eq_true_eq] at hafter
    omega
  | _ => simp [hstage, MintStage.landedAfter] at hafter

theorem burnedSince_slot (h : Covered s) : s.burnedSince s.slot = 0 := by
  refine List.sum_eq_zero fun n hn => ?_
  obtain ⟨burn, hburn, rfl⟩ := List.mem_map.mp hn
  refine if_neg fun hafter => ?_
  obtain ⟨slot, hslot, hlt⟩ := (Option.any_eq_true _ _).mp hafter
  have hle := h.burns _ burn slot (Table.mem_rows_iff.mp hburn) hslot
  simp only [decide_eq_true_eq] at hlt
  omega

theorem liveReserved_ge (h : Covered s) {slot now : Nat} (hnow : now ≤ s.now)
    (hcounts : countsAll s.mints slot (now - mintInFlightWindowMs) = true) :
    s.outstanding + s.mintedSince slot ≤ liveReserved s.mints s.token.decimals (now - mintInFlightWindowMs) := by
  unfold System.outstanding System.mintedSince
  rw [← Table.sum_add]
  refine Table.sum_le fun id mint hmint => ?_
  have hok := h.mints id mint hmint
  have hrow := List.all_eq_true.mp hcounts mint (Table.find?_eq_some_iff.mp hmint).1
  simp only [decide_eq_true_eq] at hrow
  unfold MintTransaction.outstanding MintTransaction.landedSince
  by_cases hadmitted : mint.stage = .admitted
  · obtain ⟨hwindow, hstatus⟩ := hok.window hadmitted
    have hsince : now - mintInFlightWindowMs ≤ mint.updatedAt := by omega
    have hlive : isLive (now - mintInFlightWindowMs) mint = true := by simp [isLive, hstatus, hsince]
    rw [if_pos hadmitted, if_pos hlive, liveAmount_eq (hrow.1 hadmitted) hok.parsed, if_neg]
    · exact Nat.le_refl _
    · simp [hadmitted, MintStage.landedAfter]
  · rw [if_neg hadmitted, Nat.zero_add]
    split
    · next hafter =>
      obtain ⟨hplain, hlive⟩ := hrow.2 hafter
      rw [if_pos hlive, liveAmount_eq hplain hok.parsed]
    · exact Nat.zero_le _

theorem load_le_load_zero (s : System) (slot : Nat) : s.load slot ≤ s.load 0 := by
  have hle := unbookedSince_antitone s (max_le_max_left s.reconciledSlot (Nat.zero_le slot))
  unfold System.load
  omega

/-- A refresh resolves to a supply that covers the mint account. -/
theorem load_le_resolvedSupply (h : Covered s) {n reading slot now : Nat}
    (hcalled : s.refreshes n = .called reading slot now)
    (hcounts : countsAll s.mints slot (now - mintInFlightWindowMs) = true) :
    s.load slot ≤ resolvedSupply s.token s.mints reading (now - mintInFlightWindowMs) := by
  have hok := h.refreshes n
  rw [hcalled] at hok
  obtain ⟨hnow, -, hreading⟩ := hok
  have hlive := liveReserved_ge h hnow hcounts
  have hunbooked : s.unbookedSince (max s.reconciledSlot slot) ≤ s.burnedSince slot :=
    (unbookedSince_antitone s (le_max_right _ _)).trans (unbookedSince_le_burnedSince s slot)
  refine le_max_of_le_right (le_min ((load_le_load_zero s slot).trans h.recorded) ?_)
  unfold System.load
  omega

theorem refreshes_of_effect {l : Step} (h : Effect s l t) (hok : undisturbed s l = true) (hc : Covered s) (n : Nat) :
    (t.refreshes n).Ok t := by
  have hd := drift_of_effect h
  -- A refresh that does not move, after a step of another one.
  have hother : ∀ {m : Nat} {r : Refresh}, (n ≠ m → (s.refreshes n).Ok t) → (n = m → r.Ok t) →
      (Function.update s.refreshes m r n).Ok t := by
    intro m r hne heq
    by_cases hn : n = m
    · rw [hn, Function.update_self]
      exact heq hn
    · rw [Function.update_of_ne hn]
      exact hne hn
  cases h with
  | readSupply =>
    refine hother (fun _ => (hc.refreshes n).drift hd) fun _ => ⟨Nat.le_refl _, ?_⟩
    change s.chainSupply + s.mintedSince s.slot = s.chainSupply + s.burnedSince s.slot
    rw [mintedSince_slot hc, burnedSince_slot hc]
  | callRefresh hread =>
    refine hother (fun _ => (hc.refreshes n).drift hd) fun hn => ?_
    have hread' := hc.refreshes n
    rw [hn, hread] at hread'
    exact ⟨Nat.le_refl _, hread'⟩
  | resolveRefresh hcalled =>
    refine hother (fun _ => (hc.refreshes n).drift hd) fun _ => ⟨Nat.le_refl _, fun _ => ?_⟩
    simp only [undisturbed, hcalled] at hok
    exact load_le_resolvedSupply hc hcalled hok
  | writeRefresh => exact hother (fun _ => (hc.refreshes n).drift hd) fun _ => trivial
  | _ => exact (hc.refreshes n).drift hd

/-! ## The record and the cap -/

theorem reserveMintSupply_eq_some {token token' : IssuedToken} {delta now : Nat}
    (h : reserveMintSupply token delta now = some token') :
    token'.totalSupplyCached = token.totalSupplyCached + delta ∧ token'.maxSupply = token.maxSupply ∧
      ∀ cap, token.maxSupply = some cap → token.totalSupplyCached + delta ≤ cap := by
  unfold reserveMintSupply at h
  split at h
  · next hcap =>
    cases h
    refine ⟨rfl, rfl, fun cap hmax => ?_⟩
    simpa [hmax] using hcap
  · contradiction

theorem outstanding_reserved {id : Nat} {mint : MintTransaction} (hmint : s.mints.find? id = some mint)
    (stage : MintStage) : (s.setMint id stage).outstanding ≤ s.outstanding + mint.amountBaseUnits := by
  have hsum := outstanding_setMint hmint stage
  have hle : (setStage stage mint).outstanding ≤ mint.amountBaseUnits := by
    unfold MintTransaction.outstanding
    split
    · exact Nat.le_refl _
    · exact Nat.zero_le _
  omega

theorem recorded_bookkeepBurn {id time : Nat} {burn burn' : BurnTransaction} {token : IssuedToken}
    (hburn : s.burns.find? id = some burn)
    (hbook : applySettledBurnSupply s.token burn time s.reconciledSlot = (token, burn'))
    (hok : undisturbed s (.bookkeepBurn id time) = true) (hc : Covered s) :
    ({ s with token, burns := s.burns.update id (fun _ => true) (setBooked burn') fun _ => rfl } : System).load 0 ≤
      token.totalSupplyCached := by
  have hload := (drift_bookkeepBurn hburn hbook).load rfl 0
  have hrow := applySettledBurnSupply_row hbook
  simp only [undisturbed, hburn, Bool.or_eq_true] at hok
  unfold applySettledBurnSupply at hbook
  split at hbook
  · cases hbook
    exact hload.trans hc.recorded
  · next happlied =>
    split at hbook
    · cases hbook
      exact hload.trans hc.recorded
    · next hchanged =>
      -- The booking subtracts, so the burn is one of those that the record covers.
      have hlanded := (hok.resolve_right hchanged).resolve_left happlied
      have hsum := Table.sum_set hburn (setBooked burn') (fun _ => rfl)
        (BurnTransaction.unbookedSince (max s.reconciledSlot 0))
      have hnone : burn.supplyBookkeepingAppliedAt = none := by simpa using happlied
      have hbefore : burn.unbookedSince (max s.reconciledSlot 0) = burn.amountBaseUnits :=
        if_pos ⟨hnone, by rw [Nat.max_zero]; exact hlanded⟩
      have hafter : (setBooked burn' burn).unbookedSince (max s.reconciledSlot 0) = 0 :=
        if_neg fun h => Option.isSome_iff_ne_none.mp hrow.2.2.2 h.1
      have hrecorded := hc.recorded
      cases hbook
      simp only [System.load, System.outstanding, System.unbookedSince] at hrecorded ⊢
      omega

theorem recorded_of_effect {l : Step} (h : Effect s l t) (hok : undisturbed s l = true) (hc : Covered s) :
    t.load 0 ≤ t.token.totalSupplyCached := by
  have hd := drift_of_effect h
  cases h with
  | @reserved id _ mint token hmint _ htoken =>
    obtain ⟨hcached, -⟩ := reserveMintSupply_eq_some htoken
    have hout := outstanding_reserved hmint
      (if s.now ≤ mint.updatedAt + mintInFlightWindowMs then .admitted else .expired)
    have hrecorded := hc.recorded
    unfold System.load at hrecorded
    change s.chainSupply + (s.setMint id _).outstanding + s.unbookedSince (max s.reconciledSlot 0) ≤
      token.totalSupplyCached
    omega
  | bookkeepBurn hburn _ hbook => exact recorded_bookkeepBurn hburn hbook hok hc
  | @writeRefresh n _ slot _ supply _ hresolved =>
    have hrefresh := hc.refreshes n
    rw [hresolved] at hrefresh
    simp only [undisturbed, hresolved, decide_eq_true_eq] at hok
    have hload := hrefresh.2 hok
    unfold System.load at hload
    change s.chainSupply + s.outstanding + s.unbookedSince (max (max s.reconciledSlot slot) 0) ≤ supply
    rwa [Nat.max_zero]
  | _ => exact (hd.load rfl 0).trans hc.recorded

theorem committed_le_recorded (hc : Covered s) : s.chainSupply + s.outstanding ≤ s.token.totalSupplyCached := by
  have hrecorded := hc.recorded
  unfold System.load at hrecorded
  omega

theorem capped_of_effect {l : Step} (h : Effect s l t) (hc : Covered s) {cap : Nat}
    (hcap : t.token.maxSupply = some cap) : t.chainSupply + t.outstanding ≤ cap := by
  have hd := drift_of_effect h
  cases h with
  | @reserved id _ mint _ hmint _ htoken =>
    obtain ⟨-, hmax, hroom⟩ := reserveMintSupply_eq_some htoken
    have hle := hroom cap (hmax.symm.trans hcap)
    have hout := outstanding_reserved hmint
      (if s.now ≤ mint.updatedAt + mintInFlightWindowMs then .admitted else .expired)
    have hrecorded := committed_le_recorded hc
    change s.chainSupply + (s.setMint id _).outstanding ≤ cap
    omega
  | bookkeepBurn _ _ hbook =>
    refine (hd.committed rfl).trans (hc.capped cap ?_)
    unfold applySettledBurnSupply at hbook
    split at hbook
    · cases hbook; exact hcap
    · split at hbook
      · cases hbook; exact hcap
      · cases hbook; exact hcap
  | writtenCap hchecked =>
    cases hcap
    exact (committed_le_recorded hc).trans (hc.checked _ _ _ hchecked)
  | clearCap => cases hcap
  | _ => exact (hd.committed rfl).trans (hc.capped cap hcap)

theorem checked_of_effect {l : Step} (h : Effect s l t) (hc : Covered s) {n cap supply : Nat}
    (hchecked : t.capChanges n = .checked cap supply) : supply ≤ cap := by
  -- A cap change that does not move.
  have hother : ∀ {m : Nat} {c : CapChange}, Function.update s.capChanges m c n = .checked cap supply →
      (c = .checked cap supply → supply ≤ cap) → supply ≤ cap := by
    intro m c hupdate heq
    by_cases hn : n = m
    · rw [hn, Function.update_self] at hupdate
      exact heq hupdate
    · rw [Function.update_of_ne hn] at hupdate
      exact hc.checked _ _ _ hupdate
  cases h with
  | checkedCap hcap => exact hother hchecked fun heq => by cases heq; exact hcap
  | refusedCap | writtenCap | lostCap => exact hother hchecked fun heq => by cases heq
  | _ => exact hc.checked _ _ _ hchecked

/-- An undisturbed step keeps the record above the mint account. -/
theorem Covered.step {l : Step} (hc : Covered s) (hok : undisturbed s l = true) (h : s.step l = some t) : Covered t := by
  have heffect := effect_of_step h
  constructor
  · exact fun _ _ => mints_of_effect heffect hc.mints
  · exact fun _ _ _ => burns_of_effect heffect hc.burns
  · exact recorded_of_effect heffect hok hc
  · exact fun _ => capped_of_effect heffect hc
  · exact fun _ _ _ => checked_of_effect heffect hc
  · exact refreshes_of_effect heffect hok hc

/-! ## Every run -/

/-- The record covers the mint account. Nothing is in flight. -/
structure Initial (s : System) : Prop where
  recorded : s.chainSupply ≤ s.token.totalSupplyCached
  capped : ∀ cap, s.token.maxSupply = some cap → s.chainSupply ≤ cap
  mints : ∀ id mint, s.mints.find? id = some mint → MintOk s mint ∧ mint.stage ≠ .admitted
  burns : ∀ id burn slot, s.burns.find? id = some burn → burn.landedAt = some slot →
    slot ≤ s.slot ∧ burn.supplyBookkeepingAppliedAt.isSome = true
  refreshes : ∀ n, s.refreshes n = .idle
  capChanges : ∀ n, s.capChanges n = .idle

theorem Initial.covered (h : Initial s) : Covered s := by
  have hout : s.outstanding = 0 := by
    refine List.sum_eq_zero fun n hn => ?_
    obtain ⟨mint, hmint, rfl⟩ := List.mem_map.mp hn
    exact if_neg (h.mints _ mint (Table.mem_rows_iff.mp hmint)).2
  have hunbooked : ∀ slot, s.unbookedSince slot = 0 := by
    intro slot
    refine List.sum_eq_zero fun n hn => ?_
    obtain ⟨burn, hburn, rfl⟩ := List.mem_map.mp hn
    refine if_neg fun ⟨hnone, hafter⟩ => ?_
    obtain ⟨l, hl, -⟩ := (Option.any_eq_true _ _).mp hafter
    have happlied := (h.burns _ burn l (Table.mem_rows_iff.mp hburn) hl).2
    rw [hnone] at happlied
    contradiction
  constructor
  · exact fun id mint hmint => (h.mints id mint hmint).1
  · exact fun id burn slot hburn hland => (h.burns id burn slot hburn hland).1
  · unfold System.load
    rw [hout, hunbooked]
    exact h.recorded
  · intro cap hcap
    rw [hout]
    exact h.capped cap hcap
  · intro n cap supply hchecked
    rw [h.capChanges n] at hchecked
    contradiction
  · intro n
    rw [h.refreshes n]
    trivial

/-- In every run of undisturbed steps the record covers what is and may come on chain, and it fits under the cap. -/
theorem record_covers_chain
    (h : Reachable System.step Initial (fun s l => undisturbed s l = true) s) :
    s.chainSupply + s.outstanding ≤ s.token.totalSupplyCached ∧
      ∀ cap, s.token.maxSupply = some cap → s.chainSupply + s.outstanding ≤ cap := by
  have hc : Covered s := h.invariant (fun _ => Initial.covered) fun _ _ _ _ hc hok ht => hc.step hok ht
  exact ⟨committed_le_recorded hc, hc.capped⟩

/-- A token with 5.00 minted and a cap of 10.00. -/
def deployed : System :=
  { now := 1000000
    slot := 7
    chainSupply := 500
    token := ⟨2, some 1000, 500, some 900000⟩
    mints := Table.empty
    burns := Table.empty
    refreshes := fun _ => .idle
    capChanges := fun _ => .idle
    reservations := 0
    reconciledSlot := 0 }

theorem deployed_initial : Initial deployed where
  recorded := by decide
  capped := by simp [deployed]
  mints := by simp [deployed]
  burns := by simp [deployed]
  refreshes _ := rfl
  capChanges _ := rfl

/-- A booked burn, then a refresh while a mint is in flight. -/
theorem refresh_keeps_reservation :
    ∃ s, Reachable System.step Initial (fun s l => undisturbed s l = true) s ∧
      (s.chainSupply, s.outstanding, s.token.totalSupplyCached) = (100, 500, 600) ∧
      s.chainSupply + s.outstanding ≤ s.token.totalSupplyCached ∧
      ∀ cap, s.token.maxSupply = some cap → s.chainSupply + s.outstanding ≤ cap := by
  have hrun : ((run (fun u l => if undisturbed u l then u.step l else none) deployed
      [.createMint 1 "5", .reserveMint 1 1000000, .admitBurn 1 "4.00", .landBurn 1, .bookkeepBurn 1 1000000,
        .readSupply 0, .callRefresh 0, .resolveRefresh 0, .writeRefresh 0]).map
      fun s => (s.chainSupply, s.outstanding, s.token.totalSupplyCached)) = some (100, 500, 600) := by rfl
  obtain ⟨s, hs, hvalues⟩ := Option.map_eq_some_iff.mp hrun
  have hreach := (Reachable.start deployed_initial).run_checked hs
  exact ⟨s, hreach, hvalues, record_covers_chain hreach⟩

def refreshSteps : List Step := [.readSupply 0, .callRefresh 0, .resolveRefresh 0, .writeRefresh 0]

/-- The refresh does not count a mint of `4.`. -/
def uncountedRun : List Step :=
  [.createMint 1 "4.", .reserveMint 1 1000000] ++ refreshSteps ++
    [.createMint 2 "5", .reserveMint 2 1000000, .landMint 1, .landMint 2]

/-- The refresh overwrites a reservation. -/
def overwrittenRun : List Step :=
  [.createMint 1 "4", .readSupply 0, .callRefresh 0, .resolveRefresh 0, .reserveMint 1 1000000, .writeRefresh 0,
    .createMint 2 "5", .reserveMint 2 1000000, .landMint 1, .landMint 2]

/-- A mint lands and is confirmed between the reading and the refresh. -/
def unseenRun : List Step :=
  [.createMint 1 "4", .reserveMint 1 1000000, .readSupply 0, .landMint 1, .updateMint 1 .confirmed, .callRefresh 0,
    .resolveRefresh 0, .writeRefresh 0, .createMint 2 "5", .reserveMint 2 1000000, .landMint 2]

/-- A burn is booked after a refresh has accounted for it. -/
def bookedTwiceRun : List Step :=
  [.createMint 1 "5", .reserveMint 1 1000000, .admitBurn 1 "4", .landBurn 1] ++ refreshSteps ++
    [.bookkeepBurn 1 1000000, .createMint 2 "8", .reserveMint 2 1000000, .landMint 1, .landMint 2]

/-- A run of the code with more on chain than the cap. -/
def ExceedsCap (steps : List Step) : Prop :=
  ∃ s, run System.step deployed steps = some s ∧ Reachable System.step Initial anyStep s ∧
    s.token.maxSupply = some 1000 ∧ 1000 < s.chainSupply

theorem exceedsCap_of_run {steps : List Step} {n : Nat} (hn : 1000 < n)
    (hrun : ((run System.step deployed steps).map fun s => (s.token.maxSupply, s.chainSupply)) = some (some 1000, n)) :
    ExceedsCap steps := by
  obtain ⟨s, hs, hvalues⟩ := Option.map_eq_some_iff.mp hrun
  obtain ⟨hmax, rfl⟩ := Prod.mk.inj hvalues
  exact ⟨s, hs, (Reachable.start deployed_initial).run hs, hmax, hn⟩

theorem disturbed_runs_exceed_cap :
    ExceedsCap uncountedRun ∧ ExceedsCap overwrittenRun ∧ ExceedsCap unseenRun ∧ ExceedsCap bookedTwiceRun := by
  refine ⟨exceedsCap_of_run (n := 1400) (by decide) ?_, exceedsCap_of_run (n := 1400) (by decide) ?_,
    exceedsCap_of_run (n := 1400) (by decide) ?_, exceedsCap_of_run (n := 1400) (by decide) ?_⟩
  · rfl
  · rfl
  · rfl
  · rfl

end Sdp.Issuance
