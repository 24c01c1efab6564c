import Sdp.TokenSupply

/-!
# Settled burns

A burn is booked once. The booking takes its amount off the record when nothing has moved
`total_supply_updated_at` since its admission.
-/

open Sdp.Lib

namespace Sdp.Issuance

variable {s t : System}

/-! ## What is counted -/

def MintStage.isReserved : MintStage → Bool
  | .admitted | .landed _ | .expired => true
  | .created | .refused => false

def MintTransaction.reserved (mint : MintTransaction) : Nat :=
  if mint.stage.isReserved then mint.amountBaseUnits else 0

def BurnTransaction.booked (burn : BurnTransaction) : Nat :=
  if burn.supplyBookkeepingAppliedAt.isSome then burn.amountBaseUnits else 0

def BurnTransaction.settled (burn : BurnTransaction) : Nat :=
  if burn.landedAt.isSome then burn.amountBaseUnits else 0

namespace System

def reserved (s : System) : Nat := s.mints.sum MintTransaction.reserved

def booked (s : System) : Nat := s.burns.sum BurnTransaction.booked

def settled (s : System) : Nat := s.burns.sum BurnTransaction.settled

end System

/-! ## The condition -/

/-- The first booking of a burn finds the stamp of its admission and a record that has its amount. -/
def booksWhole (s : System) : Step → Bool
  | .bookkeepBurn id _ =>
    match s.burns.find? id with
    | some burn =>
      burn.supplyBookkeepingAppliedAt.isSome ||
        (!supplyChangedSinceAdmission s.token burn && burn.amountBaseUnits ≤ s.token.totalSupplyCached)
    | none => true
  | _ => true

/-- Or a refresh is written that had read the chain after the burn. -/
def booksOnce (s : System) : Step → Bool
  | .bookkeepBurn id time =>
    booksWhole s (.bookkeepBurn id time) || (s.burns.find? id).any fun burn => !burn.landedAfter s.reconciledSlot
  | _ => true

def Step.writesRefresh : Step → Bool
  | .writeRefresh _ => true
  | _ => false

/-! ## One step -/

/-- The record moves by what is reserved and what is booked. -/
def Balanced (s t : System) : Prop :=
  t.token.totalSupplyCached + t.booked + s.reserved = s.token.totalSupplyCached + s.booked + t.reserved

theorem reserved_setMint {id : Nat} {mint : MintTransaction} (hmint : s.mints.find? id = some mint)
    (stage : MintStage) : (s.setMint id stage).reserved + mint.reserved = s.reserved + (setStage stage mint).reserved :=
  Table.sum_set hmint (setStage stage) (fun _ => rfl) _

theorem reserved_setMint_same {id : Nat} {mint : MintTransaction} (hmint : s.mints.find? id = some mint)
    (stage : MintStage) (hsame : stage.isReserved = mint.stage.isReserved) :
    (s.setMint id stage).reserved = s.reserved := by
  have hsum := reserved_setMint hmint stage
  have hrow : (setStage stage mint).reserved = mint.reserved := by
    unfold MintTransaction.reserved
    rw [show (setStage stage mint).stage.isReserved = mint.stage.isReserved from hsame]
    rfl
  omega

theorem applySettledBurnSupply_whole {token token' : IssuedToken} {burn burn' : BurnTransaction} {now slot : Nat}
    (h : applySettledBurnSupply token burn now slot = (token', burn'))
    (hnone : burn.supplyBookkeepingAppliedAt = none) (hchanged : supplyChangedSinceAdmission token burn = false)
    (hle : burn.amountBaseUnits ≤ token.totalSupplyCached) :
    token'.totalSupplyCached + burn.amountBaseUnits = token.totalSupplyCached ∧
      burn'.subtracted = burn.amountBaseUnits := by
  simp only [applySettledBurnSupply, hnone, hchanged, Option.isSome_none, Bool.false_eq_true, if_false] at h
  cases h
  simp only
  omega

theorem balanced_bookkeepBurn {id time : Nat} {burn burn' : BurnTransaction} {token : IssuedToken}
    (hburn : s.burns.find? id = some burn)
    (hbook : applySettledBurnSupply s.token burn time s.reconciledSlot = (token, burn'))
    (hwhole : booksWhole s (.bookkeepBurn id time) = true) :
    Balanced s { s with token, burns := s.burns.update id (fun _ => true) (setBooked burn') fun _ => rfl } := by
  obtain ⟨-, hamount, -, happlied⟩ := applySettledBurnSupply_row hbook
  have hsum := Table.sum_set hburn (setBooked burn') (fun _ => rfl) BurnTransaction.booked
  have hafter : (setBooked burn' burn).booked = burn.amountBaseUnits := (if_pos happlied).trans hamount
  simp only [booksWhole, hburn, Bool.or_eq_true, Bool.and_eq_true, Bool.not_eq_true', decide_eq_true_eq] at hwhole
  unfold Balanced
  simp only [System.booked, System.reserved]
  by_cases hfirst : burn.supplyBookkeepingAppliedAt = none
  · have hbefore : burn.booked = 0 := if_neg (by simp [hfirst])
    obtain ⟨hchanged, hle⟩ := hwhole.resolve_left (by simp [hfirst])
    have htaken := (applySettledBurnSupply_whole hbook hfirst hchanged hle).1
    omega
  · have hsome := Option.isSome_iff_ne_none.mpr hfirst
    have hbefore : burn.booked = burn.amountBaseUnits := if_pos hsome
    have hsame : token = s.token := by
      rw [applySettledBurnSupply, if_pos hsome] at hbook
      exact (Prod.mk.inj hbook).1.symm
    rw [hsame]
    omega

theorem balanced_of_effect {l : Step} (h : Effect s l t) (hwhole : booksWhole s l = true)
    (hrefresh : l.writesRefresh = false) : Balanced s t := by
  cases h with
  | createMint hnew =>
    refine congrArg (s.token.totalSupplyCached + s.booked + ·) (Eq.symm ?_)
    exact Table.sum_insertNew hnew _
  | @reserved id _ mint token hmint hstage htoken =>
    obtain ⟨hcached, -⟩ := reserveMintSupply_eq_some htoken
    have hsum := reserved_setMint hmint
      (if s.now ≤ mint.updatedAt + mintInFlightWindowMs then .admitted else .expired)
    have hbefore : mint.reserved = 0 := by
      unfold MintTransaction.reserved
      rw [hstage]
      rfl
    have hafter : (setStage (if s.now ≤ mint.updatedAt + mintInFlightWindowMs then .admitted else .expired)
        mint).reserved = mint.amountBaseUnits := by
      refine if_pos ?_
      simp only [setStage]
      split
      · rfl
      · rfl
    change token.totalSupplyCached + s.booked + s.reserved =
      s.token.totalSupplyCached + s.booked + (s.setMint id _).reserved
    omega
  | refused hmint hstage =>
    have hsame := reserved_setMint_same hmint .refused (by rw [hstage]; rfl)
    exact congrArg (s.token.totalSupplyCached + s.booked + ·) hsame.symm
  | @updateMint _ status _ hmint =>
    have hsum := Table.sum_set hmint (setStatus status s.now) (fun _ => rfl) MintTransaction.reserved
    exact congrArg (s.token.totalSupplyCached + s.booked + ·) (Nat.add_right_cancel hsum).symm
  | landMint hmint hstage =>
    have hsame := reserved_setMint_same hmint (.landed (s.slot + 1)) (by rw [hstage]; rfl)
    exact congrArg (s.token.totalSupplyCached + s.booked + ·) hsame.symm
  | expireMint hmint hstage =>
    have hsame := reserved_setMint_same hmint .expired (by rw [hstage]; rfl)
    exact congrArg (s.token.totalSupplyCached + s.booked + ·) hsame.symm
  | admitBurn hnew =>
    refine congrArg (s.token.totalSupplyCached + · + s.reserved) ?_
    exact Table.sum_insertNew hnew _
  | landBurn hburn =>
    have hsum := Table.sum_set hburn (setLanded (s.slot + 1)) (fun _ => rfl) BurnTransaction.booked
    exact congrArg (s.token.totalSupplyCached + · + s.reserved) (Nat.add_right_cancel hsum)
  | bookkeepBurn hburn _ hbook => exact balanced_bookkeepBurn hburn hbook hwhole
  | writeRefresh => contradiction
  | _ => rfl

/-! ## The rows -/

theorem burn_of_effect {l : Step} (h : Effect s l t) {id : Nat} {burn : BurnTransaction}
    (hburn : t.burns.find? id = some burn) :
    s.burns.find? id = some burn ∨
      (burn.landedAt = none ∧ burn.supplyBookkeepingAppliedAt = none ∧ s.burns.find? id = none) ∨
      (∃ old, s.burns.find? id = some old ∧ old.landedAt = none ∧ burn = setLanded (s.slot + 1) old) ∨
      ∃ old time token, s.burns.find? id = some old ∧ l = .bookkeepBurn id time ∧ old.landedAt.isSome = true ∧
        applySettledBurnSupply s.token old time s.reconciledSlot = (token, burn) := by
  cases h with
  | admitBurn hnew =>
    rw [Table.find?_insertNew] at hburn
    split at hburn
    · next hid =>
      subst hid
      rw [hnew] at hburn
      cases hburn
      exact .inr (.inl ⟨rfl, rfl, hnew⟩)
    · exact .inl hburn
  | @landBurn _ old hold hland =>
    obtain ⟨r, hr, rfl | ⟨rfl, -, rfl⟩⟩ := Table.row_of_update (setLanded_id _) hburn
    · exact .inl hr
    · obtain rfl : old = r := Option.some.inj (hold.symm.trans hr)
      exact .inr (.inr (.inl ⟨old, hr, hland, rfl⟩))
  | @bookkeepBurn id₀ time old burn' token hold hland hbook =>
    obtain ⟨r, hr, rfl | ⟨rfl, -, rfl⟩⟩ := Table.row_of_update (setBooked_id _) hburn
    · exact .inl hr
    · obtain rfl : old = r := Option.some.inj (hold.symm.trans hr)
      have hrow : setBooked burn' old = burn' := by
        rw [setBooked, ← (applySettledBurnSupply_row hbook).1]
      rw [hrow]
      exact .inr (.inr (.inr ⟨old, time, token, hr, rfl, hland, hbook⟩))
  | _ => exact .inl hburn

/-- Only settled burns are booked. -/
def BookedSettled (s : System) : Prop :=
  ∀ id burn, s.burns.find? id = some burn → burn.supplyBookkeepingAppliedAt.isSome = true →
    burn.landedAt.isSome = true

theorem BookedSettled.step {l : Step} (hs : BookedSettled s) (h : Effect s l t) : BookedSettled t := by
  intro id burn hburn happlied
  obtain hold | ⟨-, hnone, -⟩ | ⟨old, -, -, rfl⟩ | ⟨old, time, token, -, -, hland, hbook⟩ := burn_of_effect h hburn
  · exact hs id burn hold happlied
  · rw [hnone] at happlied
    contradiction
  · rfl
  · rw [(applySettledBurnSupply_row hbook).2.2.1]
    exact hland

/-- A booked burn was subtracted whole, or a refresh that had read the chain after it was written before. -/
def Reflected (burn : BurnTransaction) : Prop :=
  burn.subtracted = burn.amountBaseUnits ∨ burn.landedAfter burn.reconciledSlot = false

theorem reflected_of_booking {id time : Nat} {token : IssuedToken} {old burn : BurnTransaction}
    (hold : s.burns.find? id = some old) (hnone : old.supplyBookkeepingAppliedAt = none)
    (hbook : applySettledBurnSupply s.token old time s.reconciledSlot = (token, burn))
    (honce : booksOnce s (.bookkeepBurn id time) = true) : Reflected burn := by
  have hrow := applySettledBurnSupply_row hbook
  have hslot : burn.reconciledSlot = s.reconciledSlot := by
    unfold applySettledBurnSupply at hbook
    rw [hnone] at hbook
    split at hbook
    · contradiction
    · split at hbook
      · cases hbook; rfl
      · cases hbook; rfl
  simp only [booksOnce, booksWhole, hold, hnone, Option.isSome_none, Bool.false_or, Option.any_some,
    Bool.or_eq_true, Bool.and_eq_true, Bool.not_eq_true', decide_eq_true_eq] at honce
  obtain ⟨hchanged, hle⟩ | haccounted := honce
  · left
    rw [hrow.2.1]
    exact (applySettledBurnSupply_whole hbook hnone hchanged hle).2
  · right
    rw [hslot, BurnTransaction.landedAfter, hrow.2.2.1]
    exact haccounted

/-! ## Every run -/

/-- The burns that were not booked in an earlier state. -/
def FirstBooked (s₀ : System) (id : Nat) : Prop :=
  ∀ burn, s₀.burns.find? id = some burn → burn.supplyBookkeepingAppliedAt = none

theorem balanced_of_reachable {s₀ : System}
    (h : Reachable System.step (· = s₀) (fun s l => booksWhole s l = true ∧ l.writesRefresh = false) s) :
    Balanced s₀ s := by
  induction h with
  | start h => subst h; rfl
  | step _ hok ht ih =>
    have hstep := balanced_of_effect (effect_of_step ht) hok.1 hok.2
    unfold Balanced at ih hstep ⊢
    omega

theorem bookedSettled_of_reachable {s₀ : System} {ok : System → Step → Prop} (h₀ : BookedSettled s₀)
    (h : Reachable System.step (· = s₀) ok s) : BookedSettled s :=
  h.invariant (fun _ hs => hs ▸ h₀) fun _ _ _ _ hs _ ht => hs.step (effect_of_step ht)

/-- When every settled burn is booked, the bookings are the burns. -/
theorem booked_eq_settled (hs : BookedSettled s)
    (hall : ∀ id burn, s.burns.find? id = some burn → burn.landedAt.isSome = true →
      burn.supplyBookkeepingAppliedAt.isSome = true) : s.booked = s.settled := by
  refine Table.sum_congr fun id burn hburn => ?_
  have hiff : burn.supplyBookkeepingAppliedAt.isSome = burn.landedAt.isSome :=
    Bool.eq_iff_iff.mpr ⟨hs id burn hburn, hall id burn hburn⟩
  unfold BurnTransaction.booked BurnTransaction.settled
  rw [hiff]

theorem reflected_of_reachable {s₀ : System}
    (h : Reachable System.step (· = s₀) (fun s l => booksOnce s l = true) s) :
    ∀ id burn, s.burns.find? id = some burn → FirstBooked s₀ id → burn.supplyBookkeepingAppliedAt.isSome = true →
      Reflected burn ∧ burn.landedAt.isSome = true := by
  induction h with
  | start h =>
    subst h
    intro id burn hburn hfirst happlied
    rw [hfirst burn hburn] at happlied
    contradiction
  | @step u v l _ hok ht ih =>
    intro id burn hburn hfirst happlied
    obtain hold | ⟨-, hnone, -⟩ | ⟨old, hold, hland, rfl⟩ | ⟨old, time, token, hold, rfl, hland, hbook⟩ :=
      burn_of_effect (effect_of_step ht) hburn
    · exact ih id burn hold hfirst happlied
    · rw [hnone] at happlied
      contradiction
    · have hsome := (ih id old hold hfirst happlied).2
      rw [hland] at hsome
      contradiction
    · by_cases hnone : old.supplyBookkeepingAppliedAt = none
      · refine ⟨reflected_of_booking hold hnone hbook hok, ?_⟩
        rw [(applySettledBurnSupply_row hbook).2.2.1]
        exact hland
      · have hsome := Option.isSome_iff_ne_none.mpr hnone
        obtain rfl : old = burn := by
          rw [applySettledBurnSupply, if_pos hsome] at hbook
          exact (Prod.mk.inj hbook).2
        exact ih id old hold hfirst hsome

/-- Without a refresh the record is what was reserved less what was burned, once every settled burn is booked. With
refreshes a booked burn was subtracted, or a refresh that had read the chain after it accounts for it. -/
theorem settled_burns_counted_once (s₀ : System) (hrows : BookedSettled s₀) :
    (∀ s, Reachable System.step (· = s₀) (fun s l => booksWhole s l = true ∧ l.writesRefresh = false) s →
      (∀ id burn, s.burns.find? id = some burn → burn.landedAt.isSome = true →
        burn.supplyBookkeepingAppliedAt.isSome = true) →
      (s.token.totalSupplyCached : Int) =
        s₀.token.totalSupplyCached + (s.reserved - s₀.reserved) - (s.settled - s₀.booked)) ∧
    ∀ s, Reachable System.step (· = s₀) (fun s l => booksOnce s l = true) s →
      ∀ id burn, s.burns.find? id = some burn → FirstBooked s₀ id → burn.supplyBookkeepingAppliedAt.isSome = true →
        burn.subtracted = burn.amountBaseUnits ∨
          ∃ slot, burn.landedAt = some slot ∧ slot ≤ burn.reconciledSlot := by
  refine ⟨fun s h hall => ?_, fun s h id burn hburn hfirst happlied => ?_⟩
  · have hbalanced := balanced_of_reachable h
    have hbooked := booked_eq_settled (bookedSettled_of_reachable hrows h) hall
    unfold Balanced at hbalanced
    omega
  · obtain ⟨hreflected, hland⟩ := reflected_of_reachable h id burn hburn hfirst happlied
    refine hreflected.imp_right fun hafter => ?_
    obtain ⟨slot, hslot⟩ := Option.isSome_iff_exists.mp hland
    refine ⟨slot, hslot, ?_⟩
    simpa [BurnTransaction.landedAfter, hslot] using hafter

/-- A mint is reserved, then a burn is admitted, lands and is booked twice. -/
theorem booked_burn_is_subtracted :
    ∃ s, Reachable System.step (· = deployed) (fun s l => booksWhole s l = true ∧ l.writesRefresh = false) s ∧
      (s.reserved, s.settled) = (300, 400) ∧ (s.token.totalSupplyCached : Int) = 500 + (300 - 0) - (400 - 0) := by
  have hrun : ((run (fun u l => if booksWhole u l && !l.writesRefresh then u.step l else none) deployed
      [.createMint 1 "3", .reserveMint 1 1000000, .admitBurn 1 "4", .landBurn 1, .bookkeepBurn 1 1000000,
        .bookkeepBurn 1 1000000]).map fun s => ((s.reserved, s.settled), s.burns.rows.all fun burn =>
          burn.supplyBookkeepingAppliedAt.isSome)) = some ((300, 400), true) := by rfl
  obtain ⟨s, hs, hvalues⟩ := Option.map_eq_some_iff.mp hrun
  obtain ⟨hcounts, hall⟩ := Prod.mk.inj hvalues
  obtain ⟨hreserved, hsettled⟩ := Prod.mk.inj hcounts
  have hstart : Reachable System.step (· = deployed) (fun u l => (booksWhole u l && !l.writesRefresh) = true)
      deployed := .start rfl
  have hreach := (hstart.run_checked hs).weaken (fun u l hok => by simpa using hok :
    ∀ u l, _ → booksWhole u l = true ∧ l.writesRefresh = false)
  have hrows : BookedSettled deployed := fun id burn hburn => by simp [deployed] at hburn
  refine ⟨s, hreach, hcounts, ?_⟩
  have hrecord := (settled_burns_counted_once deployed hrows).1 s hreach fun id burn hburn _ =>
    List.all_eq_true.mp hall burn (Table.find?_eq_some_iff.mp hburn).1
  rw [hreserved, hsettled] at hrecord
  exact hrecord

/-- A reservation between the admission and the booking of a burn moves the stamp: the burn is never subtracted. -/
theorem reservation_hides_burn :
    ∃ s, Reachable System.step (· = deployed) (fun _ l => l.writesRefresh = false) s ∧
      (∀ id burn, s.burns.find? id = some burn → burn.landedAt.isSome = true →
        burn.supplyBookkeepingAppliedAt.isSome = true) ∧
      (s.token.totalSupplyCached : Int) ≠ 500 + s.reserved - s.settled := by
  have hrun : ((run System.step deployed
      [.admitBurn 1 "4", .createMint 1 "3", .reserveMint 1 1000000, .landBurn 1, .bookkeepBurn 1 1000000]).map
      fun s => ((s.reserved, s.settled, s.token.totalSupplyCached), s.burns.rows.all fun burn =>
        burn.supplyBookkeepingAppliedAt.isSome)) = some ((300, 400, 800), true) := by rfl
  obtain ⟨s, hs, hvalues⟩ := Option.map_eq_some_iff.mp hrun
  obtain ⟨hcounts, hall⟩ := Prod.mk.inj hvalues
  simp only [Prod.mk.injEq] at hcounts
  have hstart : Reachable System.step (· = deployed) (fun _ l => l.writesRefresh = false) deployed := .start rfl
  refine ⟨s, hstart.run_of (fun u l hl => ?_) hs, fun id burn hburn _ => ?_, ?_⟩
  · simp only [List.mem_cons, List.not_mem_nil, or_false] at hl
    rcases hl with rfl | rfl | rfl | rfl | rfl <;> rfl
  · exact List.all_eq_true.mp hall burn (Table.find?_eq_some_iff.mp hburn).1
  · omega

end Sdp.Issuance
