import Sdp.Code.EarnClaims

/-!
# A batch of unsettled movements is full and fair

Each of the two classes gets its quota, and what one of them leaves over goes to the other.
-/

open Sdp.Lib

namespace Sdp.Earn

variable {t : MovementQueue} {locked : Nat → Bool}

/-! ## Selections -/

theorem countP_ids {p : QueuedMovement → Bool} {ids : List Nat} (hnodup : ids.Nodup)
    (hrows : ∀ id ∈ ids, ∃ m ∈ t.rows, m.id = id ∧ p m = true) :
    t.rows.countP (fun m => p m && m.id ∈ ids) = ids.length := by
  have hfiltered : ((t.rows.filter fun m => p m && m.id ∈ ids).map (·.id)).Nodup :=
    t.primaryKey.sublist (List.filter_sublist.map _)
  have hperm : ((t.rows.filter fun m => p m && m.id ∈ ids).map (·.id)).Perm ids := by
    refine (List.perm_ext_iff_of_nodup hfiltered hnodup).mpr fun id => ?_
    simp only [List.mem_map, List.mem_filter, Bool.and_eq_true, decide_eq_true_eq]
    constructor
    · rintro ⟨m, ⟨-, -, hm⟩, rfl⟩
      exact hm
    · intro hid
      obtain ⟨m, hm, rfl, hp⟩ := hrows id hid
      exact ⟨m, ⟨hm, hp, hid⟩, rfl⟩
  rw [List.countP_eq_length_filter, ← List.length_map (f := (·.id)), hperm.length_eq]

section Select

variable {condition : QueuedMovement → Bool} {before : QueuedMovement → QueuedMovement → Prop} [DecidableRel before]
  {limit : Nat}

theorem nodup_selectForUpdate : (selectForUpdate t locked condition before limit).Nodup := by
  have hperm := List.perm_insertionSort before (t.rows.filter fun m => condition m && !locked m.id)
  have hnodup : ((t.rows.filter fun m => condition m && !locked m.id).map (·.id)).Nodup :=
    t.primaryKey.sublist (List.filter_sublist.map _)
  exact ((hperm.map (·.id)).nodup_iff.mpr hnodup).sublist ((List.take_sublist _ _).map _)

theorem mem_selectForUpdate {id : Nat} (h : id ∈ selectForUpdate t locked condition before limit) :
    ∃ m ∈ t.rows, m.id = id ∧ condition m = true := by
  obtain ⟨m, hm, rfl⟩ := List.mem_map.mp h
  have hm := List.mem_filter.mp ((List.mem_insertionSort before).mp (List.mem_of_mem_take hm))
  exact ⟨m, hm.1, rfl, (Bool.and_eq_true_iff.mp hm.2).1⟩

theorem length_selectForUpdate (hlocked : ∀ m ∈ t.rows, condition m = true → locked m.id = false) :
    (selectForUpdate t locked condition before limit).length = min limit (t.rows.countP condition) := by
  unfold selectForUpdate
  rw [List.length_map, List.length_take, List.length_insertionSort, ← List.countP_eq_length_filter]
  congr 1
  refine List.countP_congr fun m hm => ?_
  simp only [Bool.and_eq_true, Bool.not_eq_true', and_iff_left_iff_imp]
  exact hlocked m hm

end Select

/-! ## The batch -/

theorem confirmedQuota_le (limit : Nat) : confirmedQuota limit ≤ limit := by
  unfold confirmedQuota
  split <;> omega

theorem not_confirmed_of_blockhashBound {m : QueuedMovement} (h : m.blockhashBound = true) : m.confirmed = false := by
  simp only [QueuedMovement.blockhashBound, QueuedMovement.confirmed, decide_eq_true_eq, decide_eq_false_iff_not] at h ⊢
  rintro ⟨-, hconfirmed⟩
  rw [hconfirmed] at h
  simp at h

/-- What is claimed, in parts. -/
structure Claimed (t : MovementQueue) (limit : Nat) (ids : List Nat) : Prop where
  nodup : ids.Nodup
  length : ids.length = min limit (t.rows.countP (·.unsettled))
  rows : ∀ id ∈ ids, ∃ m ∈ t.rows, m.id = id ∧ m.unsettled = true
  confirmed : min (confirmedQuota limit) (t.rows.countP (·.confirmed)) ≤
    t.rows.countP fun m => m.confirmed && m.id ∈ ids
  blockhashBound : min (limit - confirmedQuota limit) (t.rows.countP (·.blockhashBound)) ≤
    t.rows.countP fun m => m.blockhashBound && m.id ∈ ids

theorem row_unique {m m' : QueuedMovement} (hm : m ∈ t.rows) (hm' : m' ∈ t.rows) (h : m.id = m'.id) : m = m' := by
  have hfind := Table.mem_rows_iff.mp hm
  rw [h] at hfind
  exact Option.some.inj (hfind.symm.trans (Table.mem_rows_iff.mp hm'))

theorem countP_rest {p : QueuedMovement → Bool} {ids : List Nat} (hnodup : ids.Nodup)
    (hrows : ∀ id ∈ ids, ∃ m ∈ t.rows, m.id = id ∧ p m = true) :
    ids.length + t.rows.countP (fun m => p m && m.id ∉ ids) = t.rows.countP p := by
  rw [← countP_ids hnodup hrows]
  induction t.rows with
  | nil => rfl
  | cons m rows ih =>
    simp only [List.countP_cons, decide_not] at ih ⊢
    by_cases hp : p m = true
    · by_cases hmem : m.id ∈ ids
      · simp [hp, hmem]
        omega
      · simp [hp, hmem]
        omega
    · simp [hp]
      omega

theorem countP_le_of_subset {p : QueuedMovement → Bool} {part ids : List Nat} (hnodup : part.Nodup)
    (hrows : ∀ id ∈ part, ∃ m ∈ t.rows, m.id = id ∧ p m = true) (hsub : part ⊆ ids) :
    part.length ≤ t.rows.countP fun m => p m && m.id ∈ ids := by
  rw [← countP_ids hnodup hrows]
  refine List.countP_mono_left fun m _ h => ?_
  simp only [Bool.and_eq_true, decide_eq_true_eq] at h ⊢
  exact ⟨h.1, hsub h.2⟩

theorem claimed_claimedIds (hlocked : ∀ m ∈ t.rows, m.unsettled = true → locked m.id = false) (limit : Nat) :
    Claimed t limit (claimedIds t locked limit) := by
  unfold claimedIds
  dsimp only
  set bound := selectForUpdate t locked (·.blockhashBound) QueuedMovement.attemptedBefore (limit - confirmedQuota limit)
    with hbound
  set confirmed := selectForUpdate t locked (·.confirmed) QueuedMovement.attemptedBefore (confirmedQuota limit)
    with hconfirmed
  set overflow := selectForUpdate t locked (fun m => m.unsettled && m.id ∉ bound ++ confirmed)
    QueuedMovement.overflowBefore (limit - (bound ++ confirmed).length) with hoverflow
  have hboundRows : ∀ id ∈ bound, ∃ m ∈ t.rows, m.id = id ∧ m.blockhashBound = true := fun _ => mem_selectForUpdate
  have hconfirmedRows : ∀ id ∈ confirmed, ∃ m ∈ t.rows, m.id = id ∧ m.confirmed = true := fun _ => mem_selectForUpdate
  have hreservedRows : ∀ id ∈ bound ++ confirmed, ∃ m ∈ t.rows, m.id = id ∧ m.unsettled = true := by
    intro id hid
    rcases List.mem_append.mp hid with hid | hid
    · obtain ⟨m, hm, hkey, hclass⟩ := hboundRows id hid
      exact ⟨m, hm, hkey, by simp [QueuedMovement.unsettled, hclass]⟩
    · obtain ⟨m, hm, hkey, hclass⟩ := hconfirmedRows id hid
      exact ⟨m, hm, hkey, by simp [QueuedMovement.unsettled, hclass]⟩
  have hreserved : (bound ++ confirmed).Nodup := by
    refine nodup_selectForUpdate.append nodup_selectForUpdate fun id hid hid' => ?_
    obtain ⟨m, hm, hkey, hclass⟩ := hboundRows id hid
    obtain ⟨m', hm', hkey', hclass'⟩ := hconfirmedRows id hid'
    obtain rfl := row_unique hm hm' (hkey.trans hkey'.symm)
    exact absurd (not_confirmed_of_blockhashBound hclass) (by simp [hclass'])
  have hoverflowRows : ∀ id ∈ overflow, ∃ m ∈ t.rows, m.id = id ∧ m.unsettled = true ∧ id ∉ bound ++ confirmed := by
    intro id hid
    obtain ⟨m, hm, hkey, hclass⟩ := mem_selectForUpdate hid
    simp only [Bool.and_eq_true, decide_eq_true_eq] at hclass
    exact ⟨m, hm, hkey, hclass.1, hkey ▸ hclass.2⟩
  have hboundLength : bound.length = min (limit - confirmedQuota limit) (t.rows.countP (·.blockhashBound)) :=
    length_selectForUpdate fun m hm hclass => hlocked m hm (by simp [QueuedMovement.unsettled, hclass])
  have hconfirmedLength : confirmed.length = min (confirmedQuota limit) (t.rows.countP (·.confirmed)) :=
    length_selectForUpdate fun m hm hclass => hlocked m hm (by simp [QueuedMovement.unsettled, hclass])
  have hoverflowLength : overflow.length = min (limit - (bound ++ confirmed).length)
      (t.rows.countP fun m => m.unsettled && m.id ∉ bound ++ confirmed) :=
    length_selectForUpdate fun m hm hclass => hlocked m hm (Bool.and_eq_true_iff.mp hclass).1
  refine ⟨?_, ?_, ?_, ?_, ?_⟩
  · refine hreserved.append nodup_selectForUpdate fun id hid hid' => ?_
    obtain ⟨-, -, -, -, hnot⟩ := hoverflowRows id hid'
    exact hnot hid
  · have hrest : (bound ++ confirmed).length + _ = t.rows.countP (·.unsettled) := countP_rest hreserved hreservedRows
    have hquota := confirmedQuota_le limit
    have hlength : (bound ++ confirmed).length = bound.length + confirmed.length := List.length_append
    rw [List.length_append, hoverflowLength]
    omega
  · intro id hid
    rcases List.mem_append.mp hid with hid | hid
    · exact hreservedRows id hid
    · obtain ⟨m, hm, hkey, hclass, -⟩ := hoverflowRows id hid
      exact ⟨m, hm, hkey, hclass⟩
  · exact hconfirmedLength ▸ countP_le_of_subset nodup_selectForUpdate hconfirmedRows fun id hid =>
      List.mem_append_left _ (List.mem_append_right _ hid)
  · exact hboundLength ▸ countP_le_of_subset nodup_selectForUpdate hboundRows fun id hid =>
      List.mem_append_left _ (List.mem_append_left _ hid)

/-! ## What is returned -/

/-- What the statement does to a row that it claims. -/
def QueuedMovement.touched (now : Nat) (m : QueuedMovement) : QueuedMovement :=
  { m with reconciliationAttemptedAt := some now }

/-- The queue after the statement. -/
def touch (t : MovementQueue) (ids : List Nat) (now : Nat) : MovementQueue :=
  t.updateAll (fun m => m.id ∈ ids) (QueuedMovement.touched now) fun _ => rfl

theorem filter_touch (t : MovementQueue) (ids : List Nat) (now : Nat) :
    ((touch t ids now).rows.filter fun m => m.id ∈ ids) = (t.rows.filter fun m => m.id ∈ ids).map (·.touched now) := by
  show ((t.rows.map fun m => if decide (m.id ∈ ids) = true then m.touched now else m).filter fun m => m.id ∈ ids) = _
  induction t.rows with
  | nil => rfl
  | cons m rows ih =>
    rw [List.map_cons, List.filter_cons, List.filter_cons, ih]
    by_cases hm : m.id ∈ ids
    · have htouched : (m.touched now).id ∈ ids := hm
      simp [hm, htouched]
    · simp [hm]

theorem find?_touch (t : MovementQueue) (ids : List Nat) (now id : Nat) :
    (touch t ids now).find? id = (t.find? id).map fun m => if decide (m.id ∈ ids) = true then m.touched now else m :=
  Table.find?_updateAll t (fun m => m.id ∈ ids) (QueuedMovement.touched now) (fun _ => rfl) id

theorem claim_eq {limit : Nat} (t : MovementQueue) (locked : Nat → Bool) (now : Nat) (hlimit : 1 ≤ limit ∧ limit ≤ 256) :
    claimUnsettledVaultMovements t locked now limit =
      .ok (((t.rows.filter fun m => m.id ∈ claimedIds t locked limit).map (·.touched now)).insertionSort
        QueuedMovement.returnedBefore, touch t (claimedIds t locked limit) now) := by
  have hadmissible : ¬ (limit < 1 ∨ 256 < limit) := by omega
  rw [claimUnsettledVaultMovements, if_neg hadmissible, ← filter_touch]
  rfl

theorem countP_batch {class' : QueuedMovement → Bool} {ids : List Nat} {now : Nat}
    (htouched : ∀ m, class' (m.touched now) = class' m) :
    (((t.rows.filter fun m => m.id ∈ ids).map (·.touched now)).insertionSort
      QueuedMovement.returnedBefore).countP class' = t.rows.countP fun m => class' m && m.id ∈ ids := by
  rw [(List.perm_insertionSort ..).countP_eq, List.countP_map, List.countP_filter]
  exact List.countP_congr fun m _ => by simp [htouched]

/-- Without locks a batch has as many distinct movements as it can, of each class at least its quota, and nothing
happens to the other movements. -/
theorem claim_full_and_fair (t : MovementQueue) (locked : Nat → Bool) (now limit : Nat) (hlimit : 1 ≤ limit ∧ limit ≤ 256)
    (hlocked : ∀ m ∈ t.rows, m.unsettled = true → locked m.id = false) :
    ∃ batch queue, claimUnsettledVaultMovements t locked now limit = .ok (batch, queue) ∧
      (batch.map (·.id)).Nodup ∧ batch.length = min limit (t.rows.countP (·.unsettled)) ∧
      min (confirmedQuota limit) (t.rows.countP (·.confirmed)) ≤ batch.countP (·.confirmed) ∧
      min (limit - confirmedQuota limit) (t.rows.countP (·.blockhashBound)) ≤ batch.countP (·.blockhashBound) ∧
      (∀ m ∈ batch, ∃ m' ∈ t.rows, m'.unsettled = true ∧ m = m'.touched now) ∧
      ∀ id, id ∉ batch.map (·.id) → queue.find? id = t.find? id := by
  obtain ⟨hnodup, hlength, hrows, hconfirmed, hbound⟩ := claimed_claimedIds hlocked limit
  refine ⟨_, _, claim_eq t locked now hlimit, ?_, ?_, ?_, ?_, fun m hm => ?_, fun id hid => ?_⟩
  · have hperm := List.perm_insertionSort QueuedMovement.returnedBefore
      ((t.rows.filter fun m => m.id ∈ claimedIds t locked limit).map (·.touched now))
    rw [(hperm.map (·.id)).nodup_iff, List.map_map]
    exact t.primaryKey.sublist (List.filter_sublist.map _)
  · have hcount := countP_ids (p := fun _ => true) hnodup fun id hid => by
      obtain ⟨m, hm, hkey, -⟩ := hrows id hid
      exact ⟨m, hm, hkey, rfl⟩
    simp only [Bool.true_and] at hcount
    rw [List.length_insertionSort, List.length_map, ← List.countP_eq_length_filter, hcount, hlength]
  · rw [countP_batch fun _ => rfl]
    exact hconfirmed
  · rw [countP_batch fun _ => rfl]
    exact hbound
  · obtain ⟨m', hm', rfl⟩ := List.mem_map.mp ((List.mem_insertionSort _).mp hm)
    obtain ⟨hrow, hid⟩ := List.mem_filter.mp hm'
    obtain ⟨m'', hrow', hkey, hunsettled⟩ := hrows m'.id (of_decide_eq_true hid)
    obtain rfl := row_unique hrow' hrow hkey
    exact ⟨m'', hrow', hunsettled, rfl⟩
  · rw [find?_touch]
    cases hrow : t.find? id with
    | none => rfl
    | some m =>
      have hkey := Table.key_of_find? hrow
      have hkey : m.id = id := hkey
      have hnot : ¬ m.id ∈ claimedIds t locked limit := by
        refine fun hmem => hid (List.mem_map.mpr ⟨m.touched now, ?_, hkey⟩)
        refine (List.mem_insertionSort _).mpr (List.mem_map_of_mem (List.mem_filter.mpr ⟨?_, decide_eq_true hmem⟩))
        exact Table.mem_rows_iff.mpr (hkey ▸ hrow)
      simp [hnot]

/-! ## A batch of four -/

def queued (id : Nat) (status : Status) : QueuedMovement where
  id
  organizationId := 1
  projectId := some 1
  environment := .production
  provider := "kamino"
  executionModel := .vaultDirect
  direction := .deposit
  positionId := 1
  status
  failureReason := none
  confirmedAt := if status = .confirmed then some "2026-01-01T00:00:00.000Z" else none
  settledAt := none
  denomination := "USDC"
  amountRequested := "1"
  amountSettled := none
  feeAmount := none
  minSharesOut := none
  sharesOut := none
  payoutToken := none
  custodyWalletId := some 1
  vaultAddress := some "vault"
  signature := some "signature"
  signedTransaction := some "transaction"
  lastValidBlockHeight := some 1
  requestId := "request"
  idempotencyFingerprint := "fingerprint"
  createdAt := id
  createsShareAccount := false
  shareAtaRentFunder := none
  reconciliationAttemptedAt := none

/-- Five movements that wait for their block height, and one that waits for finality. -/
def queue : MovementQueue where
  rows := [queued 1 .submitted, queued 2 .submitted, queued 3 .requested, queued 4 .submitted, queued 5 .submitted,
    queued 6 .confirmed]
  primaryKey := by decide

theorem queue_claimed : ∃ batch after, claimUnsettledVaultMovements queue (fun _ => false) 100 4 = .ok (batch, after) ∧
    batch.length = 4 ∧ 1 ≤ batch.countP (·.confirmed) ∧ 3 ≤ batch.countP (·.blockhashBound) := by
  obtain ⟨batch, after, hclaim, -, hlength, hconfirmed, hbound, -⟩ :=
    claim_full_and_fair queue (fun _ => false) 100 4 (by decide) fun _ _ _ => rfl
  exact ⟨batch, after, hclaim, hlength, hconfirmed, hbound⟩

end Sdp.Earn
