import Sdp.EarnInvariant

/-!
# Requests of the Earn ledger

At most one vault row has an organization and a request, and at most one custodial row a position and a request. A
call that ends with a row ends with that one; a conflict is with that one; and a vault intent that ends without a row
has left both tables alone.
-/

open Sdp.Lib

namespace Sdp.Earn

variable {s t : System} {n k : Nat}

/-! ## Keys -/

/-- The row holds the organization's request. -/
def Movement.OfRequest (m : Movement) (organizationId : Nat) (requestId : String) : Prop :=
  m.organizationId = organizationId ∧ m.requestId = requestId ∧ m.executionModel = .vaultDirect

theorem findVaultMovementByRequest_some {organizationId : Nat} {requestId : String} {m : Movement}
    (h : s.findVaultMovementByRequest organizationId requestId = some m) :
    s.movements.find? m.id = some m ∧ m.OfRequest organizationId requestId := by
  have hwhere := List.find?_some h
  simp only [Bool.and_eq_true, decide_eq_true_eq] at hwhere
  exact ⟨Table.mem_rows_iff.mp (List.mem_of_find?_eq_some h), hwhere.1.1, hwhere.1.2, hwhere.2⟩

theorem findVaultMovementByRequest_none {organizationId : Nat} {requestId : String} :
    s.findVaultMovementByRequest organizationId requestId = none ↔
      ∀ id m, s.movements.find? id = some m → ¬ m.OfRequest organizationId requestId := by
  unfold System.findVaultMovementByRequest
  rw [List.find?_eq_none]
  constructor
  · rintro hall id m hm ⟨horganization, hrequest, hvault⟩
    have := hall m (Table.find?_eq_some_iff.mp hm).1
    simp [horganization, hrequest, hvault] at this
  · intro hall m hm hwhere
    simp only [Bool.and_eq_true, decide_eq_true_eq] at hwhere
    exact hall m.id m (Table.mem_rows_iff.mp hm) ⟨hwhere.1.1, hwhere.1.2, hwhere.2⟩

theorem Movement.Later.ofRequest {m m' : Movement} (h : m.Later m') {organizationId : Nat} {requestId : String} :
    m'.OfRequest organizationId requestId ↔ m.OfRequest organizationId requestId := by
  have hcolumns := h.column (fun m => (m.organizationId, m.requestId, m.executionModel)) fun _ => rfl
  simp only [Prod.mk.injEq] at hcolumns
  simp only [Movement.OfRequest, hcolumns]

theorem vaultMovement_ofRequest (intent : VaultIntent) (id positionId : Nat) :
    (intent.vaultMovement id positionId).OfRequest intent.common.organizationId intent.common.requestId := by
  cases intent <;> exact ⟨rfl, rfl, rfl⟩

/-- Which rows have a key to themselves, committed and written. -/
structure Keys (s : System) : Prop where
  vault : ∀ id id' m m', s.movements.find? id = some m → s.movements.find? id' = some m' →
    m.executionModel = .vaultDirect → m'.OfRequest m.organizationId m.requestId → id = id'
  custodial : ∀ id id' m m', s.movements.find? id = some m → s.movements.find? id' = some m' →
    m.executionModel = .custodial → m'.executionModel = .custodial → m'.positionId = m.positionId →
      m'.requestId = m.requestId → id = id'
  written : ∀ n m, (s.calls n).movement = some m → s.movements.find? m.id = none →
    s.locks (.request m.organizationId m.requestId) = some n ∧
      s.findVaultMovementByRequest m.organizationId m.requestId = none

/-- How a row in the table after a step relates to the rows before. -/
inductive Origin (s : System) (n : Nat) (m : Movement) : Prop
  | old (m₀ : Movement) (hm₀ : s.movements.find? m.id = some m₀) (hlater : m₀.Later m)
  | vault (hid : m.id = n) (hvault : m.executionModel = .vaultDirect) (hown : (s.calls n).movement = some m)
      (hfresh : s.movements.find? m.id = none)
  | custodial (hid : m.id = n) (hmodel : m.executionModel = .custodial)
      (hkey : ∀ id m', s.movements.find? id = some m' → m'.executionModel = .custodial → m'.positionId = m.positionId →
        m'.requestId ≠ m.requestId)

theorem origin_of_move (hs : Wf s) (h : Move s n t) {id : Nat} {m : Movement} (hm : t.movements.find? id = some m) :
    Origin s n m := by
  obtain rfl := Table.key_of_find? hm
  have hold : s.movements.find? m.id = some m → Origin s n m := fun hm => .old m hm (Std.Refl.refl m)
  cases h with
  | @commit result hstage =>
    have hm : (s.visible n).find? m.id = some m := hm
    unfold System.visible at hm
    cases hown : (s.calls n).movement with
    | none => exact hold (by simpa [hown] using hm)
    | some m' =>
      rw [hown, Option.elim_some, Table.find?_upsert] at hm
      split at hm
      · cases hm
        have hdraft := (hs.owns n).draft m hown
        cases hdraft with
        | intent intent positionId hrequest hrow hchecks hfresh =>
          have hid : m.id = n := by rw [hrow, vaultMovement_id]
          refine .vault hid ?_ hown (by rw [hid, hfresh])
          rw [hrow]
          exact (vaultMovement_ofRequest intent n positionId).2.2
        | advance m₀ input status hm₀ hadmitted hrow => exact .old m₀ hm₀ (by rw [hrow]; exact hadmitted.later)
      · exact hold hm
  | @advanceAlone m₀ input hadvances hactive hbare hm₀ hadmitted =>
    have hm : (s.movements.upsert (m₀.advance input .submitted)).find? m.id = some m := hm
    rw [Table.find?_upsert] at hm
    split at hm
    · cases hm
      exact .old m₀ hm₀ hadmitted.later
    · exact hold hm
  | @insertCustodial input p minted hrequest hstage hp hchecks hkey =>
    have hm : (s.movements.upsert (input.movement n p.id)).find? m.id = some m := hm
    rw [Table.find?_upsert] at hm
    split at hm
    · cases hm
      refine .custodial rfl rfl fun id m' hm' hmodel hposition hrequest => ?_
      rw [List.any_eq_false] at hkey
      have := hkey m' (Table.find?_eq_some_iff.mp hm').1
      have hposition : m'.positionId = p.id := hposition
      have hrequest : m'.requestId = input.requestId := hrequest
      simp [hmodel, hposition, hrequest] at this
    · exact hold hm
  | _ => exact hold hm

theorem vault_of_move (hs : Wf s) (hk : Keys s) (h : Move s n t) : ∀ id id' m m', t.movements.find? id = some m →
    t.movements.find? id' = some m' → m.executionModel = .vaultDirect → m'.OfRequest m.organizationId m.requestId →
      id = id' := by
  intro id id' m m' hm hm' hvault hsame
  have hown : m.OfRequest m.organizationId m.requestId := ⟨rfl, rfl, hvault⟩
  have hback : m.OfRequest m'.organizationId m'.requestId := ⟨hsame.1.symm, hsame.2.1.symm, hvault⟩
  obtain rfl := Table.key_of_find? hm
  obtain rfl := Table.key_of_find? hm'
  cases origin_of_move hs h hm with
  | old m₀ hm₀ hlater =>
    cases origin_of_move hs h hm' with
    | old m₀' hm₀' hlater' =>
      have hm₀own := hlater.ofRequest.mp hown
      exact hk.vault _ _ m₀ m₀' hm₀ hm₀' hm₀own.2.2 (by
        rw [hm₀own.1, hm₀own.2.1]
        exact hlater'.ofRequest.mp hsame)
    | vault hid' hvault' hwritten hfresh =>
      have hnone := findVaultMovementByRequest_none.mp (hk.written n m' hwritten hfresh).2
      exact absurd (hlater.ofRequest.mp hback) (hnone _ m₀ hm₀)
    | custodial hid' hmodel => cases hmodel.symm.trans hsame.2.2
  | vault hid hvault' hwritten hfresh =>
    cases origin_of_move hs h hm' with
    | old m₀' hm₀' hlater' =>
      have hnone := findVaultMovementByRequest_none.mp (hk.written n m hwritten hfresh).2
      exact absurd (hlater'.ofRequest.mp hsame) (hnone _ m₀' hm₀')
    | vault hid' => rw [hid, hid']
    | custodial hid' hmodel => cases hmodel.symm.trans hsame.2.2
  | custodial hid hmodel => cases hmodel.symm.trans hvault

theorem Movement.Later.custodialKey {m m' : Movement} (h : m.Later m') :
    m'.executionModel = m.executionModel ∧ m'.positionId = m.positionId ∧ m'.requestId = m.requestId := by
  have hcolumns := h.column (fun m => (m.executionModel, m.positionId, m.requestId)) fun _ => rfl
  simpa only [Prod.mk.injEq] using hcolumns

theorem custodial_of_move (hs : Wf s) (hk : Keys s) (h : Move s n t) : ∀ id id' m m',
    t.movements.find? id = some m → t.movements.find? id' = some m' → m.executionModel = .custodial →
      m'.executionModel = .custodial → m'.positionId = m.positionId → m'.requestId = m.requestId → id = id' := by
  intro id id' m m' hm hm' hmodel hmodel' hposition hrequest
  obtain rfl := Table.key_of_find? hm
  obtain rfl := Table.key_of_find? hm'
  cases origin_of_move hs h hm with
  | old m₀ hm₀ hlater =>
    obtain ⟨hmodel₀, hposition₀, hrequest₀⟩ := hlater.custodialKey
    cases origin_of_move hs h hm' with
    | old m₀' hm₀' hlater' =>
      obtain ⟨hmodel₀', hposition₀', hrequest₀'⟩ := hlater'.custodialKey
      exact hk.custodial _ _ m₀ m₀' hm₀ hm₀' (hmodel₀ ▸ hmodel) (hmodel₀' ▸ hmodel')
        (by rw [← hposition₀', ← hposition₀, hposition]) (by rw [← hrequest₀', ← hrequest₀, hrequest])
    | vault hid' hvault' => cases hvault'.symm.trans hmodel'
    | custodial hid' _ hkey =>
      exact absurd (by rw [← hrequest₀, hrequest]) (hkey _ m₀ hm₀ (hmodel₀ ▸ hmodel) (by rw [← hposition₀, hposition]))
  | vault hid hvault => cases hvault.symm.trans hmodel
  | custodial hid _ hkey =>
    cases origin_of_move hs h hm' with
    | old m₀' hm₀' hlater' =>
      obtain ⟨hmodel₀', hposition₀', hrequest₀'⟩ := hlater'.custodialKey
      exact absurd (by rw [← hrequest₀', hrequest])
        (hkey _ m₀' hm₀' (hmodel₀' ▸ hmodel') (by rw [← hposition₀', hposition]))
    | vault hid' hvault' => cases hvault'.symm.trans hmodel'
    | custodial hid' => rw [hid, hid']

theorem written_frame (hs : Wf s) (hk : Keys s) (h : Move s k t) (hne : n ≠ k) {m : Movement}
    (hm : (s.calls n).movement = some m) (hfresh : s.movements.find? m.id = none) :
    t.locks (.request m.organizationId m.requestId) = some n ∧
      t.findVaultMovementByRequest m.organizationId m.requestId = none := by
  obtain ⟨hlock, hnone⟩ := hk.written n m hm hfresh
  rw [findVaultMovementByRequest_none] at hnone ⊢
  refine ⟨(frame_of_move hs h hne).locks _ hlock, fun id m' hm' hsame => ?_⟩
  cases origin_of_move hs h hm' with
  | old m₀ hm₀ hlater => exact hnone _ m₀ hm₀ (hlater.ofRequest.mp hsame)
  | vault hid hvault hwritten hfresh' =>
    obtain ⟨hlock', -⟩ := hk.written k m' hwritten hfresh'
    rw [hsame.1, hsame.2.1, hlock] at hlock'
    exact hne (Option.some.inj hlock')
  | custodial hid hmodel => cases hmodel.symm.trans hsame.2.2

theorem written_of_move (hk : Keys s) (h : Move s n t) {m : Movement}
    (hm : (t.calls n).movement = some m) (hfresh : t.movements.find? m.id = none) :
    t.locks (.request m.organizationId m.requestId) = some n ∧
      t.findVaultMovementByRequest m.organizationId m.requestId = none := by
  have hold := hk.written n
  cases h with
  | gaveUp | mismatched | answered | custodialAnswered | advanceAlone | insertCustodial => simp at hm
  | commit => simp [System.commit] at hm
  | claimNew | claimOld | lock => simp at hm
  | replaying | goOn | lost | project | mint =>
    rw [call_goto_self] at hm
    exact hold m hm hfresh
  | fundOwn hstage hown | deactivate hstage hown | activate hstage hown =>
    rw [call_setCall_self] at hm
    cases hm
    exact hold _ hown hfresh
  | fund hstage hown hnone hp hid hfree =>
    rw [call_setCall_self] at hm
    cases hm
    obtain ⟨hlock, hkey⟩ := hold _ hown hfresh
    exact ⟨Locks.acquire_held hfree hlock, hkey⟩
  | @insert intent positionId row hrequest hstage hrow hchecks hkey hfree =>
    rw [call_setCall_self] at hm
    cases hm
    have hsame := vaultMovement_ofRequest intent n positionId
    rw [hrow, hsame.1, hsame.2.1]
    exact ⟨Locks.acquire_mem (by simp [System.entries]), hkey⟩
  | update hstage hfind =>
    rw [call_setCall_self] at hm
    cases hm
    cases hfresh.symm.trans hfind

theorem keys_of_move (hs : Wf s) (hk : Keys s) (h : Move s n t) : Keys t where
  vault := vault_of_move hs hk h
  custodial := custodial_of_move hs hk h
  written k m hm hfresh := by
    by_cases hne : k = n
    · subst hne
      exact written_of_move hk h hm hfresh
    · rw [call_of_move h hne] at hm
      rw [(frame_of_move hs h hne).movement m hm] at hfresh
      exact written_frame hs hk h hne hm hfresh

theorem keys_initial (h : s.Initial) : Keys s where
  vault := by simp [h.movements]
  custodial := by simp [h.movements]
  written := by simp [h.calls]

end Sdp.Earn
