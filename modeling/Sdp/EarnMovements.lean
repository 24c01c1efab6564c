import Sdp.EarnInvariant

/-!
# Vault movements and the constraints of their table

However calls interleave, the rows of the ledger meet its constraints, and an advance that the code lets through is
never turned down by one of them. The constraints that can turn an intent down are about the formats of its amounts,
its denomination and its block height.
-/

open Sdp.Lib

namespace Sdp.Earn

variable {s t : System} {n : Nat}

theorem shareAccountClaimBindings_shape (input : SignedIntent) :
    ((shareAccountClaimBindings input).2.isNone || (shareAccountClaimBindings input).1) = true := by
  unfold shareAccountClaimBindings
  by_cases h : input.createsShareAccount = some true <;> simp [h]

/-- What the table can hold against the row of an intent. -/
theorem vaultMovement_checks_iff (intent : VaultIntent) (id positionId : Nat) :
    (intent.vaultMovement id positionId).checks = true ↔
      (intent.vaultMovement id positionId).amountRequestedFormatCheck = true ∧
        (intent.vaultMovement id positionId).vaultAmountFormatCheck = true ∧
        (intent.vaultMovement id positionId).denominationCheck = true ∧
        (intent.vaultMovement id positionId).lastValidBlockHeightCheck = true := by
  have hfunder : (intent.vaultMovement id positionId).shareAtaRentFunderShape = true := by
    cases intent <;> exact shareAccountClaimBindings_shape _
  rw [Movement.checks_iff]
  constructor
  · rintro ⟨-, -, -, -, hamount, -, -, hvault, -, hdenomination, hheight, -, -⟩
    exact ⟨hamount, hvault, hdenomination, hheight⟩
  · rintro ⟨hamount, hvault, hdenomination, hheight⟩
    refine ⟨?_, ?_, ?_, ?_, hamount, ?_, ?_, hvault, ?_, hdenomination, hheight, hfunder, ?_⟩
    all_goals cases intent <;> rfl

/-- No advance has ended in a constraint of the table. -/
def Unrefused (s : System) : Prop :=
  ∀ n, (s.calls n).stage = .done (.refused .check) →
    (∃ intent, s.requests n = .vault intent) ∨ ∃ input, s.requests n = .custodial input

theorem resolveReplay_ne_refused (intent : VaultIntent) (prior : Movement) (constraint : Constraint) :
    s.resolveReplay intent prior ≠ .refused constraint := by
  unfold System.resolveReplay
  repeat' split
  all_goals nofun

theorem unrefused_of_move (hs : Wf s) (h : Move s n t) (hold : Unrefused s) : Unrefused t := by
  have hrequests : t.requests = s.requests := (frame_of_move hs h (Nat.succ_ne_self n)).requests
  intro k hk
  rw [hrequests]
  by_cases hne : k = n
  · subst hne
    have hwf := hs.stage k
    cases h with
    | gaveUp hactive hsilent hcheck => exact hcheck (by simpa using hk)
    | answered => exact absurd (by simpa using hk) (resolveReplay_ne_refused _ _ _)
    | custodialAnswered =>
      simp only [call_finish_self, Stage.done.injEq, System.resolveCustodial] at hk
      split at hk <;> cases hk
    | goOn _ _ _ hopen =>
      rw [call_goto_self] at hk
      obtain rfl := hk
      cases hopen
    | @commit result hstage =>
      rw [hstage] at hwf
      obtain rfl : result = .refused .check := by simpa [System.commit] using hk
      exact hwf.elim
    | insertCustodial hrequest => exact .inr ⟨_, hrequest⟩
    | update => 
      rw [call_setCall_self] at hk
      simp only [Advance.next] at hk
      repeat' split at hk
      all_goals cases hk
    | _ => simp at hk
  · rw [call_of_move h hne] at hk
    exact hold k hk

theorem unrefused_of_reachable {ok : System → Step → Prop} (h : Reachable System.step System.Initial ok s) :
    Unrefused s := by
  refine h.invariant (P := Unrefused) (fun s hs n hn => ?_) fun s l t hreach hold _ ht => ?_
  · rw [hs.calls n] at hn
    cases hn
  · have hs := wf_of_reachable hreach
    exact unrefused_of_move hs (move_of_step hs ht) hold

theorem seen_of_run (hs : Wf s) {m : Movement} (hm : s.movements.Seen Movement.Later m) {ls : List Step}
    (hrun : run System.step s ls = some t) : t.movements.Seen Movement.Later m := by
  induction ls generalizing s with
  | nil =>
    obtain rfl : s = t := by simpa [run] using hrun
    exact hm
  | cons l ls ih =>
    obtain ⟨u, hu, hrun⟩ := Option.bind_eq_some_iff.mp hrun
    have hmove := move_of_step hs hu
    exact ih (wf_of_move hs hmove) (hm.evolves (rows_of_move hs hmove)) hrun

namespace Movement

/-- The metadata of a vault's row is set exactly where its status has it, and its shares only where the constraints
allow them. -/
def Tells (m : Movement) : Prop :=
  (m.confirmedAt ≠ none ↔ m.status = .confirmed ∨ m.status = .finalized) ∧
    (m.settledAt ≠ none ↔ m.status = .finalized) ∧
    (m.failureReason ≠ none ↔ m.status = .failed) ∧
    ∀ text, m.sharesOut = some text → (m.status = .confirmed ∨ m.status = .finalized) ∧ positiveDecimal text = true

theorem Sound.tells {m : Movement} (h : m.Sound) (hvault : m.executionModel = .vaultDirect) : m.Tells := by
  obtain ⟨-, -, -, -, -, -, -, -, hshares, -⟩ := checks_iff.mp h.checks
  have hconfirmed := h.confirmedAt hvault
  have hsettled := h.settledAt hvault
  have hfailed := h.failureReason hvault
  refine ⟨?_, ?_, ?_, fun text htext => ?_⟩
  · rw [← Option.isSome_iff_ne_none, hconfirmed]
    simp [Status.committed]
  · rw [← Option.isSome_iff_ne_none, hsettled, decide_eq_true_iff]
  · rw [← Option.isSome_iff_ne_none, hfailed, decide_eq_true_iff]
  · simpa [sharesOutFormatCheck, htext, Status.committed] using hshares

end Movement

/-- In every state of every run: the rows that are committed and the ones that are only written meet all constraints of
the table, those of vaults with their metadata set exactly by status; no advance, the sweep's included, has ended in a
constraint, and an intent can only for the formats of its own columns; and whatever happens next, a terminal row stays
as it is and a row that the chain has committed to never fails. -/
theorem movements_meet_constraints (h : Reachable System.step System.Initial anyStep s) :
    (∀ m, (s.movements.find? m.id = some m ∨ ∃ n, (s.calls n).movement = some m) →
      m.checks = true ∧ (m.executionModel = .vaultDirect → m.Tells)) ∧
    (∀ n, (s.calls n).stage = .done (.refused .check) →
      (∃ intent, s.requests n = .vault intent) ∨ ∃ input, s.requests n = .custodial input) ∧
    (∀ (intent : VaultIntent) (id positionId : Nat), (intent.vaultMovement id positionId).checks = true ↔
      (intent.vaultMovement id positionId).amountRequestedFormatCheck = true ∧
        (intent.vaultMovement id positionId).vaultAmountFormatCheck = true ∧
        (intent.vaultMovement id positionId).denominationCheck = true ∧
        (intent.vaultMovement id positionId).lastValidBlockHeightCheck = true) ∧
    ∀ ls t, run System.step s ls = some t → ∀ id m, s.movements.find? id = some m →
      ∃ m', t.movements.find? id = some m' ∧ (m.status.terminal = true → m' = m) ∧
        (m.status = .confirmed ∨ m.status = .finalized → m'.status ≠ .failed) := by
  have hs := wf_of_reachable h
  refine ⟨fun m hm => ?_, unrefused_of_reachable h, vaultMovement_checks_iff, fun ls t hrun id m hm => ?_⟩
  · have hsound : m.Sound := by
      rcases hm with hm | ⟨n, hm⟩
      · exact hs.sound _ m hm
      · exact ((hs.owns n).draft m hm).sound
    exact ⟨hsound.checks, hsound.tells⟩
  · obtain rfl := Table.key_of_find? hm
    obtain ⟨m', hm', hlater⟩ := seen_of_run hs (Table.seen_of_find? hm) hrun
    refine ⟨m', hm', hlater.terminal, fun hcommitted hfailed => ?_⟩
    have hkept := hlater.committed (by simpa [Status.committed] using hcommitted)
    simp [hfailed, Status.committed] at hkept

/-- A deposit is finalized without having been confirmed, and a late failure of it is not taken. -/
theorem finalized_deposit_stays : ∃ s m, Reachable System.step System.Initial anyStep s ∧
    s.movements.find? 0 = some m ∧ m.status = .finalized ∧ m.confirmedAt = some "noon" ∧
    s.calls 2 = ⟨.done .missed, none, none⟩ ∧ m.checks = true ∧ (m.executionModel = .vaultDirect → m.Tells) := by
  let requests : Nat → Request
    | 0 => .vault (.deposit someDeposit)
    | 1 => .advance (someAdvance 0 .finalized)
    | _ => .advance (someAdvance 0 .failed)
  have hrun : ((run System.step (.fresh requests fun _ => none)
      [.next 0, .next 0, .next 0, .next 0, .next 0, .next 0, .next 1, .next 1, .next 2, .next 1, .next 1, .next 1,
        .next 2, .next 2]).bind fun s => (s.movements.find? 0).map fun m =>
          (decide (m.id = 0), m.status, m.confirmedAt, s.calls 2)) =
        some (true, .finalized, some "noon", ⟨.done .missed, none, none⟩) := by rfl
  obtain ⟨s, hs, hrow⟩ := Option.bind_eq_some_iff.mp hrun
  obtain ⟨m, hm, hvalues⟩ := Option.map_eq_some_iff.mp hrow
  simp only [Prod.mk.injEq, decide_eq_true_eq] at hvalues
  obtain ⟨hid, hstatus, hconfirmed, hmissed⟩ := hvalues
  have hreach := (Reachable.start (System.fresh_initial requests fun _ => none)).run hs
  obtain ⟨hrows, -⟩ := movements_meet_constraints hreach
  exact ⟨s, m, hreach, hm, hstatus, hconfirmed, hmissed, hrows m (.inl (by rw [hid, hm]))⟩

end Sdp.Earn
