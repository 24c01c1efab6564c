import Mathlib.Data.List.TakeWhile
import Sdp.Code.EarnLedger
import Sdp.Lib.LastWriter

/-!
# Rows of the Earn ledger keep their constraints

What the metadata assertion and the transition matrix let through meets every constraint of the table, so a row that
an intent inserted can be advanced without the database ever turning the write down.
-/

open Sdp.Amount Sdp.Issuance Sdp.Lib

namespace Sdp.Earn

/-! ## Metadata -/

theorem exists_kept_of_trim {text : List Char} (h : trim text ≠ []) : ∃ c ∈ text, isTrimmed c = false := by
  by_contra hall
  push Not at hall
  have hdrop : text.dropWhile isTrimmed = [] := List.dropWhile_eq_nil_iff.mpr fun c hc => by simpa using hall c hc
  exact h (by simp [trim, hdrop])

/-- A text that the code takes for one counts as one in the constraints: `trim` strips more than `BTRIM`. -/
theorem filled_of_not_missing {field : Option (Option String)} (h : missing field = false) :
    ∃ text, field = some (some text) ∧ filled (some text) = true := by
  match field with
  | none | some none => simp [missing] at h
  | some (some text) =>
    have htext : trim text.toList ≠ [] := by simpa [missing] using h
    obtain ⟨c, hc, hkept⟩ := exists_kept_of_trim htext
    refine ⟨text, rfl, ?_⟩
    simp only [filled, Option.any_some, List.any_eq_true]
    refine ⟨c, hc, decide_eq_true ?_⟩
    rintro rfl
    exact absurd hkept (by decide)

/-- What the assertion lets through. -/
structure AdvanceInput.Accepted (input : AdvanceInput) : Prop where
  failureReason : if input.toStatus = some .failed then missing input.failureReason = false
    else input.failureReason = none
  settledAt : if input.toStatus = some .finalized then missing input.settledAt = false else input.settledAt = none
  confirmedAt : if input.toStatus = some .confirmed ∨ input.toStatus = some .finalized then
    missing input.confirmedAt = false else input.confirmedAt = none
  sharesOut : input.toStatus ≠ some .confirmed → input.sharesOut = none
  format : ∀ text, input.sharesOut = some (some text) → positiveDecimal text = true

theorem accepted_of_assert {input : AdvanceInput} (h : assertVaultTransitionMetadata input = .ok ()) :
    input.Accepted := by
  unfold assertVaultTransitionMetadata at h
  repeat' split at h
  all_goals try cases h
  next h₁ h₂ h₃ h₄ h₅ h₆ h₇ h₈ =>
  constructor
  · split
    · next hf => simpa [hf] using h₂
    · next hf => simpa [hf] using h₁
  · split
    · next hf => simpa [hf] using h₄
    · next hf => simpa [hf] using h₃
  · split
    · next hf => simpa [hf] using h₆
    · next hf =>
      rw [not_or] at hf
      simpa [hf] using h₅
  · intro hf
    simpa [hf] using h₇
  · intro text htext
    simpa [htext] using h₈

/-- The text is there, and counts as one in the constraints, exactly when `b`. -/
def SetWhen (text : Option String) (b : Bool) : Prop := text.isSome = b ∧ filled text = b

theorem setWhen_text {text : String} (h : filled (some text) = true) : SetWhen (some text) true := ⟨rfl, h⟩

theorem setWhen_none : SetWhen none false := ⟨rfl, rfl⟩

/-! ## Sound rows -/

namespace Movement

theorem checks_iff {m : Movement} : m.checks = true ↔
    m.modelShapeCheck = true ∧ m.confirmationMetadataCheck = true ∧ m.settlementMetadataCheck = true ∧
      m.failureMetadataCheck = true ∧ m.amountRequestedFormatCheck = true ∧ m.settledAmountFormatCheck = true ∧
      m.feeAmountFormatCheck = true ∧ m.vaultAmountFormatCheck = true ∧ m.sharesOutFormatCheck = true ∧
      m.denominationCheck = true ∧ m.lastValidBlockHeightCheck = true ∧ m.shareAtaRentFunderShape = true ∧
      m.statusCheck = true := by
  simp only [checks, Bool.and_eq_true, and_assoc]

/-- A row that meets the constraints, with its metadata set exactly where they allow it. -/
structure Sound (m : Movement) : Prop where
  checks : m.checks = true
  confirmedAt : m.executionModel = .vaultDirect → m.confirmedAt.isSome = m.status.committed
  settledAt : m.executionModel = .vaultDirect → m.settledAt.isSome = decide (m.status = .finalized)
  failureReason : m.executionModel = .vaultDirect → m.failureReason.isSome = decide (m.status = .failed)

/-- The constraints of a vault's row that depend on its status. -/
structure Lifecycle (m : Movement) : Prop where
  confirmation : m.confirmationMetadataCheck = true
  settlement : m.settlementMetadataCheck = true
  failure : m.failureMetadataCheck = true
  sharesOut : m.sharesOutFormatCheck = true

/-- The columns that no statement changes once the row is there. -/
def identity (m : Movement) : Movement :=
  { m with
    status := .requested, failureReason := none, confirmedAt := none, settledAt := none, amountSettled := none,
    sharesOut := none }

@[simp] theorem identity_advance (m : Movement) (input : AdvanceInput) (status : Status) :
    (m.advance input status).identity = m.identity := rfl

@[simp] theorem advance_id (m : Movement) (input : AdvanceInput) (status : Status) :
    (m.advance input status).id = m.id := rfl

@[simp] theorem advance_status (m : Movement) (input : AdvanceInput) (status : Status) :
    (m.advance input status).status = status := rfl

@[simp] theorem advance_executionModel (m : Movement) (input : AdvanceInput) (status : Status) :
    (m.advance input status).executionModel = m.executionModel := rfl

end Movement

/-! ## Advances keep rows sound -/

theorem not_committed_of_source {status source : Status} (h : source ∈ vaultTransitions status)
    (hne : status ≠ .finalized) : source.committed = false := by
  cases status with
  | finalized => exact absurd rfl hne
  | requested | processing | pendingApproval | completed | partiallyCompleted | cancelled => cases h
  | submitted | confirmed | failed => revert source; decide

theorem not_terminal_of_source {status source : Status} (h : source ∈ vaultTransitions status) :
    source.terminal = false := by
  revert source
  cases status <;> decide

/-- An advance that the code lets through, at a row that its `WHERE` finds. -/
structure Admitted (m : Movement) (input : AdvanceInput) (status : Status) : Prop where
  sound : m.Sound
  vault : m.executionModel = .vaultDirect
  accepted : input.Accepted
  toStatus : input.toStatus = some status
  source : m.status ∈ vaultTransitions status

namespace Admitted

variable {m : Movement} {input : AdvanceInput} {status : Status}

theorem not_final (h : Admitted m input status) : m.status ≠ .finalized ∧ m.status ≠ .failed := by
  have hterminal := not_terminal_of_source h.source
  constructor <;> (intro hs; simp [hs, Status.terminal] at hterminal)

theorem confirmation (h : Admitted m input status) : m.status.committed = filled m.confirmedAt := by
  obtain ⟨-, hconfirmation, -⟩ := Movement.checks_iff.mp h.sound.checks
  simpa [Movement.confirmationMetadataCheck, h.vault] using hconfirmation

theorem confirmedAt (h : Admitted m input status) :
    SetWhen (m.advance input status).confirmedAt status.committed := by
  have hgiven := h.accepted.confirmedAt
  have hold := h.sound.confirmedAt h.vault
  cases hstatus : status.committed with
  | true =>
    rw [if_pos (by simpa [h.toStatus, Status.committed] using hstatus)] at hgiven
    obtain ⟨text, htext, hfilled⟩ := filled_of_not_missing hgiven
    cases hc : m.confirmedAt with
    | none => simpa [Movement.advance, htext, hc] using setWhen_text hfilled
    | some earlier =>
      -- A time that is there already was set by the commitment that the row has seen.
      have hearlier : filled (some earlier) = true := by rw [← hc, ← h.confirmation, ← hold, hc, Option.isSome_some]
      simpa [Movement.advance, htext, hc] using setWhen_text hearlier
  | false =>
    have hne : status ≠ .confirmed ∧ status ≠ .finalized := by simpa [Status.committed] using hstatus
    rw [if_neg (by simp [h.toStatus, hne])] at hgiven
    rw [not_committed_of_source h.source hne.2, Option.isSome_eq_false_iff, Option.isNone_iff_eq_none] at hold
    simpa [Movement.advance, hgiven, hold] using setWhen_none

theorem settledAt (h : Admitted m input status) :
    SetWhen (m.advance input status).settledAt (status = .finalized) := by
  have hgiven := h.accepted.settledAt
  have hold := h.sound.settledAt h.vault
  by_cases hstatus : status = .finalized
  · rw [if_pos (by rw [h.toStatus, hstatus])] at hgiven
    obtain ⟨text, htext, hfilled⟩ := filled_of_not_missing hgiven
    simpa [Movement.advance, htext, hstatus] using setWhen_text hfilled
  · rw [if_neg (by simp [h.toStatus, hstatus])] at hgiven
    have hnone : m.settledAt = none := by simpa [h.not_final.1] using hold
    simpa [Movement.advance, hgiven, hstatus, hnone] using setWhen_none

theorem failureReason (h : Admitted m input status) :
    SetWhen (m.advance input status).failureReason (status = .failed) := by
  have hgiven := h.accepted.failureReason
  have hold := h.sound.failureReason h.vault
  by_cases hstatus : status = .failed
  · rw [if_pos (by rw [h.toStatus, hstatus])] at hgiven
    obtain ⟨text, htext, hfilled⟩ := filled_of_not_missing hgiven
    simpa [Movement.advance, htext, hstatus] using setWhen_text hfilled
  · rw [if_neg (by simp [h.toStatus, hstatus])] at hgiven
    have hnone : m.failureReason = none := by simpa [h.not_final.2] using hold
    simpa [Movement.advance, hgiven, hstatus, hnone] using setWhen_none

theorem amountSettled (h : Admitted m input status) : ∀ text, (m.advance input status).amountSettled = some text →
    shortText text = true ∧ plainDecimal text = true ∧ nonZeroDigit text = true := by
  obtain ⟨-, -, -, -, hrequested, hsettled, -, hvault, -⟩ := Movement.checks_iff.mp h.sound.checks
  simp only [Movement.amountRequestedFormatCheck, positiveDecimal, Bool.and_eq_true] at hrequested
  intro text htext
  have hold : m.amountSettled = some text → shortText text = true ∧ plainDecimal text = true ∧ nonZeroDigit text = true := by
    intro hm
    simp only [Movement.settledAmountFormatCheck, hm, Option.all_some] at hsettled
    simp only [Movement.vaultAmountFormatCheck, h.vault, hm, Option.all_some, ne_eq, not_true, decide_false,
      Bool.false_or, Bool.and_eq_true] at hvault
    exact ⟨hsettled, hvault.1⟩
  simp only [Movement.advance] at htext
  split at htext
  · rcases Option.or_eq_some_iff.mp htext with hm | ⟨-, hm⟩
    · exact hold hm
    · cases hm
      exact hrequested
  · exact hold htext

theorem sharesOut (h : Admitted m input status) : ∀ text, (m.advance input status).sharesOut = some text →
    status.committed = true ∧ positiveDecimal text = true := by
  obtain ⟨-, -, -, -, -, -, -, -, hshares, -⟩ := Movement.checks_iff.mp h.sound.checks
  intro text htext
  simp only [Movement.advance] at htext
  cases hgiven : input.sharesOut with
  | some value =>
    rw [hgiven] at htext
    obtain rfl : value = some text := htext
    have hconfirmed : status = .confirmed := by
      by_contra hne
      have := h.accepted.sharesOut (by simp [h.toStatus, hne])
      simp [hgiven] at this
    exact ⟨by simp [hconfirmed, Status.committed], h.accepted.format text hgiven⟩
  | none =>
    have hm : m.sharesOut = some text := by simpa [hgiven] using htext
    simp only [Movement.sharesOutFormatCheck, hm, Option.all_some, Bool.and_eq_true] at hshares
    refine ⟨?_, hshares.2⟩
    by_contra hstatus
    have hne : status ≠ .finalized := by
      rintro rfl
      exact hstatus rfl
    rw [not_committed_of_source h.source hne] at hshares
    cases hshares.1

/-- No constraint turns an advance down. -/
theorem checks (h : Admitted m input status) : (m.advance input status).checks = true := by
  obtain ⟨hshape, -, -, -, hrequested, -, hfee, hvault, -, hdenomination, hheight, hfunder, -⟩ :=
    Movement.checks_iff.mp h.sound.checks
  refine Movement.checks_iff.mpr ⟨?_, ?_, ?_, ?_, hrequested, ?_, hfee, ?_, ?_, hdenomination, hheight, hfunder, ?_⟩
  · simpa [Movement.modelShapeCheck, h.vault, Movement.advance] using hshape
  · exact Bool.or_eq_true_iff.mpr (.inr (beq_iff_eq.mpr h.confirmedAt.2.symm))
  · exact Bool.or_eq_true_iff.mpr (.inr (beq_iff_eq.mpr h.settledAt.2.symm))
  · exact Bool.or_eq_true_iff.mpr (.inr (beq_iff_eq.mpr h.failureReason.2.symm))
  · rw [Movement.settledAmountFormatCheck, Option.all_eq_true]
    exact fun text htext => (h.amountSettled text htext).1
  · have hmin : m.minSharesOut.all positiveDecimal = true := by
      simp only [Movement.vaultAmountFormatCheck, h.vault, ne_eq, not_true, decide_false, Bool.false_or,
        Bool.and_eq_true] at hvault
      exact hvault.2
    rw [Movement.vaultAmountFormatCheck, Bool.or_eq_true, Bool.and_eq_true, Option.all_eq_true]
    refine .inr ⟨fun text htext => ?_, hmin⟩
    rw [Bool.and_eq_true]
    exact (h.amountSettled text htext).2
  · rw [Movement.sharesOutFormatCheck, Option.all_eq_true]
    intro text htext
    rw [Bool.and_eq_true]
    exact h.sharesOut text htext
  · have hlegal : ∀ source, source ∈ vaultTransitions status → status ∈ Status.legal .vaultDirect := by
      cases status <;> decide
    simpa [Movement.statusCheck, h.vault] using hlegal _ h.source

theorem advance_sound (h : Admitted m input status) : (m.advance input status).Sound :=
  ⟨h.checks, fun _ => h.confirmedAt.1, fun _ => h.settledAt.1, fun _ => h.failureReason.1⟩

end Admitted

/-! ## Intents -/

theorem vaultMovement_sound {intent : VaultIntent} {id positionId : Nat}
    (h : (intent.vaultMovement id positionId).checks = true) : (intent.vaultMovement id positionId).Sound := by
  cases intent <;> exact ⟨h, fun _ => rfl, fun _ => rfl, fun _ => rfl⟩

theorem vaultMovement_lifecycle (intent : VaultIntent) (id positionId : Nat) :
    (intent.vaultMovement id positionId).Lifecycle := by
  cases intent <;> exact ⟨rfl, rfl, rfl, rfl⟩

theorem custodialMovement_sound {input : CustodialIntent} {id positionId : Nat}
    (h : (input.movement id positionId).checks = true) : (input.movement id positionId).Sound :=
  ⟨h, nofun, nofun, nofun⟩

end Sdp.Earn
