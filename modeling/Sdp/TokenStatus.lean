import Sdp.TokenDeployments

/-!
# Status and deployment

The status of a token says whether it has a mint, as long as nobody edits the status of a draft.
-/

open Sdp.Lib

namespace Sdp.Deployments

variable {s t : System}

/-- `active` or `paused` -/
def TokenStatus.live : TokenStatus → Bool
  | .active | .paused => true
  | .pending | .deploying => false

/-- No edit of the status is written to a token without a mint. -/
def editsDeployed (s : System) : Step → Bool
  | .updateWrite n =>
    match s.requests n with
    | .updateResolved write => write.input.status.isNone || !write.applies s.token || s.token.mintAddress.isSome
    | _ => true
  | _ => true

/-- The status is `active` or `paused` if and only if the mint is set. -/
def Agrees (t : Token) : Prop := t.status.live = t.mintAddress.isSome

theorem live_toStatus (status : PatchStatus) : status.toStatus.live = true := by
  cases status <;> rfl

theorem agrees_set {write : TokenWrite} {row : Token} (h : Agrees row)
    (hedit : write.input.status.isNone = true ∨ row.mintAddress.isSome = true) : Agrees (write.set row) := by
  unfold Agrees TokenWrite.set
  cases hstatus : write.input.status with
  | none => exact h
  | some status =>
    have hmint := hedit.resolve_left (by simp [hstatus])
    simp only [Option.map_some, Option.getD_some, live_toStatus]
    exact hmint.symm

theorem agrees_release {row : Token} (h : Agrees row) : Agrees (releaseTokenDeploy row) := by
  unfold releaseTokenDeploy
  split
  · next hclaimed =>
    unfold Agrees
    rw [hclaimed.2]
    rfl
  · exact h

theorem agrees_of_effect {l : Step} (hs : Agrees s.token) (hok : editsDeployed s l = true) (h : Effect s l t) :
    Agrees t.token := by
  cases h with
  | claimed hrequest hdraft =>
    have hmint := ((isDraft_iff _).mp hdraft).2
    simp only [Agrees, System.setRequest, hmint]
    rfl
  | deployRecorded | confirmRecorded => exact rfl
  | released => exact agrees_release hs
  | @written n write hrequest happlies =>
    simp only [editsDeployed, hrequest, happlies, Bool.not_true, Bool.or_false, Bool.or_eq_true] at hok
    exact agrees_set hs hok
  | settled hmint =>
    simp only [Agrees, live_toStatus, hmint]
  | _ => exact hs

/-- In every run without such an edit the status is `active` or `paused` exactly when the mint is set, and `pending`
or `deploying` otherwise. -/
theorem status_tells_deployment
    (h : Reachable System.step System.Initial (fun s l => editsDeployed s l = true) s) :
    (s.token.mintAddress ≠ none ↔ s.token.status = .active ∨ s.token.status = .paused) ∧
      (s.token.mintAddress = none ↔ s.token.status = .pending ∨ s.token.status = .deploying) := by
  have hs : Agrees s.token := by
    refine h.invariant (P := fun s => Agrees s.token) (fun s hs => ?_) fun s l t _ hs hok ht => ?_
    · obtain ⟨hstatus, hmint⟩ := (isDraft_iff _).mp hs.draft
      simp only [Agrees, hstatus, hmint]
      rfl
    · exact agrees_of_effect hs hok (effect_of_step ht)
  unfold Agrees at hs
  cases hmint : s.token.mintAddress <;> cases hstatus : s.token.status <;> simp_all [TokenStatus.live]

/-- A deployed token is paused by an edit. -/
theorem edited_status_of_deployed :
    ∃ s, Reachable System.step System.Initial (fun s l => editsDeployed s l = true) s ∧ s.token.status = .paused ∧
      (s.token.mintAddress ≠ none ↔ s.token.status = .active ∨ s.token.status = .paused) ∧
      (s.token.mintAddress = none ↔ s.token.status = .pending ∨ s.token.status = .deploying) := by
  have hrun : ((run (fun u l => if editsDeployed u l then u.step l else none) draft
      (custodialRun ++ [.updateRead 9 ⟨false, none, none, some .paused, none, none⟩, .updateResolve 9,
        .updateWrite 9])).map fun s => s.token.status) = some .paused := by rfl
  obtain ⟨s, hs, hstatus⟩ := Option.map_eq_some_iff.mp hrun
  have hreach := (Reachable.start draft_initial).run_checked hs
  exact ⟨s, hreach, hstatus, status_tells_deployment hreach⟩

/-- `PATCH` with `status: "active"` on a draft makes it active without a mint, and no deployment starts any more. -/
theorem edited_draft_is_stranded :
    ∃ s, Reachable System.step System.Initial anyStep s ∧ s.token.status = .active ∧ s.token.mintAddress = none ∧
      s.deployRead 1 = some (s.setRequest 1 .done) := by
  have hrun : ((run System.step draft
      [.updateRead 9 ⟨false, none, none, some .active, none, none⟩, .updateResolve 9, .updateWrite 9]).map
      fun s => (s.token.status, s.token.mintAddress, s.requests 1)) = some (.active, none, .idle) := by rfl
  obtain ⟨s, hs, hvalues⟩ := Option.map_eq_some_iff.mp hrun
  simp only [Prod.mk.injEq] at hvalues
  obtain ⟨hstatus, hmint, hidle⟩ := hvalues
  refine ⟨s, (Reachable.start draft_initial).run hs, hstatus, hmint, ?_⟩
  simp [System.deployRead, hidle, Token.isDraft, hstatus]

end Sdp.Deployments
