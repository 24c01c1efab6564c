import Sdp.Code.TokenDeployments

/-! # What a step of a deployment or an edit does -/

open Sdp.Lib

namespace Sdp.Deployments

variable {s t : System}

/-- How a request goes on. -/
inductive Moves (s : System) : Request → Request → Prop
  | stop {r : Request} : Moves s r .done
  | deployChecked : Moves s .idle .deployChecked
  | admitted : Moves s .deployChecked .deployAdmitted
  | claimed (hdraft : s.token.isDraft = true) : Moves s .deployAdmitted (.deployClaimed s.records)
  | snapshot {records : Nat} : Moves s (.deployClaimed records) (.deployCreating s.token s.edits records)
  | created {token : Token} {edits records : Nat} (address wallet : Nat) :
      Moves s (.deployCreating token edits records)
        (.deployCreated (token.mintAccount address wallet edits) token records)
  | aborted {token : Token} {edits records : Nat} : Moves s (.deployCreating token edits records) .deployAborted
  | returned {r : Request} : Moves s r .deployed
  | prepareRead : Moves s .idle (.prepareRead s.token s.edits)
  | sent {token : Token} {edits : Nat} (address wallet : Nat) :
      Moves s (.prepareRead token edits) (.prepared (token.mintAccount address wallet edits))
  | confirmRead (hdraft : s.token.isDraft = true) : Moves s .idle (.confirmRead s.token s.records)
  | verified {token : Token} {records address : Nat} {mint : MintAccount} (hmint : s.chain address = some mint) :
      Moves s (.confirmRead token records) (.confirmVerified mint token records)
  | updateRead {input : UpdateTokenInput} (hadmitted : input.admitted s.token = true) :
      Moves s .idle (.updateRead input s.token.status s.token.mintAddress)
  | resolved {input : UpdateTokenInput} {status : TokenStatus} {mintAddress : Option Nat} {write : TokenWrite}
      (hinput : write.input = input) (hstatus : write.expectedStatus = status)
      (hmint : write.expectedMintAddress = mintAddress) :
      Moves s (.updateRead input status mintAddress) (.updateResolved write)

/-- The state of a request that it comes to without a write. -/
def Request.plain : Request → Bool
  | .deployed | .deployClaimed _ | .deployCreated .. | .prepared _ => false
  | _ => true

/-- One case for each way that a step ends. -/
inductive Effect (s : System) : Step → System → Prop
  | moved {l : Step} {n : Nat} {r : Request} (hmoves : Moves s (s.requests n) r) (hr : r.plain = true) :
      Effect s l (s.setRequest n r)
  | keyed {n key fingerprint : Nat} (hrequest : s.requests n = .deployChecked) :
      Effect s (.deployTransaction n (some (key, fingerprint)))
        ({ s with fingerprints := Function.update s.fingerprints key (some fingerprint) }.setRequest n .deployAdmitted)
  | replayed {n key fingerprint : Nat} (hrequest : s.requests n = .deployChecked)
      (hstored : s.fingerprints key = some fingerprint) :
      Effect s (.deployTransaction n (some (key, fingerprint)))
        ({ s with replays := s.replays + 1 }.setRequest n .deployed)
  | claimed {n : Nat} (hrequest : s.requests n = .deployAdmitted) (hdraft : s.token.isDraft = true) :
      Effect s (.deployClaim n)
        ({ s with token := { s.token with status := .deploying } }.setRequest n (.deployClaimed s.records))
  | created {n address wallet edits records : Nat} {creation : Creation} {token : Token} {r : Request}
      (hrequest : s.requests n = .deployCreating token edits records) (hfree : s.chain address = none)
      (hr : r = .deployCreated (token.mintAccount address wallet edits) token records ∨ r = .deployAborted) :
      Effect s (.deployCreate n address wallet creation)
        ((s.create (token.mintAccount address wallet edits)).setRequest n r)
  | deployRecorded {n records : Nat} {returns : Bool} {mint : MintAccount} {token : Token}
      (hrequest : s.requests n = .deployCreated mint token records) :
      Effect s (.deployRecord n returns)
        ((s.recorded token mint returns).setRequest n (if returns then .deployed else .done))
  | released {n : Nat} (hrequest : s.requests n = .deployAborted) :
      Effect s (.deployRelease n) ({ s with token := releaseTokenDeploy s.token }.setRequest n .done)
  | sent {n address wallet edits : Nat} {token : Token} (hrequest : s.requests n = .prepareRead token edits) :
      Effect s (.prepareSend n address wallet)
        ({ s with token := { s.token with signingWalletId := wallet } }.setRequest n
          (.prepared (token.mintAccount address wallet edits)))
  | landed {n : Nat} {mint : MintAccount} (hrequest : s.requests n = .prepared mint)
      (hfree : s.chain mint.address = none) : Effect s (.prepareLand n) ((s.create mint).setRequest n .done)
  | confirmRecorded {n records : Nat} {returns : Bool} {mint : MintAccount} {token : Token}
      (hrequest : s.requests n = .confirmVerified mint token records) :
      Effect s (.confirmRecord n returns)
        ((s.recorded token mint returns).setRequest n (if returns then .deployed else .done))
  | written {n : Nat} {write : TokenWrite} (hrequest : s.requests n = .updateResolved write)
      (happlies : write.applies s.token = true) :
      Effect s (.updateWrite n)
        ({ s with
          token := write.set s.token
          edits := if write.input.decimals.isSome then s.edits + 1 else s.edits }.setRequest n .done)
  | settled {status : PatchStatus} (hmint : s.token.mintAddress.isSome = true) :
      Effect s (.applySettledTokenStatus status) { s with token := { s.token with status := status.toStatus } }
  | recounted {supply : Nat} :
      Effect s (.recount supply) { s with token := { s.token with totalSupplyCached := supply } }

theorem effect_updateResolve {n : Nat} (h : s.updateResolve n = some t) : Effect s (.updateResolve n) t := by
  unfold System.updateResolve at h
  split at h
  · next input status mintAddress hrequest =>
    split at h
    · cases h
      exact .moved .stop rfl
    · split at h
      · cases h
        refine .moved ?_ rfl
        rw [hrequest]
        exact .resolved rfl rfl rfl
      · split at h
        · cases h
          refine .moved ?_ rfl
          rw [hrequest]
          exact .resolved rfl rfl rfl
        · cases h
          exact .moved .stop rfl
  · contradiction

theorem effect_deployTransaction {n : Nat} {idempotency : Option (Nat × Nat)}
    (h : s.deployTransaction n idempotency = some t) : Effect s (.deployTransaction n idempotency) t := by
  unfold System.deployTransaction at h
  split at h
  · next hrequest =>
    cases idempotency with
    | none =>
      cases h
      refine .moved ?_ rfl
      rw [hrequest]
      exact .admitted
    | some given =>
      obtain ⟨key, fingerprint⟩ := given
      simp only at h
      split at h
      · cases h
        exact .keyed hrequest
      · next stored hstored =>
        split at h
        · next hsame =>
          cases h
          exact .replayed hrequest (hsame ▸ hstored)
        · cases h
          exact .moved .stop rfl
  · contradiction

theorem effect_confirmVerify {n address : Nat} (h : s.confirmVerify n address = some t) :
    Effect s (.confirmVerify n address) t := by
  unfold System.confirmVerify at h
  split at h
  · next token records hrequest =>
    split at h
    · next mint hmint =>
      split at h
      · cases h
        refine .moved ?_ rfl
        rw [hrequest]
        exact .verified hmint
      · cases h
        exact .moved .stop rfl
    · cases h
      exact .moved .stop rfl
  · contradiction

theorem effect_deployCreate {n address wallet : Nat} {creation : Creation}
    (h : s.deployCreate n address wallet creation = some t) : Effect s (.deployCreate n address wallet creation) t := by
  unfold System.deployCreate at h
  split at h
  · next token edits records hrequest =>
    split at h
    · next hfree =>
      split at h
      · cases h
        exact .created hrequest hfree (.inl rfl)
      · cases h
        exact .created hrequest hfree (.inr rfl)
      · cases h
        refine .moved ?_ rfl
        rw [hrequest]
        exact .aborted
    · contradiction
  · contradiction

theorem effect_of_step {l : Step} (h : s.step l = some t) : Effect s l t := by
  cases l with
  | deployRead n =>
    simp only [System.step, System.deployRead] at h
    split at h
    · next hrequest =>
      cases h
      split
      · refine .moved ?_ rfl
        rw [hrequest]
        exact .deployChecked
      · exact .moved .stop rfl
    · contradiction
  | deployTransaction n idempotency => exact effect_deployTransaction h
  | deployClaim n =>
    simp only [System.step, System.deployClaim, beginTokenDeploy] at h
    split at h
    · next hrequest =>
      by_cases hdraft : s.token.isDraft = true
      · rw [if_pos hdraft] at h
        cases h
        exact .claimed hrequest hdraft
      · rw [if_neg hdraft] at h
        cases h
        exact .moved .stop rfl
    · contradiction
  | deploySnapshot n =>
    simp only [System.step, System.deploySnapshot] at h
    split at h
    · next hrequest =>
      cases h
      refine .moved ?_ rfl
      rw [hrequest]
      exact .snapshot
    · contradiction
  | deployCreate n address wallet creation => exact effect_deployCreate h
  | deployRecord n returns =>
    simp only [System.step, System.deployRecord] at h
    split at h
    · next hrequest => cases h; exact .deployRecorded hrequest
    · contradiction
  | deployRelease n =>
    simp only [System.step, System.deployRelease] at h
    split at h
    · next hrequest => cases h; exact .released hrequest
    · contradiction
  | prepareRead n =>
    simp only [System.step, System.prepareRead] at h
    split at h
    · next hrequest =>
      cases h
      split
      · refine .moved ?_ rfl
        rw [hrequest]
        exact .prepareRead
      · exact .moved .stop rfl
    · contradiction
  | prepareSend n address wallet =>
    simp only [System.step, System.prepareSend] at h
    split at h
    · next hrequest => cases h; exact .sent hrequest
    · contradiction
  | prepareLand n =>
    simp only [System.step, System.prepareLand] at h
    split at h
    · next hrequest =>
      split at h
      · next hfree => cases h; exact .landed hrequest hfree
      · contradiction
    · contradiction
  | confirmRead n =>
    simp only [System.step, System.confirmRead] at h
    split at h
    · next hrequest =>
      cases h
      split
      · next hdraft =>
        refine .moved ?_ rfl
        rw [hrequest]
        exact .confirmRead hdraft
      · exact .moved .stop rfl
    · contradiction
  | confirmVerify n address => exact effect_confirmVerify h
  | confirmRecord n returns =>
    simp only [System.step, System.confirmRecord] at h
    split at h
    · next hrequest => cases h; exact .confirmRecorded hrequest
    · contradiction
  | updateRead n input =>
    simp only [System.step, System.updateRead] at h
    split at h
    · next hrequest =>
      split at h
      · next hadmitted =>
        cases h
        refine .moved ?_ rfl
        rw [hrequest]
        exact .updateRead hadmitted
      · cases h
        exact .moved .stop rfl
    · contradiction
  | updateResolve n => exact effect_updateResolve h
  | updateWrite n =>
    simp only [System.step, System.updateWrite] at h
    split at h
    · next hrequest =>
      split at h
      · next happlies => cases h; exact .written hrequest happlies
      · cases h
        exact .moved .stop rfl
    · contradiction
  | applySettledTokenStatus status =>
    simp only [System.step, System.applySettledTokenStatus] at h
    split at h
    · next hmint => cases h; exact .settled hmint
    · contradiction
  | recount supply => cases h; exact .recounted
  | stop n =>
    simp only [System.step] at h
    split at h
    · contradiction
    · cases h
      exact .moved .stop rfl

theorem request_setRequest (s : System) (n m : Nat) (r : Request) :
    (s.setRequest n r).requests m = if m = n then r else s.requests m := by
  simp only [System.setRequest, Function.update_apply]

theorem others_of_effect {l : Step} (h : Effect s l t) : ∃ n, ∀ m, m ≠ n → t.requests m = s.requests m := by
  have hone : ∀ {u : System} {n : Nat} {r : Request}, u.requests = s.requests →
      ∃ n', ∀ m, m ≠ n' → (u.setRequest n r).requests m = s.requests m := by
    intro u n r hu
    refine ⟨n, fun m hm => ?_⟩
    rw [request_setRequest, if_neg hm, hu]
  cases h with
  | settled | recounted => exact ⟨0, fun _ _ => rfl⟩
  | _ => exact hone rfl

/-- A request stays or moves. Only a record or a replay makes it a success. -/
theorem moves_of_effect {l : Step} (h : Effect s l t) (m : Nat) :
    t.requests m = s.requests m ∨
      Moves s (s.requests m) (t.requests m) ∧
        (t.requests m = .deployed → t.returned + t.replays = s.returned + s.replays + 1) := by
  -- The request of the step is `n`.
  have hone : ∀ {u : System} {n : Nat} {r : Request}, u.requests = s.requests →
      Moves s (s.requests n) r ∧ (r = .deployed → u.returned + u.replays = s.returned + s.replays + 1) →
      (u.setRequest n r).requests m = s.requests m ∨ Moves s (s.requests m) ((u.setRequest n r).requests m) ∧
        ((u.setRequest n r).requests m = .deployed →
          (u.setRequest n r).returned + (u.setRequest n r).replays = s.returned + s.replays + 1) := by
    intro u n r hu hmoves
    rw [request_setRequest, hu]
    by_cases hm : m = n
    · subst hm
      rw [if_pos rfl]
      exact .inr hmoves
    · rw [if_neg hm]
      exact .inl rfl
  cases h with
  | moved hmoves hr => exact hone rfl ⟨hmoves, fun h => by rw [h] at hr; contradiction⟩
  | keyed hrequest =>
    refine hone rfl ⟨?_, by simp⟩
    rw [hrequest]
    exact .admitted
  | replayed => exact hone rfl ⟨.returned, fun _ => (Nat.add_assoc _ _ _).symm⟩
  | claimed hrequest hdraft =>
    refine hone rfl ⟨?_, by simp⟩
    rw [hrequest]
    exact .claimed hdraft
  | created hrequest hfree hr =>
    refine hone rfl ?_
    rw [hrequest]
    rcases hr with rfl | rfl
    · exact ⟨.created _ _, by simp⟩
    · exact ⟨.aborted, by simp⟩
  | @deployRecorded n records returns mint token hrequest =>
    cases returns
    · exact hone rfl ⟨.stop, by simp⟩
    · exact hone rfl ⟨.returned, fun _ => Nat.add_right_comm _ _ _⟩
  | @confirmRecorded n records returns mint token hrequest =>
    cases returns
    · exact hone rfl ⟨.stop, by simp⟩
    · exact hone rfl ⟨.returned, fun _ => Nat.add_right_comm _ _ _⟩
  | sent hrequest =>
    refine hone rfl ⟨?_, by simp⟩
    rw [hrequest]
    exact .sent _ _
  | released | landed | written => exact hone rfl ⟨.stop, by simp⟩
  | settled | recounted => exact .inl rfl

theorem isDraft_iff (t : Token) : t.isDraft = true ↔ t.status = .pending ∧ t.mintAddress = none := by
  simp [Token.isDraft]

end Sdp.Deployments
