import Sdp.TokenDeployments

/-!
# The decimals of a deployed token

The claim of a custodial deployment keeps the decimals as its mint has them. A client-signed mint has the
decimals of the token when they were not edited since `prepareDeploy` read them.
-/

open Sdp.Lib

namespace Sdp.Deployments

variable {s t : System}

/-! ## The condition -/

/-- `confirmDeploy` records a mint whose decimals were read after the last edit of them. -/
def recordsCurrent (s : System) : Step → Bool
  | .confirmRecord n _ =>
    match s.requests n with
    | .confirmVerified mint _ _ => mint.edits = s.edits
    | _ => true
  | _ => true

/-! ## The claim -/

/-- The request has the deploy claim. -/
def Request.holds : Request → Bool
  | .deployClaimed _ | .deployCreating .. | .deployCreated .. | .deployAborted => true
  | _ => false

/-- The status that the handler of an edit has read. -/
def Request.statusRead : Request → Option TokenStatus
  | .updateRead _ status _ => some status
  | .updateResolved write => some write.expectedStatus
  | _ => none

/-- One request has the claim at most, and the status says so until a mint is recorded. -/
structure Claimed (s : System) : Prop where
  deploying : ∀ n, (s.requests n).holds = true → s.token.mintAddress = none → s.token.status = .deploying
  unique : ∀ n m, (s.requests n).holds = true → (s.requests m).holds = true → n = m
  edits : ∀ n, (s.requests n).statusRead ≠ some .deploying

theorem holds_of_moves {r r' : Request} (h : Moves s r r') (hholds : r'.holds = true) :
    r.holds = true ∨ s.token.isDraft = true ∧ r'.plain = false := by
  cases h with
  | claimed hdraft => exact .inr ⟨hdraft, rfl⟩
  | snapshot | created | aborted => exact .inl rfl
  | _ => contradiction

theorem statusRead_of_moves {r r' : Request} (h : Moves s r r') (hr : r.statusRead ≠ some .deploying) :
    r'.statusRead ≠ some .deploying := by
  cases h with
  | updateRead hadmitted =>
    simp only [UpdateTokenInput.admitted, Bool.and_eq_true, decide_eq_true_eq] at hadmitted
    simpa [Request.statusRead] using hadmitted.1.1
  | resolved hinput hstatus hmint => simpa [Request.statusRead, hstatus] using hr
  | _ => simp [Request.statusRead]

theorem Claimed.no_holder (h : Claimed s) (hdraft : s.token.isDraft = true) (n : Nat) :
    (s.requests n).holds = false := by
  obtain ⟨hstatus, hmint⟩ := (isDraft_iff _).mp hdraft
  by_contra hholds
  have hdeploying := h.deploying n (by simpa using hholds) hmint
  rw [hstatus] at hdeploying
  contradiction

theorem Claimed.no_holder_of_write (h : Claimed s) {n : Nat} {write : TokenWrite}
    (hrequest : s.requests n = .updateResolved write) (happlies : write.applies s.token = true)
    (hmint : s.token.mintAddress = none) (m : Nat) : (s.requests m).holds = false := by
  have hread := h.edits n
  rw [hrequest] at hread
  simp only [TokenWrite.applies, Bool.and_eq_true, decide_eq_true_eq] at happlies
  by_contra hholds
  have hdeploying := h.deploying m (by simpa using hholds) hmint
  exact hread (congrArg some (happlies.1.2.symm.trans hdeploying))

theorem Claimed.unique_of_effect {l : Step} (h : Claimed s) (heffect : Effect s l t) (n m : Nat)
    (hn : (t.requests n).holds = true) (hm : (t.requests m).holds = true) : n = m := by
  by_cases hdraft : s.token.isDraft = true
  · -- Nobody had the claim, so the request of the step takes it.
    obtain ⟨k, hothers⟩ := others_of_effect heffect
    have hk : ∀ i, (t.requests i).holds = true → i = k := by
      intro i hi
      by_contra hne
      rw [hothers i hne, h.no_holder hdraft i] at hi
      contradiction
    exact (hk n hn).trans (hk m hm).symm
  · have hold : ∀ i, (t.requests i).holds = true → (s.requests i).holds = true := by
      intro i hi
      obtain hsame | ⟨hmoves, -⟩ := moves_of_effect heffect i
      · rw [hsame] at hi
        exact hi
      · exact (holds_of_moves hmoves hi).resolve_right fun hclaims => hdraft hclaims.1
    exact h.unique n m (hold n hn) (hold m hm)

theorem Claimed.deploying_of_effect {l : Step} (h : Claimed s) (heffect : Effect s l t) {n : Nat}
    (hn : (t.requests n).holds = true) (hmint : t.token.mintAddress = none) : t.token.status = .deploying := by
  cases heffect with
  | claimed => rfl
  | deployRecorded | confirmRecorded => contradiction
  | @released k hrequest =>
    -- The holder gives the claim back and is none any more.
    rw [request_setRequest] at hn
    split at hn
    · contradiction
    · next hne =>
      have hholds : (s.requests k).holds = true := by rw [hrequest]; rfl
      exact absurd (h.unique n k hn hholds) hne
  | @written k write hrequest happlies =>
    rw [request_setRequest] at hn
    split at hn
    · contradiction
    · have hnone := h.no_holder_of_write hrequest happlies hmint n
      rw [hnone] at hn
      contradiction
  | settled hsome =>
    rw [show s.token.mintAddress = none from hmint] at hsome
    contradiction
  | @moved _ k r hmoves hr =>
    rw [request_setRequest] at hn
    split at hn
    · next hk =>
      subst hk
      refine h.deploying n ((holds_of_moves hmoves hn).resolve_right fun hclaims => ?_) hmint
      rw [hr] at hclaims
      exact absurd hclaims.2 (by decide)
    · exact h.deploying n hn hmint
  | created hrequest =>
    rw [request_setRequest] at hn
    split at hn
    · next hk =>
      subst hk
      exact h.deploying n (by rw [hrequest]; rfl) hmint
    · exact h.deploying n hn hmint
  | keyed | replayed | sent | landed =>
    rw [request_setRequest] at hn
    split at hn
    · contradiction
    · exact h.deploying n hn hmint
  | recounted => exact h.deploying n hn hmint

theorem Claimed.step {l : Step} (h : Claimed s) (ht : s.step l = some t) : Claimed t := by
  have heffect := effect_of_step ht
  constructor
  · exact fun n => h.deploying_of_effect heffect
  · exact h.unique_of_effect heffect
  · intro n
    obtain hsame | ⟨hmoves, -⟩ := moves_of_effect heffect n
    · rw [hsame]
      exact h.edits n
    · exact statusRead_of_moves hmoves (h.edits n)

/-! ## The decimals -/

/-- A read of the decimals is up to date unless they were edited since. -/
def Current (s : System) (decimals edits : Nat) : Prop :=
  edits ≤ s.edits ∧ (edits = s.edits → decimals = s.token.decimals)

/-- What a request has read of the decimals. -/
def Request.decimalsRead : Request → Option (Nat × Nat)
  | .deployCreating token edits _ | .prepareRead token edits => some (token.decimals, edits)
  | .deployCreated mint _ _ | .prepared mint | .confirmVerified mint _ _ => some (mint.decimals, mint.edits)
  | _ => none

/-- The mint that a request is about to record. -/
def Request.mint : Request → Option MintAccount
  | .deployCreated mint _ _ | .confirmVerified mint _ _ => some mint
  | _ => none

/-- The edits that the snapshot under the claim has seen. -/
def Request.snapshotEdits : Request → Option Nat
  | .deployCreating _ edits _ => some edits
  | .deployCreated mint _ _ => some mint.edits
  | _ => none

structure Scaled (s : System) : Prop where
  claimed : Claimed s
  chain : ∀ address mint, s.chain address = some mint → mint.address = address ∧ Current s mint.decimals mint.edits
  reads : ∀ n decimals edits, (s.requests n).decimalsRead = some (decimals, edits) → Current s decimals edits
  mints : ∀ n mint, (s.requests n).mint = some mint → s.chain mint.address = some mint
  snapshots : ∀ n edits, (s.requests n).snapshotEdits = some edits → edits = s.edits
  recorded : ∀ address, s.token.mintAddress = some address →
    ∃ mint, s.chain address = some mint ∧ mint.decimals = s.token.decimals

theorem snapshot_holds {r : Request} {edits : Nat} (h : r.snapshotEdits = some edits) : r.holds = true := by
  cases r <;> simp_all [Request.snapshotEdits, Request.holds]

theorem decimals_of_effect {l : Step} (h : Effect s l t) :
    t.edits = s.edits ∧ t.token.decimals = s.token.decimals ∨
      t.edits = s.edits + 1 ∧ s.token.isDraft = true ∧ t.token.mintAddress = none ∧
        ∀ m, (t.requests m).holds = true → t.requests m = s.requests m := by
  cases h with
  | @written n write hrequest happlies =>
    cases hdecimals : write.input.decimals with
    | none => exact .inl ⟨by simp [System.setRequest], by simp [System.setRequest, TokenWrite.set, hdecimals]⟩
    | some d =>
      have hguard : write.input.requiresUndeployedGuard = true := by
        simp [UpdateTokenInput.requiresUndeployedGuard, hdecimals]
      simp only [TokenWrite.applies, hguard, if_true, Bool.and_eq_true] at happlies
      have hdraft := happlies.1.1.1.1
      refine .inr ⟨by simp [System.setRequest], hdraft, ((isDraft_iff _).mp hdraft).2, fun m hm => ?_⟩
      rw [request_setRequest] at hm ⊢
      split at hm
      · contradiction
      · next hne => rw [if_neg hne]
  | released =>
    refine .inl ⟨rfl, ?_⟩
    simp only [System.setRequest, releaseTokenDeploy]
    split
    · rfl
    · rfl
  | _ => exact .inl ⟨rfl, rfl⟩

theorem Current.of_effect {l : Step} {decimals edits : Nat} (h : Current s decimals edits) (heffect : Effect s l t) :
    Current t decimals edits := by
  obtain ⟨hle, heq⟩ := h
  obtain ⟨hedits, hdecimals⟩ | ⟨hedits, -⟩ := decimals_of_effect heffect
  · refine ⟨hedits ▸ hle, fun h => ?_⟩
    rw [hdecimals]
    exact heq (h.trans hedits)
  · exact ⟨by omega, fun h => by omega⟩

theorem chain_of_effect {l : Step} (h : Effect s l t) {address : Nat} {mint : MintAccount}
    (hmint : s.chain address = some mint) : t.chain address = some mint := by
  have hcreate : ∀ {u : MintAccount}, s.chain u.address = none → (s.create u).chain address = some mint := by
    intro u hfree
    have hne : address ≠ u.address := by
      rintro rfl
      rw [hfree] at hmint
      contradiction
    simp only [System.create, Function.update_of_ne hne]
    exact hmint
  cases h with
  | created _ hfree => exact hcreate hfree
  | landed _ hfree => exact hcreate hfree
  | _ => exact hmint

theorem chain_new_of_effect {l : Step} (h : Effect s l t) {address : Nat} {mint : MintAccount}
    (hmint : t.chain address = some mint) :
    s.chain address = some mint ∨
      mint.address = address ∧ ∃ n, (s.requests n).decimalsRead = some (mint.decimals, mint.edits) := by
  have hcreate : ∀ {u : MintAccount}, (s.create u).chain address = some mint →
      s.chain address = some mint ∨ address = u.address ∧ u = mint := by
    intro u hu
    simp only [System.create, Function.update_apply] at hu
    split at hu
    · next haddress => exact .inr ⟨haddress, Option.some.inj hu⟩
    · exact .inl hu
  cases h with
  | @created n _ _ _ _ _ _ _ hrequest =>
    obtain hold | ⟨rfl, rfl⟩ := hcreate hmint
    · exact .inl hold
    · exact .inr ⟨rfl, n, by rw [hrequest]; rfl⟩
  | @landed n _ hrequest =>
    obtain hold | ⟨rfl, rfl⟩ := hcreate hmint
    · exact .inl hold
    · exact .inr ⟨rfl, n, by rw [hrequest]; rfl⟩
  | _ => exact .inl hmint

theorem Scaled.read_of_moves (h : Scaled s) {n : Nat} {r' : Request} (hmoves : Moves s (s.requests n) r')
    {decimals edits : Nat} (hread : r'.decimalsRead = some (decimals, edits)) : Current s decimals edits := by
  generalize hr : s.requests n = r at hmoves
  cases hmoves with
  | snapshot | prepareRead =>
    obtain ⟨rfl, rfl⟩ := Prod.mk.inj (Option.some.inj hread)
    exact ⟨Nat.le_refl _, fun _ => rfl⟩
  | created | sent =>
    refine h.reads n decimals edits ?_
    rw [hr]
    exact hread
  | verified hmint =>
    obtain ⟨rfl, rfl⟩ := Prod.mk.inj (Option.some.inj hread)
    exact (h.chain _ _ hmint).2
  | _ => contradiction

theorem Scaled.mints_of_effect {l : Step} (h : Scaled s) (heffect : Effect s l t) {n : Nat} {mint : MintAccount}
    (hmint : (t.requests n).mint = some mint) : t.chain mint.address = some mint := by
  have hold : (s.requests n).mint = some mint → t.chain mint.address = some mint := fun hs =>
    chain_of_effect heffect (h.mints n mint hs)
  cases heffect with
  | @moved _ k r hmoves hr =>
    rw [request_setRequest] at hmint
    split at hmint
    · next hk =>
      subst hk
      generalize s.requests n = old at hmoves
      cases hmoves with
      | verified hchain =>
        cases hmint
        rw [← (h.chain _ _ hchain).1] at hchain
        exact hchain
      | created => contradiction
      | _ => contradiction
    · exact hold hmint
  | @created k _ _ _ _ _ _ _ hrequest hfree hr =>
    rw [request_setRequest] at hmint
    split at hmint
    · rcases hr with rfl | rfl
      · cases hmint
        simp [System.create, System.setRequest]
      · contradiction
    · exact hold hmint
  | deployRecorded | confirmRecorded =>
    rw [request_setRequest] at hmint
    split at hmint
    · split at hmint
      · contradiction
      · contradiction
    · exact hold hmint
  | keyed | replayed | claimed | released | sent | landed | written =>
    rw [request_setRequest] at hmint
    split at hmint
    · contradiction
    · exact hold hmint
  | settled | recounted => exact hold hmint

theorem Scaled.snapshots_of_effect {l : Step} (h : Scaled s) (heffect : Effect s l t) {n edits : Nat}
    (hsnapshot : (t.requests n).snapshotEdits = some edits) : edits = t.edits := by
  have hholds : (t.requests n).holds = true := snapshot_holds hsnapshot
  have hsame : edits = s.edits := by
    obtain hsame | ⟨hmoves, -⟩ := moves_of_effect heffect n
    · rw [hsame] at hsnapshot
      exact h.snapshots n edits hsnapshot
    · generalize hr : s.requests n = r at hmoves
      generalize t.requests n = r' at hmoves hsnapshot
      cases hmoves with
      | snapshot => exact (Option.some.inj hsnapshot).symm
      | created =>
        refine h.snapshots n edits ?_
        rw [hr]
        exact hsnapshot
      | _ => contradiction
  obtain ⟨hedits, -⟩ | ⟨-, hdraft, -, hothers⟩ := decimals_of_effect heffect
  · exact hsame.trans hedits.symm
  · rw [hothers n hholds, h.claimed.no_holder hdraft n] at hholds
    contradiction

theorem Scaled.recorded_of_effect {l : Step} (h : Scaled s) (hok : recordsCurrent s l = true) (heffect : Effect s l t)
    {address : Nat} (hmint : t.token.mintAddress = some address) :
    ∃ mint, t.chain address = some mint ∧ mint.decimals = t.token.decimals := by
  have hrecord : ∀ {n : Nat} {mint : MintAccount}, (s.requests n).mint = some mint →
      (s.requests n).decimalsRead = some (mint.decimals, mint.edits) → mint.edits = s.edits →
      s.chain mint.address = some mint ∧ mint.decimals = s.token.decimals := fun hm hread hedits =>
    ⟨h.mints _ _ hm, (h.reads _ _ _ hread).2 hedits⟩
  have hkept : t.token.mintAddress = s.token.mintAddress →
      ∃ mint, t.chain address = some mint ∧ mint.decimals = t.token.decimals := by
    intro hsame
    obtain ⟨mint, hchain, hdecimals⟩ := h.recorded address (hsame.symm.trans hmint)
    obtain ⟨-, hkept⟩ | ⟨-, -, hnone, -⟩ := decimals_of_effect heffect
    · exact ⟨mint, chain_of_effect heffect hchain, hdecimals.trans hkept.symm⟩
    · rw [hnone] at hmint
      contradiction
  cases heffect with
  | @deployRecorded n records returns mint token hrequest =>
    cases hmint
    refine ⟨mint, hrecord (by rw [hrequest]; rfl) (by rw [hrequest]; rfl) ?_⟩
    exact h.snapshots n mint.edits (by rw [hrequest]; rfl)
  | @confirmRecorded n records returns mint token hrequest =>
    cases hmint
    refine ⟨mint, hrecord (by rw [hrequest]; rfl) (by rw [hrequest]; rfl) ?_⟩
    simpa [recordsCurrent, hrequest] using hok
  | released =>
    refine hkept ?_
    simp only [System.setRequest, releaseTokenDeploy]
    split
    · rfl
    · rfl
  | _ => exact hkept rfl

theorem Scaled.step {l : Step} (h : Scaled s) (hok : recordsCurrent s l = true) (ht : s.step l = some t) :
    Scaled t := by
  have heffect := effect_of_step ht
  constructor
  · exact h.claimed.step ht
  · intro address mint hmint
    obtain hold | ⟨haddress, n, hread⟩ := chain_new_of_effect heffect hmint
    · obtain ⟨haddress, hcurrent⟩ := h.chain address mint hold
      exact ⟨haddress, hcurrent.of_effect heffect⟩
    · exact ⟨haddress, (h.reads n _ _ hread).of_effect heffect⟩
  · intro n decimals edits hread
    obtain hsame | ⟨hmoves, -⟩ := moves_of_effect heffect n
    · rw [hsame] at hread
      exact (h.reads n decimals edits hread).of_effect heffect
    · exact (h.read_of_moves hmoves hread).of_effect heffect
  · exact fun n mint => h.mints_of_effect heffect
  · exact fun n edits => h.snapshots_of_effect heffect
  · exact fun address => h.recorded_of_effect hok heffect

end Sdp.Deployments
