import Sdp.DeploymentSteps

/-!
# One recorded mint

A token has one recorded mint and one successful deployment, as long as nobody else records a
deployment between the check of a request and its own record, and no replay adds a success to another one.
-/

open Sdp.Lib

namespace Sdp.Deployments

variable {s t : System}

/-! ## The condition -/

/-- How many deployments were recorded when the request checked or claimed the token. -/
def Request.recordsSeen : Request → Option Nat
  | .deployClaimed records | .deployCreating _ _ records | .deployCreated _ _ records | .confirmRead _ records
  | .confirmVerified _ _ records => some records
  | _ => none

/-- A deployment is recorded only if no other one was since the request checked or claimed the token, and after a replay
only by a request that then fails. A replay is answered only while no request has returned success. -/
def recordsAlone (s : System) : Step → Bool
  | .deployRecord n returns | .confirmRecord n returns =>
    ((s.requests n).recordsSeen.all fun records => records = s.records) && (!returns || s.replays = 0)
  | .deployTransaction _ (some (key, fingerprint)) =>
    s.fingerprints key ≠ some fingerprint || (s.returned = 0 && s.replays = 0)
  | _ => true

/-! ## The invariant -/

structure Single (s : System) : Prop where
  unrecorded : s.records = 0 ↔ s.token.mintAddress = none
  seen : ∀ n records, (s.requests n).recordsSeen = some records → records = 0
  returned : s.returned ≤ s.records
  answered : ∀ n, s.requests n = .deployed → 0 < s.returned + s.replays
  unique : ∀ n m, s.requests n = .deployed → s.requests m = .deployed → n = m

/-- The columns that `setTokenDeployed` writes, without the status. -/
def Token.deployment (t : Token) : Option Nat × Option Nat × Option Nat × Option Nat × Option (Nat × Nat) :=
  (t.mintAddress, t.mintAuthority, t.metadataAuthority, t.freezeAuthority, t.ablListAddress)

theorem deployment_of_effect {l : Step} (h : Effect s l t) :
    t.token.deployment = s.token.deployment ∧ t.records = s.records ∧ t.returned = s.returned ∨
      (∃ n returns records, (l = .deployRecord n returns ∨ l = .confirmRecord n returns) ∧
        (s.requests n).recordsSeen = some records ∧ t.returned = (if returns then s.returned + 1 else s.returned)) ∧
      t.token.mintAddress ≠ none ∧ t.records = s.records + 1 ∧ t.replays = s.replays := by
  cases h with
  | @deployRecorded n records returns _ _ hrequest =>
    refine .inr ⟨⟨n, returns, records, .inl rfl, by rw [hrequest]; rfl, rfl⟩, ?_, rfl, rfl⟩
    simp [System.recorded, record, setTokenDeployed, System.setRequest]
  | @confirmRecorded n records returns _ _ hrequest =>
    refine .inr ⟨⟨n, returns, records, .inr rfl, by rw [hrequest]; rfl, rfl⟩, ?_, rfl, rfl⟩
    simp [System.recorded, record, setTokenDeployed, System.setRequest]
  | released =>
    refine .inl ⟨?_, rfl, rfl⟩
    simp only [System.setRequest, releaseTokenDeploy]
    split
    · rfl
    · rfl
  | _ => exact .inl ⟨rfl, rfl, rfl⟩

theorem replays_of_effect {l : Step} (h : Effect s l t) :
    t.replays = s.replays ∨
      t.replays = s.replays + 1 ∧ ∃ n key fingerprint, l = .deployTransaction n (some (key, fingerprint)) ∧
        s.fingerprints key = some fingerprint := by
  cases h with
  | @replayed n key fingerprint _ hstored => exact .inr ⟨rfl, n, key, fingerprint, rfl, hstored⟩
  | _ => exact .inl rfl

theorem seen_of_moves {r r' : Request} (h : Moves s r r') {records : Nat} (hseen : r'.recordsSeen = some records) :
    r.recordsSeen = some records ∨ records = s.records ∧ s.token.mintAddress = none := by
  cases h with
  | claimed hdraft | confirmRead hdraft =>
    exact .inr ⟨(Option.some.inj hseen).symm, ((isDraft_iff _).mp hdraft).2⟩
  | snapshot | created | verified => exact .inl hseen
  | _ => contradiction

theorem records_eq_zero (hs : Single s) {l : Step} (hok : recordsAlone s l = true) {n records : Nat} {returns : Bool}
    (hl : l = .deployRecord n returns ∨ l = .confirmRecord n returns)
    (hseen : (s.requests n).recordsSeen = some records) : s.records = 0 := by
  have hsame : records = s.records := by
    rcases hl with rfl | rfl
    · simp only [recordsAlone, hseen, Option.all_some, Bool.and_eq_true, decide_eq_true_eq] at hok
      exact hok.1
    · simp only [recordsAlone, hseen, Option.all_some, Bool.and_eq_true, decide_eq_true_eq] at hok
      exact hok.1
  rw [← hsame]
  exact hs.seen n records hseen

theorem answers_of_effect (hs : Single s) {l : Step} (hok : recordsAlone s l = true) (h : Effect s l t) :
    t.returned + t.replays = s.returned + s.replays ∨
      s.returned + s.replays = 0 ∧ t.returned + t.replays = 1 := by
  obtain ⟨-, -, hreturned⟩ | ⟨⟨n, returns, records, hl, hseen, hreturned⟩, -, -, hreplays⟩ := deployment_of_effect h
  · obtain hreplays | ⟨hreplays, n, key, fingerprint, rfl, hstored⟩ := replays_of_effect h
    · exact .inl (by omega)
    · simp only [recordsAlone, hstored, ne_eq, not_true_eq_false, decide_false, Bool.false_or, Bool.and_eq_true,
        decide_eq_true_eq] at hok
      exact .inr (by omega)
  · have hzero := records_eq_zero hs hok hl hseen
    have hle := hs.returned
    cases returns with
    | false => exact .inl (by simp at hreturned; omega)
    | true =>
      have hnone : s.replays = 0 := by
        rcases hl with rfl | rfl
        · simpa using ((Bool.and_eq_true _ _).mp hok).2
        · simpa using ((Bool.and_eq_true _ _).mp hok).2
      exact .inr (by simp at hreturned; omega)

theorem Single.step {l : Step} (hs : Single s) (hok : recordsAlone s l = true) (h : s.step l = some t) : Single t := by
  have heffect := effect_of_step h
  have hseen : ∀ n records, (t.requests n).recordsSeen = some records → records = 0 := by
    intro n records hn
    obtain hsame | ⟨hmoves, -⟩ := moves_of_effect heffect n
    · rw [hsame] at hn
      exact hs.seen n records hn
    · obtain hold | ⟨rfl, hnone⟩ := seen_of_moves hmoves hn
      · exact hs.seen n records hold
      · exact hs.unrecorded.mpr hnone
  have hrecords : (t.records = 0 ↔ t.token.mintAddress = none) ∧ t.returned ≤ t.records := by
    obtain ⟨hdeployment, hrecords, hreturned⟩ | ⟨⟨n, returns, records, -, -, hreturned⟩, hmint, hrecords, -⟩ :=
      deployment_of_effect heffect
    · have hmint : t.token.mintAddress = s.token.mintAddress := congrArg Prod.fst hdeployment
      rw [hrecords, hmint, hreturned]
      exact ⟨hs.unrecorded, hs.returned⟩
    · have hle := hs.returned
      refine ⟨⟨fun h => by omega, fun h => absurd h hmint⟩, ?_⟩
      rw [hreturned, hrecords]
      split
      · exact Nat.succ_le_succ hle
      · exact Nat.le_succ_of_le hle
  obtain hsame | ⟨hzero, hone⟩ := answers_of_effect hs hok heffect
  · -- No request succeeds: the successes are the old ones.
    have hold : ∀ n, t.requests n = .deployed → s.requests n = .deployed := by
      intro n hn
      obtain hrequest | ⟨-, hnew⟩ := moves_of_effect heffect n
      · rw [← hrequest]
        exact hn
      · have hsucc := hnew hn
        omega
    refine ⟨hrecords.1, hseen, hrecords.2, fun n hn => ?_, fun n m hn hm => hs.unique n m (hold n hn) (hold m hm)⟩
    rw [hsame]
    exact hs.answered n (hold n hn)
  · -- One does, and none has before.
    have hnone : ∀ m, s.requests m ≠ .deployed := by
      intro m hm
      have hpos := hs.answered m hm
      omega
    obtain ⟨k, hothers⟩ := others_of_effect heffect
    have hk : ∀ m, t.requests m = .deployed → m = k := by
      intro m hm
      by_contra hne
      rw [hothers m hne] at hm
      exact hnone m hm
    refine ⟨hrecords.1, hseen, hrecords.2, fun n _ => ?_, fun n m hn hm => (hk n hn).trans (hk m hm).symm⟩
    omega

theorem System.Initial.single (h : s.Initial) : Single s := by
  have hmint := ((isDraft_iff _).mp h.draft).2
  constructor
  · exact ⟨fun _ => hmint, fun _ => h.records⟩
  · intro n records hn
    rw [h.requests n] at hn
    contradiction
  · rw [h.returned]
    exact Nat.zero_le _
  · intro n hn
    rw [h.requests n] at hn
    contradiction
  · intro n m hn
    rw [h.requests n] at hn
    contradiction

/-! ## Every run -/

/-- In every run of such steps no step overwrites a recorded deployment, and one deployment request at most succeeds. -/
theorem mint_is_recorded_once (h : Reachable System.step System.Initial (fun s l => recordsAlone s l = true) s) :
    (∀ l t, recordsAlone s l = true → s.step l = some t → s.token.mintAddress ≠ none →
      t.token.deployment = s.token.deployment) ∧
    ∀ n m, s.requests n = .deployed → s.requests m = .deployed → n = m := by
  have hs : Single s := h.invariant (fun _ => System.Initial.single) fun _ _ _ _ hs hok ht => hs.step hok ht
  refine ⟨fun l t hok ht hmint => ?_, hs.unique⟩
  obtain ⟨hsame, -⟩ | ⟨⟨n, returns, records, hl, hn, -⟩, -⟩ := deployment_of_effect (effect_of_step ht)
  · exact hsame
  · exact absurd (hs.unrecorded.mp (records_eq_zero hs hok hl hn)) hmint

/-- A draft with six decimals. -/
def draft : System :=
  { token :=
      { status := .pending
        mintAddress := none
        mintAuthority := none
        metadataAuthority := none
        freezeAuthority := none
        ablListAddress := none
        signingWalletId := 5
        symbol := "SDP"
        decimals := 6
        requiresAllowlist := false
        maxSupply := none
        totalSupplyCached := 0
        isMintable := true
        isFreezable := true
        supportsBlocklist := true }
    chain := fun _ => none
    requests := fun _ => .idle
    fingerprints := fun _ => none
    records := 0
    returned := 0
    replays := 0
    edits := 0 }

theorem draft_initial : System.Initial draft := ⟨rfl, fun _ => rfl, fun _ => rfl, fun _ => rfl, rfl, rfl, rfl, rfl⟩

def custodialRun : List Step :=
  [.deployRead 0, .deployTransaction 0 (some (7, 3)), .deployClaim 0, .confirmRead 1, .deploySnapshot 0, .deployCreate 0 11 5 .returned,
    .deployRecord 0 true]

/-- A custodial deployment succeeds, and only it. -/
theorem custodial_deployment_is_single :
    ∃ s, Reachable System.step System.Initial (fun s l => recordsAlone s l = true) s ∧
      (s.requests 0, s.token.mintAddress) = (.deployed, some 11) ∧
      (∀ l t, recordsAlone s l = true → s.step l = some t → s.token.mintAddress ≠ none →
        t.token.deployment = s.token.deployment) ∧
      ∀ n m, s.requests n = .deployed → s.requests m = .deployed → n = m := by
  have hrun : ((run (fun u l => if recordsAlone u l then u.step l else none) draft custodialRun).map
      fun s => (s.requests 0, s.token.mintAddress)) = some (.deployed, some 11) := by rfl
  obtain ⟨s, hs, hvalues⟩ := Option.map_eq_some_iff.mp hrun
  have hreach := (Reachable.start draft_initial).run_checked hs
  exact ⟨s, hreach, hvalues, mint_is_recorded_once hreach⟩

/-- Two clients sign a creation each and confirm it at the same time. -/
def confirmRun : List Step :=
  [.prepareRead 0, .prepareSend 0 11 5, .prepareLand 0, .prepareRead 1, .prepareSend 1 12 5, .prepareLand 1,
    .confirmRead 2, .confirmRead 3, .confirmVerify 2 11, .confirmVerify 3 12, .confirmRecord 2 true,
    .confirmRecord 3 true]

/-- Both succeed, and the second overwrites the mint of the first. -/
theorem second_confirm_overwrites :
    ∃ s t, run System.step draft (confirmRun.take 11) = some s ∧ s.step (.confirmRecord 3 true) = some t ∧
      Reachable System.step System.Initial anyStep t ∧ s.token.mintAddress = some 11 ∧ t.token.mintAddress = some 12 ∧
      t.requests 2 = .deployed ∧ t.requests 3 = .deployed := by
  have hfirst : ((run System.step draft (confirmRun.take 11)).bind fun s =>
      (s.step (.confirmRecord 3 true)).map fun t =>
        (s.token.mintAddress, t.token.mintAddress, t.requests 2, t.requests 3)) =
      some (some 11, some 12, .deployed, .deployed) := by rfl
  obtain ⟨s, hs, hnext⟩ := Option.bind_eq_some_iff.mp hfirst
  obtain ⟨t, ht, hvalues⟩ := Option.map_eq_some_iff.mp hnext
  simp only [Prod.mk.injEq] at hvalues
  obtain ⟨hmint, hmint', htwo, hthree⟩ := hvalues
  have hreach := (Reachable.start draft_initial).run hs
  exact ⟨s, t, hs, ht, .step hreach trivial ht, hmint, hmint', htwo, hthree⟩

end Sdp.Deployments
