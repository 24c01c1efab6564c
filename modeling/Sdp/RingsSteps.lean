import Sdp.Code.HeliusRings

/-!
# What a step of the Rings service does

A row only ever moves along the edges of the table, and each way a step may end is one case of `Effect`.
-/

open Sdp.Lib

namespace Sdp.Rings

open Operations (PolicyEvaluationRow OperationRequest ApprovalRequestStatus)
open Payments (CallOutcome)

/-! ## The table of transitions -/

/-- How far a state is. A failure is the end, like a completion. -/
def OperationState.rank : OperationState → Nat
  | .draft => 0
  | .preparing => 1
  | .approvalRequired => 2
  | .proving => 3
  | .readyToSign => 4
  | .submitted => 5
  | .indexing => 6
  | .completed => 7
  | .failed => 8

/-- What the table declares. -/
inductive Edge : OperationState → OperationState → Prop
  | next {a b : OperationState} (guard : Option TransitionGuard) (h : nextState a guard = some b) : Edge a b
  | fail {a : OperationState} {edge : FailEdge} (h : failEdgeFor a = some edge) : Edge a .failed

def OperationState.terminal (a : OperationState) : Prop := a = .completed ∨ a = .failed

theorem Edge.not_terminal {a b : OperationState} (h : Edge a b) : ¬ a.terminal := by
  rintro (rfl | rfl)
  · cases h with
    | next guard h => cases guard with
      | none => cases h
      | some guard => cases guard <;> cases h
    | fail h => cases h
  · cases h with
    | next guard h => cases guard with
      | none => cases h
      | some guard => cases guard <;> cases h
    | fail h => cases h

/-- Where a transition of the service leads. -/
def Site.target : Site → OperationState
  | .prepared _ => .preparing
  | .policyOk _ => .approvalRequired
  | .allowed | .granted => .proving
  | .proofReceived .. => .readyToSign
  | .signed .. => .submitted
  | .submitted | .resumed => .indexing
  | .indexed _ => .completed

theorem nextState_site (site : Site) : nextState site.expectedState site.guard = some site.target := by
  cases site <;> rfl

theorem edge_site (site : Site) : Edge site.expectedState site.target := .next site.guard (nextState_site site)

theorem rank_target (site : Site) : site.target.rank = site.expectedState.rank + 1 := by cases site <;> rfl

theorem rank_lt_failed {a : OperationState} {edge : FailEdge} (h : failEdgeFor a = some edge) :
    a.rank < OperationState.failed.rank := by
  cases a with
  | failed => cases h
  | _ => decide

/-! ## Rows -/

/-- What becomes of a row. -/
structure Later (r r' : OperationRow) : Prop where
  tenant : r'.tenant = r.tenant
  intentKey : r'.intentKey = r.intentKey
  retryOf : r'.retryOfOperationId = r.retryOfOperationId
  rank : r' = r ∨ r.state.rank < r'.state.rank
  terminal : r.state.terminal → r' = r
  approval : OperationState.approvalRequired.rank ≤ r.state.rank → r'.approvalRequestId = r.approvalRequestId
  signature : OperationState.submitted.rank ≤ r.state.rank → r'.outerTxSignature = r.outerTxSignature

theorem Later.rank_le {r r' : OperationRow} (h : Later r r') : r.state.rank ≤ r'.state.rank := by
  rcases h.rank with rfl | hlt
  · exact le_rfl
  · exact hlt.le

instance : Std.Refl Later := ⟨fun _ => ⟨rfl, rfl, rfl, .inl rfl, fun _ => rfl, fun _ => rfl, fun _ => rfl⟩⟩

instance : IsTrans OperationRow Later where
  trans r r' r'' h h' :=
    { tenant := h'.tenant.trans h.tenant
      intentKey := h'.intentKey.trans h.intentKey
      retryOf := h'.retryOf.trans h.retryOf
      rank := by
        rcases h.rank with rfl | hlt
        · exact h'.rank
        · exact .inr (hlt.trans_le h'.rank_le)
      terminal := fun hr => by
        obtain rfl := h.terminal hr
        exact h'.terminal hr
      approval := fun hr => (h'.approval (hr.trans h.rank_le)).trans (h.approval hr)
      signature := fun hr => (h'.signature (hr.trans h.rank_le)).trans (h.signature hr) }

open OperationTable in
theorem expects_iff {ref : OperationRef} {expected : OperationState} {row : OperationRow} :
    expects ref expected row = true ↔ row.tenant = ref.tenant ∧ row.state = expected := by
  simp [expects]

theorem later_moved {ref : OperationRef} {site : Site} {row : OperationRow} (now : Nat)
    (h : OperationTable.expects ref site.expectedState row = true) :
    Later row (OperationTable.moved site.target site.patch now row) := by
  obtain ⟨-, hstate⟩ := expects_iff.mp h
  have hrank := rank_target site
  refine ⟨rfl, rfl, rfl, .inr ?_, fun hterminal => ?_, fun hle => ?_, fun hle => ?_⟩
  · show row.state.rank < site.target.rank
    rw [hstate, hrank]
    exact Nat.lt_succ_self _
  · exact absurd (hstate ▸ hterminal) (edge_site site).not_terminal
  · -- Only `preparing` is left with an approval request.
    rw [hstate] at hle
    cases site with
    | policyOk => exact absurd hle (by simp [Site.expectedState, OperationState.rank])
    | _ => rfl
  · rw [hstate] at hle
    cases site with
    | signed => exact absurd hle (by simp [Site.expectedState, OperationState.rank])
    | _ => rfl

theorem later_withFailure {ref : OperationRef} {expected : OperationState} {edge : FailEdge} {row : OperationRow}
    (failure : OperationFailure) (now : Nat) (hedge : failEdgeFor expected = some edge)
    (h : OperationTable.expects ref expected row = true) : Later row (OperationTable.withFailure failure now row) := by
  obtain ⟨-, hstate⟩ := expects_iff.mp h
  refine ⟨rfl, rfl, rfl, .inr ?_, fun hterminal => ?_, fun _ => rfl, fun _ => rfl⟩
  · rw [hstate]
    exact rank_lt_failed hedge
  · exact absurd (hstate ▸ hterminal) (Edge.fail hedge).not_terminal

/-! ## Statements -/

namespace OperationTable

variable {t : OperationTable} {ref : OperationRef} {row : OperationRow}

/-- The row that a comparison of states finds. -/
def Finds (t : OperationTable) (ref : OperationRef) (expected : OperationState) (row : OperationRow) : Prop :=
  t.find? ref.id = some row ∧ row.tenant = ref.tenant ∧ row.state = expected

theorem Finds.expects {expected : OperationState} (h : t.Finds ref expected row) :
    OperationTable.expects ref expected row = true :=
  expects_iff.mpr h.2

theorem Finds.id {expected : OperationState} (h : t.Finds ref expected row) : row.id = ref.id := Table.key_of_find? h.1

theorem filter_finds {expected : OperationState} (h : t.Finds ref expected row) :
    (t.find? ref.id).filter (OperationTable.expects ref expected) = some row :=
  Option.filter_eq_some_iff.mpr ⟨h.1, h.expects⟩

theorem filter_miss {expected : OperationState} (h : ∀ row, ¬ t.Finds ref expected row) :
    (t.find? ref.id).filter (OperationTable.expects ref expected) = none := by
  refine Option.eq_none_iff_forall_ne_some.mpr fun row hrow => ?_
  obtain ⟨hfind, hexpects⟩ := Option.filter_eq_some_iff.mp hrow
  exact h row ⟨hfind, expects_iff.mp hexpects⟩

theorem find?_set {expected : OperationState} (h : t.Finds ref expected row) (set : OperationRow → OperationRow)
    (hset : ∀ r, (set r).id = r.id) (k : String) :
    (t.update ref.id (OperationTable.expects ref expected) set hset).find? k =
      if k = ref.id then some (set row) else t.find? k := by
  rw [Table.find?_update]
  split
  · simp [h.1, h.expects]
  · rfl

theorem update_miss {expected : OperationState} (h : ∀ row, ¬ t.Finds ref expected row)
    (set : OperationRow → OperationRow) (hset : ∀ r, (set r).id = r.id) :
    t.update ref.id (OperationTable.expects ref expected) set hset = t := by
  refine Table.update_eq_self hset fun row hrow => ?_
  rw [← Bool.not_eq_true]
  exact fun hexpects => h row ⟨hrow, expects_iff.mp hexpects⟩

theorem transitionState_miss {expected : OperationState} (h : ∀ row, ¬ t.Finds ref expected row)
    (nextState : OperationState) (patch : Patch) (now : Nat) :
    t.transitionState ref expected nextState patch now = (t, none) :=
  Prod.ext (update_miss h (moved nextState patch now) fun _ => rfl)
    (congrArg (Option.map (moved nextState patch now)) (filter_miss h))

theorem failOperation_miss {expected : OperationState} (h : ∀ row, ¬ t.Finds ref expected row)
    (failure : OperationFailure) (now : Nat) : t.failOperation ref expected failure now = (t, none) :=
  Prod.ext (update_miss h (withFailure failure now) fun _ => rfl)
    (congrArg (Option.map (withFailure failure now)) (filter_miss h))

end OperationTable

theorem processes_setProcess (s : System) (n : Nat) (p : Process) (m : Nat) :
    (s.setProcess n p).processes m = if m = n then p else s.processes m := by
  simp only [System.setProcess, Function.update_apply]

/-! ## Effects -/

/-- A step of a process that changes nothing but where it stands. -/
inductive Moves (deps : Dependencies) (s : System) : Call → Process → Process → Prop
  | stop {c : Call} {p : Process} : Moves deps s c p .done
  | prepare {tenant : Tenant} {input : PrivateOperationInput} {context : PrepareContext} :
      Moves deps s (.prepareOperation tenant input context) .idle (.requiringWallet tenant input context none)
  | execute {ref : OperationRef} : Moves deps s (.executeOperation ref) .idle (.executing ref)
  | retry {ref : OperationRef} {clientNonce : String} {context : PrepareContext} :
      Moves deps s (.retryOperation ref clientNonce context) .idle (.retrying ref clientNonce context)
  | wallet {sdpWalletId : String} {tenant : Tenant} {input : PrivateOperationInput} {context : PrepareContext}
      {retryOf : Option String} :
      Moves deps s (.requireWallet (some sdpWalletId)) (.requiringWallet tenant input context retryOf)
        (.reserving tenant ⟨sdpWalletId, computeIntentKey deps.sha256 input, input, context⟩ retryOf)
  | appended {ref : OperationRef} {note : Note} :
      Moves deps s (.append none) (.appending ref note) (.afterAppend ref note)
  | appendThrown {ref : OperationRef} {note : Note} {error : PortError} :
      Moves deps s (.append (some error)) (.appending ref note) (.thrown ref note.caught error)
  | transitionThrown {ref : OperationRef} {site : Site} {outcome : CallOutcome} {message : Option String}
      (h : outcome = .failed ∨ ∀ row, ¬ s.operations.Finds ref site.expectedState row) :
      Moves deps s (.transitionState outcome message) (.transitioning ref site)
        (.thrown ref site.caught (.other message))
  | raceLost {ref : OperationRef} {site : Site} {message : Option String}
      (h : ∀ row, ¬ s.operations.Finds ref site.expectedState row) :
      Moves deps s (.transitionState .answered message) (.transitioning ref site) (.lostRace ref site)
  | enforceThrown {ref : OperationRef} {request : PrepareRequest} {policies : PolicyState} {message : Option String} :
      Moves deps s (.enforcePolicy policies (some message)) (.enforcing ref request)
        (.failing ref .preparing (System.policyFailure message))
  | read {ref : OperationRef} {row : OperationRow} (hrow : s.operations.getOperationById ref = some row) :
      Moves deps s (.requireOperation true) (.executing ref) (.execute ref row)
  | retried {ref : OperationRef} {clientNonce : String} {context : PrepareContext} {row : OperationRow}
      (hrow : s.operations.getOperationById ref = some row) (hfailed : row.state = .failed)
      (hretryable : row.failure.any (·.retryable) = true) :
      Moves deps s (.requireOperation true) (.retrying ref clientNonce context)
        (.requiringWallet ref.tenant (retryInput row clientNonce) context (some row.id))
  | rereadThrown {ref : OperationRef} {caught : OperationState} {error : PortError} :
      Moves deps s (.reread (some error)) (.rereading ref caught) (.thrown ref (some caught) error)
  | approval {ref : OperationRef} {approvalRequestId : String} :
      Moves deps s (.getApprovalStatus true) (.readingApproval ref approvalRequestId)
        (.afterApproval ref (s.approvals approvalRequestId))
  | built {ref : OperationRef} {unsignedTx : String} :
      Moves deps s (.buildOperation (.ok unsignedTx)) (.building ref) (.proving ref unsignedTx)
  | buildThrown {ref : OperationRef} {error : PortError} :
      Moves deps s (.buildOperation (.error error)) (.building ref) (.thrown ref (some .proving) error)
  | proved {ref : OperationRef} {unsignedTx : String} {proof : ProofArtifact} :
      Moves deps s (.requestProof (.ok proof)) (.proving ref unsignedTx)
        (.transitioning ref (.proofReceived proof unsignedTx))
  | proofThrown {ref : OperationRef} {unsignedTx : String} {error : PortError} :
      Moves deps s (.requestProof (.error error)) (.proving ref unsignedTx) (.thrown ref (some .proving) error)
  | signed {ref : OperationRef} {unsignedTx signedTx signature : String}
      (h : deps.signatureOf signedTx = some signature) :
      Moves deps s (.signOuterTransaction (.ok signedTx)) (.signing ref unsignedTx)
        (.transitioning ref (.signed signedTx signature))
  | signThrown {ref : OperationRef} {unsignedTx : String} {result : Except PortError String} {error : PortError} :
      Moves deps s (.signOuterTransaction result) (.signing ref unsignedTx) (.thrown ref (some .readyToSign) error)
  | verified {ref : OperationRef} {signature : String} {indexedAt : Nat} (h : s.photon ref.id = some indexedAt) :
      Moves deps s (.verifyIndexed none) (.verifying ref signature) (.transitioning ref (.indexed indexedAt))
  | verifyThrown {ref : OperationRef} {signature : String} {error : PortError} :
      Moves deps s (.verifyIndexed (some error)) (.verifying ref signature) (.thrown ref (some .indexing) error)

namespace System

/-- A row is moved along the edge of a site. -/
def transitioned (s : System) (ref : OperationRef) (site : Site) (row : OperationRow) : System :=
  s.commit site.target (s.operations.transitionState ref site.expectedState site.target site.patch s.now).1
    (some (OperationTable.moved site.target site.patch s.now row))

/-- A row is failed. -/
def failed (s : System) (ref : OperationRef) (expected : OperationState) (failure : OperationFailure) : System :=
  { s with operations := (s.operations.failOperation ref expected failure s.now).1 }

def reserved (s : System) (tenant : Tenant) (request : PrepareRequest) (retryOf : Option String) (id : String) :
    System :=
  { s with operations :=
      s.operations.insertNew (.reserve id tenant request.input request.intentKey retryOf s.now) }

end System

/-- One case for each way that a step of a process ends. -/
inductive Effect (deps : Dependencies) (s : System) (n : Nat) : Call → System → Prop
  | moved {c : Call} {p : Process} (h : Moves deps s c (s.processes n) p) : Effect deps s n c (s.setProcess n p)
  | listed (hidle : s.processes n = .idle) :
      Effect deps s n .pollRingsIndexing
        ({ s with tasks := Function.update s.tasks n s.sweepTasks }.setProcess n .done)
  | swept {task : Task} {tasks : List Task} (hdone : s.processes n = .done) (htasks : s.tasks n = task :: tasks) :
      Effect deps s n .sweep
        ({ s with tasks := Function.update s.tasks n tasks }.setProcess n (System.taskProcess task))
  | reserved {tenant : Tenant} {request : PrepareRequest} {retryOf : Option String} {id : String}
      {outcome : CallOutcome} {p : Process} (hp : s.processes n = .reserving tenant request retryOf)
      (hid : s.operations.find? id = none) (hkey : ∀ row ∈ s.operations.rows, row.intentKey ≠ request.intentKey)
      (h : p = .done ∨ p = .appending ⟨tenant, id⟩ (.created request)) :
      Effect deps s n (.reserveIntent id outcome) ((s.reserved tenant request retryOf id).setProcess n p)
  | transitioned {ref : OperationRef} {site : Site} {row : OperationRow} {outcome : CallOutcome}
      {message : Option String} {p : Process} (hp : s.processes n = .transitioning ref site)
      (hrow : s.operations.Finds ref site.expectedState row)
      (h : p = .thrown ref site.caught (.other message) ∨
        p = .appending ref (.transitioned site (OperationTable.moved site.target site.patch s.now row))) :
      Effect deps s n (.transitionState outcome message) ((s.transitioned ref site row).setProcess n p)
  | failed {ref : OperationRef} {expected : OperationState} {failure : OperationFailure} {row : OperationRow}
      {outcome : CallOutcome} {p : Process} (hp : s.processes n = .failing ref expected failure)
      (hrow : s.operations.Finds ref expected row) (h : p = .done ∨ p = .appending ref .failed) :
      Effect deps s n (.failOperation outcome) ((s.failed ref expected failure).setProcess n p)
  | timedOut {ref : OperationRef} {row : OperationRow} {outcome : CallOutcome} (hp : s.processes n = .timingOut ref)
      (hrow : s.operations.Finds ref .indexing row) (houtcome : outcome ≠ .failed) :
      Effect deps s n (.failOperation outcome) ((s.failed ref .indexing System.timeoutFailure).setProcess n .done)
  | refused {ref : OperationRef} {request : PrepareRequest} {policies : PolicyState} {message : String}
      (hp : s.processes n = .enforcing ref request)
      (hanswer : (deps.enforcePolicy (System.operationRequest ref request policies)).answer = .error message) :
      Effect deps s n (.enforcePolicy policies none)
        ((s.requestApproval
          (deps.enforcePolicy (System.operationRequest ref request policies)).approvalRequest).setProcess n
            (.failing ref .preparing (System.policyFailure (some message))))
  | judged {ref : OperationRef} {request : PrepareRequest} {policies : PolicyState} {evaluation : PolicyEvaluationRow}
      (hp : s.processes n = .enforcing ref request)
      (hanswer : (deps.enforcePolicy (System.operationRequest ref request policies)).answer = .ok evaluation) :
      Effect deps s n (.enforcePolicy policies none)
        ({ s.requestApproval (deps.enforcePolicy (System.operationRequest ref request policies)).approvalRequest with
            verdicts := s.verdicts ++ [(ref.id, evaluation)] }.setProcess n (.appending ref (.evaluated evaluation)))
  | submitted {ref : OperationRef} {signedTx signature : String} {accepted : Bool} {error : Option PortError}
      (hp : s.processes n = .submitting ref signedTx signature) :
      Effect deps s n (.submitOuterTransaction accepted error)
        (s.submitOuterTransaction n ref signedTx signature accepted error)
  | crashed : Effect deps s n .crash ({ s with tasks := Function.update s.tasks n [] }.setProcess n .done)

section

variable {deps : Dependencies} {s t : System} {n : Nat}

theorem effect_reserveIntent {tenant : Tenant} {request : PrepareRequest} {retryOf : Option String} {id : String}
    {outcome : CallOutcome} (hp : s.processes n = .reserving tenant request retryOf)
    (h : s.reserveIntent n tenant request retryOf id outcome = some t) :
    Effect deps s n (.reserveIntent id outcome) t := by
  unfold System.reserveIntent at h
  split at h
  · next hid =>
    unfold OperationTable.reserveIntent at h
    cases hkey : s.operations.rows.find? (fun row => row.intentKey =
        (OperationRow.reserve id tenant request.input request.intentKey retryOf s.now).intentKey) with
    | some existing =>
      -- The row that is there has another id.
      have hother : existing.id ≠ id := by
        rintro rfl
        have hmem := List.mem_of_find?_eq_some hkey
        cases hid.symm.trans (Table.mem_rows_iff.mp hmem)
      rw [hkey] at h
      cases outcome <;> cases h
      · simp only [OperationRow.reserve, hother, decide_false, Bool.false_eq_true, if_false]
        exact .moved .stop
      · exact .moved .stop
      · exact .moved .stop
    | none =>
      have hkeys : ∀ row ∈ s.operations.rows, row.intentKey ≠ request.intentKey := by
        intro row hrow heq
        exact List.find?_eq_none.mp hkey row hrow (decide_eq_true heq)
      rw [hkey] at h
      cases outcome <;> cases h
      · exact .reserved hp hid hkeys (.inr rfl)
      · exact .moved .stop
      · exact .reserved hp hid hkeys (.inl rfl)
  · contradiction

theorem effect_transitionState {ref : OperationRef} {site : Site} {outcome : CallOutcome} {message : Option String}
    (hp : s.processes n = .transitioning ref site) :
    Effect deps s n (.transitionState outcome message) (s.transitionState n ref site outcome message) := by
  unfold System.transitionState
  rw [nextState_site]
  by_cases hfound : ∃ row, s.operations.Finds ref site.expectedState row
  · obtain ⟨row, hrow⟩ := hfound
    simp only [OperationTable.transitionState, OperationTable.filter_finds hrow, Option.map_some]
    cases outcome
    · exact .transitioned hp hrow (.inr rfl)
    · refine .moved ?_
      rw [hp]
      exact .transitionThrown (.inl rfl)
    · exact .transitioned hp hrow (.inl rfl)
  · have hmiss := not_exists.mp hfound
    have hcommit : s.commit site.target s.operations none = s := by simp [System.commit]
    simp only [OperationTable.transitionState_miss hmiss, hcommit]
    cases outcome
    · exact .moved (hp ▸ .raceLost hmiss)
    · exact .moved (hp ▸ .transitionThrown (.inl rfl))
    · exact .moved (hp ▸ .transitionThrown (.inr hmiss))

theorem effect_failOperation {ref : OperationRef} {expected : OperationState} {failure : OperationFailure}
    {outcome : CallOutcome} (hp : s.processes n = .failing ref expected failure) :
    Effect deps s n (.failOperation outcome) (s.failOperation n ref expected failure outcome) := by
  unfold System.failOperation
  by_cases hfound : ∃ row, s.operations.Finds ref expected row
  · obtain ⟨row, hrow⟩ := hfound
    simp only [OperationTable.failOperation, OperationTable.filter_finds hrow, Option.map_some]
    cases outcome
    · exact .failed hp hrow (.inr rfl)
    · exact .moved .stop
    · exact .failed hp hrow (.inl rfl)
  · simp only [OperationTable.failOperation_miss (not_exists.mp hfound)]
    cases outcome <;> exact .moved .stop

theorem effect_failIndexingTimeout {ref : OperationRef} {outcome : CallOutcome}
    (hp : s.processes n = .timingOut ref) :
    Effect deps s n (.failOperation outcome) (s.failIndexingTimeout n ref outcome) := by
  unfold System.failIndexingTimeout
  dsimp only
  split
  · exact .moved .stop
  · next houtcome =>
    by_cases hfound : ∃ row, s.operations.Finds ref .indexing row
    · obtain ⟨row, hrow⟩ := hfound
      exact .timedOut hp hrow houtcome
    · rw [OperationTable.failOperation_miss (not_exists.mp hfound)]
      exact .moved .stop

theorem effect_enforcePolicy {ref : OperationRef} {request : PrepareRequest} {policies : PolicyState}
    {failure : Option (Option String)} (hp : s.processes n = .enforcing ref request) :
    Effect deps s n (.enforcePolicy policies failure) (s.enforcePolicy deps n ref request policies failure) := by
  unfold System.enforcePolicy
  cases failure with
  | some message =>
    refine .moved ?_
    rw [hp]
    exact .enforceThrown
  | none =>
    dsimp only
    split
    · next hanswer => exact .refused hp hanswer
    · next hanswer => exact .judged hp hanswer

theorem effect_readExecuted {ref : OperationRef} (hp : s.processes n = .executing ref) :
    Effect deps s n (.requireOperation true) (s.readExecuted n ref) := by
  unfold System.readExecuted
  refine .moved ?_
  cases hrow : s.operations.getOperationById ref with
  | none => exact .stop
  | some row => exact hp ▸ .read hrow

theorem effect_readRetried {ref : OperationRef} {clientNonce : String} {context : PrepareContext}
    (hp : s.processes n = .retrying ref clientNonce context) :
    Effect deps s n (.requireOperation true) (s.readRetried n ref clientNonce context) := by
  unfold System.readRetried
  refine .moved ?_
  split
  · exact .stop
  · next row hrow =>
    split
    · next hretry => exact hp ▸ .retried hrow hretry.1 hretry.2.1
    · exact .stop

theorem effect_signed {ref : OperationRef} {unsignedTx signedTx : String}
    (hp : s.processes n = .signing ref unsignedTx) :
    Effect deps s n (.signOuterTransaction (.ok signedTx)) (s.signed deps n ref signedTx) := by
  unfold System.signed
  refine .moved ?_
  split
  · next signature hsignature => exact hp ▸ .signed hsignature
  · exact hp ▸ .signThrown

theorem effect_verifyIndexed {ref : OperationRef} {signature : String} {error : Option PortError}
    (hp : s.processes n = .verifying ref signature) :
    Effect deps s n (.verifyIndexed error) (s.verifyIndexed n ref error) := by
  unfold System.verifyIndexed
  refine .moved ?_
  cases error with
  | some error => exact hp ▸ .verifyThrown
  | none =>
    cases hphoton : s.photon ref.id with
    | none => exact .stop
    | some indexedAt => exact hp ▸ .verified hphoton

theorem effect_of_call {c : Call} (h : s.call deps n c = some t) : Effect deps s n c t := by
  unfold System.call at h
  split at h
  case h_1 hp => cases h; exact .moved (hp ▸ .prepare)
  case h_2 hp => cases h; exact .moved (hp ▸ .execute)
  case h_3 hp => cases h; exact .moved (hp ▸ .retry)
  case h_4 hp => cases h; exact .listed hp
  case h_5 hp =>
    split at h
    · cases h
    · next htasks => cases h; exact .swept hp htasks
  case h_6 | h_15 | h_16 | h_19 | h_21 => cases h; exact .moved .stop
  case h_7 hp => cases h; exact .moved (hp ▸ .wallet)
  case h_8 hp => exact effect_reserveIntent hp h
  case h_9 hp => cases h; exact .moved (hp ▸ .appended)
  case h_10 hp => cases h; exact .moved (hp ▸ .appendThrown)
  case h_11 hp => cases h; exact effect_transitionState hp
  case h_12 hp => cases h; exact effect_failOperation hp
  case h_13 hp => cases h; exact effect_failIndexingTimeout hp
  case h_14 hp => cases h; exact effect_enforcePolicy hp
  case h_17 hp => cases h; exact effect_readExecuted hp
  case h_18 hp => cases h; exact effect_readRetried hp
  case h_20 hp => cases h; exact .moved (hp ▸ .rereadThrown)
  case h_22 hp => cases h; exact .moved (hp ▸ .approval)
  case h_23 hp => cases h; exact .moved (hp ▸ .built)
  case h_24 hp => cases h; exact .moved (hp ▸ .buildThrown)
  case h_25 hp => cases h; exact .moved (hp ▸ .proved)
  case h_26 hp => cases h; exact .moved (hp ▸ .proofThrown)
  case h_27 hp => cases h; exact effect_signed hp
  case h_28 hp => cases h; exact .moved (hp ▸ .signThrown)
  case h_29 hp => cases h; exact .submitted hp
  case h_30 hp => cases h; exact effect_verifyIndexed hp
  case h_31 => cases h; exact .crashed
  case h_32 => cases h

end

end Sdp.Rings
