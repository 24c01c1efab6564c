import Sdp.RingsSteps

/-!
# What holds of a Rings operation and of the processes that work on it

A process knows how far its row has come, and keeps knowing it, since a row only goes on. Of all processes one at most
is past the transition that stores a signature and before the call that broadcasts it.
-/

open Sdp.Lib

namespace Sdp.Rings

open Operations (PolicyEvaluationRow ApprovalRequestStatus)
open Payments (CallOutcome)

variable {deps : Dependencies} {s t : System}

/-! ## Later systems -/

structure Extends (s t : System) : Prop where
  rows : Table.Evolves Later s.operations t.operations
  verdicts : s.verdicts ⊆ t.verdicts
  approvals : ∀ id, s.approvals id = some .approved → t.approvals id = some .approved

theorem Extends.refl : Extends s s := ⟨.refl, List.Subset.refl _, fun _ h => h⟩

theorem extends_setProcess (n : Nat) (p : Process) : Extends s (s.setProcess n p) :=
  ⟨.refl, List.Subset.refl _, fun _ h => h⟩

theorem Extends.trans {u : System} (h : Extends s t) (h' : Extends t u) : Extends s u where
  rows k r hr := by
    obtain ⟨r', hr', hle⟩ := h.rows k r hr
    obtain ⟨r'', hr'', hle'⟩ := h'.rows k r' hr'
    exact ⟨r'', hr'', IsTrans.trans r r' r'' hle hle'⟩
  verdicts _ hv := h'.verdicts (h.verdicts hv)
  approvals id hid := h'.approvals id (h.approvals id hid)

theorem extends_reserved {tenant : Tenant} {request : PrepareRequest} {retryOf : Option String} {id : String} :
    Extends s (s.reserved tenant request retryOf id) :=
  ⟨Table.evolves_insertNew _, List.Subset.refl _, fun _ h => h⟩

theorem extends_transitioned (ref : OperationRef) (site : Site) (row : OperationRow) :
    Extends s (s.transitioned ref site row) := by
  have hrows : Table.Evolves Later s.operations (s.operations.update ref.id
      (OperationTable.expects ref site.expectedState) (OperationTable.moved site.target site.patch s.now)
      fun _ => rfl) :=
    Table.evolves_update _ fun _ _ hexpects => later_moved s.now hexpects
  exact ⟨hrows, List.Subset.refl _, fun _ h => h⟩

theorem extends_failed {expected : OperationState} {edge : FailEdge} (ref : OperationRef) (failure : OperationFailure)
    (hedge : failEdgeFor expected = some edge) : Extends s (s.failed ref expected failure) := by
  have hrows : Table.Evolves Later s.operations (s.operations.update ref.id
      (OperationTable.expects ref expected) (OperationTable.withFailure failure s.now) fun _ => rfl) :=
    Table.evolves_update _ fun _ _ hexpects => later_withFailure failure s.now hedge hexpects
  exact ⟨hrows, List.Subset.refl _, fun _ h => h⟩

theorem extends_requestApproval (approvalRequest : Option String) : Extends s (s.requestApproval approvalRequest) := by
  refine ⟨.refl, List.Subset.refl _, fun id hid => ?_⟩
  simp only [System.requestApproval, hid, Option.some_or, ite_self]

theorem extends_judged (approvalRequest : Option String) (verdict : String × PolicyEvaluationRow) :
    Extends s { s.requestApproval approvalRequest with verdicts := s.verdicts ++ [verdict] } :=
  ⟨.refl, List.subset_append_left _ _, (extends_requestApproval approvalRequest).approvals⟩

/-! ## What a process knows -/

/-- The row of an operation has come so far. -/
def At (s : System) (ref : OperationRef) (state : OperationState) : Prop :=
  ∃ row, s.operations.find? ref.id = some row ∧ row.tenant = ref.tenant ∧ state.rank ≤ row.state.rank

theorem At.extends {ref : OperationRef} {state : OperationState} (h : At s ref state) (hext : Extends s t) :
    At t ref state := by
  obtain ⟨row, hrow, htenant, hrank⟩ := h
  obtain ⟨row', hrow', hlater⟩ := hext.rows _ row hrow
  exact ⟨row', hrow', hlater.tenant.trans htenant, hrank.trans hlater.rank_le⟩

theorem At.le {ref : OperationRef} {state state' : OperationState} (h : At s ref state)
    (hle : state'.rank ≤ state.rank) : At s ref state' := by
  obtain ⟨row, hrow, htenant, hrank⟩ := h
  exact ⟨row, hrow, htenant, hle.trans hrank⟩

/-- The row holds a value of a column that does not change any more. -/
def Keeps (s : System) (id : String) (state : OperationState) (column : OperationRow → Option String)
    (value : String) : Prop :=
  ∃ row, s.operations.find? id = some row ∧ state.rank ≤ row.state.rank ∧ column row = some value

theorem Keeps.approval_extends {id value : String} (h : Keeps s id .approvalRequired (·.approvalRequestId) value)
    (hext : Extends s t) : Keeps t id .approvalRequired (·.approvalRequestId) value := by
  obtain ⟨row, hrow, hrank, hvalue⟩ := h
  obtain ⟨row', hrow', hlater⟩ := hext.rows _ row hrow
  exact ⟨row', hrow', hrank.trans hlater.rank_le, (hlater.approval hrank).trans hvalue⟩

theorem Keeps.signature_extends {id value : String} (h : Keeps s id .submitted (·.outerTxSignature) value)
    (hext : Extends s t) : Keeps t id .submitted (·.outerTxSignature) value := by
  obtain ⟨row, hrow, hrank, hvalue⟩ := h
  obtain ⟨row', hrow', hlater⟩ := hext.rows _ row hrow
  exact ⟨row', hrow', hrank.trans hlater.rank_le, (hlater.signature hrank).trans hvalue⟩

namespace Note

/-- How far the row has come when the event is appended. -/
def reached : Note → OperationState
  | .created _ => .draft
  | .transitioned site _ => site.target
  | .evaluated _ => .preparing
  | .approvalRequested | .approvalGranted => .approvalRequired
  | .proofReceived _ => .readyToSign
  | .transactionSubmitted => .submitted
  | .completed => .completed
  | .failed => .failed

end Note

/-- How far the row of a process has come, at least. -/
def Process.position : Process → Option (OperationRef × OperationState)
  | .appending ref note => some (ref, note.reached)
  | .transitioning ref site => some (ref, site.expectedState)
  | .enforcing ref _ => some (ref, .preparing)
  | .readingApproval ref _ => some (ref, .approvalRequired)
  | .building ref | .proving ref _ => some (ref, .proving)
  | .signing ref _ => some (ref, .readyToSign)
  | .submitting ref _ _ => some (ref, .submitted)
  | .verifying ref _ => some (ref, .indexing)
  | .rereading ref state | .failing ref state _ => some (ref, state)
  | .idle | .done | .requiringWallet .. | .reserving .. | .executing _ | .retrying .. | .timingOut _ => none

def Placed (s : System) (p : Process) : Prop := ∀ ref state, p.position = some (ref, state) → At s ref state

theorem Placed.extends {p : Process} (h : Placed s p) (hext : Extends s t) : Placed t p :=
  fun ref state hp => (h ref state hp).extends hext

theorem placed_of_position {p : Process} {ref : OperationRef} {state : OperationState}
    (hp : p.position = some (ref, state)) (h : At s ref state) : Placed s p := by
  intro ref' state' hp'
  cases hp.symm.trans hp'
  exact h

theorem placed_of_none {p : Process} (hp : p.position = none) : Placed s p :=
  fun _ _ hp' => nomatch hp.symm.trans hp'

/-- The approval of an operation. -/
def Granted (s : System) (id : String) : Prop :=
  ∃ request, Keeps s id .approvalRequired (·.approvalRequestId) request ∧ s.approvals request = some .approved

theorem Granted.extends {id : String} (h : Granted s id) (hext : Extends s t) : Granted t id := by
  obtain ⟨request, hkeeps, happroved⟩ := h
  exact ⟨request, hkeeps.approval_extends hext, hext.approvals _ happroved⟩

/-- The policy allowed an operation. -/
def Allowed (s : System) (id : String) : Prop :=
  ∃ evaluation, (id, evaluation) ∈ s.verdicts ∧ evaluation.decision = .allow

theorem Allowed.extends {id : String} (h : Allowed s id) (hext : Extends s t) : Allowed t id := by
  obtain ⟨evaluation, hmem, hallow⟩ := h
  exact ⟨evaluation, hext.verdicts hmem, hallow⟩

def SiteFacts (deps : Dependencies) (s : System) (ref : OperationRef) : Site → Prop
  | .policyOk evaluation => (ref.id, evaluation) ∈ s.verdicts ∧ evaluation.decision ≠ .deny
  | .allowed => Allowed s ref.id
  | .granted => Granted s ref.id
  | .signed signedTx signature => deps.signatureOf signedTx = some signature
  | .prepared _ | .resumed | .indexed _ | .proofReceived .. | .submitted => True

theorem SiteFacts.extends {ref : OperationRef} {site : Site} (h : SiteFacts deps s ref site) (hext : Extends s t) :
    SiteFacts deps t ref site := by
  cases site with
  | policyOk => exact ⟨hext.verdicts h.1, h.2⟩
  | allowed => exact Allowed.extends h hext
  | granted => exact Granted.extends h hext
  | signed => exact h
  | _ => trivial

/-- What the row of a transition shows. -/
def Returned (s : System) (ref : OperationRef) (row : OperationRow) : Site → Prop
  | .signed _ signature => Keeps s ref.id .submitted (·.outerTxSignature) signature
  | .resumed => (filled row.outerTxSignature).isSome
  | _ => True

theorem Returned.extends {ref : OperationRef} {row : OperationRow} {site : Site} (h : Returned s ref row site)
    (hext : Extends s t) : Returned t ref row site := by
  cases site with
  | signed => exact Keeps.signature_extends h hext
  | resumed => exact h
  | _ => trivial

def NoteFacts (deps : Dependencies) (s : System) (ref : OperationRef) : Note → Prop
  | .transitioned site row => SiteFacts deps s ref site ∧ Returned s ref row site
  | .evaluated evaluation => (ref.id, evaluation) ∈ s.verdicts
  | .approvalGranted => Granted s ref.id
  | .created _ | .approvalRequested | .proofReceived _ | .transactionSubmitted | .completed | .failed => True

theorem NoteFacts.extends {ref : OperationRef} {note : Note} (h : NoteFacts deps s ref note) (hext : Extends s t) :
    NoteFacts deps t ref note := by
  cases note with
  | transitioned => exact ⟨h.1.extends hext, h.2.extends hext⟩
  | evaluated => exact hext.verdicts h
  | approvalGranted => exact Granted.extends h hext
  | _ => trivial

/-- A row has left a state. -/
def Past (s : System) (ref : OperationRef) (state : OperationState) : Prop :=
  ∃ row, s.operations.find? ref.id = some row ∧ state.rank < row.state.rank

theorem Past.extends {ref : OperationRef} {state : OperationState} (h : Past s ref state) (hext : Extends s t) :
    Past t ref state := by
  obtain ⟨row, hrow, hrank⟩ := h
  obtain ⟨row', hrow', hlater⟩ := hext.rows _ row hrow
  exact ⟨row', hrow', hrank.trans_le hlater.rank_le⟩

def Facts (deps : Dependencies) (s : System) : Process → Prop
  | .appending ref note => NoteFacts deps s ref note
  | .transitioning ref site => SiteFacts deps s ref site
  | .readingApproval ref request => Keeps s ref.id .approvalRequired (·.approvalRequestId) request
  | .submitting ref signedTx signature =>
    deps.signatureOf signedTx = some signature ∧ Keeps s ref.id .submitted (·.outerTxSignature) signature
  | .rereading ref state => (∃ edge, failEdgeFor state = some edge) ∧ Past s ref state
  | .failing _ state _ => ∃ edge, failEdgeFor state = some edge
  | .idle | .done | .requiringWallet .. | .reserving .. | .enforcing .. | .executing _ | .retrying .. | .building _
  | .proving .. | .signing .. | .verifying .. | .timingOut _ => True

theorem Facts.extends {p : Process} (h : Facts deps s p) (hext : Extends s t) : Facts deps t p := by
  cases p with
  | appending => exact NoteFacts.extends h hext
  | transitioning => exact SiteFacts.extends h hext
  | readingApproval => exact Keeps.approval_extends h hext
  | submitting => exact ⟨h.1, h.2.signature_extends hext⟩
  | rereading => exact ⟨h.1, h.2.extends hext⟩
  | failing => exact h
  | _ => trivial

structure ProcessOk (deps : Dependencies) (s : System) (p : Process) : Prop where
  placed : Placed s p
  facts : Facts deps s p

theorem ProcessOk.extends {p : Process} (h : ProcessOk deps s p) (hext : Extends s t) : ProcessOk deps t p :=
  ⟨h.placed.extends hext, h.facts.extends hext⟩

theorem processOk_done : ProcessOk deps s .done := ⟨placed_of_none rfl, trivial⟩

theorem processOk_failing {ref : OperationRef} {state : OperationState} (h : At s ref state)
    (hedge : ∃ edge, failEdgeFor state = some edge) (failure : OperationFailure) :
    ProcessOk deps s (.failing ref state failure) :=
  ⟨placed_of_position rfl h, hedge⟩

theorem processOk_thrown {ref : OperationRef} {caught : Option OperationState} {error : PortError}
    (h : ∀ state, caught = some state → At s ref state ∧ ∃ edge, failEdgeFor state = some edge) :
    ProcessOk deps s (.thrown ref caught error) := by
  cases caught with
  | none => exact processOk_done
  | some state =>
    obtain ⟨hat, hedge⟩ := h state rfl
    exact processOk_failing hat hedge _

theorem Note.caught_spec {note : Note} {state : OperationState} (h : note.caught = some state) :
    state.rank ≤ note.reached.rank ∧ ∃ edge, failEdgeFor state = some edge := by
  cases note with
  | transitioned site row =>
    cases site <;> cases h <;> exact ⟨Nat.le_succ _, _, rfl⟩
  | proofReceived | transactionSubmitted => cases h; exact ⟨le_rfl, _, rfl⟩
  | completed => cases h; exact ⟨Nat.le_succ _, _, rfl⟩
  | _ => cases h

theorem Site.caught_spec {site : Site} {state : OperationState} (h : site.caught = some state) :
    state = site.expectedState ∧ ∃ edge, failEdgeFor state = some edge := by
  cases site <;> cases h <;> exact ⟨rfl, _, rfl⟩

/-! ## The invariant -/

structure RowOk (s : System) (row : OperationRow) : Prop where
  /-- Its approval request is the one of its own policy evaluation. -/
  own : ∀ request, row.approvalRequestId = some request → ∃ evaluation, (row.id, evaluation) ∈ s.verdicts ∧
    evaluation.approvalRequestId = some request
  signed : OperationState.submitted.rank ≤ row.state.rank → row.state ≠ .failed →
    (filled row.outerTxSignature).isSome

structure Inv (deps : Dependencies) (s : System) : Prop where
  rows : ∀ k row, s.operations.find? k = some row → RowOk s row
  keys : (s.operations.rows.map (·.intentKey)).Nodup
  asked : ∀ v ∈ s.verdicts, v.2.decision = .allow ∨ v.2.decision = .deny ∨ v.2.requiresApproval = true
  processes : ∀ n, ProcessOk deps s (s.processes n)

theorem rank_inj {a b : OperationState} (h : a.rank = b.rank) : a = b := by
  cases a <;> cases b <;> first | rfl | cases h

theorem past_of_miss {ref : OperationRef} {state : OperationState} (hat : At s ref state)
    (hmiss : ∀ row, ¬ s.operations.Finds ref state row) : Past s ref state := by
  obtain ⟨row, hrow, htenant, hrank⟩ := hat
  refine ⟨row, hrow, lt_of_le_of_ne hrank fun heq => ?_⟩
  exact hmiss row ⟨hrow, htenant, (rank_inj heq).symm⟩

theorem filled_eq_some {value : Option String} {text : String} (h : filled value = some text) : value = some text :=
  (Option.filter_eq_some_iff.mp h).1

theorem at_of_getOperationById {ref : OperationRef} {row : OperationRow}
    (h : s.operations.getOperationById ref = some row) :
    s.operations.find? ref.id = some row ∧ row.tenant = ref.tenant := by
  obtain ⟨hfind, htenant⟩ := Option.filter_eq_some_iff.mp h
  exact ⟨hfind, of_decide_eq_true htenant⟩

theorem processOk_polling {ref : OperationRef} {row : OperationRow} (h : At s ref .indexing) :
    ProcessOk deps s (.polling ref row) := by
  unfold Process.polling
  split
  · exact processOk_failing h ⟨_, rfl⟩ _
  · exact ⟨placed_of_position rfl h, trivial⟩

theorem processOk_afterTransition (hinv : Inv deps s) {ref : OperationRef} {row : OperationRow} {site : Site}
    (hat : At s ref site.target) (hfacts : SiteFacts deps s ref site) (hrow : Returned s ref row site) :
    ProcessOk deps s (.afterTransition ref row site) := by
  cases site with
  | prepared request => exact ⟨placed_of_position rfl hat, trivial⟩
  | policyOk evaluation =>
    show ProcessOk deps s (if evaluation.requiresApproval then _ else _)
    split
    · exact ⟨placed_of_position rfl hat, trivial⟩
    · next happroval =>
      obtain ⟨hmem, hdeny⟩ := hfacts
      refine ⟨placed_of_position rfl hat, evaluation, hmem, ?_⟩
      rcases hinv.asked _ hmem with hallow | hdenied | hrequired
      · exact hallow
      · exact absurd hdenied hdeny
      · exact absurd hrequired happroval
  | allowed | granted => exact ⟨placed_of_position rfl hat, trivial⟩
  | resumed => exact processOk_polling hat
  | indexed indexedAt => exact ⟨placed_of_position rfl hat, trivial⟩
  | proofReceived proof unsignedTx => exact ⟨placed_of_position rfl hat, trivial⟩
  | signed signedTx signature => exact ⟨placed_of_position rfl hat, hfacts, hrow⟩
  | submitted => exact processOk_done

theorem processOk_afterAppend (hinv : Inv deps s) {ref : OperationRef} {note : Note}
    (h : ProcessOk deps s (.appending ref note)) : ProcessOk deps s (.afterAppend ref note) := by
  have hat : At s ref note.reached := h.placed ref _ rfl
  have hfacts : NoteFacts deps s ref note := h.facts
  cases note with
  | created request => exact ⟨placed_of_position rfl hat, trivial⟩
  | transitioned site row => exact processOk_afterTransition hinv hat hfacts.1 hfacts.2
  | evaluated evaluation =>
    show ProcessOk deps s (if evaluation.decision = .deny then _ else _)
    split
    · exact processOk_failing hat ⟨_, rfl⟩ _
    · next hdeny => exact ⟨placed_of_position rfl hat, hfacts, hdeny⟩
  | approvalGranted => exact ⟨placed_of_position rfl hat, hfacts⟩
  | proofReceived unsignedTx => exact ⟨placed_of_position rfl hat, trivial⟩
  | transactionSubmitted => exact ⟨placed_of_position rfl hat, trivial⟩
  | approvalRequested | completed | failed => exact processOk_done

theorem processOk_execute {ref : OperationRef} {row : OperationRow}
    (h : s.operations.getOperationById ref = some row) : ProcessOk deps s (.execute ref row) := by
  obtain ⟨hrow, htenant⟩ := at_of_getOperationById h
  have hat : At s ref row.state := ⟨row, hrow, htenant, le_rfl⟩
  unfold Process.execute
  split
  · next hstate =>
    rw [hstate] at hat
    split
    · exact processOk_failing hat ⟨_, rfl⟩ _
    · next hrequest =>
      exact ⟨placed_of_position rfl hat, row, hrow, by rw [hstate], filled_eq_some hrequest⟩
  · next hstate =>
    rw [hstate] at hat
    exact ⟨placed_of_position rfl hat, trivial⟩
  · next hstate =>
    rw [hstate] at hat
    exact processOk_polling hat
  · exact processOk_done

theorem processOk_afterApproval {ref : OperationRef} {request : String}
    (h : ProcessOk deps s (.readingApproval ref request)) :
    ProcessOk deps s (.afterApproval ref (s.approvals request)) := by
  have hat : At s ref .approvalRequired := h.placed ref _ rfl
  unfold Process.afterApproval
  split
  · next happroved => exact ⟨placed_of_position rfl hat, request, h.facts, happroved⟩
  · exact processOk_failing hat ⟨_, rfl⟩ _
  · exact processOk_failing hat ⟨_, rfl⟩ _
  · exact processOk_failing hat ⟨_, rfl⟩ _
  · exact processOk_done

theorem processOk_lostRace {ref : OperationRef} {site : Site} (hat : At s ref site.expectedState)
    (hmiss : ∀ row, ¬ s.operations.Finds ref site.expectedState row) : ProcessOk deps s (.lostRace ref site) := by
  unfold Process.lostRace
  split
  · next hrereads =>
    refine ⟨placed_of_position rfl hat, ?_, past_of_miss hat hmiss⟩
    cases site <;> first | exact ⟨_, rfl⟩ | cases hrereads
  · exact processOk_done

theorem processOk_of_moves (hinv : Inv deps s) {c : Call} {p p' : Process} (hp : ProcessOk deps s p)
    (h : Moves deps s c p p') : ProcessOk deps s p' := by
  cases h with
  | stop => exact processOk_done
  | prepare | execute | retry | wallet | retried => exact ⟨placed_of_none rfl, trivial⟩
  | appended => exact processOk_afterAppend hinv hp
  | appendThrown =>
    refine processOk_thrown fun state hcaught => ?_
    obtain ⟨hle, hedge⟩ := Note.caught_spec hcaught
    exact ⟨(hp.placed _ _ rfl).le hle, hedge⟩
  | transitionThrown =>
    refine processOk_thrown fun state hcaught => ?_
    obtain ⟨rfl, hedge⟩ := Site.caught_spec hcaught
    exact ⟨hp.placed _ _ rfl, hedge⟩
  | raceLost hmiss => exact processOk_lostRace (hp.placed _ _ rfl) hmiss
  | enforceThrown => exact processOk_failing (hp.placed _ _ rfl) ⟨_, rfl⟩ _
  | read hrow => exact processOk_execute hrow
  | rereadThrown => exact processOk_failing (hp.placed _ _ rfl) hp.facts.1 _
  | approval => exact processOk_afterApproval hp
  | built => exact ⟨placed_of_position rfl (hp.placed _ _ rfl), trivial⟩
  | buildThrown => exact processOk_failing (hp.placed _ _ rfl) ⟨_, rfl⟩ _
  | proved => exact ⟨placed_of_position rfl (hp.placed _ _ rfl), trivial⟩
  | proofThrown => exact processOk_failing (hp.placed _ _ rfl) ⟨_, rfl⟩ _
  | signed hsignature => exact ⟨placed_of_position rfl (hp.placed _ _ rfl), hsignature⟩
  | signThrown => exact processOk_failing (hp.placed _ _ rfl) ⟨_, rfl⟩ _
  | verified => exact ⟨placed_of_position rfl (hp.placed _ _ rfl), trivial⟩
  | verifyThrown => exact processOk_failing (hp.placed _ _ rfl) ⟨_, rfl⟩ _

theorem RowOk.extends {row : OperationRow} (h : RowOk s row) (hext : Extends s t) : RowOk t row where
  own request hrequest := by
    obtain ⟨evaluation, hmem, happroval⟩ := h.own request hrequest
    exact ⟨evaluation, hext.verdicts hmem, happroval⟩
  signed := h.signed

/-! ## Steps -/

theorem find?_transitioned {ref : OperationRef} {site : Site} {row : OperationRow}
    (h : s.operations.Finds ref site.expectedState row) (k : String) :
    (s.transitioned ref site row).operations.find? k =
      if k = ref.id then some (OperationTable.moved site.target site.patch s.now row) else s.operations.find? k :=
  OperationTable.find?_set h (OperationTable.moved site.target site.patch s.now) (fun _ => rfl) k

theorem find?_failed {ref : OperationRef} {expected : OperationState} {row : OperationRow}
    (h : s.operations.Finds ref expected row) (failure : OperationFailure) (k : String) :
    (s.failed ref expected failure).operations.find? k =
      if k = ref.id then some (OperationTable.withFailure failure s.now row) else s.operations.find? k :=
  OperationTable.find?_set h (OperationTable.withFailure failure s.now) (fun _ => rfl) k

theorem find?_reserved {tenant : Tenant} {request : PrepareRequest} {retryOf : Option String} {id : String}
    (hid : s.operations.find? id = none) (k : String) :
    (s.reserved tenant request retryOf id).operations.find? k =
      if k = id then some (.reserve id tenant request.input request.intentKey retryOf s.now)
      else s.operations.find? k := by
  have hinsert := Table.find?_insertNew s.operations
    (.reserve id tenant request.input request.intentKey retryOf s.now) k
  by_cases hk : k = id
  · subst hk
    rw [if_pos rfl]
    rw [if_pos (show k = (OperationRow.reserve k ..).id from rfl), hid] at hinsert
    exact hinsert
  · rw [if_neg hk]
    rw [if_neg (show ¬ k = (OperationRow.reserve id ..).id from hk)] at hinsert
    exact hinsert

theorem keys_update (t : OperationTable) (ref : OperationRef) (expected : OperationState)
    (set : OperationRow → OperationRow) (hset : ∀ r, (set r).id = r.id)
    (hkey : ∀ r, (set r).intentKey = r.intentKey) :
    ((t.update ref.id (OperationTable.expects ref expected) set hset).rows.map (·.intentKey)) =
      t.rows.map (·.intentKey) := by
  show (t.rows.map (Table.setRow (·.id) ref.id _ set)).map (·.intentKey) = _
  rw [List.map_map]
  refine List.map_congr_left fun r _ => ?_
  simp only [Function.comp_apply, Table.setRow]
  split
  · exact hkey r
  · rfl

theorem rowOk_moved {ref : OperationRef} {site : Site} {row : OperationRow} (hrow : RowOk s row)
    (hfinds : s.operations.Finds ref site.expectedState row) (hfacts : SiteFacts deps s ref site) :
    RowOk s (OperationTable.moved site.target site.patch s.now row) := by
  have hid := hfinds.id
  have hstate := hfinds.2.2
  refine ⟨fun request hrequest => ?_, fun hrank hfailed => ?_⟩
  · cases site with
    | policyOk evaluation => exact ⟨evaluation, hid ▸ hfacts.1, hrequest⟩
    | _ => exact hrow.own request hrequest
  · cases site with
    | signed signedTx signature =>
      have hne := deps.signature_ne _ _ hfacts
      show ((some signature).filter (· ≠ "")).isSome = true
      simp [hne]
    | submitted | resumed | indexed =>
      refine hrow.signed ?_ ?_
      · rw [hstate]; exact Nat.le_of_ble_eq_true rfl
      · rw [hstate]; exact nofun
    | _ => exact absurd (show 5 ≤ _ from hrank) (by simp [OperationTable.moved, Site.target, OperationState.rank])

theorem Inv.goes {u : System} {n : Nat} {p : Process} (hs : Inv deps s) (hext : Extends s u)
    (hprocesses : u.processes = s.processes) (hrows : ∀ k row, u.operations.find? k = some row → RowOk u row)
    (hkeys : (u.operations.rows.map (·.intentKey)).Nodup)
    (hasked : ∀ v ∈ u.verdicts, v.2.decision = .allow ∨ v.2.decision = .deny ∨ v.2.requiresApproval = true)
    (hp : ProcessOk deps u p) : Inv deps (u.setProcess n p) := by
  have hset := extends_setProcess (s := u) n p
  refine ⟨fun k row hrow => (hrows k row hrow).extends hset, hkeys, hasked, fun m => ?_⟩
  rw [processes_setProcess]
  split
  · exact hp.extends hset
  · rw [hprocesses]
    exact ((hs.processes m).extends hext).extends hset

theorem Inv.keeps {u : System} {n : Nat} {p : Process} (hs : Inv deps s) (hext : Extends s u)
    (hprocesses : u.processes = s.processes) (hoperations : u.operations = s.operations)
    (hverdicts : u.verdicts = s.verdicts) (hp : ProcessOk deps u p) : Inv deps (u.setProcess n p) := by
  refine hs.goes hext hprocesses (fun k row hrow => ?_) (hoperations ▸ hs.keys) (hverdicts ▸ hs.asked) hp
  exact (hs.rows k row (hoperations ▸ hrow)).extends hext

theorem inv_reserved {tenant : Tenant} {request : PrepareRequest} {retryOf : Option String} {id : String} {n : Nat}
    {p : Process} (hs : Inv deps s) (hid : s.operations.find? id = none)
    (hkey : ∀ row ∈ s.operations.rows, row.intentKey ≠ request.intentKey)
    (h : p = .done ∨ p = .appending ⟨tenant, id⟩ (.created request)) :
    Inv deps ((s.reserved tenant request retryOf id).setProcess n p) := by
  let row : OperationRow := .reserve id tenant request.input request.intentKey retryOf s.now
  have hext : Extends s (s.reserved tenant request retryOf id) := extends_reserved
  have hfind : ∀ k, (s.reserved tenant request retryOf id).operations.find? k =
      if k = id then some row else s.operations.find? k := find?_reserved hid
  refine hs.goes hext rfl (fun k r hr => ?_) ?_ hs.asked ?_
  · rw [hfind] at hr
    split at hr
    · cases hr
      exact ⟨fun _ h => (by cases h), fun hrank => absurd hrank (by simp [row, OperationRow.reserve, OperationState.rank])⟩
    · exact (hs.rows k r hr).extends hext
  · -- The key is a new one.
    have hrows : (s.reserved tenant request retryOf id).operations.rows = s.operations.rows ++ [row] := by
      show (s.operations.insertNew row).rows = _
      rw [Table.insertNew, dif_neg (show row.id ∉ _ from Table.find?_eq_none_iff.mp hid)]
    rw [hrows, List.map_append]
    refine hs.keys.append (List.nodup_singleton _) fun key hmem hnew => ?_
    obtain ⟨r, hr, rfl⟩ := List.mem_map.mp hmem
    exact hkey r hr (List.mem_singleton.mp hnew)
  · rcases h with rfl | rfl
    · exact processOk_done
    · refine ⟨placed_of_position rfl ⟨row, ?_, rfl, le_rfl⟩, trivial⟩
      rw [hfind, if_pos rfl]

theorem inv_transitioned {ref : OperationRef} {site : Site} {row : OperationRow} {message : Option String} {n : Nat}
    {p : Process} (hs : Inv deps s) (hp : s.processes n = .transitioning ref site)
    (hrow : s.operations.Finds ref site.expectedState row)
    (h : p = .thrown ref site.caught (.other message) ∨
      p = .appending ref (.transitioned site (OperationTable.moved site.target site.patch s.now row))) :
    Inv deps ((s.transitioned ref site row).setProcess n p) := by
  have hext := extends_transitioned (s := s) ref site row
  have hok : ProcessOk deps s (.transitioning ref site) := hp ▸ hs.processes n
  have hfacts : SiteFacts deps s ref site := hok.facts
  have hmoved := rowOk_moved (hs.rows _ _ hrow.1) hrow hfacts
  have hfind : (s.transitioned ref site row).operations.find? ref.id =
      some (OperationTable.moved site.target site.patch s.now row) := by rw [find?_transitioned hrow, if_pos rfl]
  refine hs.goes hext rfl (fun k r hr => ?_) ?_ hs.asked ?_
  · rw [find?_transitioned hrow] at hr
    split at hr
    · cases hr
      exact hmoved.extends hext
    · exact (hs.rows k r hr).extends hext
  · have hkeys := keys_update s.operations ref site.expectedState
      (OperationTable.moved site.target site.patch s.now) (fun _ => rfl) (fun _ => rfl)
    exact hkeys ▸ hs.keys
  · rcases h with rfl | rfl
    · refine (processOk_thrown fun state hcaught => ?_)
      obtain ⟨rfl, hedge⟩ := Site.caught_spec hcaught
      exact ⟨(hok.placed _ _ rfl).extends hext, hedge⟩
    · refine ⟨placed_of_position rfl ⟨_, hfind, hrow.2.1, le_rfl⟩, hfacts.extends hext, ?_⟩
      cases site with
      | signed signedTx signature => exact ⟨_, hfind, le_rfl, rfl⟩
      | resumed => exact hmoved.signed (Nat.le_of_ble_eq_true rfl) fun h => by cases h
      | _ => trivial

theorem inv_failed {ref : OperationRef} {expected : OperationState} {failure : OperationFailure} {row : OperationRow}
    {edge : FailEdge} {n : Nat} {p : Process} (hs : Inv deps s) (hedge : failEdgeFor expected = some edge)
    (hrow : s.operations.Finds ref expected row) (h : p = .done ∨ p = .appending ref .failed) :
    Inv deps ((s.failed ref expected failure).setProcess n p) := by
  have hext := extends_failed (s := s) ref failure hedge
  have hfind := find?_failed hrow failure
  refine hs.goes hext rfl (fun k r hr => ?_) ?_ hs.asked ?_
  · rw [hfind] at hr
    split at hr
    · cases hr
      have hold := (hs.rows _ _ hrow.1).extends hext
      exact ⟨hold.own, fun _ hnot => absurd rfl hnot⟩
    · exact (hs.rows k r hr).extends hext
  · have hkeys := keys_update s.operations ref expected (OperationTable.withFailure failure s.now)
      (fun _ => rfl) (fun _ => rfl)
    exact hkeys ▸ hs.keys
  · rcases h with rfl | rfl
    · exact processOk_done
    · exact ⟨placed_of_position rfl ⟨_, (hfind _).trans (if_pos rfl), hrow.2.1, le_rfl⟩, trivial⟩

theorem inv_judged {ref : OperationRef} {request : PrepareRequest} {policies : PolicyState}
    {evaluation : PolicyEvaluationRow} {n : Nat} (hs : Inv deps s) (hp : s.processes n = .enforcing ref request)
    (hanswer : (deps.enforcePolicy (System.operationRequest ref request policies)).answer = .ok evaluation) :
    Inv deps (({ s.requestApproval
        (deps.enforcePolicy (System.operationRequest ref request policies)).approvalRequest with
      verdicts := s.verdicts ++ [(ref.id, evaluation)] } : System).setProcess n
        (.appending ref (.evaluated evaluation))) := by
  have hok : ProcessOk deps s (.enforcing ref request) := hp ▸ hs.processes n
  have hext := extends_judged (s := s)
    (deps.enforcePolicy (System.operationRequest ref request policies)).approvalRequest (ref.id, evaluation)
  refine hs.goes hext rfl (fun k r hr => (hs.rows k r hr).extends hext) hs.keys (fun v hv => ?_) ?_
  · rcases List.mem_append.mp hv with hv | hv
    · exact hs.asked v hv
    · cases List.mem_singleton.mp hv
      exact deps.asks _ _ hanswer
  · exact ⟨placed_of_position rfl ((hok.placed _ _ rfl).extends hext),
      List.mem_append_right _ (List.mem_singleton_self _)⟩

theorem Inv.call {n : Nat} {c : Call} (hs : Inv deps s) (h : Effect deps s n c t) : Inv deps t := by
  cases h with
  | moved h => exact hs.keeps Extends.refl rfl rfl rfl (processOk_of_moves hs (hs.processes n) h)
  | listed | crashed => exact hs.keeps ⟨.refl, List.Subset.refl _, fun _ h => h⟩ rfl rfl rfl processOk_done
  | swept =>
    refine hs.keeps ⟨.refl, List.Subset.refl _, fun _ h => h⟩ rfl rfl rfl ?_
    rename_i task _ _ _
    cases task <;> exact ⟨placed_of_none rfl, trivial⟩
  | reserved _ hid hkey h => exact inv_reserved hs hid hkey h
  | transitioned hp hrow h => exact inv_transitioned hs hp hrow h
  | failed hp hrow h =>
    obtain ⟨edge, hedge⟩ := (hp ▸ hs.processes n : ProcessOk deps s (.failing _ _ _)).facts
    exact inv_failed hs hedge hrow h
  | timedOut _ hrow => exact inv_failed hs rfl hrow (.inl rfl)
  | refused hp =>
    have hext := extends_requestApproval (s := s)
    have hok : ProcessOk deps s (.enforcing _ _) := hp ▸ hs.processes n
    exact hs.keeps (hext _) rfl rfl rfl (processOk_failing ((hok.placed _ _ rfl).extends (hext _)) ⟨_, rfl⟩ _)
  | judged hp hanswer => exact inv_judged hs hp hanswer
  | submitted hp =>
    have hok : ProcessOk deps s (.submitting _ _ _) := hp ▸ hs.processes n
    refine hs.keeps ⟨.refl, List.Subset.refl _, fun _ h => h⟩ rfl rfl rfl ?_
    rename_i error
    cases error with
    | none => exact ⟨placed_of_position rfl (hok.placed _ _ rfl), trivial⟩
    | some error =>
      show ProcessOk deps _ (.failing _ .submitted _)
      refine processOk_failing ?_ ⟨_, rfl⟩ _
      exact hok.placed _ _ rfl

theorem Inv.stays (hs : Inv deps s) (hext : Extends s t) (hprocesses : t.processes = s.processes)
    (hoperations : t.operations = s.operations) (hverdicts : t.verdicts = s.verdicts) : Inv deps t := by
  refine ⟨fun k row hrow => ?_, hoperations ▸ hs.keys, hverdicts ▸ hs.asked, fun n => ?_⟩
  · exact (hs.rows k row (hoperations ▸ hrow)).extends hext
  · rw [hprocesses]
    exact (hs.processes n).extends hext

theorem extends_of_event {e : Event} (hcall : ∀ n c, e ≠ .call n c) (h : step deps s e = some t) :
    Extends s t ∧ t.processes = s.processes ∧ t.operations = s.operations ∧ t.verdicts = s.verdicts ∧
      t.submissions = s.submissions := by
  cases e with
  | call n c => exact absurd rfl (hcall n c)
  | elapse ms =>
    cases h
    exact ⟨⟨.refl, List.Subset.refl _, fun _ h => h⟩, rfl, rfl, rfl, rfl⟩
  | resolveApproval request status =>
    simp only [step] at h
    split at h
    · next hpending =>
      cases h
      refine ⟨⟨.refl, List.Subset.refl _, fun id hid => ?_⟩, rfl, rfl, rfl, rfl⟩
      -- A request that is approved is not pending.
      have hother : id ≠ request := by
        rintro rfl
        exact nomatch hid.symm.trans hpending.1
      exact (Function.update_of_ne hother ..).trans hid
    · cases h
  | index id =>
    simp only [step] at h
    split at h
    · cases h
      exact ⟨⟨.refl, List.Subset.refl _, fun _ h => h⟩, rfl, rfl, rfl, rfl⟩
    · cases h

theorem inv_step {e : Event} (hs : Inv deps s) (h : step deps s e = some t) : Inv deps t := by
  by_cases hcall : ∃ n c, e = .call n c
  · obtain ⟨n, c, rfl⟩ := hcall
    exact hs.call (effect_of_call h)
  · obtain ⟨hext, hprocesses, hoperations, hverdicts, -⟩ := extends_of_event (fun n c he => hcall ⟨n, c, he⟩) h
    exact hs.stays hext hprocesses hoperations hverdicts

theorem inv_start : Inv deps .start where
  rows _ _ h := nomatch h
  keys := List.nodup_nil
  asked _ h := nomatch h
  processes _ := ⟨placed_of_none rfl, trivial⟩

theorem inv_reachable (h : Reachable (step deps) (· = .start) anyStep s) : Inv deps s :=
  h.invariant (fun _ hs => hs ▸ inv_start) fun _ _ _ _ hs _ ht => inv_step hs ht

theorem reachable_of_run {events : List Event} (h : run (step deps) .start events = some s) :
    Reachable (step deps) (· = .start) anyStep s := by
  have hstart : Reachable (step deps) (· = .start) anyStep .start := .start rfl
  exact hstart.run h

end Sdp.Rings
