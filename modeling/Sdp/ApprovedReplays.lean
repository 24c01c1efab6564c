import Sdp.Code.ApprovedReplays
import Sdp.Lib.Checks
import Sdp.PolicyEvaluate
import Sdp.WalletOperations

/-!
# What was approved is what can be replayed

The payload that an operation stores against that of a replay, what is recorded of an operation in every run, and when
an approved operation can be resumed.
-/

open Sdp.Lib Sdp.Lib.Json Std
open Sdp.Policy

namespace Sdp.Operations

open Payments (CallOutcome)

/-! ## Payloads -/

variable {input input' : CreateWalletOperationInput}

theorem map_fst_assign (members : Members JsValue) (key : String) (value : JsValue) :
    (members.map fun m => if m.1 = key then (key, value) else m).map Prod.fst = members.map Prod.fst := by
  rw [List.map_map]
  refine List.map_congr_left fun m _ => ?_
  simp only [Function.comp_apply]
  split
  · next hkey => exact hkey.symm
  · rfl

theorem assign_unique {members : Members JsValue} {value : JsValue} (key : String)
    (hmembers : (JsValue.obj members).UniqueKeys) (hvalue : value.UniqueKeys) :
    (JsValue.obj (assign members key value)).UniqueKeys := by
  obtain ⟨hnodup, hvalues⟩ := uniqueKeys_obj.mp hmembers
  unfold assign
  split
  · refine uniqueKeys_obj.mpr ⟨(map_fst_assign members key value).symm ▸ hnodup, fun m hm => ?_⟩
    obtain ⟨m', hm', rfl⟩ := List.mem_map.mp hm
    split
    · exact hvalue
    · exact hvalues m' hm'
  · next hkey =>
    refine uniqueKeys_obj.mpr ⟨?_, fun m hm => ?_⟩
    · rw [List.map_append, List.map_singleton]
      exact List.nodup_append.mpr ⟨hnodup, by simp, fun a ha b hb => by
        obtain rfl : b = key := List.mem_singleton.mp hb
        exact fun heq => hkey (heq ▸ ha)⟩
    · rcases List.mem_append.mp hm with hm | hm
      · exact hvalues m hm
      · rw [List.mem_singleton.mp hm]
        exact hvalue

theorem createWalletOperationRawPayload_unique (input : CreateWalletOperationInput) :
    (createWalletOperationRawPayload input).UniqueKeys := by
  obtain ⟨hactor, hcontext, hextensions, hraw⟩ := input.unique
  unfold createWalletOperationRawPayload
  have hif (c : Bool) {members : Members JsValue} {value : JsValue} (key : String) (hvalue : value.UniqueKeys)
      (hmembers : (JsValue.obj members).UniqueKeys) :
      (JsValue.obj (if c then members else assign members key value)).UniqueKeys := by
    cases c
    · exact assign_unique key hmembers hvalue
    · exact hmembers
  exact hif _ _ hextensions (hif _ _ hcontext (hif _ _ hactor hraw))

theorem foldl_assign {members rest : Members JsValue} (h : ((members ++ rest).map Prod.fst).Nodup) :
    rest.foldl (fun members m => assign members m.1 m.2) members = members ++ rest := by
  induction rest generalizing members with
  | nil => simp
  | cons m rest ih =>
    have hfresh : m.1 ∉ members.map Prod.fst := by
      rw [List.map_append, List.map_cons] at h
      exact fun hmem => (List.nodup_append.mp h).2.2 m.1 hmem m.1 List.mem_cons_self rfl
    have happend : members ++ m :: rest = members ++ [m] ++ rest := by simp
    rw [List.foldl_cons, assign, if_neg hfresh]
    rw [happend] at h ⊢
    exact ih h

theorem walletOperationRawPayload_eq (input : CreateWalletOperationInput) :
    walletOperationRawPayload input = createWalletOperationRawPayload input := by
  obtain ⟨-, -, -, hraw⟩ := input.unique
  have hcopy : input.rawPayload.foldl (fun members m => assign members m.1 m.2) [] = input.rawPayload :=
    foldl_assign (uniqueKeys_obj.mp hraw).1
  unfold walletOperationRawPayload createWalletOperationRawPayload spread
  simp only [List.flatten_cons, List.flatten_nil, List.append_nil, List.foldl_append, hcopy]
  congr 1
  cases isUndefined input.actor <;> cases isNullish input.context <;> cases isNullish input.providerExtensions <;> rfl

/-- The payload of an input, as it is serialized. -/
def payload (input : CreateWalletOperationInput) : Tree := (walletOperationRawPayload input).toTree?.getD .null

theorem toTree?_payload (input : CreateWalletOperationInput) :
    (walletOperationRawPayload input).toTree? = some (payload input) := by
  unfold payload walletOperationRawPayload
  rw [toTree?_obj, Option.getD_some]

theorem payload_unique (input : CreateWalletOperationInput) : (payload input).UniqueKeys := by
  refine uniqueKeys_toTree? ?_ (toTree?_payload input)
  rw [walletOperationRawPayload_eq]
  exact createWalletOperationRawPayload_unique input

/-! ## Replays -/

/-- The same in every compared column, and a payload that differs in the order of members only. -/
structure Replays (input input' : CreateWalletOperationInput) : Prop where
  organizationId : input.organizationId = input'.organizationId
  projectId : input.projectId = input'.projectId
  custodyWalletId : input.custodyWalletId = input'.custodyWalletId
  walletId : input.walletId = input'.walletId
  apiKeyId : input.apiKeyId = input'.apiKeyId
  operationFamily : input.operationFamily = input'.operationFamily
  operationType : input.operationType = input'.operationType
  asset : input.asset = input'.asset
  amount : input.amount = input'.amount
  destination : input.destination = input'.destination
  payload : SameValue (payload input) (payload input')

/-- No two different keys of an object of the payload, except for indices, are equal for `localeCompare`. -/
def PayloadDistinguished (localeCompare : String → String → Ordering) (input : CreateWalletOperationInput) : Prop :=
  (payload input).Everywhere (Distinguished localeCompare)

variable {localeCompare : String → String → Ordering}

/-- What is stored of a payload, as a tree. -/
def storedPayload (input : CreateWalletOperationInput) : Tree := (payload input).stored.reorder enumerated

theorem storedPayload_spec (input : CreateWalletOperationInput) :
    (storedPayload input).UniqueKeys ∧ SameValue (storedPayload input) (payload input) := by
  have hstored : (payload input).stored.UniqueKeys :=
    (everywhere_reorder (sortMembers_perm storageOrder) nodup_perm).mpr (payload_unique input)
  refine ⟨(everywhere_reorder enumerated_perm nodup_perm).mpr hstored, ?_⟩
  exact (sameValue_reorder enumerated_perm hstored).trans
    (sameValue_reorder (sortMembers_perm storageOrder) (payload_unique input))

theorem jsonValuesEqual_iff [TransCmp localeCompare] :
    jsonValuesEqual localeCompare (fromJsonb (createWalletOperationRawPayload input))
        (walletOperationRawPayload input') = true ↔
      (storedPayload input).canonical localeCompare = (payload input').canonical localeCompare := by
  have hstored : (fromJsonb (createWalletOperationRawPayload input)).toTree? = some (storedPayload input) := by
    rw [← walletOperationRawPayload_eq, fromJsonb, toTree?_payload, toTree?_value]
    rfl
  unfold jsonValuesEqual stableJson
  rw [decide_eq_true_iff, toTree?_reorder, toTree?_reorder, hstored, toTree?_payload]
  simp only [Option.map_some, Option.some.injEq]
  exact ⟨text_injective, congrArg Tree.text⟩

theorem replays_of_matches [TransCmp localeCompare] {id : String}
    (h : operationMatches localeCompare (createWalletOperation id input) input' = true) : Replays input input' := by
  simp only [operationMatches, Bool.and_eq_true, decide_eq_true_eq] at h
  obtain ⟨⟨⟨⟨⟨⟨⟨⟨⟨⟨horganization, hproject⟩, hcustody⟩, hwallet⟩, hkey⟩, hfamily⟩, htype⟩, hasset⟩, hamount⟩,
    hdestination⟩, hpayload⟩ := h
  obtain ⟨hunique, hsame⟩ := storedPayload_spec input
  have hvalue := sameValue_of_canonical hunique (payload_unique input') (jsonValuesEqual_iff.mp hpayload)
  exact ⟨horganization, hproject, hcustody, hwallet, hkey, hfamily, htype, hasset, hamount, hdestination,
    hsame.symm.trans hvalue⟩

theorem matches_iff [TransCmp localeCompare] {id : String} (h : Replays input input') :
    operationMatches localeCompare (createWalletOperation id input) input' = true ↔
      (storedPayload input).canonical localeCompare = (payload input').canonical localeCompare := by
  rw [← jsonValuesEqual_iff]
  simp [operationMatches, createWalletOperation, h.organizationId, h.projectId, h.custodyWalletId, h.walletId,
    h.apiKeyId, h.operationFamily, h.operationType, h.asset, h.amount, h.destination]

/-- Where the keys are told apart, every replay passes. -/
theorem matches_of_replays [TransCmp localeCompare] {id : String} (hdistinguished : PayloadDistinguished localeCompare input)
    (h : Replays input input') : operationMatches localeCompare (createWalletOperation id input) input' = true := by
  rw [matches_iff h]
  obtain ⟨-, hsame⟩ := storedPayload_spec input
  exact (canonical_of_sameValue hdistinguished hsame.symm).symm.trans (canonical_of_sameValue hdistinguished h.payload)

/-- The input with a payload that is this tree. -/
def withPayload (input : CreateWalletOperationInput) (members : Members Tree) (h : (Tree.obj members).UniqueKeys) :
    CreateWalletOperationInput :=
  { input with
    actor := .undefined
    context := .undefined
    providerExtensions := .undefined
    rawPayload := members.map fun m => (m.1, m.2.value)
    unique := ⟨trivial, trivial, trivial, by
      have hvalue := uniqueKeys_value h
      rwa [value_obj] at hvalue⟩ }

theorem payload_withPayload {members : Members Tree} (h : (Tree.obj members).UniqueKeys) :
    payload (withPayload input members h) = .obj members := by
  have hraw : walletOperationRawPayload (withPayload input members h) = (Tree.obj members).value := by
    rw [walletOperationRawPayload_eq, value_obj]
    rfl
  rw [payload, hraw, toTree?_value, Option.getD_some]

theorem distinguished_of_matches [TransCmp localeCompare] (id : String)
    (h : ∀ input', Replays input input' →
      operationMatches localeCompare (createWalletOperation id input) input' = true) :
    PayloadDistinguished localeCompare input := by
  refine distinguished_of_canonical (payload_unique input) fun t' hunique hsame => ?_
  have hself : Replays input input := ⟨rfl, rfl, rfl, rfl, rfl, rfl, rfl, rfl, rfl, rfl, rfl⟩
  have hcanonical := (matches_iff hself).mp (h input hself)
  have hobject : ∃ members, payload input = .obj members := by
    unfold payload walletOperationRawPayload
    rw [toTree?_obj]
    exact ⟨_, rfl⟩
  obtain ⟨members, hmembers⟩ := hobject
  obtain ⟨members', rfl⟩ : ∃ members', t' = .obj members' := by
    rw [hmembers] at hsame
    unfold SameValue Tree.stored at hsame
    cases t' with
    | obj members' => exact ⟨members', rfl⟩
    | arr items => simp at hsame
    | null | bool | num | str => simp [Tree.reorder] at hsame
  have hreplay : Replays input (withPayload input members' hunique) := by
    refine ⟨rfl, rfl, rfl, rfl, rfl, rfl, rfl, rfl, rfl, rfl, ?_⟩
    rw [payload_withPayload]
    exact hsame.symm
  have hcanonical' := (matches_iff hreplay).mp (h _ hreplay)
  rw [payload_withPayload] at hcanonical'
  exact hcanonical'.symm.trans hcanonical

/-! ## What is recorded -/

section

variable {request : OperationRequest} {evaluation : CandidatePolicyEvaluation} {evaluations : List PolicyEvaluationRow}
  {db db' : OperationDatabase} {s t : Recorded}

/-- A row that waits for an approval, or that an approval made executable, has the evaluation that asked for it. -/
structure RowRecorded (request : OperationRequest) (evaluation : CandidatePolicyEvaluation)
    (evaluations : List PolicyEvaluationRow) (row : WalletOperationRow) : Prop where
  started : row.executionAttemptId.isSome = true → row.executionStartedAt.isSome = true
  gated : row.status = .pendingApproval ∨ row.status = .executing →
    evaluations = [request.evaluationRow evaluation true]

def RowsRecorded (request : OperationRequest) (evaluation : CandidatePolicyEvaluation)
    (evaluations : List PolicyEvaluationRow) (db : OperationDatabase) : Prop :=
  ∀ row ∈ db.operation, RowRecorded request evaluation evaluations row

theorem RowsRecorded.update (h : RowsRecorded request evaluation evaluations db) {guard : WalletOperationRow → Bool}
    {set : WalletOperationRow → WalletOperationRow}
    (hset : ∀ row, RowRecorded request evaluation evaluations row → guard row = true →
      RowRecorded request evaluation evaluations (set row)) :
    RowsRecorded request evaluation evaluations (db.update guard set) := by
  intro row' hrow'
  obtain ⟨row, hrow, rfl⟩ := Option.map_eq_some_iff.mp hrow'
  split
  · next hguard => exact hset row (h row hrow) hguard
  · exact h row hrow

theorem RowsRecorded.setStatus (h : RowsRecorded request evaluation evaluations db) {guard : WalletOperationRow → Bool}
    {status : WalletOperationStatus}
    (hstatus : status = .pendingApproval ∨ status = .executing → ∀ row ∈ db.operation, guard row = true →
      evaluations = [request.evaluationRow evaluation true]) :
    RowsRecorded request evaluation evaluations (db.update guard ({ · with status })) := by
  intro row' hrow'
  obtain ⟨row, hrow, rfl⟩ := Option.map_eq_some_iff.mp hrow'
  split
  · next hguard => exact ⟨(h row hrow).started, fun hst => hstatus hst row hrow hguard⟩
  · exact h row hrow

theorem RowsRecorded.resolve (h : RowsRecorded request evaluation evaluations db) (status : ApprovalRequestStatus)
    {operationStatus : WalletOperationStatus} (hnot : operationStatus ≠ .pendingApproval) :
    RowsRecorded request evaluation evaluations (db.updateApprovalRequestStatus status operationStatus) := by
  unfold OperationDatabase.updateApprovalRequestStatus
  split
  · have hrequest : RowsRecorded request evaluation evaluations { db with request := some status } := h
    refine hrequest.setStatus fun hst row hrow hguard => ?_
    have hexecuting := hst.resolve_left hnot
    rw [if_neg (by rw [hexecuting]; decide)] at hguard
    exact (h row hrow).gated (.inl (by simpa using hguard))
  · exact h

theorem RowsRecorded.afterCall (h : RowsRecorded request evaluation evaluations db)
    (h' : RowsRecorded request evaluation evaluations db') (outcome : CallOutcome) :
    RowsRecorded request evaluation evaluations (afterCall outcome db db') := by
  unfold Operations.afterCall
  split
  · exact h
  · exact h'

/-- What the enforcement has recorded where it stands. -/
def Phase (request : OperationRequest) (evaluation : CandidatePolicyEvaluation) :
    Enforcement → List PolicyEvaluationRow → Prop
  | .idle, evaluations | .created, evaluations | .requesting, evaluations => evaluations = []
  | .recording status requested, evaluations =>
    status = .pendingApproval ∧ requested = true ∧ evaluations = []
  | .updating status requested, evaluations =>
    status = .pendingApproval ∧ requested = true ∧ evaluations = [request.evaluationRow evaluation true]
  | _, _ => True

structure RecordedInv (request : OperationRequest) (evaluation : CandidatePolicyEvaluation) (s : Recorded) : Prop where
  idle : s.system.enforcement = .idle → s.system.db.operation = none
  record : s.system.db.operation.isSome = true → s.operation = some request.operation
  rows : RowsRecorded request evaluation s.evaluations s.system.db
  phase : Phase request evaluation s.system.enforcement s.evaluations

theorem isSome_update (db : OperationDatabase) (guard : WalletOperationRow → Bool)
    (set : WalletOperationRow → WalletOperationRow) :
    (db.update guard set).operation.isSome = db.operation.isSome := Option.isSome_map

theorem isSome_updateApprovalRequestStatus (db : OperationDatabase) (status : ApprovalRequestStatus)
    (operationStatus : WalletOperationStatus) :
    (db.updateApprovalRequestStatus status operationStatus).operation.isSome = db.operation.isSome := by
  unfold OperationDatabase.updateApprovalRequestStatus
  split
  · exact isSome_update ..
  · rfl

theorem RowsRecorded.event {system system' : System} (h : RowsRecorded request evaluation evaluations system.db)
    {event : Event} (hevent : ∀ e, event ≠ .enforce e) (ht : step system event = some system') :
    RowsRecorded request evaluation evaluations system'.db ∧ system'.enforcement = system.enforcement ∧
      system'.db.operation.isSome = system.db.operation.isSome := by
  cases event with
  | enforce e => exact absurd rfl (hevent e)
  | resolve r =>
    simp only [step, Option.ite_none_right_eq_some, Option.some.injEq] at ht
    obtain ⟨-, rfl⟩ := ht
    exact ⟨h.resolve _ (by cases r <;> decide), rfl, isSome_updateApprovalRequestStatus ..⟩
  | claim attempt now =>
    simp only [step, Option.ite_none_left_eq_some, Option.some.injEq] at ht
    obtain ⟨-, rfl⟩ := ht
    exact ⟨h.update fun row hrow _ => ⟨fun _ => rfl, hrow.gated⟩, rfl, isSome_update ..⟩
  | renew attempt now =>
    cases ht
    exact ⟨h.update fun row hrow _ => ⟨hrow.started, hrow.gated⟩, rfl, isSome_update ..⟩
  | begin attempt now =>
    cases ht
    exact ⟨h.update fun row hrow _ => ⟨hrow.started, hrow.gated⟩, rfl, isSome_update ..⟩
  | complete input now =>
    cases ht
    refine ⟨h.update fun row hrow _ => ⟨hrow.started, fun hst => ?_⟩, rfl, isSome_update ..⟩
    cases hcompleted : input.completed <;> simp [hcompleted] at hst
  | failInterrupted now =>
    cases ht
    refine ⟨h.update fun row hrow _ => ⟨hrow.started, fun hst => ?_⟩, rfl, isSome_update ..⟩
    simp at hst

theorem isSome_afterCall {outcome : CallOutcome} (h : db'.operation.isSome = db.operation.isSome) :
    (afterCall outcome db db').operation.isSome = db.operation.isSome := by
  unfold afterCall
  split
  · rfl
  · exact h

theorem RecordedInv.enforce
    (hpending : walletOperationStatusForDecision evaluation.decision = .pendingApproval)
    (h : RecordedInv request evaluation s) {e : EnforcementStep} {p : Enforcement}
    (hstep : EnforcementCase s.system.db s.system.enforcement e db' p)
    (hcreate : ∀ outcome, e ≠ .createWalletOperation outcome) (hrecord : ∀ ok, e ≠ .recordPolicyEvaluation ok)
    (hdecision : ∀ decision, e = .evaluate (some decision) → decision = evaluation.decision) :
    RecordedInv request evaluation { s with system := { s.system with db := db', enforcement := p } } := by
  have hphase := h.phase
  suffices hnext : RowsRecorded request evaluation s.evaluations db' ∧
      db'.operation.isSome = s.system.db.operation.isSome ∧ Phase request evaluation p s.evaluations by
    obtain ⟨hrows, hsome, hphase'⟩ := hnext
    refine ⟨fun hidle => absurd hidle hstep.not_idle, fun hrow => h.record ?_, hrows, hphase'⟩
    rw [← hsome]
    exact hrow
  generalize s.system.enforcement = q at hstep hphase
  cases hstep with
  | create outcome => exact absurd rfl (hcreate outcome)
  | record status requested ok => exact absurd rfl (hrecord ok)
  | evaluateFailed => exact ⟨h.rows, rfl, trivial⟩
  | evaluate decision =>
    refine ⟨h.rows, rfl, ?_⟩
    rw [hdecision decision rfl, if_pos hpending]
    exact hphase
  | request outcome =>
    have hrows : RowsRecorded request evaluation s.evaluations s.system.db.createApprovalRequest.1 := h.rows
    refine ⟨h.rows.afterCall hrows outcome, isSome_afterCall rfl, ?_⟩
    split
    · exact ⟨rfl, rfl, hphase⟩
    · trivial
  | update status requested outcome =>
    obtain ⟨rfl, -, hevaluations⟩ := hphase
    refine ⟨h.rows.afterCall (h.rows.setStatus fun _ _ _ _ => hevaluations) outcome, isSome_afterCall (isSome_update ..), ?_⟩
    split <;> trivial
  | compensate requested outcome =>
    refine ⟨h.rows.afterCall ?_ outcome, isSome_afterCall ?_, trivial⟩
    · split
      · exact h.rows.resolve _ (by decide)
      · exact h.rows.setStatus fun hst => by simp at hst
    · split
      · exact isSome_updateApprovalRequestStatus ..
      · exact isSome_update ..

theorem RecordedInv.recordEvaluation (heval : evaluateCandidatePolicies request.candidates = .ok evaluation)
    (h : RecordedInv request evaluation s) {outcome : CallOutcome}
    (ht : recordedStep request s (.recordPolicyEvaluation outcome) = some t) : RecordedInv request evaluation t := by
  have hphase := h.phase
  simp only [recordedStep] at ht
  split at ht
  · next status requested evaluation' henforcement heval' =>
    obtain rfl := Except.ok.inj (heval.symm.trans heval')
    obtain ⟨system, hsystem, rfl⟩ := Option.map_eq_some_iff.mp ht
    obtain ⟨⟨db', p⟩, hstep, rfl⟩ := Option.map_eq_some_iff.mp hsystem
    rw [henforcement] at hphase hstep
    obtain ⟨rfl, rfl, hnone⟩ := hphase
    cases enforcementStep_cases hstep
    refine ⟨fun hidle => ?_, h.record, fun row hrow => ⟨(h.rows row hrow).started, fun hst => ?_⟩, ?_⟩
    · cases outcome <;> cases hidle
    · have hgated := (h.rows row hrow).gated hst
      rw [hnone] at hgated
      cases hgated
    · cases outcome with
      | answered => exact ⟨rfl, rfl, by simp [hnone]⟩
      | failed | lost => trivial
  · cases ht

theorem RecordedInv.create (h : RecordedInv request evaluation s) {outcome : CallOutcome}
    (ht : recordedStep request s (.plain (.enforce (.createWalletOperation outcome))) = some t) :
    RecordedInv request evaluation t := by
  have hphase := h.phase
  obtain ⟨system, hsystem, rfl⟩ := Option.map_eq_some_iff.mp ht
  obtain ⟨⟨db', p⟩, hstep, rfl⟩ := Option.map_eq_some_iff.mp hsystem
  have hidle := h.idle
  generalize s.system.enforcement = q at hstep hphase hidle
  cases enforcementStep_cases hstep
  have hempty := hidle rfl
  have hfresh : RowsRecorded request evaluation s.evaluations s.system.db.createWalletOperation := by
    rintro row ⟨⟩
    exact ⟨nofun, fun hst => by simp [WalletOperationRow.fresh] at hst⟩
  refine ⟨fun hidle => ?_, fun hsome => ?_, h.rows.afterCall hfresh outcome, ?_⟩
  · cases outcome <;> cases hidle
  · cases outcome with
    | failed =>
      have hrow : s.system.db.operation.isSome = true := hsome
      rw [hempty] at hrow
      cases hrow
    | answered | lost => rfl
  · cases outcome with
    | answered => exact hphase
    | failed | lost => trivial

theorem RecordedInv.step (heval : evaluateCandidatePolicies request.candidates = .ok evaluation)
    (hpending : walletOperationStatusForDecision evaluation.decision = .pendingApproval)
    (h : RecordedInv request evaluation s) {e : RecordedEvent} (ht : recordedStep request s e = some t) :
    RecordedInv request evaluation t := by
  have hevent {event : Event} {system : System} (hsystem : Operations.step s.system event = some system)
      (hne : ∀ e, event ≠ .enforce e) :
      RecordedInv request evaluation { s with system } := by
    obtain ⟨hrows, henforcement, hsome⟩ := h.rows.event hne hsystem
    refine ⟨fun hidle => ?_, fun hrow => h.record (hsome ▸ hrow), hrows, henforcement ▸ h.phase⟩
    have hnone := h.idle (henforcement ▸ hidle)
    rwa [← Option.isNone_iff_eq_none, ← Option.not_isSome, hsome, Option.not_isSome, Option.isNone_iff_eq_none]
  have henforce {e : EnforcementStep} {system : System} (hsystem : Operations.step s.system (.enforce e) = some system)
      (hcreate : ∀ outcome, e ≠ .createWalletOperation outcome) (hrecord : ∀ ok, e ≠ .recordPolicyEvaluation ok)
      (hdecision : ∀ decision, e = .evaluate (some decision) → decision = evaluation.decision) :
      RecordedInv request evaluation { s with system } := by
    obtain ⟨⟨db', p⟩, hstep, rfl⟩ := Option.map_eq_some_iff.mp hsystem
    exact h.enforce hpending (enforcementStep_cases hstep) hcreate hrecord hdecision
  cases e with
  | evaluate loaded =>
    simp only [recordedStep, heval] at ht
    obtain ⟨system, hsystem, rfl⟩ := Option.map_eq_some_iff.mp ht
    refine henforce hsystem (by simp) (by simp) fun decision hd => ?_
    cases loaded <;> simp [Except.toOption] at hd
    exact hd.symm
  | recordPolicyEvaluation outcome => exact h.recordEvaluation heval ht
  | plain event =>
    cases event with
    | enforce e =>
      cases e with
      | createWalletOperation outcome => exact h.create ht
      | evaluate | recordPolicyEvaluation => cases ht
      | createApprovalRequest | updateWalletOperationStatus | compensate =>
        obtain ⟨system, hsystem, rfl⟩ := Option.map_eq_some_iff.mp ht
        exact henforce hsystem (by simp) (by simp) (by simp)
    | resolve | claim | renew | begin | complete | failInterrupted =>
      simp only [recordedStep, Option.map_eq_some_iff] at ht
      obtain ⟨system, hsystem, rfl⟩ := ht
      exact hevent hsystem (by simp)

/-- Every run of an operation that needs an approval. -/
theorem recorded_inv (heval : evaluateCandidatePolicies request.candidates = .ok evaluation)
    (hpending : walletOperationStatusForDecision evaluation.decision = .pendingApproval)
    (h : Reachable (recordedStep request) (· = .start) anyStep s) : RecordedInv request evaluation s := by
  refine h.invariant ?_ fun _ _ _ _ hinv _ ht => hinv.step heval hpending ht
  rintro _ rfl
  have hnone : (Recorded.start).system.db.operation = none := rfl
  constructor
  · exact fun _ => hnone
  · intro hsome
    rw [hnone] at hsome
    cases hsome
  · intro row hrow
    rw [hnone] at hrow
    cases hrow
  · rfl

/-! ## Resuming -/

/-- The error of a resume is `FORBIDDEN`. -/
def Forbidden {α : Type} (result : Except ApiKeys.AppError α) : Prop := ∃ message, result = .error (forbidden message)

/-- The tenant of an input. -/
def CreateWalletOperationInput.scope (input : CreateWalletOperationInput) : TenantScope :=
  ⟨input.organizationId, input.projectId⟩

/-- What a resume finds of an operation that an attempt holds. -/
structure Held (request : OperationRequest) (evaluation : CandidatePolicyEvaluation) (s : Recorded)
    (row : WalletOperationRow) : Prop where
  record : s.operation = some request.operation
  operation : s.system.db.operation = some row
  started : row.executionStartedAt ≠ none
  evaluations : s.listPolicyEvaluationsForOperation request.operationId = [request.evaluationRow evaluation true]

theorem RecordedInv.held (h : RecordedInv request evaluation s) {row : WalletOperationRow} {attempt : String}
    {now : Nat} (hrow : s.system.db.operation = some row) (hleased : row.leasedBy attempt now = true) :
    Held request evaluation s row := by
  obtain ⟨hstatus, hattempt, -⟩ := OperationDatabase.leasedBy_iff.mp hleased
  have hrecord := h.record (by rw [hrow]; rfl)
  have hrecorded := h.rows row hrow
  refine ⟨hrecord, hrow, ?_, ?_⟩
  · rw [← Option.isSome_iff_ne_none]
    exact hrecorded.started (by rw [hattempt]; rfl)
  · rw [Recorded.listPolicyEvaluationsForOperation, hrecorded.gated (.inr hstatus)]
    simp [OperationRequest.evaluationRow]

theorem approvalRequestId_ne (request : OperationRequest) : request.approvalRequestId ≠ "" := by
  intro h
  have hchars := congrArg String.toList h
  simp [OperationRequest.approvalRequestId] at hchars

variable {localeCompare : String → String → Ordering} {row : WalletOperationRow}

theorem Held.found (h : Held request evaluation s row) :
    s.getWalletOperationById request.input.scope request.operationId = some (request.operation, row) := by
  rw [Recorded.getWalletOperationById, h.record, h.operation]
  exact if_pos ⟨rfl, rfl, rfl⟩

theorem Held.resume_ok (h : Held request evaluation s row) {attempt : String} {now : Nat} {input' : CreateWalletOperationInput}
    (hleased : row.leasedBy attempt now = true)
    (hmatches : operationMatches localeCompare request.operation input' = true)
    (happroval : evaluation.requiresApproval = true) :
    ∃ r, resumeApprovedOperation localeCompare s request.input.scope request.operationId attempt input' now = .ok r := by
  obtain ⟨hstatus, hattempt, lease, hlease, hlive⟩ := OperationDatabase.leasedBy_iff.mp hleased
  have hexecutable : ¬ (row.status ≠ .executing ∨ row.executionStartedAt = none ∨
      row.executionAttemptId ≠ some attempt ∨ row.executionLeaseExpiresAt.all (· ≤ now) = true) := by
    simp [hstatus, h.started, hattempt, hlease, hlive]
  have hgate : ¬ ((!(request.evaluationRow evaluation true).requiresApproval) = true ∨
      (request.evaluationRow evaluation true).approvalRequestId.getD "" = "" ∨
        (request.evaluationRow evaluation true).evaluationContext.isNone = true) := by
    simp [OperationRequest.evaluationRow, happroval, approvalRequestId_ne]
  unfold resumeApprovedOperation
  rw [h.found, h.evaluations]
  simp only [if_neg hexecutable, hmatches, Bool.not_true, Bool.false_eq_true, if_false, List.getLast?_singleton,
    if_neg hgate]
  exact ⟨_, rfl⟩

theorem Held.of_resume_ok (h : Held request evaluation s row) {scope : TenantScope} {attempt : String} {now : Nat}
    {input' : CreateWalletOperationInput} {r : WalletOperationPolicyEnforcement}
    (hr : resumeApprovedOperation localeCompare s scope request.operationId attempt input' now = .ok r) :
    row.leasedBy attempt now = true ∧ operationMatches localeCompare request.operation input' = true ∧
      evaluation.requiresApproval = true := by
  unfold resumeApprovedOperation at hr
  split at hr
  · cases hr
  · next operation row' hfound =>
    rw [Recorded.getWalletOperationById, h.record, h.operation] at hfound
    simp only [Option.ite_none_right_eq_some, Option.some.injEq, Prod.mk.injEq] at hfound
    obtain ⟨-, rfl, rfl⟩ := hfound
    rw [h.evaluations] at hr
    split at hr
    · cases hr
    · next hexecutable =>
      split at hr
      · cases hr
      · next hmatches =>
        dsimp only [List.getLast?_singleton] at hr
        split at hr
        · cases hr
        · next hgate =>
          simp only [not_or, ne_eq, not_not] at hexecutable
          obtain ⟨hstatus, -, hattempt, hlive⟩ := hexecutable
          refine ⟨OperationDatabase.leasedBy_iff.mpr ⟨hstatus, hattempt, ?_⟩, by simpa using hmatches, ?_⟩
          · cases hlease : row.executionLeaseExpiresAt with
            | none => simp [hlease] at hlive
            | some lease => exact ⟨lease, rfl, by simpa [hlease] using hlive⟩
          · simpa [OperationRequest.evaluationRow] using (not_or.mp hgate).1

theorem resume_or_forbidden (localeCompare : String → String → Ordering) (s : Recorded) (scope : TenantScope)
    (id attempt : String) (input' : CreateWalletOperationInput) (now : Nat) :
    (∃ r, resumeApprovedOperation localeCompare s scope id attempt input' now = .ok r) ∨
      Forbidden (resumeApprovedOperation localeCompare s scope id attempt input' now) := by
  unfold resumeApprovedOperation
  split
  · exact .inr ⟨_, rfl⟩
  · split
    · exact .inr ⟨_, rfl⟩
    · split
      · exact .inr ⟨_, rfl⟩
      · split
        · exact .inr ⟨_, rfl⟩
        · split
          · exact .inr ⟨_, rfl⟩
          · exact .inl ⟨_, rfl⟩

/-! ## The gate -/

/-- A policy in force decides for an approval. -/
def OperationRequest.NeedsApproval (request : OperationRequest) : Prop :=
  ∃ policy ∈ request.candidates.scopes, ∃ decision,
    ScopeDecides policy request.candidates.candidate request.candidates.legs decision ∧
      isApprovalDecision decision = true

theorem requiresApproval_eq {input : EvaluateCandidatePoliciesInput}
    (heval : evaluateCandidatePolicies input = .ok evaluation) :
    evaluation.requiresApproval = isApprovalDecision evaluation.decision := by
  unfold evaluateCandidatePolicies at heval
  obtain ⟨wallet, -, heval⟩ := Lib.bind_eq_ok.mp heval
  obtain ⟨apiKey, -, heval⟩ := Lib.bind_eq_ok.mp heval
  cases heval
  rfl

theorem isApprovalDecision_iff (decision : PolicyDecision) :
    isApprovalDecision decision = true ↔ decision = .approvalRequired ∨ decision = .providerApprovalRequired := by
  simp [isApprovalDecision]

theorem requiresApproval_iff (heval : evaluateCandidatePolicies request.candidates = .ok evaluation)
    (hpending : walletOperationStatusForDecision evaluation.decision = .pendingApproval) :
    evaluation.requiresApproval = true ↔ request.NeedsApproval := by
  obtain ⟨e, he, hof⟩ := evaluateCandidatePolicies_spec request.candidates
  obtain rfl := Except.ok.inj (heval.symm.trans he)
  rw [requiresApproval_eq heval]
  constructor
  · intro happroval
    obtain ⟨policy, hpolicy, hdecides⟩ := hof.decides
    exact ⟨policy, hpolicy, _, hdecides, happroval⟩
  · rintro ⟨policy, hpolicy, decision, hdecides, happroval⟩
    have hle := (decision_le_iff _ _).mp (hof.scope_le hpolicy hdecides)
    rw [isApprovalDecision_iff] at happroval ⊢
    cases hdecision : evaluation.decision with
    | approvalRequired => exact .inl rfl
    | providerApprovalRequired => exact .inr rfl
    | deny => simp [hdecision, walletOperationStatusForDecision] at hpending
    | allow | review | notEvaluated =>
      rw [hdecision] at hle
      rcases happroval with rfl | rfl <;> exact absurd hle (by decide)

/-- The attempt holds the operation: it claimed it last, and its lease has not run out. -/
def LeasedBy (s : Recorded) (attempt : String) (now : Nat) : Prop :=
  ∃ row, s.system.db.operation = some row ∧ row.leasedBy attempt now = true

/-- The operation while it waits for its approval. -/
def waiting (request : OperationRequest) (evaluation : CandidatePolicyEvaluation) : Recorded :=
  ⟨⟨⟨some { WalletOperationRow.fresh with status := .pendingApproval }, some .pending⟩, .returned, [], []⟩,
    some request.operation, [request.evaluationRow evaluation true]⟩

theorem waiting_reachable (heval : evaluateCandidatePolicies request.candidates = .ok evaluation)
    (hpending : walletOperationStatusForDecision evaluation.decision = .pendingApproval) :
    Reachable (recordedStep request) (· = .start) anyStep (waiting request evaluation) := by
  let created : Recorded := ⟨⟨⟨some .fresh, none⟩, .created, [], []⟩, some request.operation, []⟩
  let requesting : Recorded := ⟨⟨⟨some .fresh, none⟩, .requesting, [], []⟩, some request.operation, []⟩
  let recording : Recorded :=
    ⟨⟨⟨some .fresh, some .pending⟩, .recording .pendingApproval true, [], []⟩, some request.operation, []⟩
  let updating : Recorded :=
    ⟨⟨⟨some .fresh, some .pending⟩, .updating .pendingApproval true, [], []⟩, some request.operation,
      [request.evaluationRow evaluation true]⟩
  have hcreate : recordedStep request .start (.plain (.enforce (.createWalletOperation .answered))) = some created := rfl
  have hevaluate : recordedStep request created (.evaluate true) = some requesting := by
    simp [recordedStep, heval, Except.toOption, step, enforcementStep, created, requesting, hpending]
  have hrequest : recordedStep request requesting (.plain (.enforce (.createApprovalRequest .answered))) =
      some recording := rfl
  have hrecord : recordedStep request recording (.recordPolicyEvaluation .answered) = some updating := by
    simp only [recordedStep, heval, recording]
    rfl
  have hupdate : recordedStep request updating (.plain (.enforce (.updateWalletOperationStatus .answered))) =
      some (waiting request evaluation) := rfl
  exact .step (.step (.step (.step (.step (.start rfl) trivial hcreate) trivial hevaluate) trivial hrequest) trivial
    hrecord) trivial hupdate

theorem exists_leased (heval : evaluateCandidatePolicies request.candidates = .ok evaluation)
    (hpending : walletOperationStatusForDecision evaluation.decision = .pendingApproval) (attempt : String) (now : Nat) :
    ∃ s, Reachable (recordedStep request) (· = .start) anyStep s ∧ LeasedBy s attempt now := by
  have hrun : ∃ s, Lib.run (recordedStep request) (waiting request evaluation)
      [.plain (.resolve .approve), .plain (.claim attempt now)] = some s ∧ LeasedBy s attempt now := by
    refine ⟨_, rfl, _, rfl, OperationDatabase.leasedBy_iff.mpr ⟨rfl, rfl, _, rfl, ?_⟩⟩
    simp [OperationDatabase.leaseMs]
  obtain ⟨s, hs, hleased⟩ := hrun
  exact ⟨s, (waiting_reachable heval hpending).run hs, hleased⟩

end

/-- Of an operation that the enforcement sets to `pending_approval`: in every run the attempt that holds it after its
approval can resume it with every replay of its input, and nothing else can be resumed, exactly when a policy in force
decides for an approval and `localeCompare` tells the keys of the payload apart. -/
theorem approved_operation_resumes (localeCompare : String → String → Ordering) [TransCmp localeCompare]
    (request : OperationRequest) (evaluation : CandidatePolicyEvaluation)
    (heval : evaluateCandidatePolicies request.candidates = .ok evaluation)
    (hpending : walletOperationStatusForDecision evaluation.decision = .pendingApproval) :
    (∀ s attempt now, Reachable (recordedStep request) (· = .start) anyStep s → LeasedBy s attempt now →
      (∀ input', Replays request.input input' → ∃ r,
        resumeApprovedOperation localeCompare s request.input.scope request.operationId attempt input' now = .ok r) ∧
      ∀ scope attempt' input' now', ¬ (attempt' = attempt ∧ LeasedBy s attempt now' ∧ Replays request.input input') →
        Forbidden
          (resumeApprovedOperation localeCompare s scope request.operationId attempt' input' now')) ↔
      request.NeedsApproval ∧ PayloadDistinguished localeCompare request.input := by
  rw [← requiresApproval_iff heval hpending]
  constructor
  · intro h
    obtain ⟨s, hs, hleased⟩ := exists_leased heval hpending "attempt" 0
    obtain ⟨row, hrow, hrowLeased⟩ := hleased
    have hheld := (recorded_inv heval hpending hs).held hrow hrowLeased
    obtain ⟨hresumes, -⟩ := h s "attempt" 0 hs ⟨row, hrow, hrowLeased⟩
    refine ⟨?_, distinguished_of_matches request.operationId fun input' hreplay => ?_⟩
    · obtain ⟨r, hr⟩ := hresumes request.input ⟨rfl, rfl, rfl, rfl, rfl, rfl, rfl, rfl, rfl, rfl, rfl⟩
      exact (hheld.of_resume_ok hr).2.2
    · obtain ⟨r, hr⟩ := hresumes input' hreplay
      exact (hheld.of_resume_ok hr).2.1
  · rintro ⟨happroval, hdistinguished⟩ s attempt now hs ⟨row, hrow, hleased⟩
    have hheld := (recorded_inv heval hpending hs).held hrow hleased
    refine ⟨fun input' hreplay => hheld.resume_ok hleased (matches_of_replays hdistinguished hreplay) happroval, ?_⟩
    intro scope attempt' input' now' hother
    refine (resume_or_forbidden ..).resolve_left ?_
    rintro ⟨r, hr⟩
    obtain ⟨hleased', hmatches, -⟩ := hheld.of_resume_ok hr
    -- The row has one attempt.
    have hsame : attempt' = attempt := by
      have hattempt := (OperationDatabase.leasedBy_iff.mp hleased).2.1
      exact Option.some.inj ((OperationDatabase.leasedBy_iff.mp hleased').2.1.symm.trans hattempt)
    exact hother ⟨hsame, ⟨row, hrow, hsame ▸ hleased'⟩, replays_of_matches hmatches⟩

/-- A policy without rules. -/
def defaultPolicy (action : PolicyDefaultAction) : EffectivePolicy :=
  ⟨.customerProfile, some "wcp_1", some ⟨"wcpr_1", []⟩, action, nofun⟩

/-- A payment of five, with the default action of its wallet. -/
def paymentRequest (action : PolicyDefaultAction) : OperationRequest where
  input :=
    { organizationId := "org_1", projectId := some "prj_1", custodyWalletId := none, walletId := "wallet_1"
      apiKeyId := none, actor := .null, source := none, operationFamily := .payment
      operationType := .paymentTransferExecute, asset := some "USDC", amount := some "5", destination := none
      legs := [], context := .undefined, providerExtensions := .undefined
      rawPayload := [("memo", .undefined), ("amount", .str "5")], idempotencyKey := none
      unique := by simp [JsValue.UniqueKeys, MembersUnique] }
  walletPolicy := defaultPolicy action
  apiKeyPolicy := none
  operationId := "wop_1"
  evaluationId := "peval_1"
  approvalRequestSuffix := "1"

theorem paymentRequest_decision (action : PolicyDefaultAction) : ∃ evaluation,
    evaluateCandidatePolicies (paymentRequest action).candidates = .ok evaluation ∧
      evaluation.decision = action.decision ∧ evaluation.requiresApproval = isApprovalDecision action.decision := by
  obtain ⟨evaluation, heval, -⟩ := evaluateCandidatePolicies_spec (paymentRequest action).candidates
  have hdecision : (evaluateCandidatePolicies (paymentRequest action).candidates).toOption.map
      CandidatePolicyEvaluation.decision = some action.decision := by cases action <;> rfl
  rw [heval] at hdecision
  have hsame := Option.some.inj hdecision
  exact ⟨evaluation, heval, hsame, hsame ▸ requiresApproval_eq heval⟩

theorem approved_payment_resumes : ∃ s, Reachable (recordedStep (paymentRequest .approvalRequired)) (· = .start) anyStep s ∧
    LeasedBy s "attempt" 0 ∧ ∃ r, resumeApprovedOperation compare s ⟨"org_1", some "prj_1"⟩ "wop_1" "attempt"
      (paymentRequest .approvalRequired).input 0 = .ok r := by
  obtain ⟨evaluation, heval, hdecision, happroval⟩ := paymentRequest_decision .approvalRequired
  have hpending : walletOperationStatusForDecision evaluation.decision = .pendingApproval := by rw [hdecision]; rfl
  have hneeds := (requiresApproval_iff heval hpending).mp happroval
  have hdistinguished : PayloadDistinguished compare (paymentRequest .approvalRequired).input := by
    have hpayload : payload (paymentRequest .approvalRequired).input = .obj [("amount", .str "5"), ("actor", .null)] := rfl
    rw [PayloadDistinguished, hpayload, everywhere_obj]
    refine ⟨⟨by decide, fun a _ b _ _ _ heq => LawfulEqCmp.eq_of_compare heq⟩, ?_⟩
    simp [Tree.Everywhere]
  obtain ⟨s, hs, hleased⟩ := exists_leased heval hpending "attempt" 0
  obtain ⟨hresumes, -⟩ :=
    (approved_operation_resumes compare _ evaluation heval hpending).mpr ⟨hneeds, hdistinguished⟩ s "attempt" 0 hs hleased
  exact ⟨s, hs, hleased, hresumes _ ⟨rfl, rfl, rfl, rfl, rfl, rfl, rfl, rfl, rfl, rfl, rfl⟩⟩

/-- A review sets an operation to `pending_approval` too, but after its approval it cannot be resumed. -/
theorem approved_review_is_refused :
    (∃ evaluation, evaluateCandidatePolicies (paymentRequest .review).candidates = .ok evaluation ∧
      walletOperationStatusForDecision evaluation.decision = .pendingApproval) ∧
    ∃ s, Reachable (recordedStep (paymentRequest .review)) (· = .start) anyStep s ∧ LeasedBy s "attempt" 0 ∧
      Forbidden (resumeApprovedOperation compare s ⟨"org_1", some "prj_1"⟩ "wop_1" "attempt"
        (paymentRequest .review).input 0) := by
  obtain ⟨evaluation, heval, hdecision, happroval⟩ := paymentRequest_decision .review
  have hpending : walletOperationStatusForDecision evaluation.decision = .pendingApproval := by rw [hdecision]; rfl
  obtain ⟨s, hs, hleased⟩ := exists_leased heval hpending "attempt" 0
  obtain ⟨row, hrow, hrowLeased⟩ := hleased
  have hheld := (recorded_inv heval hpending hs).held hrow hrowLeased
  refine ⟨⟨evaluation, heval, hpending⟩, s, hs, ⟨row, hrow, hrowLeased⟩, (resume_or_forbidden ..).resolve_left ?_⟩
  rintro ⟨r, hr⟩
  have hgate := (hheld.of_resume_ok hr).2.2
  rw [happroval] at hgate
  cases hgate

end Sdp.Operations
