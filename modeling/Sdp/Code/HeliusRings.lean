import Sdp.Code.RingsOperations
import Sdp.Lib.Run

/-!
# The Rings service

`prepareOperation`, `executeOperation`, `retryOperation` and `runPipeline` of `services/helius-rings/service.ts`, and
`services/jobs/poll-rings-indexing.ts`: any number of requests and sweeps over one table. Each SQL statement or
transaction, each append of an event and each call of a port is one step, and any step may be the last of its process.
The processes and the database have one clock. A transaction that the network takes after its call counts as taken by
the call. A process that only reads its answer is `done`.
-/

open Sdp.Lib

namespace Sdp.Rings

open Operations (PolicyEvaluationRow OperationRequest ApprovalRequestStatus)
open Payments (CallOutcome)
open Policy (EffectivePolicy)

/-- The codes of a `RingsAdapterError`. -/
inductive AdapterFailureCode
  | signerFailed | submitFailed
deriving DecidableEq, Repr

def AdapterFailureCode.code : AdapterFailureCode → FailureCode
  | .signerFailed => .signerFailed
  | .submitFailed => .submitFailed

inductive PortError
  | adapter (failureCode : AdapterFailureCode) (message : String) (retryable : Bool)
  /-- What is thrown may be no `Error`. -/
  | other (message : Option String)
deriving DecidableEq

/-- The failure of `failFromPortError`. -/
def portFailure : PortError → OperationFailure
  | .adapter failureCode message retryable => ⟨failureCode.code, message, retryable⟩
  | .other message => ⟨.gatewayUnavailable, message.getD "rings gateway failed", true⟩

/-- `RINGS_MAX_RETRY_DEPTH` -/
def ringsMaxRetryDepth : Nat := 5

/-- `RINGS_INDEXING_TIMEOUT_MS` -/
def ringsIndexingTimeoutMs : Nat := 30 * 60 * 1000

/-- `MAX_PER_RUN` -/
def maxPerRun : Nat := 100

/-- A string that is not falsy. -/
def filled (value : Option String) : Option String := value.filter (· ≠ "")

def approvalStatusText : ApprovalRequestStatus → String
  | .pending => "pending"
  | .approved => "approved"
  | .rejected => "rejected"
  | .canceled => "canceled"
  | .expired => "expired"
  | .failed => "failed"

/-! ## Where a process stands -/

/-- What `prepareOperation` hands to the policy. -/
structure PrepareRequest where
  sdpWalletId : String
  intentKey : String
  input : PrivateOperationInput
  context : PrepareContext

structure ProofArtifact where
  source : String
  ref : String
deriving DecidableEq

/-- The calls of `transition`. -/
inductive Site
  | prepared (request : PrepareRequest)
  | policyOk (evaluation : PolicyEvaluationRow)
  /-- `prepareOperation`, without an approval. -/
  | allowed
  /-- `executeOperation`, with one. -/
  | granted
  | resumed
  | indexed (indexedAt : Nat)
  /-- The rest are those of `runPipeline`. -/
  | proofReceived (proof : ProofArtifact) (unsignedTx : String)
  | signed (signedTx signature : String)
  | submitted

namespace Site

def expectedState : Site → OperationState
  | .prepared _ => .draft
  | .policyOk _ => .preparing
  | .allowed | .granted => .approvalRequired
  | .proofReceived .. => .proving
  | .signed .. => .readyToSign
  | .submitted | .resumed => .submitted
  | .indexed _ => .indexing

def guard : Site → Option TransitionGuard
  | .prepared _ => none
  | .policyOk _ => some .policyOk
  | .allowed | .granted => some .approved
  | .proofReceived .. => some .proofReceived
  | .signed .. => some .signed
  | .submitted | .resumed => some .submitted
  | .indexed _ => some .indexed

def patch : Site → Patch
  | .policyOk evaluation =>
    { policyEvaluationId := some evaluation.id, approvalRequestId := some evaluation.approvalRequestId }
  | .proofReceived proof _ => { proofSource := some proof.source, proofRef := some proof.ref }
  | .signed _ signature => { outerTxSignature := some signature }
  | .indexed indexedAt => { photonIndexedAt := some indexedAt }
  | .prepared _ | .allowed | .granted | .submitted | .resumed => {}

/-- The state that the `catch` around the call fails, if there is one. -/
def caught : Site → Option OperationState
  | .proofReceived .. => some .proving
  | .signed .. => some .readyToSign
  | .submitted => some .submitted
  | .indexed _ => some .indexing
  | .prepared _ | .policyOk _ | .allowed | .granted | .resumed => none

/-- Whether the `try` waits for the read after a lost race. -/
def rereads : Site → Bool
  | .submitted | .indexed _ => true
  | _ => false

end Site

/-- The events that are appended, with what the process needs after it. -/
inductive Note
  | created (request : PrepareRequest)
  /-- With the row that the transition returned. -/
  | transitioned (site : Site) (row : OperationRow)
  | evaluated (evaluation : PolicyEvaluationRow)
  | approvalRequested
  | approvalGranted
  | proofReceived (unsignedTx : String)
  | transactionSubmitted
  | completed
  | failed

def Note.caught : Note → Option OperationState
  | .transitioned site _ => site.caught
  | .proofReceived _ => some .readyToSign
  | .transactionSubmitted => some .submitted
  | .completed => some .indexing
  | .created _ | .evaluated _ | .approvalRequested | .approvalGranted | .failed => none

inductive Process
  | idle
  | done
  | requiringWallet (tenant : Tenant) (input : PrivateOperationInput) (context : PrepareContext)
      (retryOf : Option String)
  | reserving (tenant : Tenant) (request : PrepareRequest) (retryOf : Option String)
  | appending (ref : OperationRef) (note : Note)
  | transitioning (ref : OperationRef) (site : Site)
  | enforcing (ref : OperationRef) (request : PrepareRequest)
  | executing (ref : OperationRef)
  | readingApproval (ref : OperationRef) (approvalRequestId : String)
  | retrying (ref : OperationRef) (clientNonce : String) (context : PrepareContext)
  | building (ref : OperationRef)
  | proving (ref : OperationRef) (unsignedTx : String)
  | signing (ref : OperationRef) (unsignedTx : String)
  | submitting (ref : OperationRef) (signedTx signature : String)
  | verifying (ref : OperationRef) (signature : String)
  /-- `requireOperation` after a lost race, inside of a `try`. -/
  | rereading (ref : OperationRef) (caught : OperationState)
  | failing (ref : OperationRef) (expectedState : OperationState) (failure : OperationFailure)
  /-- `failIndexingTimeout` -/
  | timingOut (ref : OperationRef)

namespace Process

/-- An error where `caught` says which `catch` there is. -/
def thrown (ref : OperationRef) (caught : Option OperationState) (error : PortError) : Process :=
  caught.elim .done fun state => .failing ref state (portFailure error)

/-- From `indexing` on. -/
def polling (ref : OperationRef) (row : OperationRow) : Process :=
  match filled row.outerTxSignature with
  | none => .failing ref .indexing ⟨.invalidInput, "indexing without a submitted signature", false⟩
  | some signature => .verifying ref signature

def afterTransition (ref : OperationRef) (row : OperationRow) : Site → Process
  | .prepared request => .enforcing ref request
  | .policyOk evaluation =>
    if evaluation.requiresApproval then .appending ref .approvalRequested else .transitioning ref .allowed
  | .allowed | .granted => .building ref
  | .resumed => .polling ref row
  | .indexed _ => .appending ref .completed
  | .proofReceived _ unsignedTx => .appending ref (.proofReceived unsignedTx)
  | .signed signedTx signature => .submitting ref signedTx signature
  | .submitted => .done

def afterAppend (ref : OperationRef) : Note → Process
  | .created request => .transitioning ref (.prepared request)
  | .transitioned site row => afterTransition ref row site
  | .evaluated evaluation =>
    if evaluation.decision = .deny then .failing ref .preparing ⟨.policyDenied, evaluation.reason, false⟩
    else .transitioning ref (.policyOk evaluation)
  | .approvalGranted => .transitioning ref .granted
  | .proofReceived unsignedTx => .signing ref unsignedTx
  | .transactionSubmitted => .transitioning ref .submitted
  | .approvalRequested | .completed | .failed => .done

/-- After a transition that lost its race. -/
def lostRace (ref : OperationRef) (site : Site) : Process :=
  if site.rereads then .rereading ref site.expectedState else .done

/-- `executeOperation`, once it has read the row. -/
def execute (ref : OperationRef) (row : OperationRow) : Process :=
  match row.state with
  | .approvalRequired =>
    match filled row.approvalRequestId with
    | none => .failing ref .approvalRequired ⟨.invalidInput, "approval_required without an approval request", false⟩
    | some approvalRequestId => .readingApproval ref approvalRequestId
  | .submitted => .transitioning ref .resumed
  | .indexing => .polling ref row
  | _ => .done

/-- `executeOperation`, once it has read the status of the request. -/
def afterApproval (ref : OperationRef) : Option ApprovalRequestStatus → Process
  | some .approved => .appending ref .approvalGranted
  | some .rejected => rejected .rejected
  | some .canceled => rejected .canceled
  | some .expired => rejected .expired
  | _ => .done
where
  rejected (status : ApprovalRequestStatus) : Process :=
    .failing ref .approvalRequired ⟨.approvalRejected, "approval request was " ++ approvalStatusText status, false⟩

end Process

/-! ## Retries -/

/-- The rounds of the loop in `assertRetryDepth`, of at most so many. -/
def ancestors (t : OperationTable) (tenant : Tenant) : Nat → Option String → Nat
  | 0, _ | _, none => 0
  | rounds + 1, some ancestorId =>
    1 + ancestors t tenant rounds ((t.getOperationById ⟨tenant, ancestorId⟩).bind (·.retryOfOperationId))

/-- `assertRetryDepth` -/
def retryDepthOk (t : OperationTable) (tenant : Tenant) (operation : OperationRow) : Bool :=
  let depth := 1 + ancestors t tenant ringsMaxRetryDepth operation.retryOfOperationId
  depth + 1 ≤ ringsMaxRetryDepth

/-- The input that `retryOperation` files. -/
def retryInput (failed : OperationRow) (clientNonce : String) : PrivateOperationInput where
  walletId := failed.walletId
  opType := failed.opType
  asset :=
    match filled failed.assetMint, filled failed.amountRaw with
    | some mint, some amountRaw => some ⟨mint, amountRaw⟩
    | _, _ => none
  fromAddr := failed.fromAddr
  toAddr := failed.toAddr
  zoneId := failed.zoneId
  transferMode := failed.transferMode
  timelock := failed.timelock
  clientNonce

/-! ## The system -/

/-- A row that a sweep has listed, and what it does about it. -/
inductive Task
  | timeOut (ref : OperationRef)
  | execute (ref : OperationRef)
deriving DecidableEq

/-- A call of `submitOuterTransaction`. -/
structure Submission where
  operationId : String
  signedTx : String
  signature : String
deriving DecidableEq

structure System where
  now : Nat
  operations : OperationTable
  approvals : String → Option ApprovalRequestStatus
  processes : Nat → Process
  /-- What a sweep has still to do. -/
  tasks : Nat → List Task
  submissions : List Submission
  /-- The answers of the policy, with the operations they are for. -/
  verdicts : List (String × PolicyEvaluationRow)
  /-- The operations whose transaction the network has accepted. -/
  accepted : List String
  /-- When Photon indexed the transaction of an operation. -/
  photon : String → Option Nat
  /-- When an operation came to `indexing`. It is no column; the budget counts from it. -/
  indexingSince : String → Option Nat

def System.start : System where
  now := 0
  operations := .empty
  approvals _ := none
  processes _ := .idle
  tasks _ := []
  submissions := []
  verdicts := []
  accepted := []
  photon _ := none
  indexingSince _ := none

/-- The policies that are in force, and the ids that an enforcement gives. -/
structure PolicyState where
  walletPolicy : EffectivePolicy
  apiKeyPolicy : Option EffectivePolicy
  walletOperationId : String
  evaluationId : String
  approvalRequestSuffix : String

/-- What a process does next, and how its call ends. -/
inductive Call
  | prepareOperation (tenant : Tenant) (input : PrivateOperationInput) (context : PrepareContext)
  | executeOperation (ref : OperationRef)
  | retryOperation (ref : OperationRef) (clientNonce : String) (context : PrepareContext)
  | pollRingsIndexing
  /-- The next row of a sweep. -/
  | sweep
  /-- The wallet has this `sdp_wallet_id`, or there is none, or the read fails. -/
  | requireWallet (sdpWalletId : Option String)
  | reserveIntent (id : String) (outcome : CallOutcome)
  | append (error : Option PortError)
  /-- With the error of a call that is not answered. -/
  | transitionState (outcome : CallOutcome) (message : Option String)
  | failOperation (outcome : CallOutcome)
  /-- The enforcement fails with a message, or is what the dependency says. -/
  | enforcePolicy (policies : PolicyState) (failure : Option (Option String))
  | requireOperation (ok : Bool)
  | reread (error : Option PortError)
  | getApprovalStatus (ok : Bool)
  | buildOperation (result : Except PortError String)
  | requestProof (result : Except PortError ProofArtifact)
  | signOuterTransaction (result : Except PortError String)
  | submitOuterTransaction (accepted : Bool) (error : Option PortError)
  | verifyIndexed (error : Option PortError)
  | crash

inductive Event
  | call (process : Nat) (call : Call)
  | elapse (ms : Nat)
  /-- An approver, or the expiry. -/
  | resolveApproval (approvalRequestId : String) (status : ApprovalRequestStatus)
  /-- Photon indexes a transaction of the network. -/
  | index (operationId : String)

namespace System

def setProcess (s : System) (n : Nat) (p : Process) : System := { s with processes := Function.update s.processes n p }

/-- `pollRingsIndexing`, once it has listed the rows. -/
def sweepTasks (s : System) : List Task :=
  (s.operations.listInFlightOperations s.now maxPerRun).filterMap fun row =>
    if row.state = .indexing ∧ row.updatedAt + ringsIndexingTimeoutMs < s.now then some (.timeOut row.ref)
    else if row.state = .indexing ∨ row.state = .submitted then some (.execute row.ref)
    else none

/-- The statement of `reserveIntent`; the generated id is a new one. -/
def reserveIntent (s : System) (n : Nat) (tenant : Tenant) (request : PrepareRequest) (retryOf : Option String)
    (id : String) (outcome : CallOutcome) : Option System :=
  if s.operations.find? id = none then
    let (operations, row, reserved) := s.operations.reserveIntent
      (.reserve id tenant request.input request.intentKey retryOf s.now)
    match outcome with
    | .failed => some (s.setProcess n .done)
    | .lost => some ({ s with operations }.setProcess n .done)
    | .answered =>
      some ({ s with operations }.setProcess n (if reserved then .appending row.ref (.created request) else .done))
  else none

/-- The transition of a row is committed, if there is a row. -/
def commit (s : System) (target : OperationState) (operations : OperationTable) (row : Option OperationRow) : System :=
  { s with
    operations
    indexingSince := fun id =>
      if target = .indexing ∧ row.any (·.id = id) then some s.now else s.indexingSince id }

/-- The statement of `transition`. -/
def transitionState (s : System) (n : Nat) (ref : OperationRef) (site : Site) (outcome : CallOutcome)
    (message : Option String) : System :=
  match nextState site.expectedState site.guard with
  | none => s.setProcess n (.lostRace ref site)
  | some target =>
    let (operations, row) := s.operations.transitionState ref site.expectedState target site.patch s.now
    match outcome with
    | .failed => s.setProcess n (.thrown ref site.caught (.other message))
    | .lost => (s.commit target operations row).setProcess n (.thrown ref site.caught (.other message))
    | .answered =>
      (s.commit target operations row).setProcess n
        (row.elim (.lostRace ref site) fun row => .appending ref (.transitioned site row))

/-- The statement of `fail`. -/
def failOperation (s : System) (n : Nat) (ref : OperationRef) (expectedState : OperationState)
    (failure : OperationFailure) (outcome : CallOutcome) : System :=
  let (operations, row) := s.operations.failOperation ref expectedState failure s.now
  match outcome with
  | .failed => s.setProcess n .done
  | .lost => { s with operations }.setProcess n .done
  | .answered => { s with operations }.setProcess n (row.elim .done fun _ => .appending ref .failed)

def timeoutFailure : OperationFailure :=
  ⟨.indexingTimeout, "Photon did not index the transaction within the budget", true⟩

/-- The statement of `failIndexingTimeout`, which appends no event. -/
def failIndexingTimeout (s : System) (n : Nat) (ref : OperationRef) (outcome : CallOutcome) : System :=
  let (operations, _) := s.operations.failOperation ref .indexing timeoutFailure s.now
  if outcome = .failed then s.setProcess n .done else { s with operations }.setProcess n .done

/-- What the policy is asked. -/
def operationRequest (ref : OperationRef) (request : PrepareRequest) (policies : PolicyState) : OperationRequest where
  input := buildRingsWalletOperationInput ref.tenant request.sdpWalletId ref.id request.intentKey request.input
    request.context
  walletPolicy := policies.walletPolicy
  apiKeyPolicy := policies.apiKeyPolicy
  operationId := policies.walletOperationId
  evaluationId := policies.evaluationId
  approvalRequestSuffix := policies.approvalRequestSuffix

/-- An approval request is created, unless it is there. -/
def requestApproval (s : System) (approvalRequest : Option String) : System :=
  { s with approvals := fun id =>
      if approvalRequest = some id then (s.approvals id).or (some .pending) else s.approvals id }

/-- The `catch` around the policy. -/
def policyFailure (message : Option String) : OperationFailure :=
  ⟨.invalidInput, message.getD "policy evaluation failed", true⟩

/-- `enforcePolicy`. When it fails its approval request is no longer pending, and nothing names it. -/
def enforcePolicy (deps : Dependencies) (s : System) (n : Nat) (ref : OperationRef) (request : PrepareRequest)
    (policies : PolicyState) (failure : Option (Option String)) : System :=
  match failure with
  | some message => s.setProcess n (.failing ref .preparing (policyFailure message))
  | none =>
    let enforced := deps.enforcePolicy (operationRequest ref request policies)
    let s := s.requestApproval enforced.approvalRequest
    match enforced.answer with
    | .error message => s.setProcess n (.failing ref .preparing (policyFailure (some message)))
    | .ok evaluation =>
      { s with verdicts := s.verdicts ++ [(ref.id, evaluation)] }.setProcess n (.appending ref (.evaluated evaluation))

/-- The read of `executeOperation`. -/
def readExecuted (s : System) (n : Nat) (ref : OperationRef) : System :=
  s.setProcess n ((s.operations.getOperationById ref).elim .done (.execute ref))

/-- The reads of `retryOperation`, of which only the state and the failure may change. -/
def readRetried (s : System) (n : Nat) (ref : OperationRef) (clientNonce : String) (context : PrepareContext) :
    System :=
  s.setProcess n <|
    match s.operations.getOperationById ref with
    | none => .done
    | some failed =>
      if failed.state = .failed ∧ failed.failure.any (·.retryable) ∧
          retryDepthOk s.operations ref.tenant failed then
        .requiringWallet ref.tenant (retryInput failed clientNonce) context (some failed.id)
      else .done

/-- `submitOuterTransaction`. It may throw although the network has the transaction. -/
def submitOuterTransaction (s : System) (n : Nat) (ref : OperationRef) (signedTx signature : String)
    (accepted : Bool) (error : Option PortError) : System :=
  let called : System :=
    { s with
      submissions := s.submissions ++ [⟨ref.id, signedTx, signature⟩]
      accepted := if accepted then ref.id :: s.accepted else s.accepted }
  called.setProcess n (error.elim (.appending ref .transactionSubmitted) (.thrown ref (some .submitted)))

/-- The signer has answered. -/
def signed (deps : Dependencies) (s : System) (n : Nat) (ref : OperationRef) (signedTx : String) : System :=
  s.setProcess n <|
    match deps.signatureOf signedTx with
    | some signature => .transitioning ref (.signed signedTx signature)
    | none => .thrown ref (some .readyToSign) (.adapter .signerFailed "signer returned undecodable bytes" false)

/-- Photon is asked for the signature, and answers what it has indexed. -/
def verifyIndexed (s : System) (n : Nat) (ref : OperationRef) (error : Option PortError) : System :=
  s.setProcess n <|
    match error with
    | some error => .thrown ref (some .indexing) error
    | none => (s.photon ref.id).elim .done fun indexedAt => .transitioning ref (.indexed indexedAt)

/-- The process of a listed row. -/
def taskProcess : Task → Process
  | .timeOut ref => .timingOut ref
  | .execute ref => .executing ref

/-- A step of one process. -/
def call (deps : Dependencies) (s : System) (n : Nat) (c : Call) : Option System :=
  match c, s.processes n with
  | .prepareOperation tenant input context, .idle => some (s.setProcess n (.requiringWallet tenant input context none))
  | .executeOperation ref, .idle => some (s.setProcess n (.executing ref))
  | .retryOperation ref clientNonce context, .idle => some (s.setProcess n (.retrying ref clientNonce context))
  | .pollRingsIndexing, .idle => some ({ s with tasks := Function.update s.tasks n s.sweepTasks }.setProcess n .done)
  | .sweep, .done =>
    match s.tasks n with
    | [] => none
    | task :: tasks => some ({ s with tasks := Function.update s.tasks n tasks }.setProcess n (taskProcess task))
  | .requireWallet none, .requiringWallet .. => some (s.setProcess n .done)
  | .requireWallet (some sdpWalletId), .requiringWallet tenant input context retryOf =>
    some (s.setProcess n
      (.reserving tenant ⟨sdpWalletId, computeIntentKey deps.sha256 input, input, context⟩ retryOf))
  | .reserveIntent id outcome, .reserving tenant request retryOf => s.reserveIntent n tenant request retryOf id outcome
  | .append none, .appending ref note => some (s.setProcess n (.afterAppend ref note))
  | .append (some error), .appending ref note => some (s.setProcess n (.thrown ref note.caught error))
  | .transitionState outcome message, .transitioning ref site => some (s.transitionState n ref site outcome message)
  | .failOperation outcome, .failing ref expectedState failure =>
    some (s.failOperation n ref expectedState failure outcome)
  | .failOperation outcome, .timingOut ref => some (s.failIndexingTimeout n ref outcome)
  | .enforcePolicy policies failure, .enforcing ref request =>
    some (s.enforcePolicy deps n ref request policies failure)
  | .requireOperation false, .executing _ | .requireOperation false, .retrying .. => some (s.setProcess n .done)
  | .requireOperation true, .executing ref => some (s.readExecuted n ref)
  | .requireOperation true, .retrying ref clientNonce context => some (s.readRetried n ref clientNonce context)
  | .reread none, .rereading .. => some (s.setProcess n .done)
  | .reread (some error), .rereading ref caught => some (s.setProcess n (.thrown ref (some caught) error))
  | .getApprovalStatus false, .readingApproval .. => some (s.setProcess n .done)
  | .getApprovalStatus true, .readingApproval ref approvalRequestId =>
    some (s.setProcess n (.afterApproval ref (s.approvals approvalRequestId)))
  | .buildOperation (.ok unsignedTx), .building ref => some (s.setProcess n (.proving ref unsignedTx))
  | .buildOperation (.error error), .building ref => some (s.setProcess n (.thrown ref (some .proving) error))
  | .requestProof (.ok proof), .proving ref unsignedTx =>
    some (s.setProcess n (.transitioning ref (.proofReceived proof unsignedTx)))
  | .requestProof (.error error), .proving ref _ => some (s.setProcess n (.thrown ref (some .proving) error))
  | .signOuterTransaction (.ok signedTx), .signing ref _ => some (s.signed deps n ref signedTx)
  | .signOuterTransaction (.error error), .signing ref _ =>
    some (s.setProcess n (.thrown ref (some .readyToSign) error))
  | .submitOuterTransaction accepted error, .submitting ref signedTx signature =>
    some (s.submitOuterTransaction n ref signedTx signature accepted error)
  | .verifyIndexed error, .verifying ref _ => some (s.verifyIndexed n ref error)
  | .crash, _ => some ({ s with tasks := Function.update s.tasks n [] }.setProcess n .done)
  | _, _ => none

end System

def step (deps : Dependencies) (s : System) : Event → Option System
  | .call n c => s.call deps n c
  | .elapse ms => some { s with now := s.now + ms }
  | .resolveApproval approvalRequestId status =>
    if s.approvals approvalRequestId = some .pending ∧ status ≠ .pending then
      some { s with approvals := Function.update s.approvals approvalRequestId (some status) }
    else none
  | .index operationId =>
    if operationId ∈ s.accepted ∧ s.photon operationId = none then
      some { s with photon := Function.update s.photon operationId (some s.now) }
    else none

end Sdp.Rings
