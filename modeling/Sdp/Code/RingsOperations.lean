import Sdp.Code.ApprovedReplays
import Sdp.Lib.Table
import Mathlib.Data.List.Sort

/-!
# Rings operations and their rows

`state-machine.ts` of `packages/sdp-helius-rings`, `helius-rings-operation.repository.postgres.ts` over the tables of
migration `0057`, `policy-envelope.ts` and `computeIntentKey`. A timelock is kept with its operation, since both are
inserted in one transaction. Left out: `created_at`, `released_at` of a timelock and the events, which nothing here
reads. A time is a number of milliseconds.
-/

open Sdp.Lib Sdp.Lib.Json
open Sdp.Policy (WalletOperationType)

namespace Sdp.Rings

open Operations (CreateWalletOperationInput PolicyEvaluationRow OperationRequest ApprovalRequestStatus)

/-! ## The state machine -/

inductive OperationState
  | draft | preparing | approvalRequired | proving | readyToSign | submitted | indexing | completed | failed
deriving DecidableEq, Repr

inductive FailureCode
  | policyDenied | approvalRejected | proofFailed | signerFailed | submitFailed | indexingTimeout
  | gatewayUnavailable | invalidInput | insufficientBalance
deriving DecidableEq, Repr

inductive TransitionGuard
  | policyOk | approved | proofReceived | signed | submitted | indexed
deriving DecidableEq, Repr

structure FailEdge where
  code : FailureCode
  retryable : Bool
deriving DecidableEq

structure Transition where
  fromState : OperationState
  toState : OperationState
  guard : Option TransitionGuard
  onFail : Option FailEdge
deriving DecidableEq

/-- `TRANSITIONS` -/
def transitions : List Transition :=
  [⟨.draft, .preparing, none, none⟩,
    ⟨.preparing, .approvalRequired, some .policyOk, some ⟨.policyDenied, false⟩⟩,
    ⟨.approvalRequired, .proving, some .approved, some ⟨.approvalRejected, false⟩⟩,
    ⟨.proving, .readyToSign, some .proofReceived, some ⟨.proofFailed, true⟩⟩,
    ⟨.readyToSign, .submitted, some .signed, some ⟨.signerFailed, true⟩⟩,
    ⟨.submitted, .indexing, some .submitted, some ⟨.submitFailed, true⟩⟩,
    ⟨.indexing, .completed, some .indexed, some ⟨.indexingTimeout, true⟩⟩]

def nextState (current : OperationState) (guard : Option TransitionGuard) : Option OperationState :=
  (transitions.find? fun t => t.fromState = current ∧ t.guard = guard).map (·.toState)

def failEdgeFor (current : OperationState) : Option FailEdge :=
  (transitions.find? fun t => t.fromState = current ∧ t.onFail.isSome).bind (·.onFail)

/-! ## Inputs -/

inductive OpType
  | shield | transferRegistered | transferAnonymous | withdraw | merge | timelockCreate | timelockSettle | zoneCreate
deriving DecidableEq, Repr

def OpType.text : OpType → String
  | .shield => "shield"
  | .transferRegistered => "transfer_registered"
  | .transferAnonymous => "transfer_anonymous"
  | .withdraw => "withdraw"
  | .merge => "merge"
  | .timelockCreate => "timelock_create"
  | .timelockSettle => "timelock_settle"
  | .zoneCreate => "zone_create"

def ringsEnvelopeKind : OpType → WalletOperationType
  | .shield => .ringsShield
  | .transferRegistered => .ringsTransferRegistered
  | .transferAnonymous => .ringsTransferAnonymous
  | .withdraw => .ringsWithdraw
  | .merge => .ringsMerge
  | .timelockCreate => .ringsTimelockCreate
  | .timelockSettle => .ringsTimelockSettle
  | .zoneCreate => .ringsZoneCreate

inductive TransferMode
  | registered | anonymous
deriving DecidableEq, Repr

def TransferMode.text : TransferMode → String
  | .registered => "registered"
  | .anonymous => "anonymous"

structure RingsAsset where
  mint : String
  amountRaw : String
deriving DecidableEq

structure RingsTimelock where
  unlockAt : String
  beneficiary : String
deriving DecidableEq

/-- `from` and `to` have the names of their columns. -/
structure PrivateOperationInput where
  walletId : String
  opType : OpType
  asset : Option RingsAsset
  fromAddr : Option String
  toAddr : Option String
  zoneId : Option String
  transferMode : Option TransferMode
  timelock : Option RingsTimelock
  clientNonce : String
deriving DecidableEq

/-- `?? null` in what is serialized. -/
def orNull (value : Option String) : Tree := value.elim .null .str

/-- What `computeIntentKey` hashes. -/
def canonical (input : PrivateOperationInput) : Tree :=
  .obj
    [("walletId", .str input.walletId),
      ("opType", .str input.opType.text),
      ("asset", input.asset.elim .null fun a => .obj [("mint", .str a.mint), ("amountRaw", .str a.amountRaw)]),
      ("from", orNull input.fromAddr),
      ("to", orNull input.toAddr),
      ("zoneId", orNull input.zoneId),
      ("transferMode", orNull (input.transferMode.map TransferMode.text)),
      ("timelock", input.timelock.elim .null fun t =>
        .obj [("unlockAt", .str t.unlockAt), ("beneficiary", .str t.beneficiary)]),
      ("clientNonce", .str input.clientNonce)]

/-- `sha256` gives the digest in hexadecimal. -/
def computeIntentKey (sha256 : String → String) (input : PrivateOperationInput) : String :=
  "sha256:" ++ sha256 (String.ofList (canonical input).text)

structure Tenant where
  organizationId : String
  projectId : String
deriving DecidableEq

/-- `PrepareOperationContext` -/
structure PrepareContext where
  apiKeyId : Option String
  /-- `none` is `null`. -/
  actor : Option { actor : JsValue // actor.UniqueKeys }
  custodyWalletId : Option String

/-- `buildRingsWalletOperationInput` -/
def buildRingsWalletOperationInput (tenant : Tenant) (sdpWalletId operationId intentKey : String)
    (input : PrivateOperationInput) (context : PrepareContext) : CreateWalletOperationInput where
  organizationId := tenant.organizationId
  projectId := some tenant.projectId
  custodyWalletId := context.custodyWalletId
  walletId := sdpWalletId
  apiKeyId := context.apiKeyId
  actor := context.actor.elim .null (·.1)
  source := some (if context.apiKeyId = none ∧ context.actor.isNone then "system" else "api")
  operationFamily := .transfer
  operationType := ringsEnvelopeKind input.opType
  asset := input.asset.map (·.mint)
  amount := input.asset.map (·.amountRaw)
  destination := input.toAddr
  legs := []
  context := .obj
    [("ringsOperationId", .str operationId),
      ("ringsWalletId", .str input.walletId),
      ("transferMode", (orNull (input.transferMode.map TransferMode.text)).value),
      ("zoneId", (orNull input.zoneId).value)]
  providerExtensions := .obj []
  rawPayload :=
    [("opType", .str input.opType.text),
      ("intentKey", .str intentKey),
      ("timelock", input.timelock.elim .null fun t =>
        .obj [("unlockAt", .str t.unlockAt), ("beneficiary", .str t.beneficiary)])]
  idempotencyKey := some intentKey
  unique := by
    refine ⟨?_, ?_, ?_, ?_⟩
    · cases context.actor with
      | none => trivial
      | some actor => exact actor.2
    · cases input.transferMode <;> cases input.zoneId <;>
        simp [JsValue.UniqueKeys, MembersUnique, orNull, Tree.value]
    · simp [JsValue.UniqueKeys, MembersUnique]
    · cases input.timelock <;> simp [JsValue.UniqueKeys, MembersUnique]

/-! ## Rows -/

structure OperationFailure where
  code : FailureCode
  message : String
  retryable : Bool
deriving DecidableEq

/-- A row of `helius_rings_operations`. -/
structure OperationRow where
  id : String
  tenant : Tenant
  walletId : String
  opType : OpType
  state : OperationState
  assetMint : Option String
  amountRaw : Option String
  fromAddr : Option String
  toAddr : Option String
  zoneId : Option String
  transferMode : Option TransferMode
  intentKey : String
  approvalRequestId : Option String
  policyEvaluationId : Option String
  proofSource : Option String
  proofRef : Option String
  outerTxSignature : Option String
  photonIndexedAt : Option Nat
  /-- The three columns of the failure, which are set together. -/
  failure : Option OperationFailure
  retryOfOperationId : Option String
  timelock : Option RingsTimelock
  updatedAt : Nat
deriving DecidableEq

/-- The row that `reserveIntent` inserts. -/
def OperationRow.reserve (id : String) (tenant : Tenant) (input : PrivateOperationInput) (intentKey : String)
    (retryOfOperationId : Option String) (now : Nat) : OperationRow where
  id
  tenant
  walletId := input.walletId
  opType := input.opType
  state := .draft
  assetMint := input.asset.map (·.mint)
  amountRaw := input.asset.map (·.amountRaw)
  fromAddr := input.fromAddr
  toAddr := input.toAddr
  zoneId := input.zoneId
  transferMode := input.transferMode
  intentKey
  approvalRequestId := none
  policyEvaluationId := none
  proofSource := none
  proofRef := none
  outerTxSignature := none
  photonIndexedAt := none
  failure := none
  retryOfOperationId
  timelock := input.timelock
  updatedAt := now

/-- The columns that a transition may write. `none` leaves a column as it is. -/
structure Patch where
  approvalRequestId : Option (Option String) := none
  policyEvaluationId : Option String := none
  proofSource : Option String := none
  proofRef : Option String := none
  outerTxSignature : Option String := none
  photonIndexedAt : Option Nat := none

def Patch.apply (patch : Patch) (row : OperationRow) : OperationRow :=
  { row with
    approvalRequestId := patch.approvalRequestId.getD row.approvalRequestId
    policyEvaluationId := patch.policyEvaluationId.or row.policyEvaluationId
    proofSource := patch.proofSource.or row.proofSource
    proofRef := patch.proofRef.or row.proofRef
    outerTxSignature := patch.outerTxSignature.or row.outerTxSignature
    photonIndexedAt := patch.photonIndexedAt.or row.photonIndexedAt }

/-- How a statement names its row. -/
structure OperationRef where
  tenant : Tenant
  id : String
deriving DecidableEq

def OperationRow.ref (row : OperationRow) : OperationRef := ⟨row.tenant, row.id⟩

abbrev OperationTable := Table String OperationRow (·.id)

namespace OperationTable

def getOperationById (t : OperationTable) (ref : OperationRef) : Option OperationRow :=
  (t.find? ref.id).filter (·.tenant = ref.tenant)

/-- `intent_key` is unique. The row, and whether this call inserted it. -/
def reserveIntent (t : OperationTable) (row : OperationRow) : OperationTable × OperationRow × Bool :=
  match t.rows.find? (·.intentKey = row.intentKey) with
  | some existing => (t, existing, existing.id = row.id)
  | none => (t.insertNew row, row, true)

/-- The row is locked and its state is compared. -/
def expects (ref : OperationRef) (expectedState : OperationState) (row : OperationRow) : Bool :=
  row.tenant = ref.tenant ∧ row.state = expectedState

def moved (nextState : OperationState) (patch : Patch) (now : Nat) (row : OperationRow) : OperationRow :=
  { patch.apply row with state := nextState, updatedAt := now }

/-- The row is `none` when the comparison fails. -/
def transitionState (t : OperationTable) (ref : OperationRef) (expectedState nextState : OperationState)
    (patch : Patch) (now : Nat) : OperationTable × Option OperationRow :=
  (t.update ref.id (expects ref expectedState) (moved nextState patch now) (fun _ => rfl),
    ((t.find? ref.id).filter (expects ref expectedState)).map (moved nextState patch now))

def withFailure (failure : OperationFailure) (now : Nat) (row : OperationRow) : OperationRow :=
  { row with state := .failed, failure := some failure, updatedAt := now }

def failOperation (t : OperationTable) (ref : OperationRef) (expectedState : OperationState)
    (failure : OperationFailure) (now : Nat) : OperationTable × Option OperationRow :=
  (t.update ref.id (expects ref expectedState) (withFailure failure now) (fun _ => rfl),
    ((t.find? ref.id).filter (expects ref expectedState)).map (withFailure failure now))

/-- `IN_FLIGHT_STATES` -/
def inFlightStates : List OperationState :=
  [.preparing, .approvalRequired, .proving, .readyToSign, .submitted, .indexing]

def listInFlightOperations (t : OperationTable) (staleBefore limit : Nat) : List OperationRow :=
  let stale := t.rows.filter fun row => row.state ∈ inFlightStates ∧ row.updatedAt < staleBefore
  let older (row row' : OperationRow) : Prop :=
    row.updatedAt < row'.updatedAt ∨ row.updatedAt = row'.updatedAt ∧ row.id ≤ row'.id
  (stale.insertionSort older).take limit

end OperationTable

/-! ## Enforcement -/

/-- What the enforcement of a policy leaves: the approval request that it created, and its answer or the message of
its error. -/
structure Enforced where
  approvalRequest : Option String
  answer : Except String PolicyEvaluationRow

/-- `walletOperationPolicyDecisionError`, as its message. -/
def walletOperationPolicyDecisionError (evaluation : PolicyEvaluationRow) : String :=
  match evaluation.decision with
  | .notEvaluated => "Wallet operation was not evaluated by policy"
  | .deny => "Wallet operation denied by policy"
  | _ => "Wallet operation requires policy approval"

/-- `enforceWalletOperationPolicy` when none of its statements fails. -/
def enforceWalletOperationPolicy (request : OperationRequest) : Enforced :=
  match Policy.evaluateCandidatePolicies request.candidates with
  | .error error => ⟨none, .error error.message⟩
  | .ok evaluation =>
    let requested := decide (Operations.walletOperationStatusForDecision evaluation.decision = .pendingApproval)
    let row := request.evaluationRow evaluation requested
    ⟨if requested then some request.approvalRequestId else none,
      if row.decision = .allow then .ok row else .error (walletOperationPolicyDecisionError row)⟩

/-- The dependencies of the service that are functions. A dependency that answers with a decision that is neither an
allowance nor a denial asks for an approval; the default one throws instead. -/
structure Dependencies where
  sha256 : String → String
  /-- `getSignatureFromTransaction` of the decoded bytes; `none` when they are no transaction. -/
  signatureOf : String → Option String
  signature_ne : ∀ signed signature, signatureOf signed = some signature → signature ≠ ""
  enforcePolicy : OperationRequest → Enforced
  asks : ∀ request evaluation, (enforcePolicy request).answer = .ok evaluation →
    evaluation.decision = .allow ∨ evaluation.decision = .deny ∨ evaluation.requiresApproval = true

theorem decision_of_enforce_ok {request : OperationRequest} {evaluation : PolicyEvaluationRow}
    (h : (enforceWalletOperationPolicy request).answer = .ok evaluation) : evaluation.decision = .allow := by
  unfold enforceWalletOperationPolicy at h
  split at h
  · cases h
  · simp only at h
    split at h
    · next hallow =>
      cases h
      exact hallow
    · cases h

/-- The service without an injected `enforcePolicy`. -/
def defaultDependencies (sha256 : String → String) (signatureOf : String → Option String)
    (signature_ne : ∀ signed signature, signatureOf signed = some signature → signature ≠ "") : Dependencies where
  sha256
  signatureOf
  signature_ne
  enforcePolicy := enforceWalletOperationPolicy
  asks _ _ h := .inl (decision_of_enforce_ok h)

end Sdp.Rings
