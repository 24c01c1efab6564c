import Sdp.Code.BudgetLedger

/-!
# Owned submissions

From `packages/sdp-rpc/src/transient.ts`, `services/sponsorship-budget.service.ts` and
`services/payments/signed-submission.ts`. A call of the outside world ends as its outcome says, and a
run of the code yields what it did in order and its result. The admission that comes first, the
logs and the breaker are left out.
-/

namespace Sdp.Owned

/-! ## Errors -/

inductive AppErrorCode
  | transactionFailed | accountFrozen | internalError | other
deriving DecidableEq, Repr

inductive ErrorKind
  | app (code : AppErrorCode)
  /-- A Solana error with one of the codes of `TRANSIENT_SOLANA_RPC_CODES`. -/
  | transientSolana
  | plain
deriving DecidableEq, Repr

structure Thrown where
  message : String
  kind : ErrorKind
deriving DecidableEq

def isDefiniteSubmissionError (error : Thrown) : Bool :=
  error.kind = .app .transactionFailed || error.kind = .app .accountFrozen

/-! ## `isTransientRpcError` -/

/-- `\w` -/
def isWordChar (c : Char) : Bool := c.isAlphanum || c = '_'

/-- `\s` -/
def isSpaceChar (c : Char) : Bool :=
  let n := c.toNat
  (9 ≤ n && n ≤ 13) || n = 0x20 || n = 0xA0 || n = 0x1680 || (0x2000 ≤ n && n ≤ 0x200A) || n = 0x2028 ||
    n = 0x2029 || n = 0x202F || n = 0x205F || n = 0x3000 || n = 0xFEFF

def startsWithWord (text word : List Char) : Bool :=
  word.isPrefixOf text && !((text.drop word.length).head?.any isWordChar)

/-- `\b(word|…)\b` somewhere in the text. -/
def hasWord (words : List (List Char)) : Option Char → List Char → Bool
  | _, [] => false
  | previous, c :: text =>
    (!previous.any isWordChar && words.any (startsWithWord (c :: text))) || hasWord words (some c) text

/-- `TRANSIENT_HTTP_STATUS` -/
def transientHttpStatus (message : String) : Bool :=
  hasWord (["408", "429", "500", "502", "503", "504"].map String.toList) none message.toList

/-- The parts of the alternatives of `TRANSIENT_ERROR_TEXT`. No `\s*` in it comes before a space. -/
inductive TextPart
  | text (s : List Char)
  | optional (c : Char)
  | spaces

def startsWithParts : List TextPart → List Char → Bool
  | [], _ => true
  | .text s :: parts, text => s.isPrefixOf (text.map Char.toLower) && startsWithParts parts (text.drop s.length)
  | .optional c :: parts, text =>
    startsWithParts parts text || (text.head?.any (·.toLower = c) && startsWithParts parts text.tail)
  | .spaces :: parts, text => startsWithParts parts (text.dropWhile isSpaceChar)

def hasParts (alternatives : List (List TextPart)) : List Char → Bool
  | [] => false
  | c :: text => alternatives.any (startsWithParts · (c :: text)) || hasParts alternatives text

def transientTexts : List (List TextPart) :=
  [[.text "time".toList, .optional 'd', .spaces, .text "out".toList],
    [.text "socket hang".toList, .optional ' ', .text "up".toList]] ++
  ["service unavailable", "too many requests", "gateway timeout", "unable to complete", "bad gateway",
    "fetch failed", "network error", "connection reset", "connection refused", "econnreset", "econnrefused",
    "etimedout", "eai_again"].map fun s => [.text s.toList]

/-- `TRANSIENT_ERROR_TEXT` -/
def transientErrorText (message : String) : Bool := hasParts transientTexts message.toList

def isTransientRpcError (error : Thrown) : Bool :=
  transientHttpStatus error.message || transientErrorText error.message || error.kind = .transientSolana

/-- `TRANSIENT_RPC_RETRY_DELAYS_MS.length` -/
def transientRpcRetries : Nat := 3

/-- The events of all attempts and the result of the last. `late` says that the attempt ended past the budget of the
elapsed time, and `retries` is how many delays are left. -/
def withTransientRpcRetry {σ ε α : Type} (operation : Nat → σ → List ε × σ × Except Thrown α)
    (late : Nat → Bool) : (retries attempt : Nat) → σ → List ε × Except Thrown α
  | retries, attempt, s =>
    let (events, s', result) := operation attempt s
    match result, retries with
    | .ok a, _ => (events, .ok a)
    | .error error, 0 => (events, .error error)
    | .error error, retries + 1 =>
      if !isTransientRpcError error || late attempt then (events, .error error)
      else
        let (rest, result) := withTransientRpcRetry operation late retries (attempt + 1) s'
        (events ++ rest, result)
termination_by structural retries => retries

/-! ## The submission loop -/

/-- The cause that `unwrapSimulationError` finds. -/
structure SimulationCause where
  message : String
  /-- The code of a custom instruction error. -/
  customCode : Option Nat
deriving DecidableEq

/-- What `sendTransaction` throws. -/
inductive SendError
  | preflight (message : String) (cause : Option SimulationCause)
  /-- Any other error, and whether it has one of the transient codes. -/
  | other (message : String) (transientCode : Bool)
deriving DecidableEq

inductive SendOutcome
  | accepted (signature : String)
  | rejected (error : SendError)
deriving DecidableEq

def SendOutcome.isPreflight : SendOutcome → Bool
  | .rejected (.preflight _ _) => true
  | _ => false

def SendError.thrown : SendError → Thrown
  | .preflight message _ => ⟨message, .plain⟩
  | .other message transientCode => ⟨message, if transientCode then .transientSolana else .plain⟩

def mapPreflightError : SendError → Option Thrown
  | .preflight message cause =>
    let code : AppErrorCode := if cause.bind (·.customCode) = some 17 then .accountFrozen else .transactionFailed
    some ⟨(cause.map (·.message)).getD message, .app code⟩
  | .other _ _ => none

/-- How `releaseDeterministic` ends: whether it released the row, and what it throws. -/
structure ReleaseOutcome where
  released : Bool
  error : Option Thrown

/-- How one send ends, and the release that may follow it. It is `late` when it ends past the budget of the retries. -/
structure SendAttempt where
  outcome : SendOutcome
  release : ReleaseOutcome
  late : Bool

inductive SubmissionEvent
  | send (outcome : SendOutcome)
  | released
deriving DecidableEq

def ReleaseOutcome.events (r : ReleaseOutcome) : List SubmissionEvent := if r.released then [.released] else []

def ambiguous : Thrown := ⟨"Solana RPC submission outcome is ambiguous after a transient failure", .plain⟩

/-- One attempt of the loop. What `releaseDefinitelyUnbroadcast` throws is dropped. -/
def sendAttempt (sends : Nat → SendAttempt) (attempt : Nat) (sawTransientFailure : Bool) :
    List SubmissionEvent × Bool × Except Thrown String :=
  let a := sends attempt
  match a.outcome with
  | .accepted signature => ([.send a.outcome], sawTransientFailure, .ok signature)
  | .rejected error =>
    match if sawTransientFailure then none else mapPreflightError error with
    | some preflightError => (.send a.outcome :: a.release.events, sawTransientFailure, .error preflightError)
    | none =>
      let transient := isTransientRpcError error.thrown
      if sawTransientFailure && !transient then ([.send a.outcome], sawTransientFailure, .error ambiguous)
      else ([.send a.outcome], sawTransientFailure || transient, .error error.thrown)

/-! ## `prepareOwnedSubmission` -/

/-- How its calls end. A call with no answer ends with an error or with none. -/
structure PrepareOutcomes where
  /-- `signAsFeePayer` and `getFullySignedSubmission`. -/
  sign : Option Thrown
  markSigned : Except Thrown Budget.SignaturePersistResult
  persistSigned : Option Thrown
  /-- Whether all policies are enabled. -/
  resolveEnabledPolicies : Except Thrown Bool
  markStarted : Option Thrown
  hasStarted : Except Thrown Bool
  markSubmitted : Except Thrown Budget.SignaturePersistResult
  durablyAdvanced : Bool
  /-- What `accountingUnavailable` throws. -/
  accountingUnavailable : Thrown
  release : ReleaseOutcome

namespace PrepareOutcomes

/-- The calls before `markStarted`. -/
def signed (o : PrepareOutcomes) : Except Thrown Unit := do
  if let some error := o.sign then throw error
  if (← o.markSigned) ≠ .persisted then throw ⟨"Owned sponsorship signature could not be persisted", .plain⟩
  if let some error := o.persistSigned then throw error
  if !(← o.resolveEnabledPolicies) then throw ⟨"Sponsorship is disabled for this scope", .plain⟩

/-- `releaseDeterministic`, and the error that is thrown after it. -/
def releaseAndThrow (o : PrepareOutcomes) (error : Thrown) : List SubmissionEvent × Except Thrown Unit :=
  (o.release.events, .error (o.release.error.getD error))

end PrepareOutcomes

def prepareOwnedSubmission (o : PrepareOutcomes) : List SubmissionEvent × Except Thrown Unit :=
  match o.signed with
  | .error error => o.releaseAndThrow error
  | .ok () =>
    match o.markStarted with
    | some error =>
      match o.hasStarted with
      | .ok false => o.releaseAndThrow error
      | .ok true | .error _ => ([], .error error)
    | none =>
      match o.markSubmitted with
      | .error _ => ([], .error o.accountingUnavailable)
      | .ok result =>
        if result ≠ .persisted ∧ ¬ o.durablyAdvanced then ([], .error o.accountingUnavailable) else ([], .ok ())

/-- How all calls end. -/
structure SubmitOutcomes where
  prepare : PrepareOutcomes
  sends : Nat → SendAttempt

/-- `signature` is the one of the prepared submission. -/
def submitSignedPaymentTransaction (signature : String) (o : SubmitOutcomes) :
    List SubmissionEvent × Except Thrown String :=
  match prepareOwnedSubmission o.prepare with
  | (events, .error error) => (events, .error error)
  | (events, .ok ()) =>
    let (sent, result) := withTransientRpcRetry (sendAttempt o.sends) (fun attempt => (o.sends attempt).late)
      transientRpcRetries 0 false
    (events ++ sent, do
      let submittedSignature ← result
      if submittedSignature ≠ signature then
        throw ⟨"Solana RPC returned a different transaction signature", .plain⟩
      pure signature)

end Sdp.Owned
