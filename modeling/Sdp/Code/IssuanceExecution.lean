import Sdp.Code.TokenSupply

/-!
# Executed issuance operations

`confirmTransaction` of `packages/sdp-rpc/src/solana.ts`, `signAndSubmit` and `confirmSubmitted` of
`packages/sdp-issuance/src/mosaic/service.ts`, and the handlers `executeBurn`, `executeForceBurn`,
`freezeAccount`, `unfreezeAccount`, `pauseToken`, `unpauseToken` and `deployToken` of
`routes/issuance/handlers` from the new row on. How each step ends is data of the attempt. The texts of
the errors are left out.
-/

namespace Sdp.Issuance

/-! ## Confirmation -/

inductive Commitment
  | processed | confirmed | finalized
deriving DecidableEq

def Commitment.rank : Commitment → Nat
  | .processed => 0
  | .confirmed => 1
  | .finalized => 2

structure SignatureStatus where
  slot : Nat
  confirmationStatus : Option Commitment
  /-- The transaction ran with an error. -/
  err : Bool
deriving DecidableEq

def SignatureStatus.reaches (status : SignatureStatus) (commitment : Commitment) : Bool :=
  status.confirmationStatus.any fun c => commitment.rank ≤ c.rank

/-- What one call of `getSignatureStatuses` gives. -/
inductive Poll
  | status (value : Option SignatureStatus)
  /-- A transient error is read as no status. -/
  | transient
  | error
deriving DecidableEq

/-- The polls up to the timeout. `none` is a throw. -/
def confirmTransaction (commitment : Commitment) : List Poll → Option SignatureStatus
  | [] => none
  | .error :: _ => none
  | .transient :: polls | .status none :: polls => confirmTransaction commitment polls
  | .status (some status) :: polls =>
    if status.reaches commitment || status.err then some status else confirmTransaction commitment polls

/-- The slot of a success. -/
def confirmSubmitted (commitment : Commitment) (polls : List Poll) : Option Nat :=
  match confirmTransaction commitment polls with
  | some status => if status.err then none else some status.slot
  | none => none

/-! ## Submission -/

inductive Send
  | accepted
  /-- It throws, and nothing has left the server. -/
  | rejected
  /-- It throws after the transaction has left. -/
  | lost
deriving DecidableEq

/-- One transaction on its way. What `confirmed` says of it is final. -/
structure Submission where
  /-- All that comes before the send: signers, accounts, the message and its signatures. -/
  built : Bool
  send : Send
  commitment : Commitment
  polls : List Poll
  /-- Whether the transaction ever takes effect on chain. -/
  lands : Bool
  sent : lands = true → built = true ∧ send ≠ .rejected
  final : ∀ status, .status (some status) ∈ polls → status.reaches .confirmed = true → status.err = !lands

/-- `none` is a throw. -/
def Submission.signAndSubmit (t : Submission) : Option Nat :=
  if t.built then
    match t.send with
    | .accepted => confirmSubmitted t.commitment t.polls
    | .rejected | .lost => none
  else none

/-! ## Handlers -/

/-- How `updateTransaction` ends. -/
inductive RowWrite
  | done
  /-- The row is changed, and the status history or the read after it fails. -/
  | rowOnly
  | lost
deriving DecidableEq

def RowWrite.changesRow : RowWrite → Bool
  | .done | .rowOnly => true
  | .lost => false

structure Steps where
  /-- The check between the row and the audit intent, or the deploy claim. -/
  admitted : Bool
  refuse : RowWrite
  beginCritical : Bool
  submission : Submission
  /-- How the update of the metadata after a slim `createToken` ends, if there is one. -/
  updateMetadata : Option Bool
  settle : RowWrite
  /-- `persistRecoveredMint` -/
  recover : RowWrite
  releaseTokenDeploy : Bool
  fail : RowWrite

structure Attempt where
  status : TransactionStatus
  /-- The deploy claim is given back. -/
  released : Bool
  /-- The transaction ever takes effect. -/
  effect : Bool
deriving DecidableEq

def rowAfter (write : RowWrite) (status : TransactionStatus) : TransactionStatus :=
  if write.changesRow then status else .pending

/-- The `try` and its `catch`, with `onChainEffectCompleted`. `completeCritical` is no step of it: it never throws, and
the `catch` goes on whatever it returns. -/
def executeCritical (o : Steps) : Attempt :=
  if o.beginCritical then
    match o.submission.signAndSubmit with
    | some _ => ⟨rowAfter o.settle .confirmed, false, o.submission.lands⟩
    | none => ⟨rowAfter o.fail .failed, false, o.submission.lands⟩
  else ⟨.pending, false, false⟩

def executeBurn (o : Steps) : Attempt := executeCritical o

def executeForceBurn (o : Steps) : Attempt := executeCritical o

def freezeAccount (o : Steps) : Attempt := executeCritical o

/-- An account that is not frozen is refused without a word in the row. -/
def unfreezeAccount (o : Steps) : Attempt := if o.admitted then executeCritical o else ⟨.pending, false, false⟩

/-- A token in the wrong status fails the row before anything is sent. -/
def executeFromStatus (o : Steps) : Attempt :=
  if o.admitted then executeCritical o else ⟨rowAfter o.refuse .failed, false, false⟩

def pauseToken (o : Steps) : Attempt := executeFromStatus o

def unpauseToken (o : Steps) : Attempt := executeFromStatus o

/-- The end of the `catch` of `deployToken`. -/
def abandonDeploy (o : Steps) (effect : Bool) : Attempt :=
  if o.releaseTokenDeploy then ⟨rowAfter o.fail .failed, true, effect⟩ else ⟨.pending, false, effect⟩

def deployToken (o : Steps) : Attempt :=
  if o.admitted then
    if o.beginCritical then
      match o.submission.signAndSubmit with
      -- `MintMetadataUpdateError`: the mint is there and only its metadata is not.
      | some _ =>
        if o.updateMetadata = some false then ⟨rowAfter o.recover .confirmed, false, o.submission.lands⟩
        else ⟨rowAfter o.settle .confirmed, false, o.submission.lands⟩
      | none => abandonDeploy o o.submission.lands
    else abandonDeploy o false
  else ⟨rowAfter o.refuse .failed, false, false⟩

inductive Operation
  | burn | forceBurn | freeze | unfreeze | pause | unpause | deploy
deriving DecidableEq

def Operation.execute : Operation → Steps → Attempt
  | .burn => executeBurn
  | .forceBurn => executeForceBurn
  | .freeze => freezeAccount
  | .unfreeze => unfreezeAccount
  | .pause => pauseToken
  | .unpause => unpauseToken
  | .deploy => deployToken

/-- The row says `failed`, or the token can be deployed again. -/
def Attempt.declaredFailed (a : Attempt) : Bool := a.status = .failed || a.released

/-- What a caller brings about who tries again as long as the operation is declared failed. -/
def Operation.effects (op : Operation) : List Steps → Nat
  | [] => 0
  | o :: os =>
    (if (op.execute o).effect then 1 else 0) + if (op.execute o).declaredFailed then op.effects os else 0

end Sdp.Issuance
