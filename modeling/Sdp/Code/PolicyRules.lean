import Sdp.Code.Amount

/-!
# Policy rules

From `packages/sdp-policy/src/rules` and `packages/sdp-types/src/policy.ts`. Only the
fields of a candidate that some rule or scope reads are here.
-/

open Sdp.Amount

namespace Sdp.Policy

inductive PolicyDecision
  | allow | deny | approvalRequired | providerApprovalRequired | review | notEvaluated
deriving DecidableEq, Repr

/-- A rule's own action: every decision but `not_evaluated`. -/
inductive PolicyRuleAction
  | allow | deny | approvalRequired | providerApprovalRequired | review
deriving DecidableEq, Repr

@[coe] def PolicyRuleAction.decision : PolicyRuleAction → PolicyDecision
  | .allow => .allow
  | .deny => .deny
  | .approvalRequired => .approvalRequired
  | .providerApprovalRequired => .providerApprovalRequired
  | .review => .review

instance : Coe PolicyRuleAction PolicyDecision := ⟨PolicyRuleAction.decision⟩

inductive WalletOperationFamily
  | transfer | payment | ramp | issuance | program
deriving DecidableEq, Repr

def WalletOperationFamily.text : WalletOperationFamily → String
  | .transfer => "transfer"
  | .payment => "payment"
  | .ramp => "ramp"
  | .issuance => "issuance"
  | .program => "program"

inductive WalletOperationType
  | earnVaultDeposit | earnVaultWithdrawal | issuanceBurnExecute | issuanceForceBurnExecute
  | issuanceMintExecute | issuanceSeizeExecute | issuanceUpdateAuthorityExecute
  | paymentTransferBatchExecute | paymentTransferExecute | rampOfframpQuote | rampOnrampQuote
  | recurringPaymentCollection | recurringPaymentCreate | recurringPaymentUpdate | ringsShield
  | ringsTransferRegistered | ringsTransferAnonymous | ringsWithdraw | ringsMerge
  | ringsTimelockCreate | ringsTimelockSettle | ringsZoneCreate
deriving DecidableEq, Repr

def WalletOperationType.text : WalletOperationType → String
  | .earnVaultDeposit => "earn_vault_deposit"
  | .earnVaultWithdrawal => "earn_vault_withdrawal"
  | .issuanceBurnExecute => "issuance_burn_execute"
  | .issuanceForceBurnExecute => "issuance_force_burn_execute"
  | .issuanceMintExecute => "issuance_mint_execute"
  | .issuanceSeizeExecute => "issuance_seize_execute"
  | .issuanceUpdateAuthorityExecute => "issuance_update_authority_execute"
  | .paymentTransferBatchExecute => "payment_transfer_batch_execute"
  | .paymentTransferExecute => "payment_transfer_execute"
  | .rampOfframpQuote => "ramp_offramp_quote"
  | .rampOnrampQuote => "ramp_onramp_quote"
  | .recurringPaymentCollection => "recurring_payment_collection"
  | .recurringPaymentCreate => "recurring_payment_create"
  | .recurringPaymentUpdate => "recurring_payment_update"
  | .ringsShield => "rings_shield"
  | .ringsTransferRegistered => "rings_transfer_registered"
  | .ringsTransferAnonymous => "rings_transfer_anonymous"
  | .ringsWithdraw => "rings_withdraw"
  | .ringsMerge => "rings_merge"
  | .ringsTimelockCreate => "rings_timelock_create"
  | .ringsTimelockSettle => "rings_timelock_settle"
  | .ringsZoneCreate => "rings_zone_create"

structure PolicyCandidate where
  apiKeyId : Option String
  operationFamily : WalletOperationFamily
  operationType : WalletOperationType
  asset : Option String
  amount : Option String
  destination : Option String
deriving DecidableEq

structure PolicyRuleBase where
  id : Option String := none
  name : Option String := none
  action : Option PolicyRuleAction := none
  description : Option String := none
deriving DecidableEq

structure OperationFamilyPolicyRule extends PolicyRuleBase where
  family : Option WalletOperationFamily := none
  families : Option (List WalletOperationFamily) := none
deriving DecidableEq

structure OperationTypePolicyRule extends PolicyRuleBase where
  operationType : Option WalletOperationType := none
  operationTypes : Option (List WalletOperationType) := none
deriving DecidableEq

structure AssetPolicyRule extends PolicyRuleBase where
  asset : Option String := none
  assets : Option (List String) := none
deriving DecidableEq

structure DestinationPolicyRule extends PolicyRuleBase where
  allowlist : Option (List String) := none
  blocklist : Option (List String) := none
  destination : Option String := none
  destinations : Option (List String) := none
deriving DecidableEq

structure AmountPolicyRule extends PolicyRuleBase where
  min : Option String := none
  max : Option String := none
  asset : Option String := none
  assets : Option (List String) := none
deriving DecidableEq

structure ApprovalPolicyRule extends PolicyRuleBase where
  families : Option (List WalletOperationFamily) := none
  operationTypes : Option (List WalletOperationType) := none
  assets : Option (List String) := none
  approvalGroupId : Option String := none
deriving DecidableEq

structure AlwaysPolicyRule extends PolicyRuleBase
deriving DecidableEq

inductive PolicyRule
  | operationFamily (rule : OperationFamilyPolicyRule)
  | operationType (rule : OperationTypePolicyRule)
  | asset (rule : AssetPolicyRule)
  | destination (rule : DestinationPolicyRule)
  | amount (rule : AmountPolicyRule)
  | approval (rule : ApprovalPolicyRule)
  | always (rule : AlwaysPolicyRule)
deriving DecidableEq

inductive PolicyRuleKind
  | operationFamily | operationType | asset | destination | amount | approval | always
deriving DecidableEq, Repr

namespace PolicyRule

def kind : PolicyRule → PolicyRuleKind
  | .operationFamily _ => .operationFamily
  | .operationType _ => .operationType
  | .asset _ => .asset
  | .destination _ => .destination
  | .amount _ => .amount
  | .approval _ => .approval
  | .always _ => .always

def base : PolicyRule → PolicyRuleBase
  | .operationFamily r => r.toPolicyRuleBase
  | .operationType r => r.toPolicyRuleBase
  | .asset r => r.toPolicyRuleBase
  | .destination r => r.toPolicyRuleBase
  | .amount r => r.toPolicyRuleBase
  | .approval r => r.toPolicyRuleBase
  | .always r => r.toPolicyRuleBase

end PolicyRule

structure RuleEvaluation where
  decision : PolicyDecision
  reason : String
  rule : PolicyRule
deriving DecidableEq

/-- The singular and the plural form of one criterion, without repeats. -/
def ruleValues {α : Type} [DecidableEq α] (single : Option α) (many : Option (List α)) : List α :=
  (single.toList ++ many.getD []).eraseDups

/-- `rule.action === undefined ? fallback : rule.action` -/
def actionOr (action : Option PolicyRuleAction) (fallback : PolicyDecision) : PolicyDecision :=
  match action with
  | none => fallback
  | some a => a

def evaluateAlwaysRule (rule : AlwaysPolicyRule) : RuleEvaluation :=
  { rule := .always rule, decision := actionOr rule.action .allow, reason := "Always rule matched." }

def evaluateOperationFamilyRule (rule : OperationFamilyPolicyRule) (operation : PolicyCandidate) :
    Option RuleEvaluation :=
  let families := ruleValues rule.family rule.families
  if families.length = 0 then
    some { rule := .operationFamily rule, decision := .review
           reason := "Operation family rule has no families." }
  else if operation.operationFamily ∉ families then none
  else
    some { rule := .operationFamily rule, decision := actionOr rule.action .allow
           reason := s!"Operation family {operation.operationFamily.text} matched policy." }

def evaluateOperationTypeRule (rule : OperationTypePolicyRule) (operation : PolicyCandidate) :
    Option RuleEvaluation :=
  let operationTypes := ruleValues rule.operationType rule.operationTypes
  if operationTypes.length = 0 then
    some { rule := .operationType rule, decision := .review
           reason := "Operation type rule has no operation types." }
  else if operation.operationType ∉ operationTypes then none
  else
    some { rule := .operationType rule, decision := actionOr rule.action .allow
           reason := s!"Operation type {operation.operationType.text} matched policy." }

/-- `value === null || !values.includes(value)`, with the value when it is listed. -/
def listedValue (values : List String) (value : Option String) : Option String :=
  value.filter (· ∈ values)

def evaluateAssetRule (rule : AssetPolicyRule) (operation : PolicyCandidate) : Option RuleEvaluation :=
  let assets := ruleValues rule.asset rule.assets
  if assets.length = 0 then
    some { rule := .asset rule, decision := .review, reason := "Asset rule has no assets." }
  else
    match listedValue assets operation.asset with
    | none => none
    | some asset =>
      some { rule := .asset rule, decision := actionOr rule.action .allow
             reason := s!"Asset {asset} matched policy." }

def evaluateDestinationRule (rule : DestinationPolicyRule) (operation : PolicyCandidate) :
    Option RuleEvaluation :=
  let blocklist := ruleValues none rule.blocklist
  let allowlist := ruleValues rule.destination rule.destinations ++ ruleValues none rule.allowlist
  if blocklist.length = 0 ∧ allowlist.length = 0 then
    some { rule := .destination rule, decision := .review
           reason := "Destination rule has no allowlist or blocklist." }
  else
    match listedValue blocklist operation.destination with
    | some destination =>
      some { rule := .destination rule, decision := .deny
             reason := s!"Destination {destination} is blocked by policy." }
    | none =>
      if 0 < allowlist.length then
        match operation.destination with
        | none =>
          some { rule := .destination rule, decision := .deny
                 reason := "Operation has no destination for destination policy evaluation." }
        | some destination =>
          if destination ∉ allowlist then
            some { rule := .destination rule, decision := .deny
                   reason := s!"Destination {destination} is not allowed by policy." }
          else
            some { rule := .destination rule, decision := actionOr rule.action .allow
                   reason := s!"Destination {destination} matched policy." }
      else none

/-- `bound !== undefined && !isDecimalString(bound)` -/
def invalidBound (bound : Option String) : Bool := bound.any fun b => !isDecimalString b

/-- `bound !== undefined && test(compareDecimalAmounts(amount, bound))`, with the bound when it holds.
The comparison throws on a string that is no decimal. -/
def boundHit (amount : String) (bound : Option String) (test : Int → Bool) :
    Except AmountError (Option String) :=
  match bound with
  | none => .ok none
  | some b => do
    let order ← compareDecimalAmounts amount b
    return if test order then some b else none

def evaluateAmountRule (rule : AmountPolicyRule) (operation : PolicyCandidate) :
    Except AmountError (Option RuleEvaluation) :=
  let assets := ruleValues rule.asset rule.assets
  if assets.length = 0 then
    .ok (some { rule := .amount rule, decision := .review, reason := "Amount rule has no assets." })
  else if (listedValue assets operation.asset).isNone then .ok none
  else
    match operation.amount with
    | none => .ok none
    | some amount =>
      if !isDecimalString amount then
        .ok (some { rule := .amount rule, decision := .review
                    reason := "Operation amount is invalid for amount policy evaluation." })
      else if rule.min.isNone ∧ rule.max.isNone then
        .ok (some { rule := .amount rule, decision := .review, reason := "Amount rule has no min or max." })
      else if invalidBound rule.min ∨ invalidBound rule.max then
        .ok (some { rule := .amount rule, decision := .review
                    reason := "Amount rule has an invalid decimal bound." })
      else do
        match ← boundHit amount rule.min (· < 0) with
        | some min =>
          return some { rule := .amount rule, decision := .deny
                        reason := s!"Operation amount {amount} is below policy minimum {min}." }
        | none =>
          match ← boundHit amount rule.max (0 < ·) with
          | some max =>
            return some { rule := .amount rule, decision := .deny
                          reason := s!"Operation amount {amount} exceeds policy maximum {max}." }
          | none =>
            return some { rule := .amount rule, decision := actionOr rule.action .allow
                          reason := s!"Operation amount {amount} matched policy." }

def evaluateApprovalRule (rule : ApprovalPolicyRule) (operation : PolicyCandidate) :
    Option RuleEvaluation :=
  let families := ruleValues none rule.families
  let operationTypes := ruleValues none rule.operationTypes
  let assets := ruleValues none rule.assets
  if 0 < families.length ∧ operation.operationFamily ∉ families then none
  else if 0 < operationTypes.length ∧ operation.operationType ∉ operationTypes then none
  else if 0 < assets.length ∧ (listedValue assets operation.asset).isNone then none
  else
    some { rule := .approval rule, decision := actionOr rule.action .approvalRequired
           reason := "Approval policy matched operation." }

def evaluatePolicyRule (rule : PolicyRule) (operation : PolicyCandidate) :
    Except AmountError (Option RuleEvaluation) :=
  match rule with
  | .always rule => .ok (some (evaluateAlwaysRule rule))
  | .operationFamily rule => .ok (evaluateOperationFamilyRule rule operation)
  | .operationType rule => .ok (evaluateOperationTypeRule rule operation)
  | .asset rule => .ok (evaluateAssetRule rule operation)
  | .destination rule => .ok (evaluateDestinationRule rule operation)
  | .amount rule => evaluateAmountRule rule operation
  | .approval rule => .ok (evaluateApprovalRule rule operation)

/-- From `restricts.ts`. -/
def policyRuleRestricts (rule : PolicyRule) : Bool :=
  match rule.base.action with
  | some action => action ≠ .allow
  | none =>
    match rule with
    | .approval _ | .amount _ | .destination _ => true
    | .asset rule => (ruleValues rule.asset rule.assets).length = 0
    | .operationFamily rule => (ruleValues rule.family rule.families).length = 0
    | .operationType rule => (ruleValues rule.operationType rule.operationTypes).length = 0
    | .always _ => false

end Sdp.Policy
