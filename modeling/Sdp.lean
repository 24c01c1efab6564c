import Sdp.Lib.Run
import Sdp.Lib.Strictest
import Sdp.Lib.Table
import Sdp.Lib.Shares
import Sdp.Lib.Checks
import Sdp.Lib.Advances
import Sdp.Lib.Locks
import Sdp.Code.Amount
import Sdp.Code.PolicyRules
import Sdp.Code.PolicyEvaluate
import Sdp.Code.BudgetLedger
import Sdp.Code.BudgetPolicies
import Sdp.Code.BudgetRedis
import Sdp.Code.Admission
import Sdp.Code.Transfers
import Sdp.Code.TransferTracker
import Sdp.Code.OwnedSubmission
import Sdp.Code.WalletOperations
import Sdp.Code.ApiKeys
import Sdp.Code.ApiKeyRequests
import Sdp.Code.AuthCache
import Sdp.Code.ApiKeyPolicies
import Sdp.Code.KeyRotation
import Sdp.Code.Members
import Sdp.Code.RecurringCollections
import Sdp.Code.RecurringFinalizations
import Sdp.Code.RecurringCollectors
import Sdp.Code.RecurringLifecycle
import Sdp.Code.TransferBatches
import Sdp.Code.RampSettlements
import Sdp.Spec.Policy
import Sdp.Spec.Budget
import Sdp.Amount
import Sdp.PolicyEvaluate
import Sdp.PolicyBatch
import Sdp.BudgetLedger
import Sdp.Breaker
import Sdp.BudgetScripts
import Sdp.BudgetRedis
import Sdp.BudgetSettle
import Sdp.Admission
import Sdp.BudgetCounts
import Sdp.BudgetOwner
import Sdp.BudgetBalance
import Sdp.BudgetResidue
import Sdp.Transfers
import Sdp.TransferTracker
import Sdp.TransferFailures
import Sdp.OwnedSubmission
import Sdp.WalletOperations
import Sdp.WalletApprovals
import Sdp.ApiKeyAuthority
import Sdp.AuthCache
import Sdp.PolicyClones
import Sdp.KeyRotation
import Sdp.Members
import Sdp.MemberRemovals
import Sdp.OrganizationAdmins
import Sdp.RecurringRows
import Sdp.RecurringFinalizations
import Sdp.RecurringSchedules
import Sdp.RecurringStatements
import Sdp.RecurringCollectors
import Sdp.RecurringEffects
import Sdp.RecurringBroadcasts
import Sdp.RecurringLifecycle
import Sdp.BatchRows
import Sdp.TransferBatches
import Sdp.RampSettlements
import Sdp.RampPayins
import Sdp.Lib.Json
import Sdp.Lib.HashChain
import Sdp.Code.AuditLedger
import Sdp.AuditLedger
import Sdp.Code.AuditWriters
import Sdp.AuditCheckpoints
import Sdp.AuditTruncation
import Sdp.Code.TokenSupply
import Sdp.SupplySteps
import Sdp.TokenSupply
import Sdp.SettledBurns
import Sdp.Code.IssuanceExecution
import Sdp.IssuanceFailures
import Sdp.Code.TokenDeployments
import Sdp.DeploymentSteps
import Sdp.TokenDeployments
import Sdp.MintDecimals
import Sdp.TokenStatus
import Sdp.Lib.LastWriter
import Sdp.Code.LifecycleMirrors
import Sdp.LifecycleMirrors
import Sdp.Code.SettledReplays
import Sdp.SettledReplays
import Sdp.Code.AllowlistSync
import Sdp.AllowlistSteps
import Sdp.AllowlistSync
import Sdp.Code.IssuanceKeys
import Sdp.IssuanceKeys
import Sdp.Code.EarnMovements
import Sdp.Code.EarnLedger
import Sdp.EarnTransitions
import Sdp.EarnSteps
import Sdp.EarnInvariant
import Sdp.EarnMovements
import Sdp.EarnRent
import Sdp.EarnKeys
import Sdp.EarnAnswers
import Sdp.Lib.Bytes
import Sdp.Code.KaminoWithdraw
import Sdp.KaminoShares
import Sdp.KaminoRedemptions
import Sdp.KaminoWithdraw
import Sdp.Lib.JsonTree
import Sdp.Lib.JsonOrder
import Sdp.Lib.JsValues
import Sdp.Code.ApprovedReplays
import Sdp.ApprovedReplays
import Sdp.Code.RingsOperations
import Sdp.Code.HeliusRings
import Sdp.RingsSteps
import Sdp.RingsInvariant
import Sdp.RingsBroadcasts
import Sdp.RingsAcceptance
import Sdp.PolicyCriteria
import Sdp.Lib.Packing
import Sdp.Code.BatchChunks
import Sdp.BatchChunks
import Sdp.Code.EarnClaims
import Sdp.EarnClaims
import Sdp.BudgetReserve
import Sdp.BudgetControls
import Sdp.Code.TokenCaps
import Sdp.TokenCaps
import Sdp.AmountValues
import Sdp.KaminoAmounts
import Sdp.Code.Idempotency
import Sdp.Lib.JsSame
import Sdp.Fingerprints
import Sdp.EarnFingerprints
import Sdp.Lib.LengthPrefixed
import Sdp.ProviderRequestIds
import Sdp.KaminoSentinel
import Sdp.Digits
import Sdp.Lib.Hex
import Sdp.Number
import Sdp.Lib.AddressBlocks
import Sdp.Lib.IpText
import Sdp.Code.GuardedEgress
import Sdp.EgressRanges
import Sdp.Code.IpAllowlist
import Sdp.Lib.IpGrammar
import Sdp.IpAllowlist
import Sdp.Lib.SqlText
import Sdp.Code.SqlPlaceholders
import Sdp.SqlPlaceholders
import Sdp.Lib.HalfRounding
import Sdp.Code.DecimalDivision
import Sdp.DecimalDivision
import Sdp.Lib.Traversal
import Sdp.Code.TenantGuard
import Sdp.TenantGuard
import Sdp.Lib.OffsetPages
import Sdp.Code.MemberDirectory
import Sdp.MemberDirectory
import Sdp.Lib.SlidingWindow
import Sdp.Code.RateLimit
import Sdp.RateLimit
import Sdp.Code.WorkflowExecutions
import Sdp.WorkflowSteps
import Sdp.WorkflowExecutions
import Sdp.WorkflowRetries
import Sdp.WorkflowGuards
import Sdp.Lib.Base64
import Sdp.Lib.KeysetPages
import Sdp.Code.KeysetLists
import Sdp.KeysetLists
import Sdp.Code.RpcConnections
import Sdp.RpcConnections
import Sdp.Code.Concurrency
import Sdp.CanonicalRanges
import Sdp.Concurrency
