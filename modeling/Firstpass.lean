import Firstpass.Core.ConformalGuarantee
import Firstpass.Core.JsonCanonical
import Firstpass.Core.JsonSchema
import Firstpass.Core.LttGuarantee
import Firstpass.Core.RiskBound
import Firstpass.Core.RiskStates
import Firstpass.Core.SelectExclusive
import Firstpass.Proxy.AdaptiveServe
import Firstpass.Proxy.Affinity
import Firstpass.Proxy.BanditOptimal
import Firstpass.Proxy.Baseline
import Firstpass.Proxy.BudgetRuns
import Firstpass.Proxy.CacheRetraction
import Firstpass.Proxy.CacheRuns
import Firstpass.Proxy.Calibrate
import Firstpass.Proxy.ChatFaithful
import Firstpass.Proxy.ConversationId
import Firstpass.Proxy.CredentialRuns
import Firstpass.Proxy.Elastic
import Firstpass.Proxy.EvidenceApart
import Firstpass.Proxy.Exploration
import Firstpass.Proxy.FailClosed
import Firstpass.Proxy.ForeignRecords
import Firstpass.Proxy.GatePrompts
import Firstpass.Proxy.GeminiExact
import Firstpass.Proxy.GeminiReply
import Firstpass.Proxy.Guard
import Firstpass.Proxy.GuardrailSound
import Firstpass.Proxy.KeepaliveStream
import Firstpass.Proxy.KeysApart
import Firstpass.Proxy.LogOrder
import Firstpass.Proxy.McpTenants
import Firstpass.Proxy.Onboard
import Firstpass.Proxy.OpeBias
import Firstpass.Proxy.OpeExact
import Firstpass.Proxy.OutcomesKept
import Firstpass.Proxy.PairFairness
import Firstpass.Proxy.PairOnce
import Firstpass.Proxy.PromotionRuns
import Firstpass.Proxy.ReceiptExport
import Firstpass.Proxy.ReceiptsSummary
import Firstpass.Proxy.Replay
import Firstpass.Proxy.ReplyStops
import Firstpass.Proxy.ReplyStreamed
import Firstpass.Proxy.RequestTurns
import Firstpass.Proxy.ResponsesReassemble
import Firstpass.Proxy.ResponsesRoundTrip
import Firstpass.Proxy.Rounds
import Firstpass.Proxy.SchemaCheck
import Firstpass.Proxy.ScoredGates
import Firstpass.Proxy.ShadowLedger
import Firstpass.Proxy.SharedRetraction
import Firstpass.Proxy.Speculation
import Firstpass.Proxy.SpendCaps
import Firstpass.Proxy.SpillOrder
import Firstpass.Proxy.StartRung
import Firstpass.Proxy.StoreDurable
import Firstpass.Proxy.StreamRelay
import Firstpass.Proxy.SyncedServe
import Firstpass.Proxy.SystemSurvives
import Firstpass.Proxy.TenantAuth
import Firstpass.Proxy.TokenAgreement
import Firstpass.Proxy.ToolArgs
import Firstpass.Proxy.ToolPairs
import Firstpass.Proxy.TracePair
import Firstpass.Proxy.WarmStart
