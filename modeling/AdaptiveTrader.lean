import AdaptiveTrader.Foundation.Calendar
import AdaptiveTrader.Foundation.Checks
import AdaptiveTrader.Foundation.Decimal
import AdaptiveTrader.Foundation.Dict
import AdaptiveTrader.Foundation.ExactQuotients
import AdaptiveTrader.Foundation.Exec
import AdaptiveTrader.Foundation.HashChain
import AdaptiveTrader.Foundation.Json
import AdaptiveTrader.Foundation.OrderedLocks
import AdaptiveTrader.Foundation.ParentForest
import AdaptiveTrader.Foundation.Programs
import AdaptiveTrader.Foundation.Restarts
import AdaptiveTrader.Foundation.Quadratic
import AdaptiveTrader.Foundation.Repair
import AdaptiveTrader.Foundation.ShareLedger
import AdaptiveTrader.Foundation.Shrink
import AdaptiveTrader.Foundation.Significant
import AdaptiveTrader.Foundation.Sorted
import AdaptiveTrader.Foundation.StableSort
import AdaptiveTrader.Foundation.Tables
import AdaptiveTrader.Foundation.Transition
import AdaptiveTrader.Platform.Text
import AdaptiveTrader.Platform.Domain
import AdaptiveTrader.Platform.CanonicalJson
import AdaptiveTrader.Platform.Quantization
import AdaptiveTrader.Platform.Audit
import AdaptiveTrader.Signals.Models
import AdaptiveTrader.Risk.Latches
import AdaptiveTrader.Risk.Models
import AdaptiveTrader.Risk.Policy
import AdaptiveTrader.Risk.Convergence
import AdaptiveTrader.Risk.Components
import AdaptiveTrader.Risk.RebalanceBand
import AdaptiveTrader.Execution.StateMachine
import AdaptiveTrader.Execution.Models
import AdaptiveTrader.Execution.Orders
import AdaptiveTrader.Execution.PaperOrders
import AdaptiveTrader.Execution.Planner
import AdaptiveTrader.Execution.Receipts
import AdaptiveTrader.Execution.Reconciliation
import AdaptiveTrader.Execution.ReconciliationOrder
import AdaptiveTrader.Execution.Authorization
import AdaptiveTrader.Execution.Repository
import AdaptiveTrader.Execution.Operations
import AdaptiveTrader.Execution.LedgerStructure
import AdaptiveTrader.Execution.Service
import AdaptiveTrader.Execution.MemoryService
import AdaptiveTrader.Execution.Submission
import AdaptiveTrader.Execution.Barrier
import AdaptiveTrader.Execution.AuditContract
import AdaptiveTrader.Execution.Progress
import AdaptiveTrader.Execution.Splitting
import AdaptiveTrader.Execution.FinalTargets
import AdaptiveTrader.Execution.HeldWeights
import AdaptiveTrader.Execution.BundleRetry
import AdaptiveTrader.Execution.Flatness
import AdaptiveTrader.Execution.BrokerUpdates
import AdaptiveTrader.Execution.UpdateReplay
import AdaptiveTrader.Execution.LedgerInvariant
import AdaptiveTrader.Execution.FakeBroker
import AdaptiveTrader.Execution.ReduceOnly
import AdaptiveTrader.Execution.FakeAccounting
import AdaptiveTrader.Scheduling.Slots
import AdaptiveTrader.Scheduling.SlotRepository
import AdaptiveTrader.Scheduling.SlotMoves
import AdaptiveTrader.Scheduling.SlotLeases
import AdaptiveTrader.Scheduling.SlotRecovery
import AdaptiveTrader.Scheduling.RecoveryLocks
import AdaptiveTrader.Scheduling.ClaimNext
import AdaptiveTrader.Scheduling.Readiness
import AdaptiveTrader.Jobs.Models
import AdaptiveTrader.Jobs.Repository
import AdaptiveTrader.Jobs.JobMoves
import AdaptiveTrader.Jobs.JobEffects
import AdaptiveTrader.Jobs.OutboxMoves
import AdaptiveTrader.Jobs.JobRuns
import AdaptiveTrader.Jobs.JobLeases
import AdaptiveTrader.Jobs.OutboxDelivery
import AdaptiveTrader.Jobs.ClaimWindow
import AdaptiveTrader.Jobs.RecoveryLocks
import AdaptiveTrader.Jobs.RecoveryOrder
import AdaptiveTrader.Collection.Contracts
import AdaptiveTrader.Collection.Repository
import AdaptiveTrader.Collection.Projection
import AdaptiveTrader.Collection.Convergence
import AdaptiveTrader.Collection.Bookkeeping
import AdaptiveTrader.Collection.Service
import AdaptiveTrader.Collection.Coverage
import AdaptiveTrader.Collection.CollectorRuns
import AdaptiveTrader.Locks.AdvisoryLocks
import AdaptiveTrader.Storage.AuditVerification
import AdaptiveTrader.Storage.AuditChain
import AdaptiveTrader.Locks.AuditLocks
import AdaptiveTrader.Storage.ExecutionTables
import AdaptiveTrader.Storage.SignedRisk
import AdaptiveTrader.Storage.ReconciliationBundle
import AdaptiveTrader.Storage.ControlLocks
import AdaptiveTrader.Storage.Bars
import AdaptiveTrader.Storage.MarketData
import AdaptiveTrader.Storage.BatchReads
import AdaptiveTrader.Storage.SymbolWatermarks
import AdaptiveTrader.Storage.BarHistories
import AdaptiveTrader.Storage.WatermarkReads
import AdaptiveTrader.Readiness.Calendar
import AdaptiveTrader.Readiness.Gaps
import AdaptiveTrader.Readiness.GapLedger
import AdaptiveTrader.Live.OrderStates
import AdaptiveTrader.Live.Ledger
import AdaptiveTrader.Live.OrderManager
import AdaptiveTrader.Live.SubmissionRace
import AdaptiveTrader.Research.RiskEngine
import AdaptiveTrader.Research.RiskLimits
import AdaptiveTrader.Research.Backtest
import AdaptiveTrader.Foundation.RoundingError
import AdaptiveTrader.Live.OrderPlanner
import AdaptiveTrader.Foundation.Patterns
import AdaptiveTrader.Observability.Redaction
import AdaptiveTrader.Risk.LatchReplay
import AdaptiveTrader.Foundation.FixedPoint
import AdaptiveTrader.Foundation.JsonParse
import AdaptiveTrader.Platform.CanonicalBytes
import AdaptiveTrader.Platform.CanonicalNormalForm
import AdaptiveTrader.Platform.CanonicalEncoding
