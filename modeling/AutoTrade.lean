import AutoTrade.Library.KeepLast
import AutoTrade.Library.CallPool
import AutoTrade.Library.Table
import AutoTrade.Library.Run
import AutoTrade.Runtime
import AutoTrade.Execution.StateMachine
import AutoTrade.Execution.StateMachineLaws
import AutoTrade.Execution.FillAccounting
import AutoTrade.Execution.DurableState
import AutoTrade.Execution.Manager
import AutoTrade.Execution.BrokerQuery
import AutoTrade.Execution.Order
import AutoTrade.Execution.Idempotency
import AutoTrade.Wal.Journal
import AutoTrade.Wal.StatusFlow
import AutoTrade.Db.AsyncWriter
import AutoTrade.Db.WriterRuns
import AutoTrade.Db.Migration
import AutoTrade.Db.VersionTruth
import AutoTrade.Library.KeyedWrites
import AutoTrade.Wal.AsyncJournal
import AutoTrade.Execution.Lifecycle
import AutoTrade.Execution.StaleSweep
import AutoTrade.Execution.Watchdog
import AutoTrade.Execution.Service
import AutoTrade.Execution.ResultLaws
import AutoTrade.Execution.ServiceLaws
import AutoTrade.Execution.Agreement
import AutoTrade.Execution.InFlight
import AutoTrade.Execution.Isolation
import AutoTrade.Execution.ModeGate
import AutoTrade.Execution.Recovery
import AutoTrade.Execution.ServiceRuns
import AutoTrade.Execution.Persistence
import AutoTrade.Execution.Placement
import AutoTrade.Execution.RetryPolicy
import AutoTrade.Execution.IdempotencyRestart
import AutoTrade.Orders.OrderManager
import AutoTrade.Orders.OrderPersistence
import AutoTrade.Orders.IntentRace
import AutoTrade.Orders.OnePlacement
import AutoTrade.Safety.SystemMode
import AutoTrade.Safety.ModeRuns
import AutoTrade.Safety.HardHalt
import AutoTrade.Safety.HaltInterleavings
import AutoTrade.Safety.ClearTrail
import AutoTrade.Risk.CapitalManager
import AutoTrade.Risk.RiskService
import AutoTrade.Library.Heap
import AutoTrade.Notify.TelegramQueue
import AutoTrade.Notify.AlertRuns
import AutoTrade.Notify.Delivery
import AutoTrade.Services.CircuitBreaker
import AutoTrade.Services.OpeningLaw
import AutoTrade.Services.BreakerRecovery
import AutoTrade.Library.Admission
import AutoTrade.Services.RateLimiting
import AutoTrade.Services.WindowLimits
import AutoTrade.Library.Backlog
import AutoTrade.Library.HashChain
import AutoTrade.Library.Transaction
import AutoTrade.Library.Text
import AutoTrade.Library.PyJson
import AutoTrade.Events.EventStore
import AutoTrade.Events.BackendSync
import AutoTrade.Events.ChainIntegrity
import AutoTrade.Events.OrderReplay
import AutoTrade.Reconciliation.Service
import AutoTrade.Reconciliation.Detection
import AutoTrade.Reconciliation.Convergence
import AutoTrade.Reconciliation.Outage
import AutoTrade.Positions.PositionService
import AutoTrade.Positions.TrackedQuantity
import AutoTrade.Positions.RealisedPnl
import AutoTrade.Positions.ExitKeys
import AutoTrade.Signals.OutcomeTracker
import AutoTrade.Signals.GradingLaws
import AutoTrade.Signals.OutcomeFinality
import AutoTrade.Signals.FirstTouch
import AutoTrade.Signals.IntrabarPaths
import AutoTrade.Signals.HistoricalReplay
import AutoTrade.Signals.ExpiryRule
import AutoTrade.Signals.ActiveSignals
import AutoTrade.Signals.ForwardObservation
import AutoTrade.Signals.Readiness
import AutoTrade.Signals.ObservationProgress
import AutoTrade.Notify.RetryQueue
import AutoTrade.Notify.RetryProtocol
import AutoTrade.Services.BrokerHealth
import AutoTrade.Services.BrokerSelection
import AutoTrade.SelfHealing.ApprovalWorkflow
import AutoTrade.SelfHealing.StandingApproval
import AutoTrade.Execution.Certifier
import AutoTrade.Signals.SnapshotHash
import AutoTrade.Portfolio.PortfolioService
import AutoTrade.Portfolio.Accounting
import AutoTrade.Auth.Users
import AutoTrade.Auth.Sessions
import AutoTrade.Auth.SessionRevocation
import AutoTrade.Auth.SessionCap
import AutoTrade.Auth.Authenticate
import AutoTrade.Auth.LoginLimits
import AutoTrade.Auth.ResetTokens
import AutoTrade.Auth.ResetExclusivity
import AutoTrade.Auth.RecoveryCodes
import AutoTrade.Library.Calendar
import AutoTrade.Auth.SignalPermissions
import AutoTrade.Auth.PermissionEntries
import AutoTrade.Auth.QuotaPeriods
import AutoTrade.Auth.DeliveryQuotas
import AutoTrade.Auth.QuotaRenewal
import AutoTrade.Auth.EligibilityReport
import AutoTrade.Execution.ModeHistory
import AutoTrade.Strategy.ApprovalWorkflow
import AutoTrade.Strategy.Lifecycle
import AutoTrade.Strategy.TwoPersonRule
import AutoTrade.Backtest.OptionPremium
import AutoTrade.Backtest.CandleEngine
import AutoTrade.Backtest.NoLookahead
import AutoTrade.Backtest.Books
import AutoTrade.Audit.TradeTrail
import AutoTrade.Audit.TrailRuns
import AutoTrade.Execution.RefusedOperations
import AutoTrade.Execution.FillStatus
import AutoTrade.Execution.CacheRetention
import AutoTrade.Library.Marks
import AutoTrade.Execution.KeyText
import AutoTrade.Orders.RepeatIntent
import AutoTrade.Orders.OrderSlicing
import AutoTrade.Positions.ExitBooking
import AutoTrade.Positions.TrailingStop
import AutoTrade.Risk.PositionSizing
import AutoTrade.Risk.DrawdownTracking
import AutoTrade.Risk.LotScaling
import AutoTrade.Services.CountWindow
import AutoTrade.Services.RetryAfter
import AutoTrade.Events.FailedAppend
import AutoTrade.Orders.FillUpdates
import AutoTrade.Library.Selection
import AutoTrade.Execution.SmartRouter
import AutoTrade.Execution.RoutingLaws
import AutoTrade.Signals.ExpiryThreshold
import AutoTrade.Signals.LevelGeometry
import AutoTrade.Market.EventCalendar
import AutoTrade.Market.ExchangeCalendar
import AutoTrade.Market.SessionQueries
import AutoTrade.Market.NextDates
import AutoTrade.Library.Totals
import AutoTrade.Portfolio.Exposure
import AutoTrade.Risk.DomainService
import AutoTrade.Risk.ApprovedSize
import AutoTrade.Risk.OptionsGreeks
import AutoTrade.Risk.TradeGate
import AutoTrade.Library.History
import AutoTrade.Risk.GateRuns
import AutoTrade.Risk.AllowedTrades
import AutoTrade.Risk.DailyEntries
import AutoTrade.Risk.DayBook
import AutoTrade.Audit.Redaction
import AutoTrade.Portfolio.CashSweep
import AutoTrade.Execution.BrokerReconciliation
import AutoTrade.Backtest.CostLaws
import AutoTrade.Backtest.PendingOrders
import AutoTrade.Backtest.BacktestEngine
import AutoTrade.Backtest.ExitFills
import AutoTrade.Backtest.WalkForward
import AutoTrade.Library.Hinges
import AutoTrade.Market.MaxPain
import AutoTrade.Portfolio.CapitalAllocation
import AutoTrade.Positions.StateManager
import AutoTrade.Backtest.ParameterDrift
import AutoTrade.Library.Pareto
import AutoTrade.Portfolio.Optimizer
import AutoTrade.Portfolio.EfficientFrontier
import AutoTrade.Trading.ReentryTracker
import AutoTrade.Trading.EquityTrader
import AutoTrade.Trading.EntryAccounting
import AutoTrade.Trading.DailyLimits
import AutoTrade.Signals.SignalArchive
import AutoTrade.Library.RunningMax
import AutoTrade.Signals.Excursions
import AutoTrade.Performance.Drawdown
import AutoTrade.Library.Grouping
import AutoTrade.Performance.TradeReport
import AutoTrade.Library.StepDown
import AutoTrade.Library.Quantiles
import AutoTrade.Signals.ScoreDiscrimination
import AutoTrade.Performance.MonteCarlo
import AutoTrade.Signals.ScoreBuckets
import AutoTrade.Signals.ScoreReport
import AutoTrade.Services.MttrTracker
