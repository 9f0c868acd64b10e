import TradingCore.Foundation.Runs
import TradingCore.Foundation.Loops
import TradingCore.Foundation.Cuts
import TradingCore.Foundation.Bits
import TradingCore.Foundation.Trimming
import TradingCore.Foundation.Streams
import TradingCore.Foundation.Outcomes
import TradingCore.Foundation.Threads
import TradingCore.Foundation.Fairness
import TradingCore.Foundation.Arrivals
import TradingCore.Foundation.Sweeps
import TradingCore.Foundation.Rings
import TradingCore.Foundation.MapSum
import TradingCore.Foundation.MapEdits
import TradingCore.Foundation.MapViews
import TradingCore.Foundation.MapTops
import TradingCore.Foundation.MapImages
import TradingCore.Foundation.Truncation
import TradingCore.Core.ScaledValue
import TradingCore.Core.Types
import TradingCore.Core.Metrics
import TradingCore.Core.MetricsCollector
import TradingCore.Common.ConditionVariableQueue
import TradingCore.Common.QueueThreads
import TradingCore.Common.QueueAccesses
import TradingCore.Common.RingBuffer
import TradingCore.Common.Worker
import TradingCore.Config
import TradingCore.Config.JsonConfigLoader
import TradingCore.Config.JsonValue
import TradingCore.MarketData.Model
import TradingCore.MarketData.MarketDataMessageHandler
import TradingCore.MarketData.TestMarketDataParser
import TradingCore.Execution.Model
import TradingCore.OrderBook.OrderBook
import TradingCore.OrderBook.BookBuilder
import TradingCore.Strategy.ImbalanceStrategy
import TradingCore.Strategy.StrategyModule
import TradingCore.Pipeline
import TradingCore.Position.Position
import TradingCore.Position.PositionManager
import TradingCore.Pnl.PnlCalculator
import TradingCore.Risk.RiskManager
import TradingCore.Execution.OrderManager
import TradingCore.Execution.ExecutionModule
import TradingCore.Trade.TradeModule
import TradingCore.Recording.RecordingModule
import TradingCore.Application
import TradingCore.Startup
import TradingCore.Utilities.StdString
import TradingCore.Utilities.CSVReader
import TradingCore.Utilities.Base64
import TradingCore.Utilities.HexConverter
import TradingCore.Utilities.StringUtilities
import TradingCore.Proofs.BookLevels
import TradingCore.Proofs.LevelUpdateEffect
import TradingCore.Proofs.StoredLevels
import TradingCore.Proofs.ZeroLevels
import TradingCore.Proofs.BookUpdates
import TradingCore.Proofs.BookResync
import TradingCore.Proofs.UnlimitedBook
import TradingCore.Proofs.DepthTop
import TradingCore.Proofs.DepthBound
import TradingCore.Proofs.MessageDelivery
import TradingCore.Proofs.MessageIndependence
import TradingCore.Proofs.PublishedEvents
import TradingCore.Proofs.QueueDelivery
import TradingCore.Proofs.WakeUps
import TradingCore.Proofs.QueueSections
import TradingCore.Proofs.QueueLinearization
import TradingCore.Proofs.RingBufferQueue
import TradingCore.Proofs.PipelineFlow
import TradingCore.Proofs.PipelineProgress
import TradingCore.Proofs.PositionTrades
import TradingCore.Proofs.EntryPrices
import TradingCore.Proofs.VwapDrift
import TradingCore.Proofs.InstrumentPositions
import TradingCore.Proofs.PnlConservation
import TradingCore.Proofs.FillSplitting
import TradingCore.Proofs.UnrealizedMark
import TradingCore.Proofs.MirroredTrades
import TradingCore.Proofs.TradingAtMark
import TradingCore.Proofs.PnlRange
import TradingCore.Proofs.RealizedFills
import TradingCore.Proofs.OrderManagerSteps
import TradingCore.Proofs.OrderRegistry
import TradingCore.Proofs.OrderLifecycle
import TradingCore.Proofs.ExecutionLedger
import TradingCore.Proofs.FailedExecutions
import TradingCore.Proofs.FillPaths
import TradingCore.Proofs.Redelivery
import TradingCore.Proofs.ReportInterleaving
import TradingCore.Proofs.RiskEnforcement
import TradingCore.Proofs.OpenExposure
import TradingCore.Proofs.RiskAcceptance
import TradingCore.Proofs.ExecutionMetrics
import TradingCore.Proofs.WorkItemInterleaving
import TradingCore.Proofs.MetricsAggregation
import TradingCore.Proofs.StrategyRequests
import TradingCore.Proofs.ImbalanceDecision
import TradingCore.Proofs.MirroredBook
import TradingCore.Proofs.Shutdown
import TradingCore.Proofs.WorkerChannels
import TradingCore.Proofs.ApplicationFlow
import TradingCore.Proofs.ApplicationOutcome
import TradingCore.Proofs.ApplicationLiveness
import TradingCore.Proofs.MarketDataText
import TradingCore.Proofs.TextFeed
import TradingCore.Proofs.UpdateArrivals
import TradingCore.Proofs.ConfigLoading
import TradingCore.Proofs.ConfigWriting
import TradingCore.Proofs.ApplicationStartup
import TradingCore.Proofs.CsvFields
import TradingCore.Proofs.CsvLines
import TradingCore.Proofs.CsvLookup
import TradingCore.Proofs.Base64Codec
import TradingCore.Proofs.HexCodec
import TradingCore.Proofs.Splitting
import TradingCore.Proofs.SplitTokens
import TradingCore.Proofs.Chunks
import TradingCore.Proofs.Trims
import TradingCore.Proofs.Strips
import TradingCore.Proofs.WhiteSpace
import TradingCore.Proofs.CharRemoval
