import TradingCore.Config
import TradingCore.Core.Metrics
import TradingCore.Execution.Model
import TradingCore.Foundation.Runs
import TradingCore.OrderBook.OrderBook

/-! Market-data updates are applied to the book of one instrument, and each
accepted update publishes the resulting top of book. -/

namespace TradingCore

/-- Both queues are only pushed to here and are modelled by what was pushed
on them, oldest first. -/
structure MarketEventDispatcher where
  strategyQueue : List MarketEvent := []
  recordingEventQueue : List RecordingEvent := []
deriving DecidableEq, Repr

def MarketEventDispatcher.onMarketEvent (dispatcher : MarketEventDispatcher) (event : MarketEvent) :
    MarketEventDispatcher :=
  { strategyQueue := dispatcher.strategyQueue ++ [event]
    recordingEventQueue := dispatcher.recordingEventQueue ++ [.marketEvent event] }

/-- `std::ranges::all_of` with a predicate that changes the state: it stops
after the first element that fails. -/
def allOf {σ α : Type} (predicate : σ → α → Bool × σ) : σ → List α → Bool × σ
  | state, [] => (true, state)
  | state, item :: rest =>
    match predicate state item with
    | (true, next) => allOf predicate next rest
    | (false, next) => (false, next)

/-- The book and the dispatcher are referred to by the source and are part of
the state here. -/
structure BookBuilder where
  instrument : InstrumentId := 0
  orderBook : OrderBook := {}
  eventDispatcher : MarketEventDispatcher := {}

namespace BookBuilder

def applySnapshot (builder : BookBuilder) (snapshot : Snapshot) : Bool × BookBuilder :=
  if snapshot.instrument ≠ builder.instrument then (false, builder)
  else (true, { builder with
    orderBook := builder.orderBook.setState snapshot.sequence snapshot.bids snapshot.asks })

def isSequenceValid (builder : BookBuilder) (update : BookUpdate) : Prop :=
  update.sequenceRange.first = builder.orderBook.sequence + 1

instance (builder : BookBuilder) (update : BookUpdate) : Decidable (builder.isSequenceValid update) :=
  inferInstanceAs (Decidable (_ = _))

def applyBookUpdate (builder : BookBuilder) (update : BookUpdate) : Bool × BookBuilder :=
  let (applied, orderBook) := allOf OrderBook.applyUpdate builder.orderBook update.updates
  (applied, { builder with orderBook })

def publishMarketEvent (builder : BookBuilder) (now : Timestamp) (sequence : SequenceNumber)
    (exchangeTimestamp : Timestamp) : BookBuilder :=
  let bestBid := builder.orderBook.bestBid
  let bestAsk := builder.orderBook.bestAsk
  { builder with eventDispatcher := builder.eventDispatcher.onMarketEvent {
      instrument := builder.instrument
      sequence
      exchangeTimestamp
      receiveTimestamp := now
      bestBid := bestBid.elim {} (·.price)
      bestBidQuantity := bestBid.elim {} (·.quantity)
      bestAsk := bestAsk.elim {} (·.price)
      bestAskQuantity := bestAsk.elim {} (·.quantity) } }

def onBookUpdate (builder : BookBuilder) (now : Timestamp) (update : BookUpdate) : BookBuilder :=
  if update.instrument ≠ builder.instrument then builder
  else if ¬ builder.isSequenceValid update then builder
  else
    let (applied, builder) := builder.applyBookUpdate update
    if ¬ applied then builder
    else
      let builder := { builder with orderBook := builder.orderBook.setSequence update.sequenceRange.last }
      builder.publishMarketEvent now update.sequenceRange.last update.exchangeTimestamp

def onTimed (builder : BookBuilder) (timed : Timestamp × BookUpdate) : BookBuilder :=
  builder.onBookUpdate timed.1 timed.2

inductive Call where
  | applySnapshot (snapshot : Snapshot)
  | onBookUpdate (now : Timestamp) (update : BookUpdate)
deriving DecidableEq, Repr

def step (builder : BookBuilder) : Call → BookBuilder
  | .applySnapshot snapshot => (builder.applySnapshot snapshot).2
  | .onBookUpdate now update => builder.onBookUpdate now update

end BookBuilder

structure BookBuilderModule where
  bookBuilder : BookBuilder := {}
  metrics : Metrics := {}

/-- The queues of the constructor are those of the dispatcher, and the snapshot
provider is what `run` gets its snapshot from. -/
def BookBuilderModule.construct (config : Config) : BookBuilderModule where
  bookBuilder := {
    instrument := config.instrument
    orderBook := { depthValue := config.orderBook.depthValue } }

/-- Each pass of the loop pops one update; clearing the local variable
afterwards has no effect on the next pass, which overwrites it. The updates
are those popped until the queue is closed and drained. -/
def BookBuilderModule.run (module : BookBuilderModule) (snapshot : Snapshot)
    (updates : List (Timestamp × BookUpdate)) : BookBuilderModule :=
  let module := { module with metrics := module.metrics.increment .marketDataSnapshots }
  let (applied, bookBuilder) := module.bookBuilder.applySnapshot snapshot
  let module := { module with bookBuilder }
  if ¬ applied then
    { module with metrics := module.metrics.increment .marketDataSnapshotApplyFailed }
  else
    { module with bookBuilder := Runs.after BookBuilder.onTimed module.bookBuilder updates }

end TradingCore
