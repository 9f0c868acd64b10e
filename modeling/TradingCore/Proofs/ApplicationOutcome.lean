import TradingCore.Proofs.ApplicationFlow

/-! The application against one thread that does everything in turn. Whoever
runs when, each module is where that thread would be for part of the messages;
once all threads have run out of work it is where that thread is for all of
them. -/

universe u

namespace TradingCore.Proofs.ApplicationFlow
open Application BookBuilder BookUpdates BookResync PublishedEvents PipelineFlow Shutdown WorkerChannels
open MarketDataMessageHandler

variable {config : Config} {snapshot : Snapshot} {updates : List BookUpdate} {trades : List Trade}
  {app : Application} {history : History}

/-- What the market data amounts to. The builder's clock is left out. -/
@[ext] structure Outcome where
  orderBook : OrderBook
  events : List MarketEvent
  orderManager : OrderManager
  tradeModule : TradeModule

def outcome (app : Application) : Outcome where
  orderBook := app.bookBuilderModule.bookBuilder.orderBook
  events := app.recordingModule.recorder.marketEventsVec.map timeless
  orderManager := app.executionModule.orderManager
  tradeModule := app.tradeModule

/-- What is left when one thread does everything: the book is built from all
updates, the strategy sees all events, and its requests are then executed. -/
def sequential (config : Config) (snapshot : Snapshot) (timed : List (Timestamp × BookUpdate)) (trades : List Trade) :
    Outcome :=
  let builder := ((BookBuilderModule.construct config).run snapshot timed).bookBuilder
  { orderBook := builder.orderBook
    events := builder.eventDispatcher.strategyQueue.map timeless
    orderManager := ((ExecutionModule.construct config).run (sequentialRequests config snapshot timed)).orderManager
    tradeModule := Runs.after TradeModule.onTrade (.construct config) trades }

/-- Every thread that has something to do has done it. -/
structure AtRest (app : Application) : Prop where
  deliveries : app.deliveries = []
  bookBuilder : app.bookBuilderWorker.thread = some .ended ∨ asleep app .bookBuilder
  strategy : asleep app .strategy
  execution : asleep app .execution
  recording : asleep app .recording
  trade : asleep app .trade

theorem recorded_events (module : RecordingModule) (recorded : List RecordingEvent) :
    (Runs.after RecordingModule.process module recorded).recorder.marketEventsVec =
      module.recorder.marketEventsVec ++ recorded.filterMap marketEventOf ∧
    (Runs.after RecordingModule.process module recorded).recorder.executionReportsVec =
      module.recorder.executionReportsVec ++ recorded.filterMap executionReportOf := by
  induction recorded generalizing module with
  | nil => exact ⟨(List.append_nil _).symm, (List.append_nil _).symm⟩
  | cons event rest ih =>
    obtain ⟨events, reports⟩ := ih (module.process event)
    rw [Runs.after_cons, events, reports]
    cases event with
    | marketEvent event => exact ⟨List.append_assoc .., rfl⟩
    | orderRequest request => exact ⟨rfl, rfl⟩
    | executionReport report => exact ⟨rfl, List.append_assoc ..⟩

/-- The updates so far are what the builder takes one by one, or none of them
is looked at. -/
theorem Flow.book (flow : Flow config snapshot updates trades app history) :
    app.bookBuilderModule.bookBuilder.orderBook = (BookBuilderModule.construct config).bookBuilder.orderBook ∨
    app.bookBuilderModule.bookBuilder.orderBook =
      ((BookBuilderModule.construct config).run snapshot history.handled).bookBuilder.orderBook := by
  cases thread : app.bookBuilderWorker.thread with
  | none =>
    obtain ⟨_, ⟨_, constructed⟩, _⟩ := flow.builder thread
    exact Or.inl (constructed ▸ rfl)
  | some builder =>
    obtain ⟨_, built, _⟩ := flow.builder thread
    have running : Accepted config snapshot ∧ Alike app.bookBuilderModule.bookBuilder
        (Runs.after onTimed (started (.construct config) snapshot) history.handled) →
        app.bookBuilderModule.bookBuilder.orderBook =
          ((BookBuilderModule.construct config).run snapshot history.handled).bookBuilder.orderBook := by
      rintro ⟨accepted, _, book⟩
      rw [run_started (own_of_accepted accepted), book]
    cases builder with
    | starting => exact Or.inl (built.2 ▸ rfl)
    | waiting => exact Or.inr (running built)
    | handling update => exact Or.inr (running built)
    | pushing pushes => exact Or.inr (running built)
    | ended => exact Or.inl (congrArg BookBuilder.orderBook built.2.2)

section
variable {timed : List (Timestamp × BookUpdate)}

theorem sequential_accepted (accepted : Accepted config snapshot) (timed : List (Timestamp × BookUpdate)) :
    (sequential config snapshot timed trades).events =
      (publications (started (.construct config) snapshot) timed).map timeless := by
  rw [sequential, run_started (own_of_accepted accepted), run_dispatched]
  rfl

theorem sequential_refused (refused : ¬ Accepted config snapshot) (timed : List (Timestamp × BookUpdate)) :
    (sequential config snapshot timed trades).events = [] := by
  rw [sequential, refused_unchanged refused]
  rfl

/-- What is requested is decided by the events, whenever they were received. -/
theorem sequential_requests (config : Config) (snapshot : Snapshot) (timed : List (Timestamp × BookUpdate))
    (trades : List Trade) :
    sequentialRequests config snapshot timed =
      (sequential config snapshot timed trades).events.flatMap (ordered (.construct config.strategy)) := by
  rw [sequential, ordered_timeless, sequentialRequests, run_ordered]
  rfl

theorem unhandled_of_refused (refused : ¬ Accepted config snapshot)
    {thread : Option BuilderThread} {module : BookBuilderModule} {handled : List (Timestamp × BookUpdate)}
    (built : Built config snapshot handled module thread) : handled = [] := by
  cases thread with
  | none => exact built.1
  | some builder =>
    cases builder with
    | starting => exact built.1
    | ended => exact built.2.1
    | waiting => exact absurd built.1 refused
    | handling update => exact absurd built.1 refused
    | pushing pushes => exact absurd built.1 refused

theorem Flow.published_prefix (flow : Flow config snapshot updates trades app history)
    (same : timed.map Prod.snd = updates) :
    (published config snapshot history).map timeless <+: (sequential config snapshot timed trades).events := by
  by_cases accepted : Accepted config snapshot
  · obtain ⟨later, all⟩ := flow.updates.done_prefix
    obtain ⟨first, rest, rfl, handled, _⟩ := List.map_eq_append_iff.mp (same.trans all.symm)
    rw [sequential_accepted accepted, publications_append, List.map_append, published,
      publications_alike ⟨rfl, rfl⟩ handled.symm]
    exact List.prefix_append _ _
  · rw [published, unhandled_of_refused accepted flow.built]
    exact List.nil_prefix

theorem Flow.requested_prefix (flow : Flow config snapshot updates trades app history)
    (same : timed.map Prod.snd = updates) : requested config history <+: sequentialRequests config snapshot timed := by
  obtain ⟨unseen, all⟩ := flow.events.done_prefix
  obtain ⟨later, more⟩ := flow.published_prefix same
  rw [sequential_requests config snapshot timed trades, ← more, List.flatMap_append, ordered_timeless, ← all,
    List.flatMap_append, List.append_assoc]
  exact List.prefix_append _ _

theorem Flow.recorded_prefix (flow : Flow config snapshot updates trades app history) :
    app.recordingModule.recorder.marketEventsVec <+: published config snapshot history := by
  obtain ⟨later, all⟩ := flow.recordings.done_prefix
  rw [flow.recording, (recorded_events {} history.recorded).1, ← flow.recorded, ← all, List.filterMap_append,
    List.append_assoc]
  exact List.prefix_append _ _

theorem Flow.no_reports (flow : Flow config snapshot updates trades app history) :
    app.recordingModule.recorder.executionReportsVec = [] := by
  obtain ⟨later, all⟩ := flow.recordings.done_prefix
  have none := flow.unreported
  rw [← all, List.filterMap_append] at none
  rw [flow.recording, (recorded_events {} history.recorded).2]
  exact (List.append_eq_nil_iff.mp none).1

/-- Once the builder has nothing to do, everything it will publish is published
and its book is complete. -/
theorem Flow.built_all (flow : Flow config snapshot updates trades app history) (same : timed.map Prod.snd = updates)
    (rest : AtRest app) :
    (published config snapshot history).map timeless = (sequential config snapshot timed trades).events ∧
    app.bookBuilderModule.bookBuilder.orderBook = (sequential config snapshot timed trades).orderBook ∧
    unpushed app.bookBuilderWorker.thread = [] ∧ unrecorded app.bookBuilderWorker.thread = [] := by
  rcases rest.bookBuilder with ended | ⟨waiting, empty⟩
  · obtain ⟨_, ⟨refused, unhandled, book⟩, _⟩ := flow.builder ended
    rw [sequential_refused refused, published, unhandled, ended, sequential, refused_unchanged refused, book]
    exact ⟨rfl, rfl, rfl, rfl⟩
  · obtain ⟨updateChannel, ⟨accepted, alike⟩, _⟩ := flow.builder waiting
    have handled : timed.map Prod.snd = history.handled.map Prod.snd := by
      rw [same, ← updateChannel.all, rest.deliveries, (not_ready updateChannel.opened).mp empty]
      simp [inHand, heldUpdate]
    have started : Alike (started (.construct config) snapshot) (started (.construct config) snapshot) := ⟨rfl, rfl⟩
    rw [sequential_accepted accepted, published, publications_alike started handled, waiting, sequential,
      run_started (own_of_accepted accepted), alike.book, (started.run handled).1.book]
    exact ⟨rfl, rfl, rfl, rfl⟩

end

/-- The application after some of its work, against the whole of it. -/
structure Behind (config : Config) (snapshot : Snapshot) (timed : List (Timestamp × BookUpdate)) (trades : List Trade)
    (app : Application) : Prop where
  orderBook : app.bookBuilderModule.bookBuilder.orderBook =
      (BookBuilderModule.construct config).bookBuilder.orderBook ∨
    ∃ handled, handled.map Prod.snd <+: timed.map Prod.snd ∧
      app.bookBuilderModule.bookBuilder.orderBook = (sequential config snapshot handled trades).orderBook
  events : (outcome app).events <+: (sequential config snapshot timed trades).events
  orders : ∃ requests, requests <+: sequentialRequests config snapshot timed ∧
    app.executionModule.orderManager = ((ExecutionModule.construct config).run requests).orderManager
  trades : ∃ traded, traded <+: trades ∧ app.tradeModule = Runs.after TradeModule.onTrade (.construct config) traded
  unreported : app.recordingModule.recorder.executionReportsVec = []

section
variable {timed : List (Timestamp × BookUpdate)}

theorem Flow.behind (flow : Flow config snapshot updates trades app history) (same : timed.map Prod.snd = updates) :
    Behind config snapshot timed trades app where
  orderBook := flow.book.imp_right fun book =>
    ⟨history.handled, same ▸ flow.updates.done_prefix, book⟩
  events := (flow.recorded_prefix.map timeless).trans (flow.published_prefix same)
  orders := ⟨history.processed, flow.requests.done_prefix.trans (flow.requested_prefix same), flow.execution⟩
  trades := ⟨history.traded, flow.trades.done_prefix, flow.trade⟩
  unreported := flow.no_reports

theorem Flow.complete (flow : Flow config snapshot updates trades app history) (same : timed.map Prod.snd = updates)
    (rest : AtRest app) : outcome app = sequential config snapshot timed trades := by
  obtain ⟨published, book, unpushed, unrecorded⟩ := flow.built_all same rest
  have events := flow.events
  have traded := flow.trades
  have recorded := flow.recorded
  rw [unpushed] at events
  rw [rest.deliveries] at traded
  rw [unrecorded, List.append_nil] at recorded
  have processed := flow.requests.complete rest.execution
  apply Outcome.ext
  · exact book
  · rw [outcome, flow.recording, (recorded_events {} history.recorded).1, flow.recordings.complete rest.recording,
      ← published, ← recorded]
    rfl
  · rw [outcome, flow.execution, processed, requested, events.complete rest.strategy, ← ordered_timeless, published,
      ← sequential_requests]
    rfl
  · rw [outcome, flow.trade, traded.complete rest.trade]
    rfl

end

section
variable {Message : Type u} (parser : IMarketDataParser Message)

/-- Whatever the messages, the order of the threads' steps and their clocks,
every module does what one thread would do, in its order and never ahead of it,
and when all threads are at rest nothing of it is missing. -/
theorem application_confluent (config : Config) (snapshot : Snapshot) (turns : List (Turn Message))
    (timed : List (Timestamp × BookUpdate))
    (handed : timed.map Prod.snd =
      (Runs.after (onMessage parser) {} (received parser config snapshot turns)).bookUpdateQueue) :
    let app := reached parser snapshot config turns
    let trades := (Runs.after (onMessage parser) {} (received parser config snapshot turns)).tradeQueue
    Behind config snapshot timed trades app ∧ (AtRest app → outcome app = sequential config snapshot timed trades) := by
  intro app trades
  obtain ⟨_, history, flow⟩ := reached_follows parser config snapshot turns
  rw [MessageDelivery.messages_queue, List.flatMap_map] at handed
  have queued : trades = parsedTrades parser (received parser config snapshot turns) :=
    (Runs.logged (MessageIndependence.onMessage_trades parser) {} _).trans (List.nil_append _)
  rw [queued]
  exact ⟨flow.behind handed, flow.complete handed⟩

end

/-- A parser whose messages are parsed already. -/
def itemParser : IMarketDataParser MarketDataItem := fun message _ => (.success, message)

/-- The bid grows. -/
def grownBid : BookUpdate := { instrument := 1, sequenceRange := ⟨101, 101⟩, updates := [⟨.buy, ⟨500⟩, ⟨40⟩⟩] }

def oneTrade : Trade := { instrument := 1, price := ⟨500⟩, quantity := ⟨2⟩ }

/-- The messages arrive before the builder has its snapshot. -/
def busyTurns : List (Turn MarketDataItem) :=
  .start :: List.replicate 8 .main ++
    [.receive (.bookUpdate grownBid), .source, .strategy, .receive (.trades [oneTrade]), .bookBuilder 5, .source,
      .bookBuilder 6, .trade, .bookBuilder 7, .bookBuilder 8, .strategy, .bookBuilder 9, .recording, .bookBuilder 10,
      .strategy, .execution, .recording, .execution, .recording, .trade, .recording]

theorem application_confluent_busy :
    AtRest (reached itemParser evenBook { instrument := 1 } busyTurns) ∧
    outcome (reached itemParser evenBook { instrument := 1 } busyTurns) =
      sequential { instrument := 1 } evenBook [(0, grownBid)] [oneTrade] ∧
    (reached itemParser evenBook { instrument := 1 } busyTurns).executionModule.orderManager.gateway.sentOrders.length =
      1 := by
  have rest : AtRest (reached itemParser evenBook { instrument := 1 } busyTurns) :=
    ⟨rfl, Or.inr ⟨rfl, by decide⟩, ⟨rfl, by decide⟩, ⟨rfl, by decide⟩, ⟨rfl, by decide⟩, ⟨rfl, by decide⟩⟩
  exact ⟨rest, (application_confluent itemParser { instrument := 1 } evenBook busyTurns [(0, grownBid)] rfl).2 rest,
    by decide⟩

end TradingCore.Proofs.ApplicationFlow
