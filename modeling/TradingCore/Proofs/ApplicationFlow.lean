import TradingCore.Proofs.MessageIndependence
import TradingCore.Proofs.PipelineFlow
import TradingCore.Proofs.WorkerChannels

/-! What flows through the whole application. Wherever its threads are, each
update, trade, event, request and record is with one of them or in one of the
queues, in its place, and what a module holds is what it has made of those it
has handled. -/

universe u

namespace TradingCore.Proofs.ApplicationFlow
open Application BookBuilder BookUpdates BookResync PublishedEvents PipelineFlow Shutdown WorkerChannels
open MarketDataMessageHandler MessageDelivery MessageIndependence

def updateDelivery : Delivery → Option BookUpdate
  | .bookUpdate update => some update
  | .trade _ => none

def tradeDelivery : Delivery → Option Trade
  | .bookUpdate _ => none
  | .trade trade => some trade

def recordingPush : EventPush → Option MarketEvent
  | .strategy _ => none
  | .recording event => some event

def marketEventOf : RecordingEvent → Option MarketEvent
  | .marketEvent event => some event
  | .orderRequest _ | .executionReport _ => none

def executionReportOf : RecordingEvent → Option ExecutionReport
  | .executionReport report => some report
  | .marketEvent _ | .orderRequest _ => none

def inHand (thread : Option BuilderThread) : List BookUpdate := thread.elim [] heldUpdate

def unpushed (thread : Option BuilderThread) : List MarketEvent := thread.elim [] unpushedEvents

/-- The events that are still to be pushed to the recorder. -/
def unrecorded : Option BuilderThread → List MarketEvent
  | some (.pushing pushes) => pushes.filterMap recordingPush
  | _ => []

/-- What the threads have done, oldest first. -/
structure History where
  handled : List (Timestamp × BookUpdate) := []
  seen : List MarketEvent := []
  processed : List ExecutionWorkItem := []
  pushed : List RecordingEvent := []
  recorded : List RecordingEvent := []
  traded : List Trade := []

/-- Where the builder stands: a snapshot that it refuses ends its thread. -/
def Built (config : Config) (snapshot : Snapshot) (handled : List (Timestamp × BookUpdate))
    (module : BookBuilderModule) : Option BuilderThread → Prop
  | none | some .starting => handled = [] ∧ module = .construct config
  | some .ended =>
    ¬ Accepted config snapshot ∧ handled = [] ∧ module.bookBuilder = (BookBuilderModule.construct config).bookBuilder
  | some _ =>
    Accepted config snapshot ∧
      Alike module.bookBuilder (Runs.after onTimed (started (.construct config) snapshot) handled)

/-- The events that the builder has published. -/
def published (config : Config) (snapshot : Snapshot) (history : History) : List MarketEvent :=
  publications (started (.construct config) snapshot) history.handled

/-- The work items that the strategy has pushed. -/
def requested (config : Config) (history : History) : List ExecutionWorkItem :=
  history.seen.flatMap (ordered (.construct config.strategy))

structure Flow (config : Config) (snapshot : Snapshot) (updates : List BookUpdate) (trades : List Trade)
    (app : Application) (history : History) : Prop where
  updates : Channel (history.handled.map Prod.snd) (inHand app.bookBuilderWorker.thread) app.bookUpdateQueue
    (app.deliveries.filterMap updateDelivery) updates
  trades : Channel history.traded (held app.tradeWorker.thread) app.tradeQueue
    (app.deliveries.filterMap tradeDelivery) trades
  built : Built config snapshot history.handled app.bookBuilderModule app.bookBuilderWorker.thread
  events : Channel history.seen (held app.strategyWorker.thread) app.strategyEventQueue
    (unpushed app.bookBuilderWorker.thread) (published config snapshot history)
  strategy : ordered app.strategyModule = ordered (.construct config.strategy)
  requests : Channel history.processed (held app.executionWorker.thread) app.executionQueue []
    (requested config history)
  execution : app.executionModule.orderManager = ((ExecutionModule.construct config).run history.processed).orderManager
  recordings : Channel history.recorded (held app.recordingWorker.thread) app.recordingEventQueue [] history.pushed
  recorded : history.pushed.filterMap marketEventOf ++ unrecorded app.bookBuilderWorker.thread =
    published config snapshot history
  unreported : history.pushed.filterMap executionReportOf = []
  recording : app.recordingModule = Runs.after RecordingModule.process {} history.recorded
  trade : app.tradeModule = Runs.after TradeModule.onTrade (.construct config) history.traded

variable {config : Config} {snapshot : Snapshot} {updates : List BookUpdate} {trades : List Trade}
  {app : Application} {history : History}

theorem construct_flow (config : Config) (snapshot : Snapshot) : Flow config snapshot [] [] (construct config) {} where
  updates := empty_channel
  trades := empty_channel
  built := ⟨rfl, rfl⟩
  events := empty_channel
  strategy := rfl
  requests := empty_channel
  execution := rfl
  recordings := empty_channel
  recorded := rfl
  unreported := rfl
  recording := rfl
  trade := rfl

theorem Flow.source (flow : Flow config snapshot updates trades app history) :
    Flow config snapshot updates trades app.sourceStep history := by
  have updateChannel := flow.updates
  have tradeChannel := flow.trades
  rw [sourceStep]
  split
  next => exact flow
  next update deliveries same =>
    rw [same] at updateChannel tradeChannel
    exact { flow with updates := updateChannel.push, trades := tradeChannel }
  next trade deliveries same =>
    rw [same] at updateChannel tradeChannel
    exact { flow with updates := updateChannel, trades := tradeChannel.push }

theorem delivered_updates (updates : List BookUpdate) (trades : List Trade) :
    (updates.map .bookUpdate ++ trades.map .trade : List Delivery).filterMap updateDelivery = updates := by
  simp [updateDelivery, List.filterMap_map, Function.comp_def]

theorem delivered_trades (updates : List BookUpdate) (trades : List Trade) :
    (updates.map .bookUpdate ++ trades.map .trade : List Delivery).filterMap tradeDelivery = trades := by
  simp [tradeDelivery, List.filterMap_map, Function.comp_def]

section
variable {Message : Type u} (parser : IMarketDataParser Message)

/-- The message of a turn, if the handler gets it. -/
def taken (app : Application) : Turn Message → List Message
  | .receive message => if ¬ app.marketDataSourceRunning ∨ app.deliveries ≠ [] then [] else [message]
  | _ => []

theorem Flow.receive (flow : Flow config snapshot updates trades app history) (message : Message) :
    Flow config snapshot
      (updates ++ (taken app (.receive message)).flatMap fun message => queuedUpdates (parser message .monostate))
      (trades ++ (taken app (.receive message)).flatMap fun message => queuedTrades (parser message .monostate))
      (app.receive parser message) history := by
  rw [Application.receive, taken]
  split
  next =>
    rw [List.flatMap_nil, List.append_nil, List.flatMap_nil, List.append_nil]
    exact flow
  next ready =>
    obtain ⟨_, delivered⟩ := not_or.mp ready
    have updateChannel := flow.updates.grow (queuedUpdates (parser message .monostate))
    have tradeChannel := flow.trades.grow (queuedTrades (parser message .monostate))
    rw [not_not.mp delivered] at updateChannel tradeChannel
    rw [List.flatMap_singleton, List.flatMap_singleton]
    dsimp only
    rw [onMessage_queue, onMessage_trades]
    refine { flow with updates := ?_, trades := ?_ }
    · rw [delivered_updates]
      exact updateChannel
    · rw [delivered_trades]
      exact tradeChannel

end

theorem Flow.strategyStep (flow : Flow config snapshot updates trades app history) :
    ∃ history, Flow config snapshot updates trades app.strategyStep history := by
  rw [Application.strategyStep]
  split
  next waiting => exact ⟨history, { flow with events := flow.events.pop waiting }⟩
  next event handling =>
    obtain ⟨pushed, same⟩ := onEvent_ordered
      { app.strategyModule with executor := { app.strategyModule.executor with executionQueue := [] } } event
    have requests := flow.requests.pushAll (ordered app.strategyModule event)
    rw [requested, ← flow.strategy] at requests
    refine ⟨{ history with seen := history.seen ++ [event] }, { flow with
      events := flow.events.handle handling, strategy := same.trans flow.strategy, requests := ?_ }⟩
    dsimp only
    rw [pushed, requested, List.flatMap_append, List.flatMap_singleton, ← flow.strategy]
    exact requests
  next => exact ⟨history, flow⟩

/-- The strategy pushes nothing but requests. -/
theorem requested_request {workItem : ExecutionWorkItem} (member : workItem ∈ requested config history) :
    ∃ request, workItem = .request request := by
  obtain ⟨event, _, pushed⟩ := List.mem_flatMap.mp member
  rw [ordered] at pushed
  split at pushed
  next => cases pushed
  next => exact ⟨_, List.mem_singleton.mp pushed⟩
  next => exact ⟨_, List.mem_singleton.mp pushed⟩

theorem process_manager {module other : ExecutionModule} (same : module.orderManager = other.orderManager)
    (workItem : ExecutionWorkItem) :
    (module.process workItem).orderManager = (other.process workItem).orderManager := by
  cases module
  cases other
  cases same
  cases workItem with
  | request request => rfl
  | report report =>
    rw [ExecutionModule.process, ExecutionModule.process, ExecutionModule.processReport, ExecutionModule.processReport]
    dsimp only [ExecutionModule.increment, ExecutionModule.record]
    split <;> rfl

theorem Flow.executionStep (flow : Flow config snapshot updates trades app history) :
    ∃ history, Flow config snapshot updates trades app.executionStep history := by
  rw [Application.executionStep]
  split
  next waiting => exact ⟨history, { flow with requests := flow.requests.pop waiting }⟩
  next workItem handling =>
    have member : workItem ∈ requested config history := by
      rw [← flow.requests.all, handling]
      simp [held]
    obtain ⟨request, rfl⟩ := requested_request member
    refine ⟨{ history with
        processed := history.processed ++ [.request request]
        pushed := history.pushed ++ [.orderRequest request] }, { flow with
      requests := flow.requests.handle handling, recordings := flow.recordings.pushAll _, execution := ?_,
      recorded := ?_, unreported := ?_ }⟩
    · rw [ExecutionModule.run, Runs.after_append]
      exact process_manager flow.execution (.request request)
    · rw [List.filterMap_append]
      exact (congrArg (· ++ _) (List.append_nil _)).trans flow.recorded
    · rw [List.filterMap_append, flow.unreported]
      rfl
  next => exact ⟨history, flow⟩

theorem Flow.recordingStep (flow : Flow config snapshot updates trades app history) :
    ∃ history, Flow config snapshot updates trades app.recordingStep history := by
  rw [Application.recordingStep]
  split
  next waiting => exact ⟨history, { flow with recordings := flow.recordings.pop waiting }⟩
  next event handling =>
    refine ⟨{ history with recorded := history.recorded ++ [event] }, { flow with
      recordings := flow.recordings.handle handling, recording := ?_ }⟩
    rw [Runs.after_append, ← flow.recording]
    rfl
  next => exact ⟨history, flow⟩

theorem Flow.tradeStep (flow : Flow config snapshot updates trades app history) :
    ∃ history, Flow config snapshot updates trades app.tradeStep history := by
  rw [Application.tradeStep]
  split
  next waiting => exact ⟨history, { flow with trades := flow.trades.pop waiting }⟩
  next trade handling =>
    refine ⟨{ history with traded := history.traded ++ [trade] }, { flow with
      trades := flow.trades.handle handling, trade := ?_ }⟩
    rw [Runs.after_append, ← flow.trade]
    rfl
  next => exact ⟨history, flow⟩

/-- The part of the builder, by where its thread is. -/
theorem Flow.builder (flow : Flow config snapshot updates trades app history) {thread : Option BuilderThread}
    (same : app.bookBuilderWorker.thread = thread) :
    Channel (history.handled.map Prod.snd) (inHand thread) app.bookUpdateQueue
      (app.deliveries.filterMap updateDelivery) updates ∧
    Built config snapshot history.handled app.bookBuilderModule thread ∧
    Channel history.seen (held app.strategyWorker.thread) app.strategyEventQueue (unpushed thread)
      (published config snapshot history) ∧
    history.pushed.filterMap marketEventOf ++ unrecorded thread = published config snapshot history := by
  subst same
  exact ⟨flow.updates, flow.built, flow.events, flow.recorded⟩

/-- A refused snapshot leaves the builder as it was constructed. -/
theorem refused_unchanged (refused : ¬ Accepted config snapshot) (timed : List (Timestamp × BookUpdate)) :
    ((BookBuilderModule.construct config).run snapshot timed).bookBuilder =
      (BookBuilderModule.construct config).bookBuilder := by
  rw [Accepted, BookBuilder.applySnapshot] at refused
  rw [BookBuilderModule.run, BookBuilder.applySnapshot]
  split at refused
  next other =>
    dsimp only
    rw [if_pos other]
    rfl
  next => exact absurd rfl refused

theorem Flow.applySnapshot (flow : Flow config snapshot updates trades app history)
    (starting : app.bookBuilderWorker.thread = some .starting) :
    Flow config snapshot updates trades (app.applySnapshot snapshot) history := by
  obtain ⟨updateChannel, built, events, recorded⟩ := flow.builder starting
  obtain ⟨none, constructed⟩ := built
  by_cases accepted : Accepted config snapshot
  · have applied := accepted
    rw [Accepted, ← constructed] at applied
    have built : Built config snapshot history.handled (app.bookBuilderModule.run snapshot []) (some .waiting) := by
      refine ⟨accepted, ?_⟩
      rw [none, constructed, run_started (own_of_accepted accepted)]
      exact ⟨rfl, rfl⟩
    rw [Application.applySnapshot]
    dsimp only
    rw [applied]
    exact { flow with updates := updateChannel, built, events, recorded }
  · have refused := accepted
    rw [Accepted, ← constructed] at refused
    have built : Built config snapshot history.handled (app.bookBuilderModule.run snapshot []) (some .ended) := by
      refine ⟨accepted, none, ?_⟩
      rw [constructed, refused_unchanged accepted]
    rw [Application.applySnapshot]
    dsimp only
    rw [if_neg refused]
    exact { flow with updates := updateChannel, built, events, recorded }

/-- What the pushes of one call carry to the recorder. -/
theorem unrecorded_all (events : List MarketEvent) :
    unrecorded (some (.pushing (events.flatMap fun event => [.strategy event, .recording event]))) = events := by
  rw [unrecorded, List.filterMap_flatMap]
  exact List.flatMap_singleton' events

theorem Flow.popUpdate (flow : Flow config snapshot updates trades app history)
    (waiting : app.bookBuilderWorker.thread = some .waiting) (ready : app.bookUpdateQueue.ready) :
    Flow config snapshot updates trades
      { app with
        bookUpdateQueue := app.bookUpdateQueue.waitPop.2
        bookBuilderWorker := app.bookBuilderWorker.proceed (app.bookUpdateQueue.waitPop.1.elim .ended .handling) }
      history := by
  obtain ⟨updateChannel, built, events, recorded⟩ := flow.builder waiting
  have popped := updateChannel.popped
  cases first : app.bookUpdateQueue.waitPop.1 with
  | none =>
    -- only a closed queue gives nothing
    have closed := (ConditionVariableQueue.waitPop_none ready first).1
    rw [updateChannel.opened] at closed
    cases closed
  | some update =>
    rw [first] at popped
    exact { flow with updates := popped, built, events, recorded }

theorem Flow.handleUpdate (flow : Flow config snapshot updates trades app history) {update : BookUpdate}
    (handling : app.bookBuilderWorker.thread = some (.handling update)) (now : Timestamp) :
    Flow config snapshot updates trades (app.handleUpdate now update)
      { history with handled := history.handled ++ [(now, update)] } := by
  obtain ⟨updateChannel, built, events, recorded⟩ := flow.builder handling
  obtain ⟨accepted, instrument, book⟩ := built
  have alike : Alike { app.bookBuilderModule.bookBuilder with eventDispatcher := {} }
    (Runs.after onTimed (started (.construct config) snapshot) history.handled) := ⟨instrument, book⟩
  have publishes : published config snapshot { history with handled := history.handled ++ [(now, update)] } =
      published config snapshot history ++
        ({ app.bookBuilderModule.bookBuilder with eventDispatcher := {} }.onBookUpdate now
          update).eventDispatcher.strategyQueue := by
    rw [published, publications_append, publications_cons, onBookUpdate_dispatched, publication_alike alike]
    exact congrArg (_ ++ ·) (List.append_nil _)
  rw [Application.handleUpdate]
  refine { flow with updates := ?_, built := ?_, events := ?_, recorded := ?_ }
  · rw [List.map_append]
    exact updateChannel.handled
  · refine ⟨accepted, ?_⟩
    rw [Runs.after_append]
    exact (alike.onBookUpdate now now update).1
  · rw [publishes, ← events.all]
    refine ⟨?_, events.opened⟩
    rw [List.append_assoc _ (unpushed _)]
    exact congrArg (_ ++ ·) (unpushed_all _)
  · rw [publishes, ← recorded]
    exact congrArg₂ (· ++ ·) (List.append_nil _).symm (unrecorded_all _)

theorem Flow.pushEvent (flow : Flow config snapshot updates trades app history) {first : EventPush}
    {pushes : List EventPush} (pushing : app.bookBuilderWorker.thread = some (.pushing (first :: pushes))) :
    ∃ history, Flow config snapshot updates trades
      { app.push first with bookBuilderWorker := app.bookBuilderWorker.proceed (.pushing pushes) } history := by
  obtain ⟨updateChannel, built, events, recorded⟩ := flow.builder pushing
  cases first with
  | strategy event => exact ⟨history, { flow with updates := updateChannel, built, events := events.push, recorded }⟩
  | recording event =>
    refine ⟨{ history with pushed := history.pushed ++ [.marketEvent event] }, { flow with
      updates := updateChannel, built, events, recordings := flow.recordings.pushed _, recorded := ?_,
      unreported := ?_ }⟩
    · rw [List.filterMap_append, List.append_assoc]
      exact recorded
    · rw [List.filterMap_append, flow.unreported]
      rfl

theorem Flow.bookBuilderStep (flow : Flow config snapshot updates trades app history) (now : Timestamp) :
    ∃ history, Flow config snapshot updates trades (app.bookBuilderStep snapshot now) history := by
  rw [Application.bookBuilderStep]
  split
  next starting => exact ⟨history, flow.applySnapshot starting⟩
  next waiting =>
    split
    next ready => exact ⟨history, flow.popUpdate waiting ready⟩
    next => exact ⟨history, flow⟩
  next update handling => exact ⟨_, flow.handleUpdate handling now⟩
  next pushing =>
    obtain ⟨updateChannel, built, events, recorded⟩ := flow.builder pushing
    exact ⟨history, { flow with updates := updateChannel, built, events, recorded }⟩
  next first pushes pushing => exact flow.pushEvent pushing
  next => exact ⟨history, flow⟩

/-- A module whose thread runs already is not started again. -/
theorem Flow.startModule (flow : Flow config snapshot updates trades app history) (module : ApplicationModule)
    (main : MainThread) :
    Flow config snapshot updates trades { app.startModule module with mainThread := main } history := by
  cases module with
  | marketData => exact { flow with }
  | executionReport => exact { flow with }
  | strategy => exact { flow with events := flow.events.start }
  | execution => exact { flow with requests := flow.requests.start }
  | recording => exact { flow with recordings := flow.recordings.start }
  | trade => exact { flow with trades := flow.trades.start }
  | bookBuilder =>
    cases thread : app.bookBuilderWorker.thread with
    | some running =>
      have same : app.bookBuilderWorker.start .starting = app.bookBuilderWorker := by
        rw [Worker.start, if_pos]
        rw [Worker.running, thread]
        rfl
      rw [Application.startModule, same]
      exact { flow with }
    | none =>
      obtain ⟨updateChannel, built, events, recorded⟩ := flow.builder thread
      have first : app.bookBuilderWorker.start .starting = { thread := some .starting } := by
        rw [Worker.start, if_neg]
        rw [Worker.running, thread]
        exact Bool.false_ne_true
      rw [Application.startModule, first]
      exact { flow with updates := updateChannel, built, events, recorded }

theorem Flow.mainStep (flow : Flow config snapshot updates trades app history) (sound : Sound app) :
    Flow config snapshot updates trades app.mainStep history := by
  have called := sound.called
  rw [Application.mainStep]
  split
  next => exact flow
  next => exact { flow with }
  next next modules _ => exact flow.startModule next _
  next => exact { flow with }
  next next modules main =>
    rw [main] at called
    obtain ⟨threads, all | ⟨all, _⟩⟩ := called
    · cases all
      exact { flow with }
    · -- the recorder is never joined
      cases all
      rw [recorder_blocks sound (threads .recording)]
      exact flow

theorem Flow.start (flow : Flow config snapshot updates trades app history) :
    Flow config snapshot updates trades app.start history := by
  rw [Application.start]
  split
  next => exact flow
  next => exact { flow with }

theorem Flow.stop (flow : Flow config snapshot updates trades app history) :
    Flow config snapshot updates trades app.stop history := by
  rw [Application.stop]
  split
  next => exact flow
  next => exact { flow with }

theorem Flow.executionReportStep (flow : Flow config snapshot updates trades app history) :
    Flow config snapshot updates trades app.executionReportStep history := by
  rw [Application.executionReportStep]
  split
  next => exact { flow with }
  next => exact flow

section
variable {Message : Type u} (parser : IMarketDataParser Message)

def parsedUpdates (messages : List Message) : List BookUpdate :=
  messages.flatMap fun message => queuedUpdates (parser message .monostate)

def parsedTrades (messages : List Message) : List Trade :=
  messages.flatMap fun message => queuedTrades (parser message .monostate)

/-- Every message that has been taken is where its flow says. -/
def Follows (config : Config) (snapshot : Snapshot) (messages : List Message) (app : Application) : Prop :=
  Sound app ∧ ∃ history, Flow config snapshot (parsedUpdates parser messages) (parsedTrades parser messages) app history

theorem step_follows (messages : List Message) (app : Application) (turn : Turn Message)
    (follows : Follows parser config snapshot messages app) :
    Follows parser config snapshot (messages ++ taken app turn) (step parser snapshot app turn) := by
  obtain ⟨sound, history, flow⟩ := follows
  refine ⟨(step_advances parser snapshot app turn sound).1, ?_⟩
  rw [parsedUpdates, parsedTrades, List.flatMap_append, List.flatMap_append, ← parsedUpdates, ← parsedTrades]
  have quiet : taken app turn = [] →
      (∃ history, Flow config snapshot (parsedUpdates parser messages) (parsedTrades parser messages)
        (step parser snapshot app turn) history) →
      ∃ history, Flow config snapshot
        (parsedUpdates parser messages ++
          (taken app turn).flatMap fun message => queuedUpdates (parser message .monostate))
        (parsedTrades parser messages ++
          (taken app turn).flatMap fun message => queuedTrades (parser message .monostate))
        (step parser snapshot app turn) history := by
    intro nothing moved
    rw [nothing, List.flatMap_nil, List.append_nil, List.flatMap_nil, List.append_nil]
    exact moved
  cases turn with
  | receive message => exact ⟨history, flow.receive parser message⟩
  | start => exact quiet rfl ⟨history, flow.start⟩
  | stop => exact quiet rfl ⟨history, flow.stop⟩
  | main => exact quiet rfl ⟨history, flow.mainStep sound⟩
  | source => exact quiet rfl ⟨history, flow.source⟩
  | bookBuilder now => exact quiet rfl (flow.bookBuilderStep now)
  | strategy => exact quiet rfl flow.strategyStep
  | execution => exact quiet rfl flow.executionStep
  | recording => exact quiet rfl flow.recordingStep
  | trade => exact quiet rfl flow.tradeStep
  | executionReport => exact quiet rfl ⟨history, flow.executionReportStep⟩

/-- The messages that the handler gets in a run. -/
def received (config : Config) (snapshot : Snapshot) (turns : List (Turn Message)) : List Message :=
  Runs.emitted (step parser snapshot) taken (construct config) turns

theorem reached_follows (config : Config) (snapshot : Snapshot) (turns : List (Turn Message)) :
    Follows parser config snapshot (received parser config snapshot turns) (reached parser snapshot config turns) := by
  have start : Follows parser config snapshot [] (construct config) :=
    ⟨construct_sound config, {}, construct_flow config snapshot⟩
  exact Runs.invariant_emitted (step_follows parser) start turns

end

end TradingCore.Proofs.ApplicationFlow
