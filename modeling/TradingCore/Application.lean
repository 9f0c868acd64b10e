import TradingCore.Common.Worker
import TradingCore.Execution.ExecutionModule
import TradingCore.MarketData.MarketDataMessageHandler
import TradingCore.Pipeline
import TradingCore.Recording.RecordingModule
import TradingCore.Trade.TradeModule

/-! The application with all its threads: the caller of `start` and `stop`, the
market-data source and the six workers. As in the pipeline, each operation on
a shared queue is a step of its own. -/

universe u

namespace TradingCore

inductive ApplicationModule where
  | marketData
  | strategy
  | bookBuilder
  | execution
  | executionReport
  | trade
  | recording
deriving DecidableEq, Repr

/-- Where the caller is, with the modules it has yet to start or to stop. -/
inductive MainThread where
  | idle
  | starting (modules : List ApplicationModule)
  | stopping (modules : List ApplicationModule)
deriving DecidableEq, Repr

/-- The thread of `ExecutionReportModule::run`. -/
inductive ReportThread where
  | starting
  | ended
deriving DecidableEq, Repr

/-- A push of the message handler. -/
inductive Delivery where
  | bookUpdate (update : BookUpdate)
  | trade (trade : Trade)
deriving DecidableEq, Repr

structure Application where
  running : Bool := false
  mainThread : MainThread := .idle
  bookUpdateQueue : ConditionVariableQueue BookUpdate := {}
  tradeQueue : ConditionVariableQueue Trade := {}
  strategyEventQueue : ConditionVariableQueue MarketEvent := {}
  recordingEventQueue : ConditionVariableQueue RecordingEvent := {}
  executionQueue : ConditionVariableQueue ExecutionWorkItem := {}
  marketDataSourceRunning : Bool := false
  messageHandler : MarketDataMessageHandler := {}
  /-- what the thread of the source has yet to push -/
  deliveries : List Delivery := []
  bookBuilderModule : BookBuilderModule := {}
  bookBuilderWorker : Worker BuilderThread := {}
  strategyModule : StrategyModule := {}
  strategyWorker : Worker (LoopThread MarketEvent) := {}
  executionModule : ExecutionModule := {}
  executionWorker : Worker (LoopThread ExecutionWorkItem) := {}
  recordingModule : RecordingModule := {}
  recordingWorker : Worker (LoopThread RecordingEvent) := {}
  executionReportSourceRunning : Bool := false
  executionReportWorker : Worker ReportThread := {}
  tradeModule : TradeModule := {}
  tradeWorker : Worker (LoopThread Trade) := {}

namespace Application

def construct (config : Config) : Application where
  bookBuilderModule := .construct config
  strategyModule := .construct config.strategy
  executionModule := .construct config
  tradeModule := .construct config

def startOrder : List ApplicationModule :=
  [.strategy, .bookBuilder, .execution, .executionReport, .trade, .recording, .marketData]

def stopOrder : List ApplicationModule :=
  [.marketData, .recording, .bookBuilder, .trade, .executionReport, .execution, .strategy]

def startModule (app : Application) : ApplicationModule → Application
  | .marketData => { app with marketDataSourceRunning := true }
  | .strategy => { app with strategyWorker := app.strategyWorker.start .waiting }
  | .bookBuilder => { app with bookBuilderWorker := app.bookBuilderWorker.start .starting }
  | .execution => { app with executionWorker := app.executionWorker.start .waiting }
  | .executionReport => { app with executionReportWorker := app.executionReportWorker.start .starting }
  | .trade => { app with tradeWorker := app.tradeWorker.start .waiting }
  | .recording => { app with recordingWorker := app.recordingWorker.start .waiting }

/-- The source only clears its flag, every other module joins its thread. -/
def stopModule (app : Application) : ApplicationModule → Option Application
  | .marketData => some { app with marketDataSourceRunning := false }
  | .strategy =>
    (app.strategyWorker.stop LoopThread.isEnded).map fun strategyWorker => { app with strategyWorker }
  | .bookBuilder =>
    (app.bookBuilderWorker.stop fun thread => thread = .ended).map fun bookBuilderWorker =>
      { app with bookBuilderWorker }
  | .execution =>
    (app.executionWorker.stop LoopThread.isEnded).map fun executionWorker => { app with executionWorker }
  | .executionReport =>
    (app.executionReportWorker.stop fun thread => thread = .ended).map fun executionReportWorker =>
      { app with executionReportWorker }
  | .trade => (app.tradeWorker.stop LoopThread.isEnded).map fun tradeWorker => { app with tradeWorker }
  | .recording =>
    (app.recordingWorker.stop LoopThread.isEnded).map fun recordingWorker => { app with recordingWorker }

def start (app : Application) : Application :=
  if app.mainThread ≠ .idle ∨ app.running then app
  else { app with running := true, mainThread := .starting startOrder }

def stop (app : Application) : Application :=
  if app.mainThread ≠ .idle ∨ ¬ app.running then app
  else { app with mainThread := .stopping stopOrder }

def mainStep (app : Application) : Application :=
  match app.mainThread with
  | .idle => app
  | .starting [] => { app with mainThread := .idle }
  | .starting (next :: modules) => { app.startModule next with mainThread := .starting modules }
  | .stopping [] => { app with running := false, mainThread := .idle }
  | .stopping (next :: modules) =>
    match app.stopModule next with
    | some stopped => { stopped with mainThread := .stopping modules }
    | none => app

/-- The handler gets a message while the source is running. The Binance source
does not connect to its endpoint yet and has none to hand on. -/
def receive {Message : Type u} (parser : IMarketDataParser Message) (app : Application) (message : Message) :
    Application :=
  if ¬ app.marketDataSourceRunning ∨ app.deliveries ≠ [] then app
  else
    let messageHandler := { app.messageHandler with bookUpdateQueue := [], tradeQueue := [] }.onMessage parser message
    { app with
      messageHandler
      deliveries := messageHandler.bookUpdateQueue.map .bookUpdate ++ messageHandler.tradeQueue.map .trade }

def sourceStep (app : Application) : Application :=
  match app.deliveries with
  | [] => app
  | .bookUpdate update :: deliveries =>
    { app with deliveries, bookUpdateQueue := app.bookUpdateQueue.push update }
  | .trade trade :: deliveries => { app with deliveries, tradeQueue := app.tradeQueue.push trade }

/-- The part of `run` before its loop. -/
def applySnapshot (app : Application) (snapshot : Snapshot) : Application :=
  let (applied, _) := app.bookBuilderModule.bookBuilder.applySnapshot snapshot
  { app with
    bookBuilderModule := app.bookBuilderModule.run snapshot []
    bookBuilderWorker := app.bookBuilderWorker.proceed (if applied then .waiting else .ended) }

/-- The dispatcher of a call starts empty, as in the pipeline. -/
def handleUpdate (app : Application) (now : Timestamp) (update : BookUpdate) : Application :=
  let bookBuilder := { app.bookBuilderModule.bookBuilder with eventDispatcher := {} }.onBookUpdate now update
  let pushes := bookBuilder.eventDispatcher.strategyQueue.flatMap fun event => [.strategy event, .recording event]
  { app with
    bookBuilderModule := { app.bookBuilderModule with bookBuilder }
    bookBuilderWorker := app.bookBuilderWorker.proceed (.pushing pushes) }

def push (app : Application) : EventPush → Application
  | .strategy event => { app with strategyEventQueue := app.strategyEventQueue.push event }
  | .recording event => { app with recordingEventQueue := app.recordingEventQueue.push (.marketEvent event) }

def bookBuilderStep (snapshot : Snapshot) (app : Application) (now : Timestamp) : Application :=
  match app.bookBuilderWorker.thread with
  | some .starting => app.applySnapshot snapshot
  | some .waiting =>
    if app.bookUpdateQueue.ready then
      let (popped, bookUpdateQueue) := app.bookUpdateQueue.waitPop
      { app with
        bookUpdateQueue
        bookBuilderWorker := app.bookBuilderWorker.proceed (popped.elim .ended .handling) }
    else app
  | some (.handling update) => app.handleUpdate now update
  | some (.pushing []) => { app with bookBuilderWorker := app.bookBuilderWorker.proceed .waiting }
  | some (.pushing (first :: pushes)) =>
    { app.push first with bookBuilderWorker := app.bookBuilderWorker.proceed (.pushing pushes) }
  | _ => app

/-- The executor of a pass starts with an empty queue, so that what it holds
afterwards is what the thread pushes on the shared one. -/
def strategyStep (app : Application) : Application :=
  match app.strategyWorker.thread with
  | some .waiting =>
    let (thread, strategyEventQueue) := LoopThread.pop app.strategyEventQueue
    { app with strategyEventQueue, strategyWorker := app.strategyWorker.proceed thread }
  | some (.handling event) =>
    let executor := { app.strategyModule.executor with executionQueue := [] }
    let strategyModule := { app.strategyModule with executor }.onEvent event
    { app with
      strategyModule
      strategyWorker := app.strategyWorker.proceed .waiting
      executionQueue := app.executionQueue.pushAll strategyModule.executor.executionQueue }
  | _ => app

/-- The only push of a pass is its first action. -/
def executionStep (app : Application) : Application :=
  match app.executionWorker.thread with
  | some .waiting =>
    let (thread, executionQueue) := LoopThread.pop app.executionQueue
    { app with executionQueue, executionWorker := app.executionWorker.proceed thread }
  | some (.handling workItem) =>
    let executionModule := { app.executionModule with recordingQueue := [] }.process workItem
    { app with
      executionModule
      executionWorker := app.executionWorker.proceed .waiting
      recordingEventQueue := app.recordingEventQueue.pushAll executionModule.recordingQueue }
  | _ => app

def recordingStep (app : Application) : Application :=
  match app.recordingWorker.thread with
  | some .waiting =>
    let (thread, recordingEventQueue) := LoopThread.pop app.recordingEventQueue
    { app with recordingEventQueue, recordingWorker := app.recordingWorker.proceed thread }
  | some (.handling event) =>
    { app with
      recordingModule := app.recordingModule.process event
      recordingWorker := app.recordingWorker.proceed .waiting }
  | _ => app

def tradeStep (app : Application) : Application :=
  match app.tradeWorker.thread with
  | some .waiting =>
    let (thread, tradeQueue) := LoopThread.pop app.tradeQueue
    { app with tradeQueue, tradeWorker := app.tradeWorker.proceed thread }
  | some (.handling trade) =>
    { app with
      tradeModule := app.tradeModule.onTrade trade
      tradeWorker := app.tradeWorker.proceed .waiting }
  | _ => app

/-- `run` starts the source, whose loop is never entered. -/
def executionReportStep (app : Application) : Application :=
  match app.executionReportWorker.thread with
  | some .starting =>
    { app with
      executionReportSourceRunning := true
      executionReportWorker := app.executionReportWorker.proceed .ended }
  | _ => app

/-- Whose step is next, the caller's calls and the messages included. -/
inductive Turn (Message : Type u) where
  | start
  | stop
  | main
  | receive (message : Message)
  | source
  | bookBuilder (now : Timestamp)
  | strategy
  | execution
  | recording
  | trade
  | executionReport
deriving DecidableEq, Repr

/-- A thread that waits, joins or has ended leaves everything as it is. -/
def step {Message : Type u} (parser : IMarketDataParser Message) (snapshot : Snapshot) (app : Application) :
    Turn Message → Application
  | .start => app.start
  | .stop => app.stop
  | .main => app.mainStep
  | .receive message => app.receive parser message
  | .source => app.sourceStep
  | .bookBuilder now => app.bookBuilderStep snapshot now
  | .strategy => app.strategyStep
  | .execution => app.executionStep
  | .recording => app.recordingStep
  | .trade => app.tradeStep
  | .executionReport => app.executionReportStep

end Application

end TradingCore
