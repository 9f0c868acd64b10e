import TradingCore.Common.ConditionVariableQueue
import TradingCore.OrderBook.BookBuilder
import TradingCore.Strategy.StrategyModule

/-! The threads from the book updates to the order requests, step by step. A
thread feeds the update queue and closes it. The builder thread runs
`BookBuilderModule::run` and the strategy thread `StrategyModule::run`. Each
operation on a shared queue is a step of its own, and what a thread does between
two of them touches nothing shared and is one step. -/

namespace TradingCore

/-- One of the two pushes of `MarketEventDispatcher::onMarketEvent`. -/
inductive EventPush where
  | strategy (event : MarketEvent)
  | recording (event : MarketEvent)
deriving DecidableEq, Repr

inductive BuilderThread where
  | starting
  | waiting
  | handling (update : BookUpdate)
  | pushing (pushes : List EventPush)
  | ended
deriving DecidableEq, Repr

inductive StrategyThread where
  | waiting
  | handling (event : MarketEvent)
  | ended
deriving DecidableEq, Repr

structure Pipeline where
  /-- what the feeding thread has yet to push -/
  feed : List BookUpdate := []
  bookUpdateQueue : ConditionVariableQueue BookUpdate := {}
  builderThread : BuilderThread := .starting
  bookBuilderModule : BookBuilderModule := {}
  strategyEventQueue : ConditionVariableQueue MarketEvent := {}
  recordingQueue : List RecordingEvent := []
  strategyThread : StrategyThread := .waiting
  strategyModule : StrategyModule := {}

namespace Pipeline

def construct (config : Config) (feed : List BookUpdate) : Pipeline where
  feed
  bookBuilderModule := .construct config
  strategyModule := .construct config.strategy

/-- Whose step is next. The builder reads its clock in its steps. -/
inductive Turn where
  | feeder
  | builder (now : Timestamp)
  | closer
  | strategy
deriving DecidableEq, Repr

def feederStep (pipeline : Pipeline) : Pipeline :=
  match pipeline.feed with
  | [] => { pipeline with bookUpdateQueue := pipeline.bookUpdateQueue.close }
  | update :: feed => { pipeline with feed, bookUpdateQueue := pipeline.bookUpdateQueue.push update }

/-- The part of `run` before its loop. -/
def applySnapshot (pipeline : Pipeline) (snapshot : Snapshot) : Pipeline :=
  { pipeline with
    bookBuilderModule := pipeline.bookBuilderModule.run snapshot []
    builderThread := if (pipeline.bookBuilderModule.bookBuilder.applySnapshot snapshot).1 then .waiting else .ended }

/-- The dispatcher of a call starts empty here, so that what it holds after the
call is what the thread pushes next on the shared queues. -/
def handleUpdate (pipeline : Pipeline) (now : Timestamp) (update : BookUpdate) : Pipeline :=
  let bookBuilder := { pipeline.bookBuilderModule.bookBuilder with eventDispatcher := {} }.onBookUpdate now update
  { pipeline with
    bookBuilderModule := { pipeline.bookBuilderModule with bookBuilder }
    builderThread := .pushing
      (bookBuilder.eventDispatcher.strategyQueue.flatMap fun event => [.strategy event, .recording event]) }

def push (pipeline : Pipeline) : EventPush → Pipeline
  | .strategy event => { pipeline with strategyEventQueue := pipeline.strategyEventQueue.push event }
  | .recording event => { pipeline with recordingQueue := pipeline.recordingQueue ++ [.marketEvent event] }

def builderStep (pipeline : Pipeline) (snapshot : Snapshot) (now : Timestamp) : Pipeline :=
  match pipeline.builderThread with
  | .starting => pipeline.applySnapshot snapshot
  | .waiting =>
    if pipeline.bookUpdateQueue.ready then
      let (popped, bookUpdateQueue) := pipeline.bookUpdateQueue.waitPop
      { pipeline with bookUpdateQueue, builderThread := popped.elim .ended .handling }
    else pipeline
  | .handling update => pipeline.handleUpdate now update
  | .pushing [] => { pipeline with builderThread := .waiting }
  | .pushing (first :: pushes) => { pipeline.push first with builderThread := .pushing pushes }
  | .ended => pipeline

/-- The queue of the strategy is closed once the builder thread has ended. -/
def closerStep (pipeline : Pipeline) : Pipeline :=
  if pipeline.builderThread = .ended then
    { pipeline with strategyEventQueue := pipeline.strategyEventQueue.close }
  else pipeline

def strategyStep (pipeline : Pipeline) : Pipeline :=
  match pipeline.strategyThread with
  | .waiting =>
    if pipeline.strategyEventQueue.ready then
      let (popped, strategyEventQueue) := pipeline.strategyEventQueue.waitPop
      { pipeline with strategyEventQueue, strategyThread := popped.elim .ended .handling }
    else pipeline
  | .handling event =>
    { pipeline with strategyModule := pipeline.strategyModule.onEvent event, strategyThread := .waiting }
  | .ended => pipeline

/-- A thread that waits or has ended leaves everything as it is. -/
def step (snapshot : Snapshot) (pipeline : Pipeline) : Turn → Pipeline
  | .feeder => pipeline.feederStep
  | .builder now => pipeline.builderStep snapshot now
  | .closer => pipeline.closerStep
  | .strategy => pipeline.strategyStep

/-- What the strategy has pushed. -/
def executionQueue (pipeline : Pipeline) : List ExecutionWorkItem := pipeline.strategyModule.executor.executionQueue

def ended (pipeline : Pipeline) : Prop := pipeline.builderThread = .ended ∧ pipeline.strategyThread = .ended

end Pipeline

end TradingCore
