import TradingCore.Execution.Model
import TradingCore.Foundation.Runs
import TradingCore.Strategy.ImbalanceStrategy

/-! Signals become order requests for the execution thread. -/

namespace TradingCore

/-- The execution queue is only pushed to here and is modelled by what was
pushed on it. -/
structure StrategyExecutor where
  executionQueue : List ExecutionWorkItem := []
  orderQuantity : Quantity := {}
deriving DecidableEq, Repr

def StrategyExecutor.execute (executor : StrategyExecutor) (signal : Signal) (event : MarketEvent) :
    StrategyExecutor :=
  if signal = .none then executor
  else
    let side := if signal = .buy then Side.buy else Side.sell
    let price := if signal = .buy then event.bestAsk else event.bestBid
    let request : OrderRequest := {
      instrument := event.instrument
      side
      type := .limit
      price
      quantity := executor.orderQuantity }
    { executor with executionQueue := executor.executionQueue ++ [.request request] }

structure StrategyModule where
  strategy : ImbalanceStrategy := {}
  executor : StrategyExecutor := {}
deriving DecidableEq, Repr

namespace StrategyModule

def construct (strategyConfig : StrategyConfig) : StrategyModule where
  strategy := {
    thresholdNumerator := strategyConfig.thresholdNumerator
    thresholdDenominator := strategyConfig.thresholdDenominator }
  executor := { orderQuantity := strategyConfig.orderQuantity }

def onEvent (module : StrategyModule) (event : MarketEvent) : StrategyModule :=
  let signal := module.strategy.evaluate event
  { module with executor := module.executor.execute signal event }

/-- The loop over the events popped until the queue is closed and drained. -/
def run (module : StrategyModule) (events : List MarketEvent) : StrategyModule :=
  Runs.after onEvent module events

end StrategyModule

end TradingCore
