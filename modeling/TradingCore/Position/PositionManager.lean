import TradingCore.Position.Position
import TradingCore.Execution.Model

/-! One position per traded instrument. -/

namespace TradingCore

open Std

structure PositionManager where
  positions : ExtTreeMap InstrumentId Position compare := ∅

namespace PositionManager

/-- The body both entry points share once their guard has passed:
`try_emplace` finds the instrument's position or starts a flat one. -/
def trade (manager : PositionManager) (instrument : InstrumentId) (side : Side) (price : Price)
    (quantity : Quantity) : PositionManager :=
  let position := manager.positions[instrument]?.getD { instrument }
  { manager with positions := manager.positions.insert instrument (position.applyTrade side price quantity) }

def applyExecution (manager : PositionManager) (report : ExecutionReport) : Bool × PositionManager :=
  if report.execType ≠ .trade ∨ ¬ report.quantity.isPositive then (false, manager)
  else (true, manager.trade report.instrument report.side report.price report.quantity)

def applyTrade (manager : PositionManager) (instrument : InstrumentId) (side : Side) (price : Price)
    (quantity : Quantity) : Bool × PositionManager :=
  if ¬ quantity.isPositive then (false, manager)
  else (true, manager.trade instrument side price quantity)

def find (manager : PositionManager) (instrument : InstrumentId) : Option Position :=
  manager.positions[instrument]?

def emptyPosition : Position := {}

def getOrDefault (manager : PositionManager) (instrument : InstrumentId) : Position :=
  (manager.find instrument).getD emptyPosition

inductive Call where
  | applyTrade (instrument : InstrumentId) (side : Side) (price : Price) (quantity : Quantity)
  | applyExecution (report : ExecutionReport)
deriving DecidableEq, Repr

def answer (manager : PositionManager) : Call → Bool × PositionManager
  | .applyTrade instrument side price quantity => manager.applyTrade instrument side price quantity
  | .applyExecution report => manager.applyExecution report

def step (manager : PositionManager) (call : Call) : PositionManager := (manager.answer call).2

end PositionManager

end TradingCore
