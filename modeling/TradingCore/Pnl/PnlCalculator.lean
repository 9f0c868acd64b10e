import TradingCore.Execution.Model
import TradingCore.Position.Position

/-! Realised and unrealised profit. Intermediates are `__int128_t` and exact;
the final conversion to a price narrows to `int64_t`. -/

namespace TradingCore

structure PnL where
  realized : Price := {}
  unrealized : Price := {}
deriving DecidableEq, Repr

def PnL.total (pnl : PnL) : Price := pnl.realized + pnl.unrealized

namespace PnLCalculator

def absolute (value : Int) : Int := if value < 0 then -value else value

def fromProduct (priceDifference quantity : Int) : Price :=
  ⟨toInt64 ((priceDifference * quantity).tdiv ScaledValue.Scale)⟩

def calculateRealized (position : Position) (report : ExecutionReport) : Price :=
  if report.execType ≠ .trade ∨ report.quantity.isZero then {}
  else
    let positionQuantity := position.currentQuantity.raw
    let executionQuantity := report.quantity.raw
    if positionQuantity = 0 then {}
    else if 0 < positionQuantity ∧ report.side = .sell then
      -- the smaller quantity is converted to `int64_t` in this branch
      let closedQuantity := toInt64 (min positionQuantity executionQuantity)
      fromProduct (report.price.raw - position.averageEntryPrice.raw) closedQuantity
    else if positionQuantity < 0 ∧ report.side = .buy then
      let closedQuantity := min (absolute positionQuantity) executionQuantity
      fromProduct (position.averageEntryPrice.raw - report.price.raw) closedQuantity
    else {}

def calculateUnrealized (position : Position) (marketEvent : MarketEvent) : Price :=
  let positionQuantity := position.currentQuantity.raw
  if positionQuantity = 0 then {}
  else if 0 < positionQuantity then
    if marketEvent.bestBidQuantity.isZero then {}
    else fromProduct (marketEvent.bestBid.raw - position.averageEntryPrice.raw) positionQuantity
  else if marketEvent.bestAskQuantity.isZero then {}
  else fromProduct (position.averageEntryPrice.raw - marketEvent.bestAsk.raw) (absolute positionQuantity)

def calculate (position : Position) (report : ExecutionReport) (marketEvent : MarketEvent) : PnL where
  realized := calculateRealized position report
  unrealized := calculateUnrealized position marketEvent

end PnLCalculator

end TradingCore
