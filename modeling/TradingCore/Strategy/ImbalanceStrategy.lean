import TradingCore.Config
import TradingCore.MarketData.Model

/-! The strategy compares the best bid quantity with the best ask quantity. Its
128-bit products cannot overflow, and are exact here. -/

namespace TradingCore

inductive Signal where
  | none
  | buy
  | sell
deriving DecidableEq, Repr

structure ImbalanceStrategy where
  thresholdNumerator : Int := 7
  thresholdDenominator : Int := 10
deriving DecidableEq, Repr

def ImbalanceStrategy.evaluate (strategy : ImbalanceStrategy) (event : MarketEvent) : Signal :=
  let bidQuantity := event.bestBidQuantity.raw
  let askQuantity := event.bestAskQuantity.raw
  let totalQuantity := bidQuantity + askQuantity
  if totalQuantity ≤ 0 then .none
  else
    let difference := bidQuantity - askQuantity
    if 0 < difference then
      if totalQuantity * strategy.thresholdNumerator ≤ difference * strategy.thresholdDenominator then .buy else .none
    else if difference < 0 then
      let absoluteDifference := -difference
      if totalQuantity * strategy.thresholdNumerator ≤ absoluteDifference * strategy.thresholdDenominator then .sell
      else .none
    else .none

end TradingCore
