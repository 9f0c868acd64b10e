import TradingCore.Core.Types

/-! The application configuration, independent of the format it is read from.
Exchange endpoints and the recording directory are left out: no modelled
component reads them. -/

namespace TradingCore

/-- A zero limit is disabled. -/
structure RiskLimits where
  maxOrderQuantity : Quantity := {}
  maxPositionQuantity : Quantity := {}
  maxNotional : Price := {}
deriving DecidableEq, Repr

structure OrderBookConfig where
  depthValue : Nat := 500
deriving DecidableEq, Repr

structure StrategyConfig where
  orderQuantity : Quantity := { raw := 100000000 }
  thresholdNumerator : Int := 7
  thresholdDenominator : Int := 10
deriving DecidableEq, Repr

/-- The check of the configuration loader. -/
def isValidStrategyConfig (strategy : StrategyConfig) : Prop :=
  0 < strategy.thresholdDenominator ∧
    0 ≤ strategy.thresholdNumerator ∧
    strategy.thresholdNumerator ≤ strategy.thresholdDenominator

instance (strategy : StrategyConfig) : Decidable (isValidStrategyConfig strategy) :=
  inferInstanceAs (Decidable (_ ∧ _ ∧ _))

structure Config where
  instrument : InstrumentId := 0
  strategy : StrategyConfig := {}
  orderBook : OrderBookConfig := {}
  riskLimits : RiskLimits := {}
deriving DecidableEq, Repr

end TradingCore
