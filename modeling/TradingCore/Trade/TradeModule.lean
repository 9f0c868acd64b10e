import TradingCore.Config
import TradingCore.MarketData.Model

/-! The trades of one instrument are counted as they are popped. -/

namespace TradingCore

structure TradeProcessor where
  instrument : InstrumentId := 0
  lastTrade : Trade := {}
  buyVolume : Quantity := {}
  sellVolume : Quantity := {}
  tradeCount : Nat := 0
deriving DecidableEq, Repr

def TradeProcessor.onTrade (processor : TradeProcessor) (trade : Trade) : TradeProcessor :=
  if trade.instrument ≠ processor.instrument then processor
  else
    let processor := { processor with lastTrade := trade }
    let processor :=
      if trade.side = .buy then { processor with buyVolume := processor.buyVolume + trade.quantity }
      else { processor with sellVolume := processor.sellVolume + trade.quantity }
    { processor with tradeCount := processor.tradeCount + 1 }

structure TradeModule where
  tradeProcessor : TradeProcessor := {}
deriving DecidableEq, Repr

def TradeModule.construct (config : Config) : TradeModule where
  tradeProcessor := { instrument := config.instrument }

/-- The body of the loop for one trade. -/
def TradeModule.onTrade (module : TradeModule) (trade : Trade) : TradeModule :=
  { module with tradeProcessor := module.tradeProcessor.onTrade trade }

end TradingCore
