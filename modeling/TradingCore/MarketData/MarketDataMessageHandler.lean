import TradingCore.Core.Metrics
import TradingCore.Foundation.Runs
import TradingCore.MarketData.Model

/-! Raw messages are parsed one by one, and what they carry is queued for the
book builder or for the trade processor. -/

universe u

namespace TradingCore

/-- A parser is an interface: it gets the message and the item to fill, and
leaves the item as it likes. -/
abbrev IMarketDataParser (Message : Type u) := Message → MarketDataItem → ParseResult × MarketDataItem

/-- Both queues are only pushed to and are modelled by what was pushed. -/
structure MarketDataMessageHandler where
  marketDataItem : MarketDataItem := .monostate
  bookUpdateQueue : List BookUpdate := []
  tradeQueue : List Trade := []
  metrics : Metrics := {}

namespace MarketDataMessageHandler
variable {Message : Type u}

def increment (handler : MarketDataMessageHandler) (type : MetricType) : MarketDataMessageHandler :=
  { handler with metrics := handler.metrics.increment type }

def deliver (handler : MarketDataMessageHandler) : MarketDataMessageHandler :=
  match handler.marketDataItem with
  | .monostate => handler
  | .bookUpdate bookUpdate =>
    if ¬ bookUpdate.empty then
      { handler with
        bookUpdateQueue := handler.bookUpdateQueue ++ [bookUpdate]
        -- the levels have been moved out of the item
        marketDataItem := .bookUpdate { bookUpdate with updates := [] } }
    else handler
  | .trades trades => { handler with tradeQueue := handler.tradeQueue ++ trades }

def onMessage (parser : IMarketDataParser Message) (handler : MarketDataMessageHandler) (message : Message) :
    MarketDataMessageHandler :=
  let handler := { handler with marketDataItem := .monostate }
  let (result, marketDataItem) := parser message handler.marketDataItem
  let handler := { handler with marketDataItem }
  if result ≠ .success then handler.increment .marketDataParseErrors
  else (handler.increment .marketDataUpdates).deliver

end MarketDataMessageHandler

end TradingCore
