import TradingCore.Core.ScaledValue

/-! Identifiers and enumerations shared by every component. Identifiers and
sequence numbers are unsigned, and their arithmetic wraps. -/

namespace TradingCore

abbrev InstrumentId := UInt32
abbrev OrderId := UInt64
abbrev ExchangeOrderId := UInt64
abbrev SequenceNumber := UInt64

abbrev Timestamp := UInt64

inductive Side where
  | buy
  | sell
deriving DecidableEq, Repr

inductive OrderType where
  | market
  | limit
deriving DecidableEq, Repr

inductive OrderStatus where
  | new
  | partiallyFilled
  | filled
  | cancelled
  | rejected
deriving DecidableEq, Repr

inductive ExecType where
  | new
  | trade
  | cancel
  | reject
deriving DecidableEq, Repr

end TradingCore
