import TradingCore.Core.Types

/-! Market-data messages: levels, snapshots, incremental updates, trades, what
a parser makes of a raw message, and the top-of-book events derived from the
book. -/

namespace TradingCore

structure BookLevel where
  price : Price
  quantity : Quantity
deriving DecidableEq, Repr

/-- A zero quantity removes the level, any other sets it. -/
structure PriceLevelUpdate where
  side : Side := .buy
  price : Price := {}
  quantity : Quantity := {}
deriving DecidableEq, Repr

structure SequenceRange where
  first : SequenceNumber := 0
  last : SequenceNumber := 0
deriving DecidableEq, Repr

structure BookUpdate where
  instrument : InstrumentId := 0
  sequenceRange : SequenceRange := {}
  exchangeTimestamp : Timestamp := 0
  updates : List PriceLevelUpdate := []
deriving DecidableEq, Repr

structure Snapshot where
  instrument : InstrumentId := 0
  sequence : SequenceNumber := 0
  bids : List BookLevel := []
  asks : List BookLevel := []
deriving DecidableEq, Repr

/-- `empty` looks at the levels alone, whatever sequence range they come with. -/
def BookUpdate.empty (update : BookUpdate) : Bool := update.updates.isEmpty

structure Trade where
  instrument : InstrumentId := 0
  sequence : SequenceNumber := 0
  exchangeTimestamp : Timestamp := 0
  price : Price := {}
  quantity : Quantity := {}
  side : Side := .buy
deriving DecidableEq, Repr

abbrev Trades := List Trade

inductive MarketDataItem where
  | monostate
  | bookUpdate (bookUpdate : BookUpdate)
  | trades (trades : Trades)
deriving DecidableEq, Repr

inductive ParseResult where
  | success
  | emptyMessage
  | invalidMessage
  | invalidSide
  | unsupportedMessage
  | missingField
  | invalidField
  | invalidInstrument
  | invalidSequence
  | invalidTimestamp
  | invalidPrice
  | invalidQuantity
deriving DecidableEq, Repr

structure MarketEvent where
  instrument : InstrumentId := 0
  sequence : SequenceNumber := 0
  exchangeTimestamp : Timestamp := 0
  receiveTimestamp : Timestamp := 0
  bestBid : Price := {}
  bestBidQuantity : Quantity := {}
  bestAsk : Price := {}
  bestAskQuantity : Quantity := {}
deriving DecidableEq, Repr

end TradingCore
