import TradingCore.MarketData.Model

/-! The local order book: one sorted map of levels for each side, best level
first, with a limit on how many levels an update may leave on a side. -/

namespace TradingCore

open Std

def greater (first second : Price) : Ordering := compare second first

def less (first second : Price) : Ordering := compare first second

instance : TransCmp greater := inferInstanceAs (TransCmp fun first second : Price => compare second first)
instance : LawfulEqCmp greater := inferInstanceAs (LawfulEqCmp fun first second : Price => compare second first)
instance : TransCmp less := inferInstanceAs (TransCmp fun first second : Price => compare first second)
instance : LawfulEqCmp less := inferInstanceAs (LawfulEqCmp fun first second : Price => compare first second)

/-- A `std::flat_map` of quantities by price. -/
abbrev Levels (order : Price → Price → Ordering) [TransCmp order] := ExtTreeMap Price Quantity order

abbrev BidLevels := Levels greater
abbrev AskLevels := Levels less

section
variable {order : Price → Price → Ordering} [TransCmp order]

def applyBookUpdate (levels : Levels order) (update : PriceLevelUpdate) (depth : Nat) : Bool × Levels order :=
  if update.quantity.isZero then
    (levels.contains update.price, levels.erase update.price)
  else if update.price ∈ levels then
    (true, levels.insert update.price update.quantity)
  else if levels.size < depth then
    (true, levels.insert update.price update.quantity)
  else
    match levels.toList.getLast? with
    -- decrementing the end of an empty side is undefined; only a zero depth gets here
    | none => (false, levels)
    | some worst =>
      if order update.price worst.1 = .lt then
        (true, (levels.erase worst.1).insert update.price update.quantity)
      else
        (false, levels)

def getVolume (levels : Levels order) (price : Price) : Quantity :=
  levels[price]?.getD {}

def getBestPrice (levels : Levels order) : Option BookLevel :=
  levels.toList.head?.map fun (price, quantity) => { price, quantity }

/-- The loop of `setState` over one side: `emplace` keeps the first level
listed for a price. -/
def emplaceAll (levels : List BookLevel) : Levels order :=
  levels.foldl (fun side level => side.insertIfNew level.price level.quantity) ∅

end

structure OrderBook where
  depthValue : Nat := 500
  sequenceNumber : SequenceNumber := 0
  bids : BidLevels := ∅
  asks : AskLevels := ∅

namespace OrderBook

def clear (book : OrderBook) : OrderBook :=
  { book with sequenceNumber := 0, bids := ∅, asks := ∅ }

def setState (book : OrderBook) (sequence : SequenceNumber) (snapBids snapAsks : List BookLevel) : OrderBook :=
  { book with sequenceNumber := sequence, bids := emplaceAll snapBids, asks := emplaceAll snapAsks }

def applyUpdate (book : OrderBook) (levelUpdate : PriceLevelUpdate) : Bool × OrderBook :=
  match levelUpdate.side with
  | .buy =>
    let (applied, bids) := applyBookUpdate book.bids levelUpdate book.depthValue
    (applied, { book with bids })
  | .sell =>
    let (applied, asks) := applyBookUpdate book.asks levelUpdate book.depthValue
    (applied, { book with asks })

def sequence (book : OrderBook) : SequenceNumber := book.sequenceNumber

def setSequence (book : OrderBook) (sequence : SequenceNumber) : OrderBook :=
  { book with sequenceNumber := sequence }

def bestBid (book : OrderBook) : Option BookLevel := getBestPrice book.bids
def bestAsk (book : OrderBook) : Option BookLevel := getBestPrice book.asks
def bidVolume (book : OrderBook) (price : Price) : Quantity := getVolume book.bids price
def askVolume (book : OrderBook) (price : Price) : Quantity := getVolume book.asks price
def bidSize (book : OrderBook) : Nat := book.bids.size
def askSize (book : OrderBook) : Nat := book.asks.size

inductive Call where
  | setState (sequence : SequenceNumber) (snapBids snapAsks : List BookLevel)
  | applyUpdate (levelUpdate : PriceLevelUpdate)
  | clear
deriving DecidableEq, Repr

def step (book : OrderBook) : Call → OrderBook
  | .setState sequence snapBids snapAsks => book.setState sequence snapBids snapAsks
  | .applyUpdate levelUpdate => (book.applyUpdate levelUpdate).2
  | .clear => book.clear

end OrderBook

end TradingCore
