import TradingCore.MarketData.Model
import TradingCore.Utilities.StdString

/-! The text format of book updates: fields between commas, first those of the
update and then side, price and quantity of each level. -/

namespace TradingCore

open Utilities

/-- An integer type, as far as `std::from_chars` looks at it. -/
structure IntegerType where
  signed : Bool
  lowest : Int
  highest : Int

namespace IntegerType

def uint32 : IntegerType := ⟨false, 0, 2 ^ 32 - 1⟩
def uint64 : IntegerType := ⟨false, 0, 2 ^ 64 - 1⟩
def int64 : IntegerType := ⟨true, -2 ^ 63, 2 ^ 63 - 1⟩

end IntegerType

/-- The number at the front of a text and what follows it. Nothing stands for
both errors, no digits and out of range. -/
def fromChars (type : IntegerType) (str : StdString) : Option (Int × StdString) :=
  let negative := type.signed ∧ str.head? = some '-'
  let unsigned := if negative then str.tail else str
  let digits := unsigned.takeWhile Char.isDigit
  let magnitude : Int := Nat.ofDigitChars 10 digits 0
  let value := if negative then -magnitude else magnitude
  if digits = [] ∨ value < type.lowest ∨ type.highest < value then none
  else some (value, unsigned.dropWhile Char.isDigit)

/-- Writes the number that a text begins with, and tells whether that is all of
the text. -/
def parseNumber {T : Type} (type : IntegerType) (convert : Int → T) (str : StdString) (out : T) : Bool × T :=
  if str.isEmpty then (false, out)
  else
    match fromChars type str with
    | none => (false, out)
    | some (value, rest) => (rest.isEmpty, convert value)

structure TestMarketDataParser where
  bookUpdatesCached : BookUpdate := {}

namespace TestMarketDataParser

def buyField : StdString := ['B', 'u', 'y']
def sellField : StdString := ['S', 'e', 'l', 'l']

def setSide (field : StdString) : Option Side :=
  if field = buyField then some .buy else if field = sellField then some .sell else none

/-- The loop over the fields of the levels. A level is there before its fields
are looked at; one or two fields at the end are not. -/
def parseLevels (bookUpdate : BookUpdate) : List StdString → ParseResult × BookUpdate
  | sideField :: priceField :: quantityField :: rest =>
    let level (update : PriceLevelUpdate) := { bookUpdate with updates := bookUpdate.updates ++ [update] }
    match setSide sideField with
    | none => (.invalidSide, level {})
    | some side =>
      let (parsed, price) := parseNumber .int64 id priceField 0
      if ¬ parsed then (.invalidPrice, level { side })
      else
        let (parsed, quantity) := parseNumber .int64 id quantityField 0
        if ¬ parsed then (.invalidQuantity, level { side, price := ⟨price⟩ })
        else parseLevels (level { side, price := ⟨price⟩, quantity := ⟨quantity⟩ }) rest
  | _ => (.success, bookUpdate)

def parseBookUpdate (data : StdString) (bookUpdate : BookUpdate) : ParseResult × BookUpdate :=
  if data.isEmpty then (.emptyMessage, bookUpdate)
  else
    let bookUpdate : BookUpdate := {}
    match data.splitOn ',' with
    | instrumentField :: firstField :: lastField :: timestampField :: levels =>
      let (parsed, instrument) := parseNumber .uint32 UInt32.ofInt instrumentField bookUpdate.instrument
      let bookUpdate := { bookUpdate with instrument }
      if ¬ parsed then (.invalidInstrument, bookUpdate)
      else
        let (parsed, first) := parseNumber .uint64 UInt64.ofInt firstField bookUpdate.sequenceRange.first
        let bookUpdate := { bookUpdate with sequenceRange := { bookUpdate.sequenceRange with first } }
        if ¬ parsed then (.invalidSequence, bookUpdate)
        else
          let (parsed, last) := parseNumber .uint64 UInt64.ofInt lastField bookUpdate.sequenceRange.last
          let bookUpdate := { bookUpdate with sequenceRange := { bookUpdate.sequenceRange with last } }
          if ¬ parsed then (.invalidSequence, bookUpdate)
          else
            let (parsed, value) := parseNumber .int64 id timestampField 0
            if ¬ parsed then (.invalidTimestamp, bookUpdate)
            else parseLevels { bookUpdate with exchangeTimestamp := UInt64.ofInt value } levels
    | _ => (.invalidMessage, bookUpdate)

/-- The cache is a mutable member; what is in the item before is replaced. -/
def parse (parser : TestMarketDataParser) (message : StdString) (_marketDataItem : MarketDataItem) :
    ParseResult × MarketDataItem × TestMarketDataParser :=
  let (result, bookUpdatesCached) := parseBookUpdate message parser.bookUpdatesCached
  if result ≠ .success then (result, .monostate, { bookUpdatesCached })
  else (.success, .bookUpdate bookUpdatesCached, { bookUpdatesCached })

end TestMarketDataParser

end TradingCore
