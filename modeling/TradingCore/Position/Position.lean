import TradingCore.Core.Types

/-! The signed position of one instrument and its average entry price. The
realised-PnL field of the source is never written and is left out. -/

namespace TradingCore

def Side.signed (side : Side) (quantity : Quantity) : Quantity :=
  match side with
  | .buy => quantity
  | .sell => ⟨-quantity.raw⟩

structure Position where
  instrument : InstrumentId := 0
  currentQuantity : Quantity := {}
  averageEntryPrice : Price := {}
deriving DecidableEq, Repr

namespace Position

abbrev isLong (position : Position) : Prop := position.currentQuantity.isPositive
abbrev isShort (position : Position) : Prop := position.currentQuantity.isNegative
abbrev isFlat (position : Position) : Prop := position.currentQuantity.isZero

def absoluteCurrentQuantity (position : Position) : Int :=
  if position.currentQuantity.isNegative then -position.currentQuantity.raw else position.currentQuantity.raw

def totalQuantity (position : Position) (quantity : Quantity) : Int :=
  position.absoluteCurrentQuantity + quantity.raw

def weightedPrice (position : Position) (price : Price) (quantity : Quantity) : Int :=
  position.averageEntryPrice.raw * position.absoluteCurrentQuantity + price.raw * quantity.raw

def sameDirection (position : Position) (side : Side) (quantity : Quantity) : Prop :=
  position.currentQuantity.isPositive ↔ (side.signed quantity).isPositive

instance (position : Position) (side : Side) (quantity : Quantity) :
    Decidable (position.sameDirection side quantity) :=
  inferInstanceAs (Decidable (_ ↔ _))

def applyTrade (position : Position) (side : Side) (price : Price) (quantity : Quantity) : Position :=
  if quantity.isZero then position
  else
    let signedQuantity := side.signed quantity
    if position.currentQuantity.isZero then
      { position with currentQuantity := signedQuantity, averageEntryPrice := price }
    else if position.sameDirection side quantity then
      let average := (position.weightedPrice price quantity).tdiv (position.totalQuantity quantity)
      { position with
        currentQuantity := position.currentQuantity + signedQuantity
        averageEntryPrice := ⟨toInt64 average⟩ }
    else if quantity.raw < position.absoluteCurrentQuantity then
      { position with currentQuantity := position.currentQuantity + signedQuantity }
    else if quantity.raw = position.absoluteCurrentQuantity then
      { position with currentQuantity := {}, averageEntryPrice := {} }
    else
      { position with currentQuantity := position.currentQuantity + signedQuantity, averageEntryPrice := price }

end Position

end TradingCore
