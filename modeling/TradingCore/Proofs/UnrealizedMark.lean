import Mathlib.Tactic.LinearCombination
import Mathlib.Tactic.Ring
import TradingCore.Foundation.Truncation
import TradingCore.Pnl.PnlCalculator
import TradingCore.Proofs.PositionTrades

/-! The unrealized profit that comes with a trade. It is computed on the
position before the trade, and compared here with that of the position the
trade leaves open. -/

namespace TradingCore.Proofs.UnrealizedMark
open PositionTrades PnLCalculator

/-- A holding is valued at the price it could be traded back for. -/
def mark (event : MarketEvent) : Side → Price
  | .buy => event.bestBid
  | .sell => event.bestAsk

def opposite : Side → Side
  | .buy => .sell
  | .sell => .buy

/-- What a quantity taken on one side at a price has gained at the mark. -/
def gain (event : MarketEvent) (side : Side) (price : Price) (quantity : Int) : Int :=
  sign side * ((mark event side).raw - price.raw) * quantity

def holdingSide (position : Position) : Side := if 0 < position.currentQuantity.raw then .buy else .sell

/-- What the whole position has gained, before it is converted to a price. -/
def openGain (position : Position) (event : MarketEvent) : Int :=
  gain event (holdingSide position) position.averageEntryPrice (absolute position.currentQuantity.raw)

theorem openGain_eq (position : Position) (event : MarketEvent) :
    openGain position event =
      ((mark event (holdingSide position)).raw - position.averageEntryPrice.raw) * position.currentQuantity.raw := by
  rw [openGain, gain, holdingSide, absolute]
  by_cases long : 0 < position.currentQuantity.raw
  · rw [if_pos long, if_neg (by omega), sign, Int.one_mul]
  · rw [if_neg long, sign]
    split
    · ring
    · obtain flat : position.currentQuantity.raw = 0 := by omega
      rw [flat, Int.mul_zero, Int.mul_zero]

def markQuantity (event : MarketEvent) : Side → Quantity
  | .buy => event.bestBidQuantity
  | .sell => event.bestAskQuantity

/-- Where the side that marks the position is quoted, the code narrows the gain
of the position. -/
theorem calculateUnrealized_quoted {position : Position} {event : MarketEvent}
    (quoted : ¬ (markQuantity event (holdingSide position)).isZero) :
    calculateUnrealized position event = ⟨toInt64 ((openGain position event).tdiv ScaledValue.Scale)⟩ := by
  rw [holdingSide] at quoted
  rw [calculateUnrealized, openGain, gain, holdingSide]
  by_cases flat : position.currentQuantity.raw = 0
  · have none : absolute 0 = 0 := rfl
    rw [if_pos flat, flat, none, Int.mul_zero, Int.zero_tdiv]
    rfl
  · rw [if_neg flat]
    by_cases long : 0 < position.currentQuantity.raw
    · rw [if_pos long, markQuantity] at quoted
      rw [if_pos long, if_pos long, if_neg quoted, absolute, if_neg (by omega), fromProduct, sign, Int.one_mul, mark]
    · rw [if_neg long, markQuantity] at quoted
      rw [if_neg long, if_neg long, if_neg quoted, fromProduct, sign, mark, Int.neg_mul, Int.one_mul, Int.neg_sub]

theorem calculateUnrealized_unquoted {position : Position} {event : MarketEvent}
    (unquoted : (markQuantity event (holdingSide position)).isZero) : calculateUnrealized position event = {} := by
  rw [holdingSide] at unquoted
  rw [calculateUnrealized]
  by_cases flat : position.currentQuantity.raw = 0
  · rw [if_pos flat]
  · rw [if_neg flat]
    by_cases long : 0 < position.currentQuantity.raw
    · rw [if_pos long, markQuantity] at unquoted
      rw [if_pos long, if_pos unquoted]
    · rw [if_neg long, markQuantity] at unquoted
      rw [if_neg long, if_pos unquoted]

theorem calculateUnrealized_eq {event : MarketEvent} (bid : ¬ event.bestBidQuantity.isZero)
    (ask : ¬ event.bestAskQuantity.isZero) (position : Position) :
    calculateUnrealized position event = ⟨toInt64 ((openGain position event).tdiv ScaledValue.Scale)⟩ := by
  apply calculateUnrealized_quoted
  cases holdingSide position with
  | buy => exact bid
  | sell => exact ask

variable {position : Position} {event : MarketEvent} {side : Side} {price : Price} {quantity : Quantity}

theorem holdingSide_along (along : 0 < sign side * position.currentQuantity.raw) : holdingSide position = side := by
  rw [holdingSide]
  cases side with
  | buy =>
    rw [sign] at along
    exact if_pos (by omega)
  | sell =>
    rw [sign] at along
    exact if_neg (by omega)

theorem holdingSide_against (against : sign side * position.currentQuantity.raw < 0) :
    holdingSide position = opposite side := by
  apply holdingSide_along
  cases side with
  | buy =>
    rw [sign] at against
    rw [opposite, sign]
    omega
  | sell =>
    rw [sign] at against
    rw [opposite, sign]
    omega

theorem sign_opposite (side : Side) : sign (opposite side) = -sign side := by
  cases side <;> rfl

/-- The gain of a position that points the way of a trade, in terms of that
trade's side. -/
theorem openGain_along (along : 0 < sign side * position.currentQuantity.raw) :
    openGain position event =
      ((mark event side).raw - position.averageEntryPrice.raw) * position.currentQuantity.raw := by
  rw [openGain_eq, holdingSide_along along]

theorem openGain_against (against : sign side * position.currentQuantity.raw < 0) :
    openGain position event =
      ((mark event (opposite side)).raw - position.averageEntryPrice.raw) * position.currentQuantity.raw := by
  rw [openGain_eq, holdingSide_against against]

theorem openGain_opens (positive : quantity.isPositive) (opens : kind position side quantity = .opens) :
    openGain (position.applyTrade side price quantity) event = gain event side price quantity.raw := by
  have unit := PositionTrades.sign_mul_self side
  have along : 0 < sign side * (side.signed quantity).raw := by
    rw [signed_raw, ← Int.mul_assoc, unit, Int.one_mul]
    exact positive
  rw [applyTrade_opens positive opens, openGain_along along, signed_raw, gain]
  ring

/-- A growing position gains what the new quantity gains, and what the
truncation of its average price takes off the price paid. -/
theorem openGain_increases (positive : quantity.isPositive) (increases : kind position side quantity = .increases)
    (fits : FitsInt64 ((position.weightedPrice price quantity).tdiv (position.totalQuantity quantity))) :
    openGain (position.applyTrade side price quantity) event =
      openGain position event + gain event side price quantity.raw +
        sign side * (position.weightedPrice price quantity).tmod (position.totalQuantity quantity) := by
  have same := kind_increases increases
  have unit := PositionTrades.sign_mul_self side
  have along : 0 < sign side * (position.currentQuantity + side.signed quantity).raw := by
    rw [ScaledValue.raw_add, signed_raw, sign_moved]
    have traded : 0 < quantity.raw := positive
    omega
  have split := Int.mul_tdiv_add_tmod (position.weightedPrice price quantity) (position.totalQuantity quantity)
  rw [applyTrade_increases positive increases, openGain_along along, openGain_along same, gain, ScaledValue.raw_add,
    signed_raw, toInt64_of_fits fits]
  generalize Int.tdiv _ _ = average at split ⊢
  generalize Int.tmod _ _ = remainder at split ⊢
  simp only [Position.totalQuantity, Position.weightedPrice, absolute_increases same] at split
  linear_combination
    -(sign side) * split + (average - position.averageEntryPrice.raw) * position.currentQuantity.raw * unit

theorem openGain_reduces (positive : quantity.isPositive) (reduces : kind position side quantity = .reduces) :
    openGain (position.applyTrade side price quantity) event =
      openGain position event - gain event (opposite side) position.averageEntryPrice quantity.raw := by
  obtain ⟨against, smaller⟩ := kind_reduces reduces
  have still : sign side * (position.applyTrade side price quantity).currentQuantity.raw < 0 := by
    rw [applyTrade_reduces positive reduces, ScaledValue.raw_add, signed_raw, sign_moved]
    omega
  rw [openGain_against still, openGain_against against, applyTrade_reduces positive reduces, gain, sign_opposite,
    ScaledValue.raw_add, signed_raw]
  ring

theorem openGain_closes (positive : quantity.isPositive) (closes : kind position side quantity = .closes) :
    openGain position event = gain event (opposite side) position.averageEntryPrice quantity.raw ∧
    openGain (position.applyTrade side price quantity) event = 0 := by
  obtain ⟨against, equal⟩ := kind_closes closes
  have unit : sign side * sign side = 1 := PositionTrades.sign_mul_self side
  refine ⟨?_, ?_⟩
  · rw [openGain_against against, gain, sign_opposite, equal]
    linear_combination ((mark event (opposite side)).raw - position.averageEntryPrice.raw) *
      position.currentQuantity.raw * -unit
  · rw [applyTrade_closes positive closes, openGain_eq]
    exact Int.mul_zero _

theorem openGain_reverses (positive : quantity.isPositive) (reverses : kind position side quantity = .reverses) :
    openGain (position.applyTrade side price quantity) event =
      gain event side price (quantity.raw + sign side * position.currentQuantity.raw) := by
  obtain ⟨against, larger⟩ := kind_reverses reverses
  have unit := PositionTrades.sign_mul_self side
  have along : 0 < sign side * (position.currentQuantity + side.signed quantity).raw := by
    rw [ScaledValue.raw_add, signed_raw, sign_moved]
    omega
  rw [applyTrade_reverses positive reverses, openGain_along along, gain, ScaledValue.raw_add, signed_raw]
  linear_combination -((mark event side).raw - price.raw) * position.currentQuantity.raw * unit

/-- What is closed has gained its share of what the whole position has. -/
theorem share_of_gain (event : MarketEvent) (positive : quantity.isPositive)
    (against : sign side * position.currentQuantity.raw < 0)
    (within : quantity.raw ≤ -(sign side * position.currentQuantity.raw)) :
    let part := gain event (opposite side) position.averageEntryPrice quantity.raw
    0 ≤ part ∧ part ≤ openGain position event ∨ openGain position event ≤ part ∧ part ≤ 0 := by
  intro part
  let perUnit := sign (opposite side) * ((mark event (opposite side)).raw - position.averageEntryPrice.raw)
  have whole : openGain position event = perUnit * -(sign side * position.currentQuantity.raw) := by
    have unit : sign side * sign side = 1 := PositionTrades.sign_mul_self side
    rw [openGain_against against]
    simp only [perUnit, sign_opposite]
    linear_combination -((mark event (opposite side)).raw - position.averageEntryPrice.raw) *
      position.currentQuantity.raw * unit
  have traded : 0 ≤ quantity.raw := Int.le_of_lt positive
  rw [whole]
  rcases Int.le_total 0 perUnit with won | lost
  · exact Or.inl ⟨Int.mul_nonneg won traded, Int.mul_le_mul_of_nonneg_left within won⟩
  · exact Or.inr ⟨Int.mul_le_mul_of_nonpos_left lost within, Int.mul_nonpos_of_nonpos_of_nonneg lost traded⟩

/-- No value that the code narrows leaves the range of 64 bits: the new average
of a growing position, and the gain of the position before and after. -/
structure InRange (position : Position) (report : ExecutionReport) (event : MarketEvent) : Prop where
  average : kind position report.side report.quantity = .increases →
    FitsInt64 ((position.weightedPrice report.price report.quantity).tdiv (position.totalQuantity report.quantity))
  before : FitsInt64 ((openGain position event).tdiv ScaledValue.Scale)
  after : FitsInt64
    ((openGain (position.applyTrade report.side report.price report.quantity) event).tdiv ScaledValue.Scale)

/-- How a trade changes what the open position has gained. What it closes
takes its gain along, and what it opens starts at the price of the trade. -/
def gainChange (position : Position) (report : ExecutionReport) (event : MarketEvent) : Int :=
  match kind position report.side report.quantity with
  | .opens => gain event report.side report.price report.quantity.raw
  | .increases =>
    gain event report.side report.price report.quantity.raw +
      sign report.side *
        (position.weightedPrice report.price report.quantity).tmod (position.totalQuantity report.quantity)
  | .reduces | .closes => -gain event (opposite report.side) position.averageEntryPrice report.quantity.raw
  | .reverses =>
    gain event report.side report.price (report.quantity.raw + sign report.side * position.currentQuantity.raw) -
      gain event (opposite report.side) position.averageEntryPrice (absolute position.currentQuantity.raw)

/-- The change is too small to show in whole units: it stays within what the
truncation drops of the gain before. -/
def Unnoticed (position : Position) (report : ExecutionReport) (event : MarketEvent) : Prop :=
  Truncation.Leaves ScaledValue.Scale ((openGain position event).tdiv ScaledValue.Scale)
    ((openGain position event).tmod ScaledValue.Scale + gainChange position report event)

theorem openGain_applyTrade {report : ExecutionReport} (positive : report.quantity.isPositive)
    (average : kind position report.side report.quantity = .increases →
      FitsInt64 ((position.weightedPrice report.price report.quantity).tdiv (position.totalQuantity report.quantity))) :
    openGain (position.applyTrade report.side report.price report.quantity) event =
      openGain position event + gainChange position report event := by
  rw [gainChange]
  cases found : kind position report.side report.quantity with
  | opens =>
    have flat : openGain position event = 0 := by rw [openGain_eq, kind_opens found, Int.mul_zero]
    rw [openGain_opens positive found, flat, Int.zero_add]
  | increases => rw [openGain_increases positive found (average found), Int.add_assoc]
  | reduces => rw [openGain_reduces positive found, Int.sub_eq_add_neg]
  | closes =>
    obtain ⟨whole, closed⟩ := @openGain_closes position event report.side report.price report.quantity positive found
    rw [closed, whole, Int.add_right_neg]
  | reverses =>
    rw [openGain_reverses positive found, openGain, holdingSide_against (kind_reverses found).1]
    exact (add_sub_cancel _ _).symm

/-- The unrealized profit that comes with a trade is that of the position
before it, so what the trade closes still counts and what it opens does not. It
is that of the position the trade leaves open exactly when the change goes
unnoticed. -/
theorem unrealized_after_trade_iff (position : Position) (report : ExecutionReport) (event : MarketEvent)
    (positive : report.quantity.isPositive) (bid : ¬ event.bestBidQuantity.isZero)
    (ask : ¬ event.bestAskQuantity.isZero) (inRange : InRange position report event) :
    let left := position.applyTrade report.side report.price report.quantity
    (calculate position report event).unrealized = ⟨(openGain position event).tdiv ScaledValue.Scale⟩ ∧
    calculateUnrealized left event =
      ⟨(openGain position event + gainChange position report event).tdiv ScaledValue.Scale⟩ ∧
    ((calculate position report event).unrealized = calculateUnrealized left event ↔
      Unnoticed position report event) := by
  intro left
  have before : (calculate position report event).unrealized =
      ⟨(openGain position event).tdiv ScaledValue.Scale⟩ := by
    rw [← toInt64_of_fits inRange.before]
    exact calculateUnrealized_eq bid ask position
  have after : calculateUnrealized left event =
      ⟨(openGain position event + gainChange position report event).tdiv ScaledValue.Scale⟩ := by
    rw [calculateUnrealized_eq bid ask, toInt64_of_fits inRange.after, openGain_applyTrade positive inRange.average]
  refine ⟨before, after, ?_⟩
  rw [before, after, ScaledValue.mk.injEq, eq_comm]
  exact Truncation.add_tdiv_eq_iff ScaledValue.scale_positive

/-- A hundred bought at a hundred, fifty sold at a hundred and ten. -/
def heldHundred : Position where
  instrument := 1
  currentQuantity := ⟨10000000000⟩
  averageEntryPrice := ⟨10000000000⟩

def sellFifty : ExecutionReport where
  instrument := 1
  side := .sell
  execType := .trade
  price := ⟨11000000000⟩
  quantity := ⟨5000000000⟩

def quoted (bid ask : Int) : MarketEvent where
  instrument := 1
  bestBid := ⟨bid⟩
  bestBidQuantity := ⟨10000000000⟩
  bestAsk := ⟨ask⟩
  bestAskQuantity := ⟨10000000000⟩

theorem unrealized_at_average :
    (calculate heldHundred sellFifty (quoted 10000000000 10100000000)).unrealized =
      calculateUnrealized (heldHundred.applyTrade .sell ⟨11000000000⟩ ⟨5000000000⟩)
        (quoted 10000000000 10100000000) := by
  apply (unrealized_after_trade_iff heldHundred sellFifty (quoted 10000000000 10100000000) (by decide) (by decide)
    (by decide) ⟨by decide, by decide, by decide⟩).2.2.mpr
  exact ⟨by decide, by decide, by decide⟩

/-- With a bid of a hundred and fifteen the fifty sold still count: fifteen
hundred instead of seven hundred and fifty. -/
theorem closed_quantity_counted_twice :
    InRange heldHundred sellFifty (quoted 11500000000 11600000000) ∧
    (calculate heldHundred sellFifty (quoted 11500000000 11600000000)).unrealized = ⟨150000000000⟩ ∧
    calculateUnrealized (heldHundred.applyTrade .sell ⟨11000000000⟩ ⟨5000000000⟩)
      (quoted 11500000000 11600000000) = ⟨75000000000⟩ :=
  ⟨⟨by decide, by decide, by decide⟩, by decide, by decide⟩

end TradingCore.Proofs.UnrealizedMark
