import TradingCore.Proofs.PnlConservation
import TradingCore.Proofs.UnrealizedMark

/-! A trade against a position at the price that marks it. What it realizes is
taken out of the unrealized profit, and nothing is made or lost but the
rounding of one conversion. -/

namespace TradingCore.Proofs.TradingAtMark
open PositionTrades PnlConservation UnrealizedMark PnLCalculator

/-- A trade that closes a position, wholly or in part, at the price that marks
it. -/
structure AtMark (position : Position) (event : MarketEvent) (report : ExecutionReport) : Prop where
  trade : report.execType = .trade
  positive : report.quantity.isPositive
  held : ¬ position.isFlat
  side : report.side = opposite (holdingSide position)
  quoted : ¬ (markQuantity event (holdingSide position)).isZero
  price : report.price = mark event (holdingSide position)

/-- The traded quantity is a value of 64 bits, and so is what the position has
gained before the trade. -/
structure InRange (position : Position) (event : MarketEvent) (report : ExecutionReport) : Prop where
  traded : FitsInt64 report.quantity.raw
  before : FitsInt64 ((openGain position event).tdiv ScaledValue.Scale)

theorem opposite_opposite (side : Side) : opposite (opposite side) = side := by
  cases side <;> rfl

theorem holding_size (position : Position) :
    sign (holdingSide position) * position.currentQuantity.raw = absolute position.currentQuantity.raw := by
  unfold holdingSide absolute
  split <;> split <;> simp only [sign] <;> omega

variable {position : Position} {event : MarketEvent} {report : ExecutionReport}

namespace AtMark

theorem size (atMark : AtMark position event report) :
    -(sign report.side * position.currentQuantity.raw) = absolute position.currentQuantity.raw := by
  rw [atMark.side, sign_opposite, Int.neg_mul, Int.neg_neg, holding_size]

theorem against (atMark : AtMark position event report) : sign report.side * position.currentQuantity.raw < 0 := by
  have size := atMark.size
  have held : position.currentQuantity.raw ≠ 0 := atMark.held
  unfold absolute at size
  split at size <;> omega

/-- The profit of the trade is the gain of the quantity it closes. -/
theorem profit_eq (atMark : AtMark position event report) :
    profit position report =
      gain event (holdingSide position) position.averageEntryPrice (closedQuantity position report) := by
  rw [profit, gain, atMark.side, atMark.price, sign_opposite, Int.neg_mul, ← Int.mul_neg, Int.neg_sub]

theorem realized_eq (atMark : AtMark position event report) (traded : FitsInt64 report.quantity.raw) :
    (calculateRealized position report).raw =
      toInt64 ((gain event (holdingSide position) position.averageEntryPrice (closedQuantity position report)).tdiv
        ScaledValue.Scale) := by
  rw [realized_against atMark.trade (Int.ne_of_gt atMark.positive) (closed_fits traded atMark.against) atMark.against,
    atMark.profit_eq]

/-- A smaller trade leaves a position on the same side. -/
theorem holdingSide_after (atMark : AtMark position event report)
    (smaller : report.quantity.raw < absolute position.currentQuantity.raw) :
    holdingSide (position.applyTrade report.side report.price report.quantity) = holdingSide position := by
  have opposed : opposite report.side = holdingSide position := by
    rw [atMark.side, opposite_opposite]
  have size := atMark.size
  rw [← opposed]
  apply holdingSide_against
  rw [quantity_applyTrade atMark.positive, sign_moved]
  omega

/-- It takes the gain of what it closes out of the gain of the position. -/
theorem openGain_after (atMark : AtMark position event report)
    (smaller : report.quantity.raw < absolute position.currentQuantity.raw) :
    openGain (position.applyTrade report.side report.price report.quantity) event =
      openGain position event -
        gain event (holdingSide position) position.averageEntryPrice report.quantity.raw := by
  have reduces : kind position report.side report.quantity = .reduces := by
    rw [kind_of_against atMark.against, atMark.size, if_pos smaller]
  rw [openGain_reduces atMark.positive reduces, atMark.side, opposite_opposite]

theorem realized_part (atMark : AtMark position event report) (inRange : InRange position event report)
    (smaller : report.quantity.raw < absolute position.currentQuantity.raw) :
    |(calculateRealized position report).raw +
        (calculateUnrealized (position.applyTrade report.side report.price report.quantity) event).raw -
      (calculateUnrealized position event).raw| ≤ 1 := by
  have within : report.quantity.raw ≤ -(sign report.side * position.currentQuantity.raw) := by
    rw [atMark.size]
    exact Int.le_of_lt smaller
  have closed : closedQuantity position report = report.quantity.raw := min_eq_right within
  have share := share_of_gain event atMark.positive atMark.against within
  rw [atMark.side, opposite_opposite] at share
  have quoted : ¬ (markQuantity event
      (holdingSide (position.applyTrade report.side report.price report.quantity))).isZero := by
    rw [atMark.holdingSide_after smaller]
    exact atMark.quoted
  have before := inRange.before
  rw [atMark.realized_eq inRange.traded, calculateUnrealized_quoted quoted, calculateUnrealized_quoted atMark.quoted,
    closed, atMark.openGain_after smaller]
  generalize gain event (holdingSide position) position.averageEntryPrice report.quantity.raw = part at share ⊢
  have whole : openGain position event = part + (openGain position event - part) := by omega
  rw [whole] at before
  nth_rewrite 2 [whole]
  rw [abs_sub_comm]
  apply converted_apart ?_ before
  omega

theorem realized_whole (atMark : AtMark position event report) (traded : FitsInt64 report.quantity.raw)
    (larger : absolute position.currentQuantity.raw ≤ report.quantity.raw) :
    calculateRealized position report = calculateUnrealized position event := by
  have closed : closedQuantity position report = absolute position.currentQuantity.raw := by
    rw [closedQuantity, atMark.size]
    exact min_eq_left larger
  apply ScaledValue.ext
  rw [atMark.realized_eq traded, calculateUnrealized_quoted atMark.quoted, closed, openGain]

end AtMark

/-- Trading at the mark makes no profit: a partial close moves it from one
account to the other up to one unit, and a full or a reversing one realizes
exactly what was unrealized. -/
theorem traded_at_mark (atMark : AtMark position event report) (inRange : InRange position event report) :
    (report.quantity.raw < absolute position.currentQuantity.raw →
      |(calculateRealized position report).raw +
          (calculateUnrealized (position.applyTrade report.side report.price report.quantity) event).raw -
        (calculateUnrealized position event).raw| ≤ 1) ∧
    (absolute position.currentQuantity.raw ≤ report.quantity.raw →
      calculateRealized position report = calculateUnrealized position event) :=
  ⟨atMark.realized_part inRange, atMark.realized_whole inRange.traded⟩

theorem traded_at_mark_fifty :
    |(calculateRealized heldHundred sellFifty).raw +
        (calculateUnrealized (heldHundred.applyTrade .sell ⟨11000000000⟩ ⟨5000000000⟩)
          (quoted 11000000000 11100000000)).raw -
      (calculateUnrealized heldHundred (quoted 11000000000 11100000000)).raw| ≤ 1 := by
  have atMark : AtMark heldHundred (quoted 11000000000 11100000000) sellFifty :=
    ⟨rfl, by decide, by decide, by decide, by decide, by decide⟩
  exact (traded_at_mark atMark ⟨by decide, by decide⟩).1 (by decide)

end TradingCore.Proofs.TradingAtMark
