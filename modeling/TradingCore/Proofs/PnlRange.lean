import TradingCore.Proofs.PnlConservation
import TradingCore.Proofs.UnrealizedMark

/-! The range of the calculator. The products are computed in 128 bits, which
always hold them; the quotients are narrowed to 64 bits, which do not. -/

namespace TradingCore.Proofs.PnlRange
open PositionTrades PnlConservation UnrealizedMark PnLCalculator

/-- The price difference of a trade in the favour of the position. -/
def tradeDifference (position : Position) (report : ExecutionReport) : Int :=
  sign report.side * (position.averageEntryPrice.raw - report.price.raw)

/-- What the trade takes away from the position: nothing if it does not point
against it. -/
def quantityClosed (position : Position) (report : ExecutionReport) : Int :=
  max 0 (closedQuantity position report)

/-- The price difference at the mark. A side that shows no quantity has no
price the position could be traded back for, and makes no difference. -/
def markDifference (position : Position) (event : MarketEvent) : Int :=
  if (markQuantity event (holdingSide position)).isZero then 0
  else sign (holdingSide position) *
    ((mark event (holdingSide position)).raw - position.averageEntryPrice.raw)

/-- The code computes the product without overflow and returns its truncated
quotient. -/
structure Exact (result : Price) (difference quantity : Int) : Prop where
  wideDifference : FitsInt128 difference
  wideProduct : FitsInt128 (difference * quantity)
  quotient : result.raw = (difference * quantity).tdiv ScaledValue.Scale

structure ExactPnL (position : Position) (report : ExecutionReport) (event : MarketEvent) : Prop where
  realized : Exact (calculateRealized position report) (tradeDifference position report)
    (quantityClosed position report)
  unrealized : Exact (calculateUnrealized position event) (markDifference position event)
    (absolute position.currentQuantity.raw)

/-- Products whose quotient is a value of 64 bits. -/
def Narrow (product : Int) : Prop :=
  (-2 ^ 63 - 1) * ScaledValue.Scale < product ∧ product < 2 ^ 63 * ScaledValue.Scale

instance (product : Int) : Decidable (Narrow product) := inferInstanceAs (Decidable (_ ∧ _))

/-- Every value the calculator reads is one of 64 bits. -/
structure Representable (position : Position) (report : ExecutionReport) (event : MarketEvent) : Prop where
  held : FitsInt64 position.currentQuantity.raw
  average : FitsInt64 position.averageEntryPrice.raw
  price : FitsInt64 report.price.raw
  traded : FitsInt64 report.quantity.raw
  bid : FitsInt64 event.bestBid.raw
  ask : FitsInt64 event.bestAsk.raw

theorem narrow_iff (product : Int) : Narrow product ↔ FitsInt64 (product.tdiv ScaledValue.Scale) := by
  have low := @Truncation.lt_tdiv_iff product _ (-2 ^ 63 - 1) ScaledValue.scale_positive (by decide)
  have high := @Truncation.tdiv_lt_iff product _ (2 ^ 63) ScaledValue.scale_positive (by decide)
  rw [Narrow, ← low, ← high, FitsInt64]
  omega

/-- The difference of two 64-bit prices times a 64-bit quantity fits 128 bits. -/
theorem product_fits {difference quantity : Int} (prices : |difference| ≤ 2 ^ 64 - 1) (amount : |quantity| ≤ 2 ^ 63) :
    FitsInt128 difference ∧ FitsInt128 (difference * quantity) := by
  have product : |difference * quantity| ≤ (2 ^ 64 - 1) * 2 ^ 63 := by
    rw [abs_mul]
    exact Int.mul_le_mul prices amount (abs_nonneg quantity) (by decide)
  rw [abs_le] at prices product
  exact ⟨⟨by omega, by omega⟩, by omega, by omega⟩

variable {position : Position} {report : ExecutionReport} {event : MarketEvent}

theorem abs_difference_le (side : Side) {first second : Int} (firstFits : FitsInt64 first)
    (secondFits : FitsInt64 second) : |sign side * (first - second)| ≤ 2 ^ 64 - 1 := by
  rw [abs_sign_mul, abs_le]
  unfold FitsInt64 at firstFits secondFits
  omega

/-- The code returns the narrowed quotient, so it is exact if that fits. -/
theorem exact_iff {result : Price} {difference quantity : Int} (prices : |difference| ≤ 2 ^ 64 - 1)
    (amount : |quantity| ≤ 2 ^ 63)
    (computed : result.raw = toInt64 ((difference * quantity).tdiv ScaledValue.Scale)) :
    Exact result difference quantity ↔ Narrow (difference * quantity) := by
  obtain ⟨differenceFits, productFits⟩ := product_fits prices amount
  rw [narrow_iff, ← toInt64_eq_iff, ← computed]
  exact ⟨Exact.quotient, fun same => ⟨differenceFits, productFits, same⟩⟩

theorem realized_computed (trade : report.execType = .trade) (positive : report.quantity.isPositive)
    (traded : FitsInt64 report.quantity.raw) :
    (calculateRealized position report).raw =
      toInt64 ((tradeDifference position report * quantityClosed position report).tdiv ScaledValue.Scale) := by
  have amount : 0 < report.quantity.raw := positive
  rcases Int.lt_or_le (sign report.side * position.currentQuantity.raw) 0 with against | along
  · have closed : quantityClosed position report = closedQuantity position report := by
      rw [quantityClosed, closedQuantity]
      omega
    rw [realized_against trade (Int.ne_of_gt amount) (closed_fits traded against) against, closed, tradeDifference,
      profit]
  · have closed : quantityClosed position report = 0 := by
      rw [quantityClosed, closedQuantity]
      omega
    rw [realized_none along, closed, Int.mul_zero, Int.zero_tdiv]
    rfl

theorem unrealized_computed (position : Position) (event : MarketEvent) :
    (calculateUnrealized position event).raw =
      toInt64 ((markDifference position event * absolute position.currentQuantity.raw).tdiv ScaledValue.Scale) := by
  rw [markDifference]
  split
  next unquoted =>
    rw [calculateUnrealized_unquoted unquoted, Int.zero_mul, Int.zero_tdiv]
    rfl
  next quoted => rw [calculateUnrealized_quoted quoted, openGain, gain]

theorem abs_quantityClosed_le (traded : FitsInt64 report.quantity.raw) :
    |quantityClosed position report| ≤ 2 ^ 63 := by
  rw [quantityClosed, closedQuantity, abs_le]
  unfold FitsInt64 at traded
  omega

theorem abs_markDifference_le (representable : Representable position report event) :
    |markDifference position event| ≤ 2 ^ 64 - 1 := by
  rw [markDifference]
  split
  next => decide
  next =>
    apply abs_difference_le
    · cases holdingSide position with
      | buy => exact representable.bid
      | sell => exact representable.ask
    · exact representable.average

/-- No product overflows its 128 bits. The results are the exact ones if and
only if both products have a quotient of 64 bits. -/
theorem pnl_exact_iff (trade : report.execType = .trade) (positive : report.quantity.isPositive)
    (representable : Representable position report event) :
    ExactPnL position report event ↔
      Narrow (tradeDifference position report * quantityClosed position report) ∧
      Narrow (markDifference position event * absolute position.currentQuantity.raw) := by
  have realized := exact_iff (abs_difference_le report.side representable.average representable.price)
    (abs_quantityClosed_le representable.traded) (realized_computed trade positive representable.traded)
  have held : |absolute position.currentQuantity.raw| ≤ 2 ^ 63 := by
    have held := representable.held
    unfold FitsInt64 at held
    rw [absolute, abs_le]
    split <;> omega
  have unrealized := exact_iff (abs_markDifference_le representable) held (unrealized_computed position event)
  rw [← unrealized]
  constructor
  · intro exact
    exact ⟨realized.mp exact.realized, exact.unrealized⟩
  · intro both
    obtain ⟨narrow, exact⟩ := both
    exact ⟨realized.mpr narrow, exact⟩

/-- Ten thousand million bought at one and sold at a thousand and one, a gain
of ten million millions. -/
def heldMillions : Position where
  currentQuantity := ⟨1000000000000000000⟩
  averageEntryPrice := ⟨100000000⟩

def sellMillions : ExecutionReport where
  side := .sell
  execType := .trade
  price := ⟨100100000000⟩
  quantity := ⟨1000000000000000000⟩

theorem realized_wraps :
    ¬ ExactPnL heldMillions sellMillions (quoted 100100000000 100200000000) := by
  intro exact
  have quotient := exact.realized.quotient
  revert quotient
  decide

theorem pnl_exact_fifty : ExactPnL heldHundred sellFifty (quoted 11000000000 11100000000) := by
  apply (@pnl_exact_iff heldHundred sellFifty (quoted 11000000000 11100000000) rfl (by decide)
    ⟨by decide, by decide, by decide, by decide, by decide, by decide⟩).mpr
  exact ⟨by decide, by decide⟩

end TradingCore.Proofs.PnlRange
