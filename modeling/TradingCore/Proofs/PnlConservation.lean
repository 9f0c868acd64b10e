import Mathlib.Tactic.LinearCombination
import Mathlib.Tactic.Ring
import TradingCore.Foundation.Runs
import TradingCore.Foundation.Truncation
import TradingCore.Pnl.PnlCalculator
import TradingCore.Proofs.PositionTrades

/-! Cash, the book cost of the open position and the realized profit of a run
of trades. Only the two truncating divisions, the average price of a growing
position and the conversion of a realized product, can pull them apart. -/

namespace TradingCore.Proofs.PnlConservation
open PositionTrades

structure TradeReport where
  report : ExecutionReport
  trade : report.execType = .trade
  positive : report.quantity.isPositive

/-- A position with the sums kept over the trades that led to it. -/
structure Books where
  position : Position
  cash : Int := 0
  realized : Int := 0
  allowance : Int := 0

/-- What the rounding of one trade may amount to. -/
def rounding (position : Position) (report : ExecutionReport) : Int :=
  match kind position report.side report.quantity with
  | .opens => 0
  | .increases =>
    (position.applyTrade report.side report.price report.quantity).absoluteCurrentQuantity - 1
  | .reduces => ScaledValue.Scale - 1
  | .closes => ScaledValue.Scale - 1
  | .reverses => ScaledValue.Scale - 1

/-- The realized profit is computed on the position before the trade. -/
def book (books : Books) (trade : TradeReport) : Books :=
  let report := trade.report
  { position := books.position.applyTrade report.side report.price report.quantity
    cash := books.cash - (report.side.signed report.quantity).raw * report.price.raw
    realized := books.realized + (PnLCalculator.calculateRealized books.position report).raw
    allowance := books.allowance + rounding books.position report }

def imbalance (books : Books) : Int :=
  books.cash + books.position.averageEntryPrice.raw * books.position.currentQuantity.raw
    - ScaledValue.Scale * books.realized

def closedQuantity (position : Position) (report : ExecutionReport) : Int :=
  min (-(sign report.side * position.currentQuantity.raw)) report.quantity.raw

def profit (position : Position) (report : ExecutionReport) : Int :=
  sign report.side * (position.averageEntryPrice.raw - report.price.raw) * closedQuantity position report

/-- No value of a step leaves its range: the quantities, the new average of a
growing position, and the realized profit of a shrinking one. -/
structure InRange (position : Position) (report : ExecutionReport) : Prop where
  held : FitsInt64 position.currentQuantity.raw
  traded : FitsInt64 report.quantity.raw
  average : kind position report.side report.quantity = .increases →
    FitsInt64 ((position.weightedPrice report.price report.quantity).tdiv (position.totalQuantity report.quantity))
  realized : sign report.side * position.currentQuantity.raw < 0 →
    FitsInt64 ((profit position report).tdiv ScaledValue.Scale)

instance (position : Position) (report : ExecutionReport) : Decidable (InRange position report) :=
  decidable_of_iff
    (FitsInt64 position.currentQuantity.raw ∧ FitsInt64 report.quantity.raw ∧
      (kind position report.side report.quantity = .increases →
        FitsInt64 ((position.weightedPrice report.price report.quantity).tdiv
          (position.totalQuantity report.quantity))) ∧
      (sign report.side * position.currentQuantity.raw < 0 →
        FitsInt64 ((profit position report).tdiv ScaledValue.Scale)))
    ⟨fun ⟨held, traded, average, realized⟩ => ⟨held, traded, average, realized⟩,
      fun ⟨held, traded, average, realized⟩ => ⟨held, traded, average, realized⟩⟩

variable {position : Position} {report : ExecutionReport}

theorem realized_none (along : 0 ≤ sign report.side * position.currentQuantity.raw) :
    (PnLCalculator.calculateRealized position report).raw = 0 := by
  have long : ¬ (0 < position.currentQuantity.raw ∧ report.side = .sell) := by
    rintro ⟨long, side⟩
    simp only [side, sign] at along
    omega
  have short : ¬ (position.currentQuantity.raw < 0 ∧ report.side = .buy) := by
    rintro ⟨short, side⟩
    simp only [side, sign] at along
    omega
  simp only [PnLCalculator.calculateRealized, long, short, if_false, ite_self]

/-- A trade of any quantity but zero that is against the position narrows its
profit, as long as the quantity it closes does not have to be narrowed. -/
theorem realized_against (trade : report.execType = .trade) (nonzero : ¬ report.quantity.isZero)
    (closed : FitsInt64 (closedQuantity position report))
    (opposite : sign report.side * position.currentQuantity.raw < 0) :
    (PnLCalculator.calculateRealized position report).raw =
      toInt64 ((profit position report).tdiv ScaledValue.Scale) := by
  have exact := toInt64_of_fits closed
  cases side : report.side with
  | buy =>
    have short : position.currentQuantity.raw < 0 := by
      simp only [side, sign] at opposite
      omega
    have flat : position.currentQuantity.raw ≠ 0 := by omega
    have long : ¬ 0 < position.currentQuantity.raw := by omega
    simp [PnLCalculator.calculateRealized, trade, nonzero, flat, long, short, side, PnLCalculator.fromProduct,
      PnLCalculator.absolute, profit, closedQuantity, sign]
  | sell =>
    have long : 0 < position.currentQuantity.raw := by
      simp only [side, sign] at opposite
      omega
    have flat : position.currentQuantity.raw ≠ 0 := by omega
    simp only [closedQuantity, side, sign, Int.neg_mul, Int.one_mul, Int.neg_neg] at exact
    simp [PnLCalculator.calculateRealized, trade, nonzero, flat, long, side, PnLCalculator.fromProduct, exact,
      profit, closedQuantity, sign]

theorem closed_fits (traded : FitsInt64 report.quantity.raw)
    (opposite : sign report.side * position.currentQuantity.raw < 0) :
    FitsInt64 (closedQuantity position report) := by
  unfold FitsInt64 at traded ⊢
  unfold closedQuantity
  omega

theorem realized_opposite (inRange : InRange position report) (trade : report.execType = .trade)
    (positive : report.quantity.isPositive) (opposite : sign report.side * position.currentQuantity.raw < 0) :
    (PnLCalculator.calculateRealized position report).raw = (profit position report).tdiv ScaledValue.Scale := by
  have nonzero : ¬ report.quantity.isZero := Int.ne_of_gt positive
  rw [realized_against trade nonzero (closed_fits inRange.traded opposite) opposite]
  exact toInt64_of_fits (inRange.realized opposite)

/-- Converting two amounts of one sign apart costs at most one unit against
converting their sum. If the sum can be narrowed, so can they. -/
theorem converted_apart {first second : Int} (aligned : 0 ≤ first ∧ 0 ≤ second ∨ first ≤ 0 ∧ second ≤ 0)
    (fits : FitsInt64 ((first + second).tdiv ScaledValue.Scale)) :
    |toInt64 ((first + second).tdiv ScaledValue.Scale) -
      (toInt64 (first.tdiv ScaledValue.Scale) + toInt64 (second.tdiv ScaledValue.Scale))| ≤ 1 := by
  have firstFits : FitsInt64 (first.tdiv ScaledValue.Scale) := by
    apply fits.part
    apply Truncation.tdiv_inside ScaledValue.scale_positive
    omega
  have secondFits : FitsInt64 (second.tdiv ScaledValue.Scale) := by
    apply fits.part
    apply Truncation.tdiv_inside ScaledValue.scale_positive
    omega
  rw [toInt64_of_fits fits, toInt64_of_fits firstFits, toInt64_of_fits secondFits]
  exact Truncation.abs_add_tdiv_sub_le ScaledValue.scale_positive aligned

variable {books : Books} {trade : TradeReport}

theorem imbalance_opens (opens : kind books.position trade.report.side trade.report.quantity = .opens) :
    imbalance (book books trade) = imbalance books := by
  have flat := kind_opens opens
  have along : 0 ≤ sign trade.report.side * books.position.currentQuantity.raw := by
    simp [flat]
  simp only [imbalance, book, applyTrade_opens trade.positive opens, realized_none along, signed_raw, flat]
  ring

/-- A growing position misses the paid cost by what its average truncates. -/
theorem imbalance_increases (inRange : InRange books.position trade.report)
    (increases : kind books.position trade.report.side trade.report.quantity = .increases) :
    imbalance (book books trade) - imbalance books =
      sign trade.report.side *
        (books.position.totalQuantity trade.report.quantity *
            (books.position.weightedPrice trade.report.price trade.report.quantity).tdiv
              (books.position.totalQuantity trade.report.quantity) -
          books.position.weightedPrice trade.report.price trade.report.quantity) := by
  have same := kind_increases increases
  have fits := toInt64_of_fits (inRange.average increases)
  have unit := sign_mul_self trade.report.side
  simp only [imbalance, book, applyTrade_increases trade.positive increases, realized_none same.le, signed_raw,
    ScaledValue.raw_add, fits]
  generalize Int.tdiv _ _ = average
  simp only [Position.totalQuantity, Position.weightedPrice, absolute_increases same]
  linear_combination
    (books.position.averageEntryPrice.raw - average) * books.position.currentQuantity.raw * unit

/-- A trade against the position misses its profit by what the conversion of
the product truncates. -/
theorem imbalance_opposite (inRange : InRange books.position trade.report)
    (opposite : sign trade.report.side * books.position.currentQuantity.raw < 0) :
    imbalance (book books trade) - imbalance books =
      profit books.position trade.report -
        ScaledValue.Scale * (profit books.position trade.report).tdiv ScaledValue.Scale := by
  have realized := realized_opposite inRange trade.trade trade.positive opposite
  have unit := sign_mul_self trade.report.side
  cases found : kind books.position trade.report.side trade.report.quantity with
  | opens => simp [kind_opens found] at opposite
  | increases => exact absurd (kind_increases found) opposite.not_gt
  | reduces =>
    have smaller := (kind_reduces found).2
    simp only [imbalance, book, applyTrade_reduces trade.positive found, realized, signed_raw, ScaledValue.raw_add]
    generalize Int.tdiv _ _ = converted
    simp only [profit, closedQuantity, min_eq_right smaller.le]
    ring
  | closes =>
    have equal := (kind_closes found).2
    simp only [imbalance, book, applyTrade_closes trade.positive found, realized, signed_raw]
    generalize Int.tdiv _ _ = converted
    simp only [profit, closedQuantity, ← equal, min_self]
    linear_combination
      -(books.position.averageEntryPrice.raw * sign trade.report.side) * equal +
        books.position.averageEntryPrice.raw * books.position.currentQuantity.raw * unit
  | reverses =>
    have larger := (kind_reverses found).2
    simp only [imbalance, book, applyTrade_reverses trade.positive found, realized, signed_raw, ScaledValue.raw_add]
    generalize Int.tdiv _ _ = converted
    simp only [profit, closedQuantity, min_eq_left larger.le]
    linear_combination
      (books.position.averageEntryPrice.raw - trade.report.price.raw) * books.position.currentQuantity.raw * unit

theorem abs_sign_mul (side : Side) (value : Int) : |sign side * value| = |value| := by
  cases side <;> simp [sign]

theorem imbalance_step (inRange : InRange books.position trade.report) :
    |imbalance (book books trade) - imbalance books| ≤ rounding books.position trade.report := by
  have converts : sign trade.report.side * books.position.currentQuantity.raw < 0 →
      |imbalance (book books trade) - imbalance books| ≤ ScaledValue.Scale - 1 := by
    intro opposite
    rw [imbalance_opposite inRange opposite, abs_sub_comm]
    exact Truncation.abs_mul_tdiv_sub_le _ (by decide)
  unfold rounding
  cases found : kind books.position trade.report.side trade.report.quantity with
  | opens => simp [imbalance_opens found]
  | increases =>
    have positive := total_positive books.position trade.positive
    rw [imbalance_increases inRange found, abs_sign_mul, absolute_grown trade.positive found]
    exact Truncation.abs_mul_tdiv_sub_le _ positive
  | reduces => exact converts (kind_reduces found).1
  | closes => exact converts (kind_closes found).1
  | reverses => exact converts (kind_reverses found).1

theorem bounded_step (books : Books) (trade : TradeReport) (bounded : |imbalance books| ≤ books.allowance)
    (inRange : InRange books.position trade.report) :
    |imbalance (book books trade)| ≤ (book books trade).allowance :=
  calc |imbalance (book books trade)|
      = |imbalance books + (imbalance (book books trade) - imbalance books)| := by rw [add_sub_cancel]
    _ ≤ |imbalance books| + |imbalance (book books trade) - imbalance books| := abs_add_le ..
    _ ≤ books.allowance + rounding books.position trade.report := add_le_add bounded (imbalance_step inRange)

/-- Along any run of trades from a flat position, cash and book cost differ
from the realized profit by no more than the rounding of the trades allows. -/
theorem pnl_conserved {start : Position} (flat : start.isFlat) {trades : List TradeReport}
    (inRange : Runs.Along book (fun books trade => InRange books.position trade.report) { position := start } trades) :
    let books := Runs.after book { position := start } trades
    |books.cash + books.position.averageEntryPrice.raw * books.position.currentQuantity.raw
      - ScaledValue.Scale * books.realized| ≤ books.allowance := by
  have balanced : |imbalance { position := start }| ≤ 0 := by
    simp only [Position.isFlat, ScaledValue.isZero] at flat
    simp [imbalance, flat]
  exact Runs.invariant_along bounded_step balanced inRange

def sampleTrades : List TradeReport :=
  [⟨{ side := .buy, execType := .trade, price := ⟨100⟩, quantity := ⟨3⟩ }, rfl, by decide⟩,
    ⟨{ side := .buy, execType := .trade, price := ⟨101⟩, quantity := ⟨2⟩ }, rfl, by decide⟩,
    ⟨{ side := .sell, execType := .trade, price := ⟨110⟩, quantity := ⟨4⟩ }, rfl, by decide⟩,
    ⟨{ side := .sell, execType := .trade, price := ⟨90⟩, quantity := ⟨5⟩ }, rfl, by decide⟩,
    ⟨{ side := .buy, execType := .trade, price := ⟨95⟩, quantity := ⟨4⟩ }, rfl, by decide⟩]

theorem pnl_conserved_sample :
    let books := Runs.after book { position := {} } sampleTrades
    |books.cash + books.position.averageEntryPrice.raw * books.position.currentQuantity.raw
      - ScaledValue.Scale * books.realized| ≤ books.allowance :=
  @pnl_conserved {} rfl sampleTrades (by decide)

end TradingCore.Proofs.PnlConservation
