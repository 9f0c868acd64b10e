import TradingCore.Proofs.EntryPrices
import TradingCore.Proofs.PnlConservation

/-! One fill against the same quantity filled in two parts at the same price.
The parts can meet any two branches of the position and of the calculator. -/

namespace TradingCore.Proofs.FillSplitting
open PositionTrades EntryPrices PnlConservation

def filling (report : ExecutionReport) (quantity : Quantity) : ExecutionReport := { report with quantity }

def BothIncrease (position : Position) (side : Side) (price : Price) (first second : Quantity) : Prop :=
  kind position side first = .increases ∧ kind (position.applyTrade side price first) side second = .increases

/-- The values of 64 bits on the way: the average and the traded price, the
whole quantity, and the profit of the whole where it closes something. -/
structure InRange (position : Position) (report : ExecutionReport) (whole : Quantity) : Prop where
  average : FitsInt64 position.averageEntryPrice.raw
  price : FitsInt64 report.price.raw
  traded : FitsInt64 whole.raw
  realized : sign report.side * position.currentQuantity.raw < 0 →
    FitsInt64 ((profit position (filling report whole)).tdiv ScaledValue.Scale)

variable {position : Position} {side : Side} {price : Price} {first second : Quantity}

theorem isPositive_add (firstPositive : first.isPositive) (secondPositive : second.isPositive) :
    (first + second).isPositive := Int.add_pos firstPositive secondPositive

theorem quantity_split (firstPositive : first.isPositive) (secondPositive : second.isPositive) :
    ((position.applyTrade side price first).applyTrade side price second).currentQuantity =
      (position.applyTrade side price (first + second)).currentQuantity := by
  apply ScaledValue.ext
  rw [quantity_applyTrade secondPositive, quantity_applyTrade firstPositive,
    quantity_applyTrade (isPositive_add firstPositive secondPositive), ScaledValue.raw_add, Int.mul_add, Int.add_assoc]

theorem pointing (positive : first.isPositive) :
    sign side * (position.applyTrade side price first).currentQuantity.raw =
      sign side * position.currentQuantity.raw + first.raw := by
  rw [quantity_applyTrade positive, sign_moved]

/-- Adding at the average price leaves it where it is. -/
theorem average_again (positive : second.isPositive) (along : 0 < sign side * position.currentQuantity.raw)
    (paid : position.averageEntryPrice = price) (fits : FitsInt64 price.raw) :
    (position.applyTrade side price second).averageEntryPrice = price := by
  subst paid
  apply ScaledValue.ext
  rw [average_applyTrade positive (kind_of_along along) fits fits]
  apply Int.le_antisymm
  · exact average_le positive (Int.le_refl _) (Int.le_refl _)
  · exact le_average positive (Int.le_refl _) (Int.le_refl _)

/-- After a part that only reduces the position, the rest meets the branch
that the whole meets. -/
theorem kind_after_reduce (firstPositive : first.isPositive) (reduces : kind position side first = .reduces) :
    kind (position.applyTrade side price first) side second = kind position side (first + second) := by
  obtain ⟨against, smaller⟩ := kind_reduces reduces
  have left : sign side * (position.applyTrade side price first).currentQuantity.raw =
      sign side * position.currentQuantity.raw + first.raw := pointing firstPositive
  have still : sign side * (position.applyTrade side price first).currentQuantity.raw < 0 := by omega
  have less : second.raw < -(sign side * position.currentQuantity.raw + first.raw) ↔
      first.raw + second.raw < -(sign side * position.currentQuantity.raw) := by omega
  have equal : second.raw = -(sign side * position.currentQuantity.raw + first.raw) ↔
      first.raw + second.raw = -(sign side * position.currentQuantity.raw) := by omega
  rw [kind_of_against still, kind_of_against against, left, ScaledValue.raw_add,
    if_congr less rfl (if_congr equal rfl rfl)]

theorem reverses_of_closed (secondPositive : second.isPositive)
    (against : sign side * position.currentQuantity.raw < 0)
    (closed : -(sign side * position.currentQuantity.raw) ≤ first.raw) :
    kind position side (first + second) = .reverses := by
  have rest : 0 < second.raw := secondPositive
  rw [kind_of_against against, ScaledValue.raw_add, if_neg (by omega), if_neg (by omega)]

/-- Unless both parts add to the position, the last price that enters it is
the traded one, or the average is not touched at all. -/
theorem average_split (firstPositive : first.isPositive) (secondPositive : second.isPositive)
    (fits : FitsInt64 price.raw) (apart : kind position side first ≠ .increases) :
    ((position.applyTrade side price first).applyTrade side price second).averageEntryPrice =
      (position.applyTrade side price (first + second)).averageEntryPrice := by
  have both := isPositive_add firstPositive secondPositive
  have one : 0 < first.raw := firstPositive
  have left : sign side * (position.applyTrade side price first).currentQuantity.raw =
      sign side * position.currentQuantity.raw + first.raw := pointing firstPositive
  cases found : kind position side first with
  | opens =>
    have flat := kind_opens found
    have paid : (position.applyTrade side price first).averageEntryPrice = price := by
      rw [applyTrade_opens firstPositive found]
    rw [flat, Int.mul_zero, Int.zero_add] at left
    rw [average_again secondPositive (by omega) paid fits, applyTrade_opens both (kind_of_flat flat)]
  | increases => exact absurd found apart
  | reduces =>
    have against := (kind_reduces found).1
    have kept : (position.applyTrade side price first).averageEntryPrice = position.averageEntryPrice := by
      rw [applyTrade_reduces firstPositive found]
    have same : kind (position.applyTrade side price first) side second = kind position side (first + second) :=
      kind_after_reduce firstPositive found
    cases last : kind position side (first + second) with
    | opens => exact absurd (kind_opens last) (nonflat_of_sign (Int.ne_of_lt against))
    | increases => exact absurd (kind_increases last) (Int.not_lt.mpr (Int.le_of_lt against))
    | reduces => rw [applyTrade_reduces secondPositive (same.trans last), applyTrade_reduces both last, kept]
    | closes => rw [applyTrade_closes secondPositive (same.trans last), applyTrade_closes both last]
    | reverses => rw [applyTrade_reverses secondPositive (same.trans last), applyTrade_reverses both last]
  | closes =>
    obtain ⟨against, equal⟩ := kind_closes found
    have flat : (position.applyTrade side price first).isFlat := by
      rw [applyTrade_closes firstPositive found]
    have reverses := reverses_of_closed secondPositive against (Int.le_of_eq equal.symm)
    rw [applyTrade_opens secondPositive (kind_of_flat flat), applyTrade_reverses both reverses]
  | reverses =>
    obtain ⟨against, larger⟩ := kind_reverses found
    have paid : (position.applyTrade side price first).averageEntryPrice = price := by
      rw [applyTrade_reverses firstPositive found]
    have reverses := reverses_of_closed secondPositive against (Int.le_of_lt larger)
    rw [average_again secondPositive (by omega) paid fits, applyTrade_reverses both reverses]

theorem totalQuantity_add (position : Position) (first second : Quantity) :
    position.totalQuantity (first + second) = position.totalQuantity first + second.raw := by
  rw [Position.totalQuantity, Position.totalQuantity, ScaledValue.raw_add, Int.add_assoc]

/-- The whole weighs the exact sum where the second part weighs the first one's
truncated average: its remainder is what the dividends are apart. -/
theorem weightedPrice_split (firstPositive : first.isPositive) (held : FitsInt64 position.averageEntryPrice.raw)
    (fits : FitsInt64 price.raw) (increases : kind position side first = .increases) :
    position.weightedPrice price (first + second) -
        (position.applyTrade side price first).weightedPrice price second =
      -(position.totalQuantity first * (position.weightedPrice price first).tdiv (position.totalQuantity first) -
        position.weightedPrice price first) := by
  rw [Position.weightedPrice, Position.weightedPrice, absolute_grown firstPositive increases,
    average_applyTrade firstPositive increases held fits]
  generalize Int.tdiv _ _ = average
  rw [Position.weightedPrice, ScaledValue.raw_add]
  ring

/-- When both parts add to the position, the dividends are less than the
divisor apart. -/
theorem average_split_increases (firstPositive : first.isPositive) (secondPositive : second.isPositive)
    (held : FitsInt64 position.averageEntryPrice.raw) (fits : FitsInt64 price.raw)
    (increases : kind position side first = .increases) :
    |(position.applyTrade side price (first + second)).averageEntryPrice.raw -
      ((position.applyTrade side price first).applyTrade side price second).averageEntryPrice.raw| ≤ 1 := by
  have both := isPositive_add firstPositive secondPositive
  have same := kind_increases increases
  have one : 0 < first.raw := firstPositive
  have other : 0 < second.raw := secondPositive
  have left : sign side * (position.applyTrade side price first).currentQuantity.raw =
      sign side * position.currentQuantity.raw + first.raw := pointing firstPositive
  have middleFits : FitsInt64 (position.applyTrade side price first).averageEntryPrice.raw := by
    rw [average_applyTrade firstPositive increases held fits]
    exact average_fits firstPositive held fits
  have along : 0 < sign side * (position.applyTrade side price first).currentQuantity.raw := by omega
  have total : (position.applyTrade side price first).totalQuantity second =
      position.totalQuantity (first + second) := by
    rw [totalQuantity_add, Position.totalQuantity, absolute_grown firstPositive increases]
  have positive := total_positive position firstPositive
  rw [average_applyTrade both (kind_of_along same) held fits,
    average_applyTrade secondPositive (kind_of_along along) middleFits fits, total]
  apply Truncation.abs_tdiv_sub_tdiv_le (total_positive position both)
  have remainder := Truncation.abs_mul_tdiv_sub_le (position.weightedPrice price first) positive
  rw [weightedPrice_split firstPositive held fits increases, abs_neg, totalQuantity_add]
  omega

variable {report : ExecutionReport}

theorem closed_filling (position : Position) (report : ExecutionReport) (quantity : Quantity) :
    closedQuantity position (filling report quantity) =
      min (-(sign report.side * position.currentQuantity.raw)) quantity.raw := rfl

theorem profit_filling (position : Position) (report : ExecutionReport) (quantity : Quantity) :
    profit position (filling report quantity) =
      sign report.side * (position.averageEntryPrice.raw - report.price.raw) *
        min (-(sign report.side * position.currentQuantity.raw)) quantity.raw := rfl

theorem profit_split (against : sign report.side * position.currentQuantity.raw < 0)
    (firstPositive : first.isPositive) (smaller : first.raw < -(sign report.side * position.currentQuantity.raw)) :
    profit position (filling report (first + second)) =
      profit position (filling report first) +
        profit (position.applyTrade report.side report.price first) (filling report second) := by
  have reduces : kind position report.side first = .reduces := by
    rw [kind_of_against against, if_pos smaller]
  have kept : (position.applyTrade report.side report.price first).averageEntryPrice = position.averageEntryPrice := by
    rw [applyTrade_reduces firstPositive reduces]
  have closed : min (-(sign report.side * position.currentQuantity.raw)) (first.raw + second.raw) =
      min (-(sign report.side * position.currentQuantity.raw)) first.raw +
        min (-(sign report.side * position.currentQuantity.raw + first.raw)) second.raw := by omega
  rw [profit_filling, profit_filling, profit_filling, kept, pointing firstPositive, ← Int.mul_add, ← closed,
    ScaledValue.raw_add]

theorem profits_aligned (middle : Position) (kept : middle.averageEntryPrice = position.averageEntryPrice)
    (firstClosed : 0 ≤ closedQuantity position (filling report first))
    (secondClosed : 0 ≤ closedQuantity middle (filling report second)) :
    0 ≤ profit position (filling report first) ∧ 0 ≤ profit middle (filling report second) ∨
    profit position (filling report first) ≤ 0 ∧ profit middle (filling report second) ≤ 0 := by
  rw [closed_filling] at firstClosed secondClosed
  rw [profit_filling, profit_filling, kept]
  rcases Int.le_total 0 (sign report.side * (position.averageEntryPrice.raw - report.price.raw)) with won | lost
  · exact Or.inl ⟨Int.mul_nonneg won firstClosed, Int.mul_nonneg won secondClosed⟩
  · exact Or.inr ⟨Int.mul_nonpos_of_nonpos_of_nonneg lost firstClosed,
      Int.mul_nonpos_of_nonpos_of_nonneg lost secondClosed⟩

theorem realized_filling (trade : report.execType = .trade) {quantity : Quantity} (positive : quantity.isPositive)
    (fits : FitsInt64 quantity.raw) (against : sign report.side * position.currentQuantity.raw < 0) :
    (PnLCalculator.calculateRealized position (filling report quantity)).raw =
      toInt64 ((profit position (filling report quantity)).tdiv ScaledValue.Scale) := by
  have nonzero : quantity.raw ≠ 0 := Int.ne_of_gt positive
  exact @realized_against position (filling report quantity) trade nonzero (closed_fits fits against) against

theorem realized_split_reduces (trade : report.execType = .trade) (firstPositive : first.isPositive)
    (secondPositive : second.isPositive) (inRange : InRange position report (first + second))
    (against : sign report.side * position.currentQuantity.raw < 0)
    (smaller : first.raw < -(sign report.side * position.currentQuantity.raw)) :
    |(PnLCalculator.calculateRealized position (filling report (first + second))).raw -
      ((PnLCalculator.calculateRealized position (filling report first)).raw +
        (PnLCalculator.calculateRealized (position.applyTrade report.side report.price first)
          (filling report second)).raw)| ≤ 1 := by
  have one : 0 < first.raw := firstPositive
  have other : 0 < second.raw := secondPositive
  have whole : FitsInt64 (first.raw + second.raw) := inRange.traded
  have left : sign report.side * (position.applyTrade report.side report.price first).currentQuantity.raw =
      sign report.side * position.currentQuantity.raw + first.raw := pointing firstPositive
  have still : sign report.side * (position.applyTrade report.side report.price first).currentQuantity.raw < 0 := by
    omega
  have reduces : kind position report.side first = .reduces := by
    rw [kind_of_against against, if_pos smaller]
  have fits := inRange.realized against
  rw [realized_filling trade (isPositive_add firstPositive secondPositive) inRange.traded against,
    realized_filling trade firstPositive (whole.part (by omega)) against,
    realized_filling trade secondPositive (whole.part (by omega)) still]
  rw [profit_split against firstPositive smaller] at fits ⊢
  apply converted_apart ?_ fits
  apply profits_aligned
  · rw [applyTrade_reduces firstPositive reduces]
  · rw [closed_filling]
    omega
  · rw [closed_filling]
    omega

theorem realized_split (trade : report.execType = .trade) (firstPositive : first.isPositive)
    (secondPositive : second.isPositive) (inRange : InRange position report (first + second)) :
    |(PnLCalculator.calculateRealized position (filling report (first + second))).raw -
      ((PnLCalculator.calculateRealized position (filling report first)).raw +
        (PnLCalculator.calculateRealized (position.applyTrade report.side report.price first)
          (filling report second)).raw)| ≤ 1 := by
  have one : 0 < first.raw := firstPositive
  have other : 0 < second.raw := secondPositive
  have whole : FitsInt64 (first.raw + second.raw) := inRange.traded
  have left : sign report.side * (position.applyTrade report.side report.price first).currentQuantity.raw =
      sign report.side * position.currentQuantity.raw + first.raw := pointing firstPositive
  rcases Int.lt_or_le (sign report.side * position.currentQuantity.raw) 0 with against | along
  · by_cases smaller : first.raw < -(sign report.side * position.currentQuantity.raw)
    · exact realized_split_reduces trade firstPositive secondPositive inRange against smaller
    · -- the first part closes all there is to close, as the whole does
      have nothing :
          0 ≤ sign report.side * (position.applyTrade report.side report.price first).currentQuantity.raw := by
        omega
      have same : profit position (filling report (first + second)) = profit position (filling report first) := by
        rw [profit_filling, profit_filling, ScaledValue.raw_add, min_eq_left (by omega), min_eq_left (by omega)]
      rw [realized_filling trade (isPositive_add firstPositive secondPositive) inRange.traded against,
        realized_filling trade firstPositive (whole.part (by omega)) against,
        @realized_none _ (filling report second) nothing, same, Int.add_zero, Int.sub_self]
      decide
  · have still : 0 ≤ sign report.side * (position.applyTrade report.side report.price first).currentQuantity.raw := by
      omega
    rw [@realized_none _ (filling report (first + second)) along, @realized_none _ (filling report first) along,
      @realized_none _ (filling report second) still]
    decide

/-- Two fills leave the quantity of one and, unless both add to a position that
was there, its average price; what is rounded differs by at most one unit. -/
theorem fill_splitting (position : Position) {report : ExecutionReport} (trade : report.execType = .trade)
    {first second : Quantity} (firstPositive : first.isPositive) (secondPositive : second.isPositive)
    (inRange : InRange position report (first + second)) :
    let once := position.applyTrade report.side report.price (first + second)
    let middle := position.applyTrade report.side report.price first
    let twice := middle.applyTrade report.side report.price second
    twice.currentQuantity = once.currentQuantity ∧
    (¬ BothIncrease position report.side report.price first second →
      twice.averageEntryPrice = once.averageEntryPrice) ∧
    |once.averageEntryPrice.raw - twice.averageEntryPrice.raw| ≤ 1 ∧
    |(PnLCalculator.calculateRealized position (filling report (first + second))).raw -
      ((PnLCalculator.calculateRealized position (filling report first)).raw +
        (PnLCalculator.calculateRealized middle (filling report second)).raw)| ≤ 1 := by
  intro once middle twice
  have quantity : twice.currentQuantity = once.currentQuantity := quantity_split firstPositive secondPositive
  have realized := realized_split trade firstPositive secondPositive inRange
  by_cases increases : kind position report.side first = .increases
  · have both : BothIncrease position report.side report.price first second := by
      refine ⟨increases, kind_of_along ?_⟩
      rw [pointing firstPositive]
      exact Int.add_pos (kind_increases increases) firstPositive
    refine ⟨quantity, fun apart => absurd both apart, ?_, realized⟩
    exact average_split_increases firstPositive secondPositive inRange.average inRange.price increases
  · have average : twice.averageEntryPrice = once.averageEntryPrice :=
      average_split firstPositive secondPositive inRange.price increases
    refine ⟨quantity, fun _ => average, ?_, realized⟩
    rw [average, Int.sub_self]
    decide

/-- Each of two units gains half a unit of price, which is lost on the way
down; together they gain a whole one. -/
def heldThree : Position where
  currentQuantity := ⟨3⟩
  averageEntryPrice := ⟨100000000⟩

def sellHigher : ExecutionReport where
  side := .sell
  execType := .trade
  price := ⟨150000000⟩

theorem fill_splitting_halves :
    |(PnLCalculator.calculateRealized heldThree (filling sellHigher ⟨2⟩)).raw -
      ((PnLCalculator.calculateRealized heldThree (filling sellHigher ⟨1⟩)).raw +
        (PnLCalculator.calculateRealized (heldThree.applyTrade .sell ⟨150000000⟩ ⟨1⟩)
          (filling sellHigher ⟨1⟩)).raw)| ≤ 1 := by
  have one : (⟨1⟩ : Quantity).isPositive := by decide
  have split := @fill_splitting heldThree sellHigher rfl ⟨1⟩ ⟨1⟩ one one
    ⟨by decide, by decide, by decide, fun _ => by decide⟩
  exact split.2.2.2

end TradingCore.Proofs.FillSplitting
