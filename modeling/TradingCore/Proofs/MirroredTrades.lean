import TradingCore.Proofs.EntryPrices
import TradingCore.Proofs.PnlConservation
import TradingCore.Proofs.UnrealizedMark

/-! A run of trades next to the same run with every side flipped. The signs,
the absolute values and the two branches of the calculator, which are written
apart, correspond in every kind of trade. -/

namespace TradingCore.Proofs.MirroredTrades
open PositionTrades EntryPrices PnlConservation UnrealizedMark

def settle (position : Position) (trade : TradeReport) : Position :=
  position.applyTrade trade.report.side trade.report.price trade.report.quantity

def mirrored (trade : TradeReport) : TradeReport where
  report := { trade.report with side := opposite trade.report.side }
  trade := trade.trade
  positive := trade.positive

structure Mirrors (position mirror : Position) : Prop where
  quantity : mirror.currentQuantity.raw = -position.currentQuantity.raw
  average : mirror.averageEntryPrice = position.averageEntryPrice

/-- The position stays within 64 bits in both directions, and so does what a
trade against it realizes. -/
def InRange (position : Position) (trade : TradeReport) : Prop :=
  |(settle position trade).currentQuantity.raw| ≤ 2 ^ 63 - 1 ∧
  (sign trade.report.side * position.currentQuantity.raw < 0 →
    FitsInt64 ((profit position trade.report).tdiv ScaledValue.Scale) ∧
    FitsInt64 (-(profit position trade.report).tdiv ScaledValue.Scale))

instance (position : Position) (trade : TradeReport) : Decidable (InRange position trade) :=
  inferInstanceAs (Decidable (_ ∧ _))

variable {position mirror : Position}

theorem Mirrors.direction (mirrors : Mirrors position mirror) (side : Side) :
    sign (opposite side) * mirror.currentQuantity.raw = sign side * position.currentQuantity.raw := by
  rw [mirrors.quantity, sign_opposite, Int.neg_mul_neg]

theorem Mirrors.kind (mirrors : Mirrors position mirror) (side : Side) (quantity : Quantity) :
    PositionTrades.kind mirror (opposite side) quantity = PositionTrades.kind position side quantity := by
  have flat : mirror.currentQuantity.raw = 0 ↔ position.currentQuantity.raw = 0 := by
    rw [mirrors.quantity, Int.neg_eq_zero]
  unfold PositionTrades.kind
  rw [mirrors.direction, if_congr flat rfl rfl]

theorem Mirrors.absolute (mirrors : Mirrors position mirror) :
    mirror.absoluteCurrentQuantity = position.absoluteCurrentQuantity := by
  rw [absoluteCurrentQuantity_eq, absoluteCurrentQuantity_eq, mirrors.quantity, abs_neg]

theorem mirrors_step (position mirror : Position) (trade : TradeReport) (mirrors : Mirrors position mirror) :
    Mirrors (settle position trade) (settle mirror (mirrored trade)) := by
  have positive := trade.positive
  have same := mirrors.kind trade.report.side trade.report.quantity
  unfold settle mirrored
  dsimp only
  constructor
  · rw [quantity_applyTrade positive, quantity_applyTrade positive, mirrors.quantity, sign_opposite, Int.neg_mul,
      Int.neg_add]
  · cases found : PositionTrades.kind position trade.report.side trade.report.quantity with
    | opens => rw [applyTrade_opens positive found, applyTrade_opens positive (same.trans found)]
    | increases =>
      rw [applyTrade_increases positive found, applyTrade_increases positive (same.trans found)]
      simp only [Position.weightedPrice, Position.totalQuantity, mirrors.absolute, mirrors.average]
    | reduces =>
      rw [applyTrade_reduces positive found, applyTrade_reduces positive (same.trans found)]
      exact mirrors.average
    | closes => rw [applyTrade_closes positive found, applyTrade_closes positive (same.trans found)]
    | reverses => rw [applyTrade_reverses positive found, applyTrade_reverses positive (same.trans found)]

theorem closed_mirrored (mirrors : Mirrors position mirror) (trade : TradeReport) :
    closedQuantity mirror (mirrored trade).report = closedQuantity position trade.report := by
  unfold closedQuantity mirrored
  dsimp only
  rw [mirrors.direction]

theorem profit_mirrored (mirrors : Mirrors position mirror) (trade : TradeReport) :
    profit mirror (mirrored trade).report = -profit position trade.report := by
  rw [profit, profit, closed_mirrored mirrors, mirrors.average]
  unfold mirrored
  dsimp only
  rw [sign_opposite, Int.neg_mul, Int.neg_mul]

theorem realized_mirrored (mirrors : Mirrors position mirror) (trade : TradeReport)
    (bounded : |position.currentQuantity.raw| ≤ 2 ^ 63 - 1) (inRange : InRange position trade) :
    (PnLCalculator.calculateRealized mirror (mirrored trade).report).raw =
      -(PnLCalculator.calculateRealized position trade.report).raw := by
  have direction := mirrors.direction trade.report.side
  rcases Int.lt_or_le (sign trade.report.side * position.currentQuantity.raw) 0 with against | along
  · have positive : 0 < trade.report.quantity.raw := trade.positive
    have nonzero : trade.report.quantity.raw ≠ 0 := Int.ne_of_gt positive
    have closed : FitsInt64 (closedQuantity position trade.report) := by
      have size := abs_sign_mul trade.report.side position.currentQuantity.raw
      rw [abs_of_neg against] at size
      unfold closedQuantity FitsInt64
      omega
    have mirroredClosed : FitsInt64 (closedQuantity mirror (mirrored trade).report) := by
      rw [closed_mirrored mirrors]
      exact closed
    obtain ⟨fits, negated⟩ := inRange.2 against
    rw [realized_against trade.trade nonzero closed against, toInt64_of_fits fits,
      realized_against (mirrored trade).trade nonzero mirroredClosed (direction ▸ against), profit_mirrored mirrors,
      Int.neg_tdiv, toInt64_of_fits negated]
  · have mirroredAlong : 0 ≤ sign (mirrored trade).report.side * mirror.currentQuantity.raw := direction ▸ along
    rw [realized_none along, realized_none mirroredAlong]
    rfl

theorem after_mirrored (start : Position) (trades : List TradeReport) :
    Runs.after settle start (trades.map mirrored) =
      Runs.after (fun position trade => settle position (mirrored trade)) start trades :=
  List.foldl_map

theorem mirrors_run {start : Position} (flat : start.isFlat) (trades : List TradeReport) :
    Mirrors (Runs.after settle start trades) (Runs.after settle start (trades.map mirrored)) := by
  rw [after_mirrored]
  apply Runs.related mirrors_step
  refine ⟨?_, rfl⟩
  rw [show start.currentQuantity.raw = 0 from flat, Int.neg_zero]

/-- From flat, flipping every side negates the position after each trade and
what each trade realizes, and leaves the average price alone. -/
theorem long_short_mirrored {start : Position} (flat : start.isFlat) {trades : List TradeReport}
    (inRange : Runs.Along settle InRange start trades) :
    (∀ pre, pre <+: trades →
      Mirrors (Runs.after settle start pre) (Runs.after settle start (pre.map mirrored))) ∧
    ∀ pre trade, pre ++ [trade] <+: trades →
      (PnLCalculator.calculateRealized (Runs.after settle start (pre.map mirrored)) (mirrored trade).report).raw =
        -(PnLCalculator.calculateRealized (Runs.after settle start pre) trade.report).raw := by
  constructor
  · intro pre _
    exact mirrors_run flat pre
  · intro pre trade inside
    obtain ⟨before, last, _⟩ := (Runs.along_append start pre [trade]).mp (Runs.along_prefix inside inRange)
    have bounded : |(Runs.after settle start pre).currentQuantity.raw| ≤ 2 ^ 63 - 1 := by
      have kept : ∀ position trade, |position.currentQuantity.raw| ≤ 2 ^ 63 - 1 → InRange position trade →
          |(settle position trade).currentQuantity.raw| ≤ 2 ^ 63 - 1 := fun _ _ _ inRange => inRange.1
      have none : |start.currentQuantity.raw| ≤ 2 ^ 63 - 1 := by
        rw [show start.currentQuantity.raw = 0 from flat]
        decide
      exact Runs.invariant_along kept none before
    exact realized_mirrored (mirrors_run flat pre) trade bounded last

/-- A long position of three at a hundred and two thirds sells two higher and
one lower than that; in the mirror a short one buys. -/
def roundTrip : List TradeReport :=
  [⟨{ side := .buy, execType := .trade, price := ⟨10000000000⟩, quantity := ⟨100000000⟩ }, rfl, by decide⟩,
    ⟨{ side := .buy, execType := .trade, price := ⟨10100000000⟩, quantity := ⟨200000000⟩ }, rfl, by decide⟩,
    ⟨{ side := .sell, execType := .trade, price := ⟨11000000000⟩, quantity := ⟨200000000⟩ }, rfl, by decide⟩,
    ⟨{ side := .sell, execType := .trade, price := ⟨10000000000⟩, quantity := ⟨100000000⟩ }, rfl, by decide⟩]

theorem long_short_mirrored_roundTrip :
    Mirrors (Runs.after settle {} roundTrip) (Runs.after settle {} (roundTrip.map mirrored)) := by
  have both := @long_short_mirrored {} rfl roundTrip (by decide)
  exact both.1 roundTrip List.prefix_rfl

end TradingCore.Proofs.MirroredTrades
