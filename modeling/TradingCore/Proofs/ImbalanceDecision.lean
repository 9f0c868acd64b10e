import Mathlib.Algebra.Order.Ring.Abs
import Mathlib.Data.Rat.Cast.Order
import Mathlib.Tactic.Linarith
import TradingCore.Strategy.ImbalanceStrategy

/-! The decision of the strategy against the quotient it stands for. The code
compares two products instead of dividing; what it decides is monotone in both
quantities because neither the sum nor the difference of the two threshold
values is negative. -/

namespace TradingCore.Proofs.ImbalanceDecision

/-- A threshold of 64-bit values that the configuration loader lets through. -/
structure Threshold (strategy : ImbalanceStrategy) : Prop where
  denominator : 0 < strategy.thresholdDenominator
  numerator : 0 ≤ strategy.thresholdNumerator
  within : strategy.thresholdNumerator ≤ strategy.thresholdDenominator
  fits : FitsInt64 strategy.thresholdDenominator

structure Displayed (event : MarketEvent) : Prop where
  bid : ¬ event.bestBidQuantity.isNegative
  ask : ¬ event.bestAskQuantity.isNegative
  bidFits : FitsInt64 event.bestBidQuantity.raw
  askFits : FitsInt64 event.bestAskQuantity.raw

/-- The share of both quantities by which the first one is larger. -/
def imbalance (first second : Quantity) : ℚ := (first.raw - second.raw) / (first.raw + second.raw)

def threshold (strategy : ImbalanceStrategy) : ℚ := strategy.thresholdNumerator / strategy.thresholdDenominator

def Outweighs (strategy : ImbalanceStrategy) (first second : Quantity) : Prop :=
  second < first ∧ threshold strategy ≤ imbalance first second

/-- The signal the quotients call for. -/
def Deserves (strategy : ImbalanceStrategy) (event : MarketEvent) : Signal → Prop
  | .none => ¬ Outweighs strategy event.bestBidQuantity event.bestAskQuantity ∧
      ¬ Outweighs strategy event.bestAskQuantity event.bestBidQuantity
  | .buy => Outweighs strategy event.bestBidQuantity event.bestAskQuantity
  | .sell => Outweighs strategy event.bestAskQuantity event.bestBidQuantity

/-- The values the code holds in 128 bits, in the order it computes them. -/
def intermediates (strategy : ImbalanceStrategy) (event : MarketEvent) : List Int :=
  let bidQuantity := event.bestBidQuantity.raw
  let askQuantity := event.bestAskQuantity.raw
  let totalQuantity := bidQuantity + askQuantity
  let difference := bidQuantity - askQuantity
  [bidQuantity, askQuantity, totalQuantity, difference, difference * strategy.thresholdDenominator,
    totalQuantity * strategy.thresholdNumerator, -difference, -difference * strategy.thresholdDenominator]

def exchanged (event : MarketEvent) : MarketEvent :=
  { event with bestBidQuantity := event.bestAskQuantity, bestAskQuantity := event.bestBidQuantity }

def reversed : Signal → Signal
  | .none => .none
  | .buy => .sell
  | .sell => .buy

variable {strategy : ImbalanceStrategy} {event : MarketEvent} {first second larger smaller : Quantity}

theorem Displayed.exchanged (displayed : Displayed event) : Displayed (exchanged event) where
  bid := displayed.ask
  ask := displayed.bid
  bidFits := displayed.askFits
  askFits := displayed.bidFits

/-- A value no larger than the sum of two quantities times one no larger than
a threshold value. -/
theorem product_fits {value factor : Int} (quantities : |value| ≤ 2 ^ 64 - 2) (nonnegative : 0 ≤ factor)
    (fits : FitsInt64 factor) : FitsInt128 (value * factor) := by
  have product : |value * factor| ≤ (2 ^ 64 - 2) * (2 ^ 63 - 1) := by
    rw [abs_mul, abs_of_nonneg nonnegative]
    exact Int.mul_le_mul quantities (Int.le_sub_one_of_lt fits.2) nonnegative (by decide)
  rw [abs_le] at product
  exact ⟨by omega, by omega⟩

theorem intermediates_fit (valid : Threshold strategy) (displayed : Displayed event) :
    ∀ value ∈ intermediates strategy event, FitsInt128 value := by
  obtain ⟨bid, ask, bidFits, askFits⟩ := displayed
  have denominator := Int.le_of_lt valid.denominator
  have numeratorFits : FitsInt64 strategy.thresholdNumerator :=
    valid.fits.part (Or.inl ⟨valid.numerator, valid.within⟩)
  unfold FitsInt64 at bidFits askFits
  have total : |event.bestBidQuantity.raw + event.bestAskQuantity.raw| ≤ 2 ^ 64 - 2 := by
    rw [abs_le]
    omega
  have difference : |event.bestBidQuantity.raw - event.bestAskQuantity.raw| ≤ 2 ^ 64 - 2 := by
    rw [abs_le]
    omega
  have opposite : |-(event.bestBidQuantity.raw - event.bestAskQuantity.raw)| ≤ 2 ^ 64 - 2 := by
    rw [abs_neg]
    exact difference
  have left := product_fits difference denominator valid.fits
  have right := product_fits total valid.numerator numeratorFits
  have mirrored := product_fits opposite denominator valid.fits
  simp only [intermediates, List.forall_mem_cons, List.not_mem_nil, false_imp_iff, implies_true, and_true]
  refine ⟨?_, ?_, ?_, ?_, left, right, ?_, mirrored⟩ <;> unfold FitsInt128 <;> omega

/-- The two products decide as the two quotients do. -/
theorem outweighs_iff (valid : Threshold strategy) (nonnegative : ¬ second.isNegative) :
    Outweighs strategy first second ↔
      second.raw < first.raw ∧
      (first.raw + second.raw) * strategy.thresholdNumerator ≤
        (first.raw - second.raw) * strategy.thresholdDenominator := by
  apply and_congr_right
  intro less
  have less : second.raw < first.raw := less
  have total : (0 : ℚ) < first.raw + second.raw := by
    rw [← Int.cast_add, Int.cast_pos]
    omega
  have denominator : (0 : ℚ) < strategy.thresholdDenominator := Int.cast_pos.mpr valid.denominator
  rw [threshold, imbalance, div_le_div_iff₀ denominator total, mul_comm (strategy.thresholdNumerator : ℚ)]
  norm_cast

theorem evaluate_buy_iff (valid : Threshold strategy) (displayed : Displayed event) :
    strategy.evaluate event = .buy ↔ Outweighs strategy event.bestBidQuantity event.bestAskQuantity := by
  have bid := displayed.bid
  have ask := displayed.ask
  rw [outweighs_iff valid ask]
  simp only [ImbalanceStrategy.evaluate]
  split_ifs with empty more reached less reached
  · exact iff_of_false (by decide) (by omega)
  · exact iff_of_true rfl ⟨by omega, reached⟩
  · exact iff_of_false (by decide) (by omega)
  · exact iff_of_false (by decide) (by omega)
  · exact iff_of_false (by decide) (by omega)
  · exact iff_of_false (by decide) (by omega)

theorem evaluate_sell_iff (valid : Threshold strategy) (displayed : Displayed event) :
    strategy.evaluate event = .sell ↔ Outweighs strategy event.bestAskQuantity event.bestBidQuantity := by
  have bid := displayed.bid
  have ask := displayed.ask
  have opposite : event.bestAskQuantity.raw - event.bestBidQuantity.raw =
      -(event.bestBidQuantity.raw - event.bestAskQuantity.raw) := by omega
  rw [outweighs_iff valid bid, Int.add_comm event.bestAskQuantity.raw, opposite]
  simp only [ImbalanceStrategy.evaluate]
  split_ifs with empty more reached less reached
  · exact iff_of_false (by decide) (by omega)
  · exact iff_of_false (by decide) (by omega)
  · exact iff_of_false (by decide) (by omega)
  · exact iff_of_true rfl ⟨by omega, reached⟩
  · exact iff_of_false (by decide) (by omega)
  · exact iff_of_false (by decide) (by omega)

theorem evaluate_eq_iff (valid : Threshold strategy) (displayed : Displayed event) (signal : Signal) :
    strategy.evaluate event = signal ↔ Deserves strategy event signal := by
  cases signal with
  | none =>
    rw [Deserves, ← evaluate_buy_iff valid displayed, ← evaluate_sell_iff valid displayed]
    cases strategy.evaluate event <;> decide
  | buy => exact evaluate_buy_iff valid displayed
  | sell => exact evaluate_sell_iff valid displayed

theorem Deserves.exchanged {signal : Signal} (deserved : Deserves strategy event signal) :
    Deserves strategy (exchanged event) (reversed signal) := by
  cases signal with
  | none => exact And.symm deserved
  | buy => exact deserved
  | sell => exact deserved

theorem evaluate_exchanged (valid : Threshold strategy) (displayed : Displayed event) :
    strategy.evaluate (exchanged event) = reversed (strategy.evaluate event) := by
  apply (evaluate_eq_iff valid displayed.exchanged _).mpr
  exact ((evaluate_eq_iff valid displayed _).mp rfl).exchanged

/-- More of the first quantity and less of the second still outweigh. -/
theorem Outweighs.grow (valid : Threshold strategy) (outweighs : Outweighs strategy first second)
    (nonnegative : ¬ second.isNegative) (grows : first ≤ larger) (less : ¬ smaller.isNegative)
    (shrinks : smaller ≤ second) : Outweighs strategy larger smaller := by
  obtain ⟨more, reached⟩ := (outweighs_iff valid nonnegative).mp outweighs
  have grows : first.raw ≤ larger.raw := grows
  have shrinks : smaller.raw ≤ second.raw := shrinks
  apply (outweighs_iff valid less).mpr
  refine ⟨by omega, ?_⟩
  have gained : 0 ≤ (larger.raw - first.raw) * (strategy.thresholdDenominator - strategy.thresholdNumerator) :=
    Int.mul_nonneg (by omega) (Int.sub_nonneg_of_le valid.within)
  have given : 0 ≤ (second.raw - smaller.raw) * (strategy.thresholdDenominator + strategy.thresholdNumerator) :=
    Int.mul_nonneg (by omega) (Int.add_nonneg (Int.le_of_lt valid.denominator) valid.numerator)
  linarith

/-- The strategy overflows nowhere and decides as the quotients do. Exchanging
the quantities exchanges the signals, and a signal is kept when its own side
grows or the other one shrinks. -/
theorem decision_exact (valid : Threshold strategy) (displayed : Displayed event) :
    (∀ value ∈ intermediates strategy event, FitsInt128 value) ∧
    (∀ signal, strategy.evaluate event = signal ↔ Deserves strategy event signal) ∧
    strategy.evaluate (exchanged event) = reversed (strategy.evaluate event) ∧
    (∀ other, Displayed other → event.bestBidQuantity ≤ other.bestBidQuantity →
      other.bestAskQuantity ≤ event.bestAskQuantity →
        strategy.evaluate event = .buy → strategy.evaluate other = .buy) ∧
    ∀ other, Displayed other → event.bestAskQuantity ≤ other.bestAskQuantity →
      other.bestBidQuantity ≤ event.bestBidQuantity →
        strategy.evaluate event = .sell → strategy.evaluate other = .sell := by
  refine ⟨intermediates_fit valid displayed, evaluate_eq_iff valid displayed, evaluate_exchanged valid displayed,
    ?_, ?_⟩
  · intro other shown grows shrinks buys
    have outweighs := (evaluate_buy_iff valid displayed).mp buys
    exact (evaluate_buy_iff valid shown).mpr (outweighs.grow valid displayed.ask grows shown.ask shrinks)
  · intro other shown grows shrinks sells
    have outweighs := (evaluate_sell_iff valid displayed).mp sells
    exact (evaluate_sell_iff valid shown).mpr (outweighs.grow valid displayed.bid grows shown.bid shrinks)

/-- Exactly seven tenths. -/
theorem decision_exact_boundary :
    ImbalanceStrategy.evaluate {} { bestBidQuantity := ⟨85⟩, bestAskQuantity := ⟨15⟩ } = .buy ∧
    Outweighs {} ⟨85⟩ ⟨15⟩ := by
  have valid : Threshold {} := ⟨by decide, by decide, by decide, by decide⟩
  have displayed : Displayed { bestBidQuantity := ⟨85⟩, bestAskQuantity := ⟨15⟩ } :=
    ⟨by decide, by decide, by decide, by decide⟩
  have buys : ImbalanceStrategy.evaluate {} { bestBidQuantity := ⟨85⟩, bestAskQuantity := ⟨15⟩ } = .buy := by decide
  exact ⟨buys, ((decision_exact valid displayed).2.1 .buy).mp buys⟩

end TradingCore.Proofs.ImbalanceDecision
