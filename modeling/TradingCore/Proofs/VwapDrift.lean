import Mathlib.Algebra.BigOperators.Intervals
import TradingCore.Proofs.EntryPrices

/-! How far the stored average of a position that only grows falls behind the
exact volume-weighted one. Each increase truncates, and the next one weighs
the truncated value again; the remainders add up. -/

namespace TradingCore.Proofs.VwapDrift
open PositionTrades InstrumentPositions EntryPrices

def traded (trades : List InstrumentPositions.Trade) : Int := (trades.map (·.quantity.raw)).sum

/-- What was paid, exactly: the sum of price times quantity. -/
def paid (trades : List InstrumentPositions.Trade) : Int :=
  (trades.map fun trade => trade.price.raw * trade.quantity.raw).sum

/-- Every trade but the first may drop one unit less than what is then held. -/
def driftAllowance (trades : List InstrumentPositions.Trade) : Int :=
  ∑ count ∈ Finset.Icc 2 trades.length, (traded (trades.take count) - 1)

structure Fills (side : Side) (trade : InstrumentPositions.Trade) : Prop where
  side : trade.side = side
  positive : trade.quantity.isPositive
  price : FitsInt64 trade.price.raw
  nonnegative : ¬ trade.price.isNegative

/-- The position the trades have grown to, next to the exact sums. -/
structure Grown (side : Side) (trades : List InstrumentPositions.Trade) (position : Position) : Prop where
  quantity : position.currentQuantity.raw = sign side * traded trades
  positive : 0 < traded trades
  fits : FitsInt64 position.averageEntryPrice.raw
  nonnegative : 0 ≤ position.averageEntryPrice.raw
  above : position.averageEntryPrice.raw * traded trades ≤ paid trades
  drift : paid trades - position.averageEntryPrice.raw * traded trades ≤ driftAllowance trades
  close : paid trades < (position.averageEntryPrice.raw + trades.length) * traded trades

variable {start position : Position} {side : Side} {trades : List InstrumentPositions.Trade}
  {trade : InstrumentPositions.Trade}

theorem traded_append (trades : List InstrumentPositions.Trade) (trade : InstrumentPositions.Trade) :
    traded (trades ++ [trade]) = traded trades + trade.quantity.raw := by
  simp [traded]

theorem paid_append (trades : List InstrumentPositions.Trade) (trade : InstrumentPositions.Trade) :
    paid (trades ++ [trade]) = paid trades + trade.price.raw * trade.quantity.raw := by
  simp [paid]

theorem driftAllowance_append (some : trades ≠ []) (trade : InstrumentPositions.Trade) :
    driftAllowance (trades ++ [trade]) = driftAllowance trades + (traded (trades ++ [trade]) - 1) := by
  have second : 2 ≤ trades.length + 1 := Nat.succ_le_succ (List.length_pos_of_ne_nil some)
  rw [driftAllowance, List.length_append, List.length_singleton, Finset.sum_Icc_succ_top second]
  congr 1
  · apply Finset.sum_congr rfl
    intro count member
    rw [List.take_append_of_le_length (Finset.mem_Icc.mp member).2]
  · rw [List.take_of_length_le]
    simp

theorem grown_opened (flat : start.isFlat) (fills : Fills side trade) : Grown side [trade] (fold start trade) := by
  have opens : kind start trade.side trade.quantity = .opens := kind_of_flat flat
  have quantity : 0 < trade.quantity.raw := fills.positive
  rw [fold, applyTrade_opens fills.positive opens]
  have owed : traded [trade] = trade.quantity.raw := by simp [traded]
  have cost : paid [trade] = trade.price.raw * trade.quantity.raw := by simp [paid]
  refine ⟨?_, ?_, fills.price, Int.not_lt.mp fills.nonnegative, ?_, ?_, ?_⟩
  · rw [owed, signed_raw, fills.side]
  · rw [owed]
    exact quantity
  · rw [owed, cost]
  · rw [owed, cost, Int.sub_self]
    exact Int.le_refl 0
  · rw [owed, cost, Int.add_mul]
    simpa using quantity

namespace Grown

/-- The fills all point the way of the position, which holds what they traded. -/
theorem along (grown : Grown side trades position) (fills : Fills side trade) :
    sign trade.side * position.currentQuantity.raw = traded trades := by
  have unit : sign side * sign side = 1 := PositionTrades.sign_mul_self side
  rw [fills.side, grown.quantity, ← Int.mul_assoc, unit, Int.one_mul]

theorem size (grown : Grown side trades position) (fills : Fills side trade) :
    position.absoluteCurrentQuantity = traded trades := by
  have along := grown.along fills
  rw [absolute_increases (along ▸ grown.positive), along]

theorem total (grown : Grown side trades position) (fills : Fills side trade) :
    position.totalQuantity trade.quantity = traded (trades ++ [trade]) := by
  rw [Position.totalQuantity, grown.size fills, traded_append]

theorem average (grown : Grown side trades position) (fills : Fills side trade) :
    (fold position trade).averageEntryPrice.raw =
      (position.weightedPrice trade.price trade.quantity).tdiv (position.totalQuantity trade.quantity) :=
  average_applyTrade fills.positive (kind_of_along (grown.along fills ▸ grown.positive)) grown.fits fills.price

/-- A fill adds the remainder of its own division to the drift. -/
theorem drifts (grown : Grown side trades position) (fills : Fills side trade) :
    ∃ lost, 0 ≤ lost ∧ lost < traded (trades ++ [trade]) ∧
      paid (trades ++ [trade]) - (fold position trade).averageEntryPrice.raw * traded (trades ++ [trade]) =
        paid trades - position.averageEntryPrice.raw * traded trades + lost := by
  have total := grown.total fills
  have more : 0 < traded (trades ++ [trade]) := by
    rw [← total]
    exact total_positive position fills.positive
  have costs : 0 ≤ position.weightedPrice trade.price trade.quantity := by
    have worth := le_weighted fills.positive grown.nonnegative (Int.not_lt.mp fills.nonnegative)
    rwa [Int.zero_mul] at worth
  have weighted : position.weightedPrice trade.price trade.quantity =
      position.averageEntryPrice.raw * traded trades + trade.price.raw * trade.quantity.raw := by
    rw [Position.weightedPrice, grown.size fills]
  have split := Int.mul_tdiv_add_tmod (position.weightedPrice trade.price trade.quantity)
    (position.totalQuantity trade.quantity)
  rw [← grown.average fills, total, Int.mul_comm] at split
  refine ⟨_, Int.tmod_nonneg (traded (trades ++ [trade])) costs, Int.tmod_lt_of_pos _ more, ?_⟩
  rw [paid_append]
  omega

theorem step (some : trades ≠ []) (grown : Grown side trades position) (fills : Fills side trade) :
    Grown side (trades ++ [trade]) (fold position trade) := by
  have average := grown.average fills
  have owned := grown.positive
  have bought : 0 < trade.quantity.raw := fills.positive
  have count := traded_append trades trade
  obtain ⟨lost, nonnegative, less, drifted⟩ := grown.drifts fills
  refine ⟨?_, by omega, ?_, ?_, ?_, ?_, ?_⟩
  · rw [fold, quantity_applyTrade fills.positive, grown.quantity, fills.side, traded_append, Int.mul_add]
  · rw [average]
    exact average_fits fills.positive grown.fits fills.price
  · rw [average]
    exact le_average fills.positive grown.nonnegative (Int.not_lt.mp fills.nonnegative)
  · have above := grown.above
    omega
  · have drift := grown.drift
    rw [driftAllowance_append some]
    omega
  · have close := grown.close
    have wider : (trades.length : Int) * traded trades ≤ trades.length * traded (trades ++ [trade]) :=
      Int.mul_le_mul_of_nonneg_left (by omega) (Int.natCast_nonneg _)
    rw [Int.add_mul] at close
    rw [List.length_append, List.length_singleton, Int.natCast_add, Int.natCast_one, ← Int.add_assoc, Int.add_mul,
      Int.add_mul, Int.one_mul]
    omega

end Grown

theorem grown_run (flat : start.isFlat) (some : trades ≠ []) (fills : ∀ trade ∈ trades, Fills side trade) :
    Grown side trades (Runs.after fold start trades) := by
  induction trades using List.reverseRecOn with
  | nil => exact absurd rfl some
  | append_singleton earlier trade ih =>
    have last : Fills side trade := fills trade (by simp)
    rw [Runs.after_append]
    by_cases first : earlier = []
    · subst first
      exact grown_opened flat last
    · exact Grown.step first (ih first fun other member => fills other (List.mem_append_left _ member)) last

/-- A position that is opened and then only grows never averages above the
exact volume-weighted price, and falls behind it by no more than the remainders
of its divisions: less than one unit for each trade. -/
theorem vwap_drift_bounded {start : Position} (flat : start.isFlat) {side : Side}
    {trades : List InstrumentPositions.Trade} (some : trades ≠ []) (fills : ∀ trade ∈ trades, Fills side trade) :
    let average := (Runs.after fold start trades).averageEntryPrice.raw
    (0 ≤ paid trades - average * traded trades ∧ paid trades - average * traded trades ≤ driftAllowance trades) ∧
    average * traded trades ≤ paid trades ∧ paid trades < (average + trades.length) * traded trades := by
  intro average
  have grown := grown_run flat some fills
  exact ⟨⟨Int.sub_nonneg_of_le grown.above, grown.drift⟩, grown.above, grown.close⟩

/-- Three hundred and four paid for three. -/
def growingTrades : List InstrumentPositions.Trade :=
  [⟨1, .buy, ⟨100⟩, ⟨1⟩⟩, ⟨1, .buy, ⟨101⟩, ⟨1⟩⟩, ⟨1, .buy, ⟨103⟩, ⟨1⟩⟩]

theorem vwap_drift_bounded_growing :
    let average := (Runs.after fold {} growingTrades).averageEntryPrice.raw
    (0 ≤ paid growingTrades - average * traded growingTrades ∧
      paid growingTrades - average * traded growingTrades ≤ driftAllowance growingTrades) ∧
    average * traded growingTrades ≤ paid growingTrades ∧
    paid growingTrades < (average + growingTrades.length) * traded growingTrades := by
  apply @vwap_drift_bounded {} rfl .buy growingTrades (by decide)
  intro trade member
  simp only [growingTrades, List.mem_cons, List.not_mem_nil, or_false] at member
  rcases member with rfl | rfl | rfl <;> exact ⟨rfl, by decide, by decide, by decide⟩

end TradingCore.Proofs.VwapDrift
