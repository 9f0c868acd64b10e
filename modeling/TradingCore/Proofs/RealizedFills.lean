import TradingCore.Proofs.InstrumentPositions
import TradingCore.Proofs.PnlRange

/-! Realized profit against the fills a position accepts. The calculator only
leaves out reports without quantity where the position manager takes none that
is not positive, so a negative quantity can be realized and not applied. -/

namespace TradingCore.Proofs.RealizedFills
open PositionTrades PnlConservation UnrealizedMark PnlRange

/-- A report that realizes a profit is applied to the position it is computed
on, and takes it toward zero or through it. -/
def Backed (manager : PositionManager) (position : Position) (report : ExecutionReport) : Prop :=
  (PnLCalculator.calculateRealized position report).raw ≠ 0 →
    (manager.applyExecution report).1 = true ∧
    ∃ moved, (manager.applyExecution report).2.find report.instrument = some moved ∧
      (moved.currentQuantity.raw - position.currentQuantity.raw) * position.currentQuantity.raw < 0

/-- The truncated product of the price difference and the quantity leaves
nothing in 64 bits. -/
def Vanishes (position : Position) (report : ExecutionReport) : Prop :=
  (2 ^ 64 : Int) ∣ (tradeDifference position report * report.quantity.raw).tdiv ScaledValue.Scale

/-- The report has no negative quantity, or nothing is realized for it. -/
def Sound (position : Position) (report : ExecutionReport) : Prop :=
  ¬ report.quantity.isNegative ∨ report.execType ≠ .trade ∨
    0 ≤ sign report.side * position.currentQuantity.raw ∨ Vanishes position report

variable {manager : PositionManager} {position : Position} {report : ExecutionReport}

theorem toInt64_eq_zero_iff (value : Int) : toInt64 value = 0 ↔ (2 ^ 64 : Int) ∣ value :=
  Int.dvd_iff_bmod_eq_zero.symm

theorem realized_nothing (none : report.execType ≠ .trade ∨ report.quantity.isZero) :
    PnLCalculator.calculateRealized position report = {} := if_pos none

theorem find_applyExecution (trade : report.execType = .trade) (positive : report.quantity.isPositive)
    (held : manager.find report.instrument = some position) :
    (manager.applyExecution report).1 = true ∧
    (manager.applyExecution report).2.find report.instrument =
      some (position.applyTrade report.side report.price report.quantity) := by
  have taken : ¬ (report.execType ≠ .trade ∨ ¬ report.quantity.isPositive) := by
    simp [trade, positive]
  rw [PositionManager.find] at held
  rw [PositionManager.applyExecution, if_neg taken]
  refine ⟨rfl, ?_⟩
  rw [PositionManager.find, PositionManager.trade, MapEdits.getElem?_insert, if_pos rfl, held]
  rfl

theorem backed_positive (positive : report.quantity.isPositive)
    (held : manager.find report.instrument = some position) : Backed manager position report := by
  intro realized
  have trade : report.execType = .trade := by
    by_contra other
    rw [realized_nothing (Or.inl other)] at realized
    exact realized rfl
  have against : sign report.side * position.currentQuantity.raw < 0 := by
    by_contra along
    exact realized (realized_none (Int.not_lt.mp along))
  obtain ⟨accepted, found⟩ := find_applyExecution trade positive held
  refine ⟨accepted, _, found, ?_⟩
  have moves : position.currentQuantity.raw + sign report.side * report.quantity.raw - position.currentQuantity.raw =
      sign report.side * report.quantity.raw := by omega
  rw [quantity_applyTrade positive, moves, Int.mul_right_comm]
  exact Int.mul_neg_of_neg_of_pos against positive

/-- A negative quantity is never applied, so it must not be realized. -/
theorem backed_negative (negative : report.quantity.isNegative) :
    Backed manager position report ↔ (PnLCalculator.calculateRealized position report).raw = 0 := by
  have refused : (manager.applyExecution report).1 = false := by
    have nonpositive : ¬ report.quantity.isPositive := Int.not_lt.mpr (Int.le_of_lt negative)
    rw [PositionManager.applyExecution, if_pos (Or.inr nonpositive)]
  constructor
  · intro backed
    by_contra realized
    have accepted := (backed realized).1
    rw [refused] at accepted
    cases accepted
  · intro none realized
    exact absurd none realized

theorem realized_negative (trade : report.execType = .trade) (negative : report.quantity.isNegative)
    (traded : FitsInt64 report.quantity.raw) (against : sign report.side * position.currentQuantity.raw < 0) :
    (PnLCalculator.calculateRealized position report).raw = 0 ↔ Vanishes position report := by
  have below : report.quantity.raw < 0 := negative
  have closed : closedQuantity position report = report.quantity.raw := by
    rw [closedQuantity]
    omega
  rw [realized_against trade (Int.ne_of_lt below) (closed_fits traded against) against, toInt64_eq_zero_iff, profit,
    closed]
  rfl

/-- Realized profit is backed by a fill exactly when the report has no negative
quantity for which something is realized. -/
theorem realized_backed_iff (held : manager.find report.instrument = some position)
    (traded : FitsInt64 report.quantity.raw) : Backed manager position report ↔ Sound position report := by
  rw [Sound]
  rcases Int.lt_trichotomy report.quantity.raw 0 with negative | zero | positive
  · rw [backed_negative negative]
    by_cases trade : report.execType = .trade
    · rcases Int.lt_or_le (sign report.side * position.currentQuantity.raw) 0 with against | along
      · rw [realized_negative trade negative traded against]
        simp [negative, trade, against]
      · simp [realized_none along, along]
    · simp [realized_nothing (Or.inl trade), trade]
  · refine iff_of_true ?_ (Or.inl (by omega))
    intro realized
    rw [realized_nothing (Or.inr zero)] at realized
    exact absurd rfl realized
  · exact iff_of_true (backed_positive positive held) (Or.inl (by omega))

theorem realized_backed_iff_fifty :
    Backed (({} : PositionManager).applyTrade 1 .buy ⟨10000000000⟩ ⟨10000000000⟩).2 heldHundred sellFifty := by
  apply (@realized_backed_iff (({} : PositionManager).applyTrade 1 .buy ⟨10000000000⟩ ⟨10000000000⟩).2 heldHundred
    sellFifty (by decide) (by decide)).mpr
  exact Or.inl (by decide)

def sellMinusFifty : ExecutionReport := { sellFifty with quantity := ⟨-5000000000⟩ }

theorem minus_fifty_unbacked :
    (({} : PositionManager).applyTrade 1 .buy ⟨10000000000⟩ ⟨10000000000⟩).2.find sellMinusFifty.instrument =
      some heldHundred ∧
    ¬ Backed (({} : PositionManager).applyTrade 1 .buy ⟨10000000000⟩ ⟨10000000000⟩).2 heldHundred sellMinusFifty := by
  refine ⟨by decide, ?_⟩
  intro backed
  have accepted := (backed (by decide)).1
  revert accepted
  decide

end TradingCore.Proofs.RealizedFills
