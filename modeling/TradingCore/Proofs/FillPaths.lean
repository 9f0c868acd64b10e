import TradingCore.Proofs.OrderManagerSteps

/-! A fill reaches a position on two paths: the order manager trades what a
report adds to the order's cumulative fill, the position manager on its own
trades the quantity the report names. -/

namespace TradingCore.Proofs.FillPaths
open Std OrderManager OrderManagerSteps PositionTrades

structure SamePosition (first second : PositionManager) (instrument : InstrumentId) : Prop where
  quantity : (first.getOrDefault instrument).currentQuantity = (second.getOrDefault instrument).currentQuantity
  average : (first.getOrDefault instrument).averageEntryPrice = (second.getOrDefault instrument).averageEntryPrice

theorem samePosition_trade_iff (positions : PositionManager) (instrument : InstrumentId) (side : Side) (price : Price)
    {quantity other : Quantity} (positive : quantity.isPositive) (otherPositive : other.isPositive) :
    SamePosition (positions.trade instrument side price quantity) (positions.trade instrument side price other)
      instrument ↔ other = quantity := by
  constructor
  · intro same
    have moved := quantityOf_trade positions instrument instrument side price positive
    have movedOther := quantityOf_trade positions instrument instrument side price otherPositive
    have equal := congrArg ScaledValue.raw same.quantity
    rw [if_pos rfl] at moved movedOther
    rw [quantityOf] at moved movedOther
    apply ScaledValue.ext
    cases side <;> simp only [sign] at moved movedOther <;> omega
  · rintro rfl
    exact ⟨rfl, rfl⟩

/-- For a Trade that adds to the fill of a tracked order, the two paths leave
the same position exactly when the quantity it names is the quantity it adds. -/
theorem fill_paths_agree_iff {manager : OrderManager} {report : ExecutionReport} {order : Order}
    (tracked : manager.find report.clientOrderId = some order) (trade : report.execType = .trade)
    (positive : report.quantity.isPositive) (grows : order.filledQuantity < report.filledQuantity) :
    SamePosition (manager.applyExecution report).2.positionManager
      (manager.positionManager.applyExecution report).2 report.instrument ↔
        report.quantity = report.filledQuantity - order.filledQuantity := by
  have filled : fills order report := ⟨trade, grows⟩
  have passes : ¬ (report.execType ≠ .trade ∨ ¬ report.quantity.isPositive) := by
    rintro (other | nonpositive)
    · exact other trade
    · exact nonpositive positive
  rw [applyExecution_known tracked, moved, if_pos filled, PositionManager.applyExecution, if_neg passes]
  exact samePosition_trade_iff _ _ _ _ (fills_positive filled) positive

def partlyFilled : OrderManager :=
  OrderManager.fresh {}
    |>.step (.createOrder { instrument := 1, price := ⟨100⟩, quantity := ⟨10⟩ })
    |>.step (.applyExecution {
      clientOrderId := 1, instrument := 1, execType := .trade, price := ⟨100⟩,
      quantity := ⟨3⟩, filledQuantity := ⟨3⟩ })

/-- Two more are filled, under the order's own quantity. -/
def orderQuantityReport : ExecutionReport where
  clientOrderId := 1
  instrument := 1
  execType := .trade
  status := .partiallyFilled
  price := ⟨100⟩
  quantity := ⟨10⟩
  filledQuantity := ⟨5⟩

theorem order_quantity_separates_paths :
    (partlyFilled.find 1).map (fun order => (order.instrument, order.side, order.quantity, order.filledQuantity)) =
      some (1, .buy, ⟨10⟩, ⟨3⟩) ∧
    quantityOf (partlyFilled.applyExecution orderQuantityReport).2.positionManager 1 = 5 ∧
    quantityOf (partlyFilled.positionManager.applyExecution orderQuantityReport).2 1 = 13 := by
  decide

theorem fill_paths_agree_iff_single :
    SamePosition (partlyFilled.applyExecution { orderQuantityReport with quantity := ⟨2⟩ }).2.positionManager
      (partlyFilled.positionManager.applyExecution { orderQuantityReport with quantity := ⟨2⟩ }).2 1 := by
  obtain ⟨order, tracked, recorded⟩ : ∃ order, partlyFilled.find 1 = some order ∧ order.filledQuantity = ⟨3⟩ :=
    Option.map_eq_some_iff.mp (by decide)
  have grows : order.filledQuantity < (⟨5⟩ : Quantity) := by
    rw [recorded]
    decide
  apply (@fill_paths_agree_iff _ { orderQuantityReport with quantity := ⟨2⟩ } order tracked rfl (by decide) grows).mpr
  rw [recorded]
  rfl

end TradingCore.Proofs.FillPaths
