import TradingCore.Proofs.OrderManagerSteps

/-! What a report that was not applied leaves behind. -/

namespace TradingCore.Proofs.FailedExecutions
open Std OrderManager OrderManagerSteps

/-- A failed report moves no position and touches at most its own order: for a
trade whose cumulative quantity fell, the three fields every report overwrites
are already written when the position refuses it. -/
theorem failed_execution_trace {manager : OrderManager} {report : ExecutionReport}
    (failed : (manager.applyExecution report).1 = false) :
    (manager.applyExecution report).2.positionManager = manager.positionManager ∧
    (∀ id, id ≠ report.clientOrderId → (manager.applyExecution report).2.find id = manager.find id) ∧
    ((manager.find report.clientOrderId = none ∧ (manager.applyExecution report).2.orders = manager.orders) ∨
      ∃ order, manager.find report.clientOrderId = some order ∧ shrinks order report ∧
        (manager.applyExecution report).2.find report.clientOrderId = some (overwrite order report)) := by
  cases known : manager.orders[report.clientOrderId]? with
  | none =>
    rw [applyExecution_unknown known]
    exact ⟨rfl, fun _ _ => rfl, Or.inl ⟨known, rfl⟩⟩
  | some order =>
    rw [applyExecution_known known] at failed ⊢
    have shrunk : shrinks order report := by
      simpa using failed
    have unfilled : ¬ fills order report := by
      intro filled
      have grows := filled.2
      have falls := shrunk.2
      omega
    refine ⟨?_, ?_, Or.inr ⟨order, known, shrunk, ?_⟩⟩
    · simp only [moved, unfilled, if_false]
    · intro id other
      have written := find_known known id
      rw [applyExecution_known known, if_neg (Ne.symm other)] at written
      exact written
    · rw [OrderManager.find, ExtTreeMap.getElem?_insert_self]

def filledOrder : OrderManager :=
  Runs.after OrderManager.step (OrderManager.fresh {})
    [.createOrder { instrument := 1, price := ⟨100⟩, quantity := ⟨10⟩ },
      .applyExecution
        { clientOrderId := 1, exchangeOrderId := 5, instrument := 1, execType := .trade, status := .filled,
          price := ⟨100⟩, quantity := ⟨10⟩, filledQuantity := ⟨10⟩ }]

def staleTrade : ExecutionReport where
  clientOrderId := 1
  exchangeOrderId := 5
  instrument := 1
  execType := .trade
  status := .partiallyFilled
  price := ⟨100⟩
  quantity := ⟨3⟩
  filledQuantity := ⟨3⟩

theorem failed_execution_trace_stale :
    (filledOrder.applyExecution staleTrade).2.positionManager = filledOrder.positionManager :=
  (@failed_execution_trace filledOrder staleTrade (by decide)).1

theorem stale_trade_leaves_trace :
    (filledOrder.applyExecution staleTrade).1 = false ∧
    (filledOrder.applyExecution staleTrade).2.find 1 ≠ filledOrder.find 1 := by
  decide

end TradingCore.Proofs.FailedExecutions
