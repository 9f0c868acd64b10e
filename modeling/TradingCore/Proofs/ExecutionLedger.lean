import TradingCore.Foundation.MapSum
import TradingCore.Proofs.OrderManagerSteps

/-! Positions against the fills recorded on the tracked orders. A report moves
the two by different rules, so whether they agree along a run is decided by the
reports of the run. -/

namespace TradingCore.Proofs.ExecutionLedger
open Std OrderManager OrderManagerSteps PositionTrades

def contribution (instrument : InstrumentId) (order : Order) : Int :=
  if order.instrument = instrument then sign order.side * order.filledQuantity.raw else 0

def ledger (manager : OrderManager) (instrument : InstrumentId) : Int :=
  MapSum.total (fun _ order => contribution instrument order) manager.orders

def Agrees (manager : OrderManager) : Prop :=
  ∀ instrument, quantityOf manager.positionManager instrument = ledger manager instrument

/-- A report that leaves the recorded fill alone, or a trade that adds to it
under the order's own instrument and side. -/
def Consistent (order : Order) (report : ExecutionReport) : Prop :=
  report.filledQuantity = order.filledQuantity ∨
  fills order report ∧ report.instrument = order.instrument ∧ report.side = order.side

instance (order : Order) (report : ExecutionReport) : Decidable (Consistent order report) :=
  inferInstanceAs (Decidable (_ ∨ _))

def ConsistentCall (manager : OrderManager) : Call → Prop
  | .applyExecution report => ∀ order ∈ manager.find report.clientOrderId, Consistent order report
  | .createOrder _ => True
  | .cancel _ => True

theorem contribution_new (instrument : InstrumentId) (id : OrderId) (request : OrderRequest) :
    contribution instrument (newOrder id request) = 0 := by
  simp [contribution, newOrder]

theorem contribution_overwrite (instrument : InstrumentId) (order : Order) (report : ExecutionReport) :
    contribution instrument (overwrite order report) - contribution instrument order =
      if order.instrument = instrument then
        sign order.side * (report.filledQuantity.raw - order.filledQuantity.raw)
      else 0 := by
  by_cases owner : order.instrument = instrument
  · simp only [contribution, overwrite, owner, if_true, Int.mul_sub]
  · simp only [contribution, overwrite, owner, if_false, Int.sub_self]

/-- The two rules add the same to every instrument exactly for consistent
reports. -/
theorem same_movement_iff (order : Order) (report : ExecutionReport) :
    (∀ instrument,
      (if fills order report ∧ report.instrument = instrument then
        sign report.side * (report.filledQuantity.raw - order.filledQuantity.raw) else 0) =
      if order.instrument = instrument then
        sign order.side * (report.filledQuantity.raw - order.filledQuantity.raw) else 0) ↔
    Consistent order report := by
  constructor
  · intro same
    have own := same order.instrument
    rw [if_pos rfl] at own
    by_cases moves : fills order report ∧ report.instrument = order.instrument
    · refine Or.inr ⟨moves.1, moves.2, ?_⟩
      have grows := moves.1.2
      rw [if_pos moves] at own
      cases reported : report.side <;> cases ordered : order.side <;>
        simp only [reported, ordered, sign] at own ⊢ <;> omega
    · refine Or.inl (ScaledValue.ext ?_)
      rw [if_neg moves] at own
      cases ordered : order.side <;> simp only [ordered, sign] at own <;> omega
  · rintro (unchanged | ⟨filled, instrument, side⟩) other
    · simp [unchanged]
    · simp only [filled, instrument, side, true_and]

variable {manager : OrderManager}

theorem agrees_report (agrees : Agrees manager) (report : ExecutionReport) :
    Agrees (manager.applyExecution report).2 ↔
      ∀ order ∈ manager.find report.clientOrderId, Consistent order report := by
  cases known : manager.orders[report.clientOrderId]? with
  | none =>
    rw [applyExecution_unknown known]
    refine iff_of_true agrees ?_
    intro order found
    rw [OrderManager.find, known] at found
    cases found
  | some order =>
    simp only [applyExecution_known known, OrderManager.find, known, Option.mem_some_iff, forall_eq']
    rw [← same_movement_iff]
    apply forall_congr'
    intro instrument
    have before := agrees instrument
    have change := contribution_overwrite instrument order report
    rw [quantityOf_moved, ledger, MapSum.total_insert_held _ _ known, ← change, before, ledger]
    omega

theorem agrees_createOrder (agrees : Agrees manager) (request : OrderRequest) :
    Agrees (manager.createOrder request).2 := by
  intro instrument
  rcases createOrder_cases manager request with ⟨_, _, refused⟩ | ⟨_, accepted⟩
  · rw [ledger, refused.positions, refused.orders]
    exact agrees instrument
  · rw [ledger, accepted.positions, accepted.orders, MapSum.total_insert_new _ _ accepted.unused, contribution_new,
      Int.zero_add]
    exact agrees instrument

theorem agrees_step (manager : OrderManager) (call : Call) (agrees : Agrees manager) :
    Agrees (manager.step call) ↔ ConsistentCall manager call := by
  cases call with
  | createOrder request => exact iff_of_true (agrees_createOrder agrees request) trivial
  | applyExecution report => exact agrees_report agrees report
  | cancel orderId =>
    obtain ⟨orders, positions, _, _⟩ := cancel_frame manager orderId
    refine iff_of_true ?_ trivial
    intro instrument
    rw [OrderManager.step, ledger, positions, orders]
    exact agrees instrument

theorem agrees_fresh (riskManager : RiskManager) : Agrees (OrderManager.fresh riskManager) := by
  intro instrument
  simp [OrderManager.fresh, quantityOf, PositionManager.getOrDefault, PositionManager.find,
    PositionManager.emptyPosition, ledger]

/-- Positions and fills agree throughout a run exactly when every report of
the run is consistent with the order it is about. -/
theorem positions_agree_iff (riskManager : RiskManager) (calls : List Call) :
    (∀ pre, pre <+: calls → Agrees (Runs.after OrderManager.step (OrderManager.fresh riskManager) pre)) ↔
      Runs.Along OrderManager.step ConsistentCall (OrderManager.fresh riskManager) calls :=
  Runs.always_iff agrees_step (agrees_fresh riskManager) calls

/-- The first of two fills is reported once more after the second. -/
def lateTrade : List Call :=
  let report : ExecutionReport := { clientOrderId := 1, instrument := 1, execType := .trade, price := ⟨100⟩ }
  [.createOrder { instrument := 1, price := ⟨100⟩, quantity := ⟨10⟩ },
    .applyExecution { report with status := .partiallyFilled, quantity := ⟨3⟩, filledQuantity := ⟨3⟩ },
    .applyExecution { report with status := .filled, quantity := ⟨7⟩, filledQuantity := ⟨10⟩ },
    .applyExecution { report with status := .partiallyFilled, quantity := ⟨3⟩, filledQuantity := ⟨3⟩ }]

theorem late_trade_disagrees : ¬ Agrees (Runs.after OrderManager.step (OrderManager.fresh {}) lateTrade) := by
  intro agrees
  have same := agrees 1
  revert same
  decide

end TradingCore.Proofs.ExecutionLedger
