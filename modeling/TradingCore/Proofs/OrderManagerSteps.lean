import TradingCore.Execution.ExecutionModule
import TradingCore.Foundation.MapEdits
import TradingCore.Proofs.PositionTrades

/-! What one call on the order manager can do. Later proofs read these
outcomes and never the bodies of the calls. -/

namespace TradingCore.Proofs.OrderManagerSteps
open Std OrderManager PositionTrades

def passes (manager : OrderManager) (request : OrderRequest) : Prop :=
  ¬ isInvalid request ∧
    (manager.riskManager.checkOrder request (manager.positionManager.getOrDefault request.instrument)).1 = .accepted

/-- A creation that returned an error. Only an id that was already taken is
consumed by it. -/
structure Refused (manager : OrderManager) (request : OrderRequest) (next : OrderManager) : Prop where
  orders : next.orders = manager.orders
  gateway : next.gateway = manager.gateway
  positions : next.positionManager = manager.positionManager
  limits : next.riskManager.limits = manager.riskManager.limits
  ids : ¬ passes manager request ∧ next.nextOrderId = manager.nextOrderId ∨
    passes manager request ∧ manager.nextOrderId ∈ manager.orders ∧ next.nextOrderId = manager.nextOrderId + 1

structure Accepted (manager : OrderManager) (request : OrderRequest) (next : OrderManager) : Prop where
  passed : passes manager request
  unused : manager.nextOrderId ∉ manager.orders
  orders : next.orders = manager.orders.insert manager.nextOrderId (newOrder manager.nextOrderId request)
  gateway : next.gateway = manager.gateway.send (newOrder manager.nextOrderId request)
  positions : next.positionManager = manager.positionManager
  limits : next.riskManager.limits = manager.riskManager.limits
  ids : next.nextOrderId = manager.nextOrderId + 1

theorem Accepted.find {manager next : OrderManager} {request : OrderRequest} (accepted : Accepted manager request next)
    (id : OrderId) :
    next.find id =
      if manager.nextOrderId = id then some (newOrder manager.nextOrderId request) else manager.find id := by
  rw [OrderManager.find, accepted.orders, MapEdits.getElem?_insert, OrderManager.find]

theorem checkOrder_limits (manager : RiskManager) (request : OrderRequest) (position : Position) :
    (manager.checkOrder request position).2.limits = manager.limits := by
  simp only [RiskManager.checkOrder]
  split_ifs <;> rfl

theorem createOrder_cases (manager : OrderManager) (request : OrderRequest) :
    (∃ error, (manager.createOrder request).1 = .error error ∧
      Refused manager request (manager.createOrder request).2) ∨
    (manager.createOrder request).1 = .ok manager.nextOrderId ∧
      Accepted manager request (manager.createOrder request).2 := by
  have limits := checkOrder_limits manager.riskManager request
    (manager.positionManager.getOrDefault request.instrument)
  by_cases invalid : isInvalid request
  · refine Or.inl ⟨.invalidRequest, ?_⟩
    have stopped : ¬ passes manager request := fun passed => passed.1 invalid
    simp only [createOrder, invalid, if_true]
    exact ⟨trivial, rfl, rfl, rfl, rfl, Or.inl ⟨stopped, rfl⟩⟩
  cases checked : manager.riskManager.checkOrder request (manager.positionManager.getOrDefault request.instrument) with
  | mk result risk =>
    rw [checked] at limits
    cases result with
    | rejected =>
      refine Or.inl ⟨.riskRejected, ?_⟩
      have stopped : ¬ passes manager request := fun passed => by simp [passes, checked] at passed
      simp only [createOrder, invalid, checked, if_false, ne_eq, reduceCtorEq, not_false_eq_true, if_true]
      exact ⟨trivial, rfl, rfl, rfl, limits, Or.inl ⟨stopped, rfl⟩⟩
    | accepted =>
      have passed : passes manager request := ⟨invalid, by rw [checked]⟩
      by_cases taken : manager.nextOrderId ∈ manager.orders
      · refine Or.inl ⟨.invalidRequest, ?_⟩
        simp only [createOrder, invalid, checked, taken, if_false, ne_eq, not_true_eq_false, if_true]
        exact ⟨trivial, rfl, rfl, rfl, limits, Or.inr ⟨passed, taken, rfl⟩⟩
      · refine Or.inr ?_
        simp only [createOrder, invalid, checked, taken, if_false, ne_eq, not_true_eq_false]
        exact ⟨trivial, passed, taken, rfl, rfl, rfl, limits, rfl⟩

theorem createOrder_invalidRequest_iff (manager : OrderManager) (request : OrderRequest) :
    (manager.createOrder request).1 = .error .invalidRequest ↔
      isInvalid request ∨ passes manager request ∧ manager.nextOrderId ∈ manager.orders := by
  by_cases invalid : isInvalid request
  · rw [createOrder, if_pos invalid]
    exact iff_of_true rfl (Or.inl invalid)
  rw [or_iff_right invalid, passes, and_iff_right invalid]
  cases checked : manager.riskManager.checkOrder request (manager.positionManager.getOrDefault request.instrument) with
  | mk result risk =>
    cases result with
    | rejected => simp [createOrder, invalid, checked]
    | accepted =>
      by_cases taken : manager.nextOrderId ∈ manager.orders
      · simp [createOrder, invalid, checked, taken]
      · simp [createOrder, invalid, checked, taken]

/-- The counter of each way in which a creation is refused. -/
def refusalMetric : OrderCreationError → MetricType
  | .riskRejected => .riskRejected
  | .invalidRequest => .invalidOrdersRequest

theorem createOrder_metrics (manager : OrderManager) (request : OrderRequest) :
    (manager.createOrder request).2.metrics =
      match (manager.createOrder request).1 with
      | .ok _ => manager.metrics
      | .error error => manager.metrics.increment (refusalMetric error) := by
  rw [createOrder]
  split
  next => rfl
  next =>
    dsimp only
    split
    next => rfl
    next =>
      split
      next => rfl
      next => rfl

def fills (order : Order) (report : ExecutionReport) : Prop :=
  report.execType = .trade ∧ order.filledQuantity.raw < report.filledQuantity.raw

/-- A trade whose cumulative quantity shrank is what a position refuses. -/
def shrinks (order : Order) (report : ExecutionReport) : Prop :=
  report.execType = .trade ∧ report.filledQuantity.raw < order.filledQuantity.raw

instance (order : Order) (report : ExecutionReport) : Decidable (fills order report) :=
  inferInstanceAs (Decidable (_ ∧ _))

instance (order : Order) (report : ExecutionReport) : Decidable (shrinks order report) :=
  inferInstanceAs (Decidable (_ ∧ _))

theorem fills_positive {order : Order} {report : ExecutionReport} (filled : fills order report) :
    (report.filledQuantity - order.filledQuantity).isPositive := by
  have grows := filled.2
  simp only [ScaledValue.isPositive, ScaledValue.raw_sub]
  omega

def moved (positions : PositionManager) (order : Order) (report : ExecutionReport) : PositionManager :=
  if fills order report then
    positions.trade report.instrument report.side report.price (report.filledQuantity - order.filledQuantity)
  else positions

theorem applyExecution_unknown {manager : OrderManager} {report : ExecutionReport}
    (unknown : manager.orders[report.clientOrderId]? = none) :
    manager.applyExecution report = (false, manager.increment .invalidExecutionReport) := by
  simp only [applyExecution, unknown]

/-- A report for a tracked order always overwrites it, moves a position when
it fills, and is refused when it shrinks. -/
theorem applyExecution_known {manager : OrderManager} {report : ExecutionReport} {order : Order}
    (known : manager.orders[report.clientOrderId]? = some order) :
    manager.applyExecution report =
      (decide ¬ shrinks order report, { manager with
        orders := manager.orders.insert report.clientOrderId (overwrite order report)
        positionManager := moved manager.positionManager order report }) := by
  by_cases trade : report.execType = .trade
  · rcases Int.lt_trichotomy report.filledQuantity.raw order.filledQuantity.raw with less | same | more
    · have different : report.filledQuantity.raw - order.filledQuantity.raw ≠ 0 := by omega
      have unmoved : ¬ order.filledQuantity.raw < report.filledQuantity.raw := by omega
      simp [applyExecution, known, trade, different, PositionManager.applyTrade, ScaledValue.isPositive,
        moved, fills, shrinks, unmoved, less]
    · simp [applyExecution, known, trade, same, moved, fills, shrinks]
    · have different : report.filledQuantity.raw - order.filledQuantity.raw ≠ 0 := by omega
      have grows : ¬ report.filledQuantity.raw < order.filledQuantity.raw := by omega
      simp [applyExecution, known, trade, different, PositionManager.applyTrade, ScaledValue.isPositive,
        moved, fills, shrinks, grows, more]
  · simp [applyExecution, known, trade, moved, fills, shrinks]

theorem applyExecution_metrics (manager : OrderManager) (report : ExecutionReport) :
    (manager.applyExecution report).2.metrics = manager.metrics ∨
    (manager.applyExecution report).2.metrics = manager.metrics.increment .invalidExecutionReport := by
  cases known : manager.orders[report.clientOrderId]? with
  | none =>
    rw [applyExecution_unknown known]
    exact Or.inr rfl
  | some order =>
    rw [applyExecution_known known]
    exact Or.inl rfl

theorem find_unknown {manager : OrderManager} {report : ExecutionReport}
    (unknown : manager.orders[report.clientOrderId]? = none) (id : OrderId) :
    (manager.applyExecution report).2.find id = manager.find id := by
  rw [applyExecution_unknown unknown]
  rfl

theorem find_known {manager : OrderManager} {report : ExecutionReport} {order : Order}
    (known : manager.orders[report.clientOrderId]? = some order) (id : OrderId) :
    (manager.applyExecution report).2.find id =
      if report.clientOrderId = id then some (overwrite order report) else manager.find id := by
  rw [applyExecution_known known, OrderManager.find, MapEdits.getElem?_insert, OrderManager.find]

/-- A cancel reaches the gateway and nothing else. -/
theorem cancel_frame (manager : OrderManager) (orderId : OrderId) :
    (manager.cancel orderId).2.orders = manager.orders ∧
    (manager.cancel orderId).2.positionManager = manager.positionManager ∧
    (manager.cancel orderId).2.riskManager = manager.riskManager ∧
    (manager.cancel orderId).2.nextOrderId = manager.nextOrderId := by
  rw [OrderManager.cancel]
  split
  · exact ⟨rfl, rfl, rfl, rfl⟩
  · exact ⟨rfl, rfl, rfl, rfl⟩

theorem applyExecution_frame (manager : OrderManager) (report : ExecutionReport) :
    (manager.applyExecution report).2.gateway = manager.gateway ∧
    (manager.applyExecution report).2.riskManager = manager.riskManager ∧
    (manager.applyExecution report).2.nextOrderId = manager.nextOrderId := by
  cases known : manager.orders[report.clientOrderId]? with
  | none =>
    rw [applyExecution_unknown known]
    exact ⟨rfl, rfl, rfl⟩
  | some order =>
    rw [applyExecution_known known]
    exact ⟨rfl, rfl, rfl⟩

/-- A report the execution thread handles sends nothing. -/
theorem report_frame (module : ExecutionModule) (report : ExecutionReport) :
    (module.process (.report report)).orderManager.gateway = module.orderManager.gateway ∧
    (module.process (.report report)).orderManager.riskManager = module.orderManager.riskManager := by
  obtain ⟨gateway, risk, _⟩ := applyExecution_frame (module.orderManager.increment .executionReports) report
  cases answered : (module.orderManager.increment .executionReports).applyExecution report with
  | mk processed next =>
    rw [answered] at gateway risk
    simp only [ExecutionModule.process, ExecutionModule.processReport, ExecutionModule.increment,
      ExecutionModule.record,
      answered]
    cases processed with
    | false => exact ⟨gateway, risk⟩
    | true => exact ⟨gateway, risk⟩

def quantityOf (positions : PositionManager) (instrument : InstrumentId) : Int :=
  (positions.getOrDefault instrument).currentQuantity.raw

theorem quantityOf_trade (positions : PositionManager) (instrument other : InstrumentId) (side : Side)
    (price : Price) {quantity : Quantity} (positive : quantity.isPositive) :
    quantityOf (positions.trade instrument side price quantity) other =
      quantityOf positions other + if instrument = other then sign side * quantity.raw else 0 := by
  simp only [quantityOf, PositionManager.getOrDefault, PositionManager.find, PositionManager.trade,
    MapEdits.getElem?_insert]
  split
  next same =>
    subst same
    simp only [Option.getD_some, quantity_applyTrade positive]
    cases positions.positions[instrument]? <;> rfl
  next => simp

theorem quantityOf_moved (positions : PositionManager) (order : Order) (report : ExecutionReport)
    (instrument : InstrumentId) :
    quantityOf (moved positions order report) instrument =
      quantityOf positions instrument +
        if fills order report ∧ report.instrument = instrument then
          sign report.side * (report.filledQuantity.raw - order.filledQuantity.raw)
        else 0 := by
  rw [moved]
  by_cases filled : fills order report
  · simp only [filled, if_true, true_and, quantityOf_trade _ _ _ _ _ (fills_positive filled), ScaledValue.raw_sub]
  · simp [filled]

end TradingCore.Proofs.OrderManagerSteps
