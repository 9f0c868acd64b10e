import TradingCore.Core.Metrics
import TradingCore.Foundation.Runs
import TradingCore.Position.PositionManager
import TradingCore.Risk.RiskManager

/-! The lifecycle of tracked orders. The manager refers to the risk manager,
the positions, the gateway and the thread's metrics; it is their only user on
its thread, so they are part of its state here. -/

namespace TradingCore

open Std

inductive OrderCreationError where
  | riskRejected
  | invalidRequest
deriving DecidableEq, Repr

abbrev OrderCreationResult := Except OrderCreationError OrderId

structure OrderManager where
  riskManager : RiskManager := {}
  positionManager : PositionManager := {}
  gateway : ExecutionGateway := {}
  metrics : Metrics := {}
  orders : ExtTreeMap OrderId Order compare := ∅
  nextOrderId : OrderId := 1

namespace OrderManager

abbrev isInvalid (request : OrderRequest) : Prop :=
  request.instrument = 0 ∨ request.quantity.isZero ∨ ¬ request.quantity.isPositive ∨
    request.price.isZero ∨ ¬ request.price.isPositive

def newOrder (orderId : OrderId) (request : OrderRequest) : Order where
  clientOrderId := orderId
  exchangeOrderId := 0
  instrument := request.instrument
  side := request.side
  type := request.type
  price := request.price
  quantity := request.quantity
  filledQuantity := {}
  status := .new

def increment (manager : OrderManager) (type : MetricType) : OrderManager :=
  { manager with metrics := manager.metrics.increment type }

def createOrder (manager : OrderManager) (request : OrderRequest) : OrderCreationResult × OrderManager :=
  if isInvalid request then
    (.error .invalidRequest, manager.increment .invalidOrdersRequest)
  else
    let position := manager.positionManager.getOrDefault request.instrument
    let (riskResult, riskManager) := manager.riskManager.checkOrder request position
    let manager := { manager with riskManager }
    if riskResult ≠ .accepted then
      (.error .riskRejected, manager.increment .riskRejected)
    else
      let orderId := manager.nextOrderId
      let manager := { manager with nextOrderId := orderId + 1 }
      let order := newOrder orderId request
      -- `emplace` inserts nothing when the id is already a key
      if orderId ∈ manager.orders then
        (.error .invalidRequest, manager.increment .invalidOrdersRequest)
      else
        (.ok orderId, { manager with
          orders := manager.orders.insert orderId order
          gateway := manager.gateway.send order })

/-- The three fields every report overwrites, whatever it reports. -/
def overwrite (order : Order) (report : ExecutionReport) : Order :=
  { order with
    exchangeOrderId := report.exchangeOrderId
    status := report.status
    filledQuantity := report.filledQuantity }

def applyExecution (manager : OrderManager) (report : ExecutionReport) : Bool × OrderManager :=
  match manager.orders[report.clientOrderId]? with
  | none => (false, manager.increment .invalidExecutionReport)
  | some order =>
    let executionQuantity := report.filledQuantity - order.filledQuantity
    let manager := { manager with orders := manager.orders.insert report.clientOrderId (overwrite order report) }
    if report.execType = .trade ∧ ¬ executionQuantity.isZero then
      let (applied, positionManager) :=
        manager.positionManager.applyTrade report.instrument report.side report.price executionQuantity
      -- a refused trade returns false after the order has been overwritten
      (applied, { manager with positionManager })
    else
      (true, manager)

def find (manager : OrderManager) (orderId : OrderId) : Option Order :=
  manager.orders[orderId]?

def cancel (manager : OrderManager) (orderId : OrderId) : Bool × OrderManager :=
  if orderId ∈ manager.orders then
    (true, { manager with gateway := manager.gateway.cancel orderId })
  else
    (false, manager)

inductive Call where
  | createOrder (request : OrderRequest)
  | applyExecution (report : ExecutionReport)
  | cancel (orderId : OrderId)
deriving DecidableEq, Repr

def step (manager : OrderManager) : Call → OrderManager
  | .createOrder request => (manager.createOrder request).2
  | .applyExecution report => (manager.applyExecution report).2
  | .cancel orderId => (manager.cancel orderId).2

def fresh (riskManager : RiskManager) : OrderManager := { riskManager }

end OrderManager

end TradingCore
