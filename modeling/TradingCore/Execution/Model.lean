import TradingCore.MarketData.Model

/-! Orders, the reports a venue sends back about them, and the messages that
carry both between threads. -/

namespace TradingCore

structure OrderRequest where
  instrument : InstrumentId := 0
  side : Side := .buy
  type : OrderType := .limit
  price : Price := {}
  quantity : Quantity := {}
deriving DecidableEq, Repr

structure Order where
  clientOrderId : OrderId := 0
  exchangeOrderId : ExchangeOrderId := 0
  instrument : InstrumentId := 0
  side : Side := .buy
  type : OrderType := .limit
  price : Price := {}
  quantity : Quantity := {}
  filledQuantity : Quantity := {}
  status : OrderStatus := .new
deriving DecidableEq, Repr

/-- `filledQuantity` is cumulative over the order. `quantity` is documented as
the quantity of the order. -/
structure ExecutionReport where
  clientOrderId : OrderId := 0
  exchangeOrderId : ExchangeOrderId := 0
  instrument : InstrumentId := 0
  side : Side := .buy
  execType : ExecType := .new
  status : OrderStatus := .new
  price : Price := {}
  quantity : Quantity := {}
  filledQuantity : Quantity := {}
deriving DecidableEq, Repr

inductive ExecutionWorkItem where
  | request (request : OrderRequest)
  | report (report : ExecutionReport)
deriving DecidableEq, Repr

inductive RecordingEvent where
  | marketEvent (event : MarketEvent)
  | orderRequest (request : OrderRequest)
  | executionReport (report : ExecutionReport)
deriving DecidableEq, Repr

inductive GatewayCall where
  | send (order : Order)
  | cancel (orderId : OrderId)
deriving DecidableEq, Repr

/-- The gateway is an interface: what the core can do to it is call it, so it
is modelled by the calls it has received, oldest first. -/
structure ExecutionGateway where
  calls : List GatewayCall := []
deriving DecidableEq, Repr

namespace ExecutionGateway

def send (gateway : ExecutionGateway) (order : Order) : ExecutionGateway :=
  { gateway with calls := gateway.calls ++ [.send order] }

def cancel (gateway : ExecutionGateway) (orderId : OrderId) : ExecutionGateway :=
  { gateway with calls := gateway.calls ++ [.cancel orderId] }

def sentOrders (gateway : ExecutionGateway) : List Order :=
  gateway.calls.filterMap fun call => match call with | .send order => some order | .cancel _ => none

def cancelledOrders (gateway : ExecutionGateway) : List OrderId :=
  gateway.calls.filterMap fun call => match call with | .send _ => none | .cancel orderId => some orderId

@[simp] theorem sentOrders_send (gateway : ExecutionGateway) (order : Order) :
    (gateway.send order).sentOrders = gateway.sentOrders ++ [order] := by simp [send, sentOrders]

@[simp] theorem sentOrders_cancel (gateway : ExecutionGateway) (orderId : OrderId) :
    (gateway.cancel orderId).sentOrders = gateway.sentOrders := by simp [cancel, sentOrders]

@[simp] theorem cancelledOrders_send (gateway : ExecutionGateway) (order : Order) :
    (gateway.send order).cancelledOrders = gateway.cancelledOrders := by simp [send, cancelledOrders]

@[simp] theorem cancelledOrders_cancel (gateway : ExecutionGateway) (orderId : OrderId) :
    (gateway.cancel orderId).cancelledOrders = gateway.cancelledOrders ++ [orderId] := by
  simp [cancel, cancelledOrders]

end ExecutionGateway

end TradingCore
