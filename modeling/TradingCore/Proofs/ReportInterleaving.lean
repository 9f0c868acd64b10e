import TradingCore.Foundation.Streams
import TradingCore.Proofs.OrderManagerSteps

/-! Reports of different orders commute. Each tracked order is a machine of its
own, fed by the reports under its id; what the machines answer decides every
position quantity, and signed quantities add up in any order. -/

namespace TradingCore.Proofs.ReportInterleaving
open Std Streams OrderManager OrderManagerSteps PositionTrades

def receive (manager : OrderManager) (report : ExecutionReport) : OrderManager :=
  (manager.applyExecution report).2

def answered : OrderManager → List ExecutionReport → List (ExecutionReport × Bool)
  | _, [] => []
  | manager, report :: rest => (report, (manager.applyExecution report).1) :: answered (receive manager report) rest

def quantityHeld (manager : OrderManager) (instrument : InstrumentId) : Option Quantity :=
  (manager.positionManager.find instrument).map (·.currentQuantity)

/-- A slot of the order table, empty for an unknown id. -/
def next (order : Option Order) (report : ExecutionReport) : Option Order :=
  order.map fun order => overwrite order report

def reply (order : Option Order) (report : ExecutionReport) : Bool × Option Quantity :=
  match order with
  | none => (false, none)
  | some order =>
    (decide ¬ shrinks order report,
      if fills order report then some (report.filledQuantity - order.filledQuantity) else none)

def slots (manager : OrderManager) (id : OrderId) : Option Order := manager.orders[id]?

def replies (manager : OrderManager) (reports : List ExecutionReport) :
    List (ExecutionReport × Bool × Option Quantity) :=
  outputs (·.clientOrderId) next reply (slots manager) reports

def credit (instrument : InstrumentId) (held : Option Quantity)
    (replied : ExecutionReport × Bool × Option Quantity) : Option Quantity :=
  match replied with
  | (report, _, some quantity) =>
    if report.instrument = instrument then some (held.getD {} + report.side.signed quantity) else held
  | (_, _, none) => held

theorem slots_receive (manager : OrderManager) (report : ExecutionReport) :
    slots (receive manager report) = route (·.clientOrderId) next (slots manager) report := by
  funext id
  cases known : manager.orders[report.clientOrderId]? with
  | none =>
    rw [receive, applyExecution_unknown known]
    by_cases own : id = report.clientOrderId
    · subst own
      simp [slots, route, next, known, OrderManager.increment]
    · simp [slots, route, own, OrderManager.increment]
  | some order =>
    rw [receive, applyExecution_known known]
    by_cases own : id = report.clientOrderId
    · subst own
      simp [slots, route, next, known]
    · simp [slots, route, own, ExtTreeMap.getElem?_insert, Ne.symm own]

theorem reply_applied (manager : OrderManager) (report : ExecutionReport) :
    (manager.applyExecution report).1 = (reply (slots manager report.clientOrderId) report).1 := by
  cases known : manager.orders[report.clientOrderId]? with
  | none =>
    rw [applyExecution_unknown known, slots, known]
    rfl
  | some order =>
    rw [applyExecution_known known, slots, known]
    rfl

theorem quantityHeld_receive (manager : OrderManager) (report : ExecutionReport) (instrument : InstrumentId) :
    quantityHeld (receive manager report) instrument =
      credit instrument (quantityHeld manager instrument)
        (report, reply (slots manager report.clientOrderId) report) := by
  cases known : manager.orders[report.clientOrderId]? with
  | none =>
    rw [receive, applyExecution_unknown known, slots, known]
    rfl
  | some order =>
    rw [receive, applyExecution_known known, slots, known]
    by_cases filled : fills order report
    · simp only [quantityHeld, PositionManager.find, moved, filled, if_true, PositionManager.trade, reply, credit,
        MapEdits.getElem?_insert]
      split
      next own =>
        subst own
        refine congrArg some (ScaledValue.ext ?_)
        rw [quantity_applyTrade (fills_positive filled)]
        cases manager.positionManager.positions[report.instrument]? <;> simp
      next => rfl
    · simp only [quantityHeld, moved, filled, if_false, reply, credit]

theorem slots_run (manager : OrderManager) (reports : List ExecutionReport) :
    slots (Runs.after receive manager reports) =
      Runs.after (route (·.clientOrderId) next) (slots manager) reports := by
  induction reports generalizing manager with
  | nil => rfl
  | cons report rest ih => rw [Runs.after_cons, Runs.after_cons, ih, slots_receive]

theorem answered_replies (manager : OrderManager) (reports : List ExecutionReport) :
    answered manager reports = (replies manager reports).map fun replied => (replied.1, replied.2.1) := by
  induction reports generalizing manager with
  | nil => rfl
  | cons report rest ih =>
    rw [answered, ih, reply_applied, replies, slots_receive]
    rfl

theorem quantityHeld_run (manager : OrderManager) (reports : List ExecutionReport) (instrument : InstrumentId) :
    quantityHeld (Runs.after receive manager reports) instrument =
      (replies manager reports).foldl (credit instrument) (quantityHeld manager instrument) := by
  induction reports generalizing manager with
  | nil => rfl
  | cons report rest ih =>
    rw [Runs.after_cons, ih, quantityHeld_receive, replies, slots_receive]
    rfl

instance (instrument : InstrumentId) : RightCommutative (credit instrument) where
  right_comm held first second := by
    obtain ⟨report, _, quantity⟩ := first
    obtain ⟨report', _, quantity'⟩ := second
    cases quantity <;> cases quantity' <;> simp only [credit]
    split <;> split
    · refine congrArg some (ScaledValue.ext ?_)
      simp only [Option.getD_some, ScaledValue.raw_add]
      omega
    all_goals rfl

/-- Arrangements of the same streams of reports per order are answered alike
and end with the same orders and the same quantity of every instrument. -/
theorem reports_interleave (manager : OrderManager) {first second : List ExecutionReport}
    (same : SameStreams (·.clientOrderId) first second) :
    SameStreams (·.1.clientOrderId) (answered manager first) (answered manager second) ∧
    (Runs.after receive manager first).orders = (Runs.after receive manager second).orders ∧
    ∀ instrument, quantityHeld (Runs.after receive manager first) instrument =
      quantityHeld (Runs.after receive manager second) instrument := by
  obtain ⟨slotsSame, repliesSame⟩ := interleaving_independent next reply same (slots manager)
  refine ⟨?_, ?_, ?_⟩
  · rw [answered_replies, answered_replies]
    exact SameStreams.map _ repliesSame
  · apply ExtTreeMap.ext_getElem?
    intro id
    have same := congrFun slotsSame id
    rwa [← slots_run, ← slots_run] at same
  · intro instrument
    rw [quantityHeld_run, quantityHeld_run]
    exact repliesSame.perm.foldl_eq _

def twoOrders : OrderManager :=
  let request : OrderRequest := { instrument := 1, price := ⟨100⟩, quantity := ⟨10⟩ }
  OrderManager.fresh {} |>.step (.createOrder request) |>.step (.createOrder { request with side := .sell })

def buyFill : ExecutionReport where
  clientOrderId := 1
  instrument := 1
  execType := .trade
  price := ⟨100⟩
  filledQuantity := ⟨10⟩

def sellFill : ExecutionReport where
  clientOrderId := 2
  instrument := 1
  side := .sell
  execType := .trade
  price := ⟨110⟩
  filledQuantity := ⟨4⟩

theorem reports_interleave_fills :
    quantityHeld (Runs.after receive twoOrders [buyFill, sellFill]) 1 =
      quantityHeld (Runs.after receive twoOrders [sellFill, buyFill]) 1 := by
  have same : SameStreams (·.clientOrderId) [buyFill, sellFill] [sellFill, buyFill] := by
    intro wanted
    by_cases first : buyFill.clientOrderId = wanted
    · subst first
      decide
    · simp [stream, List.filter_cons, first]
  exact (reports_interleave twoOrders same).2.2 1

end TradingCore.Proofs.ReportInterleaving
