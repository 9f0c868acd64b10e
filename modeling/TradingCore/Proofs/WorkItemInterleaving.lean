import TradingCore.Foundation.Streams
import TradingCore.Proofs.ExecutionMetrics
import TradingCore.Proofs.RiskEnforcement
import Mathlib.Algebra.BigOperators.Group.List.Basic

/-! Requests of the strategy and reports of the exchange share one queue. What a
request or a report does depends on the order it is about, and on nothing that
concerns another one, so only the sequence of the items of each order matters. -/

namespace TradingCore.Proofs.WorkItemInterleaving
open Std Streams OrderManager OrderManagerSteps PositionTrades ExecutionModule ExecutionMetrics RiskEnforcement

/-- An item with the order that it is about. A request is about the order that is
created for it, if it is valid. -/
abbrev Keyed := Option OrderId × ExecutionWorkItem

def keyed (nextOrderId : OrderId) : ExecutionWorkItem → Keyed
  | .request request => (if isInvalid request then none else some nextOrderId, .request request)
  | .report report => (some report.clientOrderId, .report report)

def nextId (nextOrderId : OrderId) : ExecutionWorkItem → OrderId
  | .request request => if isInvalid request then nextOrderId else nextOrderId + 1
  | .report _ => nextOrderId

/-- The items of a run from the start. -/
def keyedItems (items : List ExecutionWorkItem) : List Keyed :=
  Runs.emitted nextId (fun id item => [keyed id item]) 1 items

/-- What becomes of the order that an item is about. -/
def next (order : Option Order) : Keyed → Option Order
  | (key, .request request) => order.orElse fun _ => key.map fun id => newOrder id request
  | (_, .report report) => order.map fun order => overwrite order report

/-- What an item does otherwise. -/
structure Effect where
  counted : List MetricType
  moved : InstrumentId → Int := fun _ => 0

def refusedRequest : Effect where
  counted := [.orderRequests, .invalidOrdersRequest, .ordersSubmitted]

def effect (order : Option Order) : Keyed → Effect
  | (none, .request _) => refusedRequest
  | (some _, .request _) =>
    match order with
    | none => { counted := [.orderRequests, .ordersSubmitted] }
    | some _ => refusedRequest
  | (_, .report report) =>
    match order with
    | none => { counted := [.executionReports, .invalidExecutionReport, .executionErrors] }
    | some order =>
      { counted := if shrinks order report then [.executionReports, .executionErrors] else [.executionReports]
        moved := fun instrument =>
          if fills order report ∧ report.instrument = instrument then
            sign report.side * (report.filledQuantity.raw - order.filledQuantity.raw)
          else 0 }

def slots (module : ExecutionModule) (key : Option OrderId) : Option Order :=
  key.bind fun id => module.orderManager.orders[id]?

/-- One item on a module without limits, by the order it is about. -/
structure Handles (module : ExecutionModule) (item : Keyed) (after : ExecutionModule) : Prop where
  orders : slots after = route Prod.fst next (slots module) item
  metrics : after.orderManager.metrics =
    Runs.after Metrics.increment module.orderManager.metrics (effect (slots module item.1) item).counted
  positions : ∀ instrument, quantityOf after.orderManager.positionManager instrument =
    quantityOf module.orderManager.positionManager instrument + (effect (slots module item.1) item).moved instrument

theorem createOrder_unlimited {manager : OrderManager} (unlimited : manager.riskManager.limits = {})
    (request : OrderRequest) :
    ((isInvalid request ∨ manager.nextOrderId ∈ manager.orders) ∧
      Refused manager request (manager.createOrder request).2 ∧
      (manager.createOrder request).2.metrics = manager.metrics.increment .invalidOrdersRequest) ∨
    (¬ isInvalid request ∧ Accepted manager request (manager.createOrder request).2 ∧
      (manager.createOrder request).2.metrics = manager.metrics) := by
  have metrics := createOrder_metrics manager request
  have invalidRequest := createOrder_invalidRequest_iff manager request
  rw [passes_unlimited unlimited] at invalidRequest
  rcases createOrder_cases manager request with ⟨error, failed, refused⟩ | ⟨succeeded, accepted⟩
  · left
    have stopped : isInvalid request ∨ manager.nextOrderId ∈ manager.orders := by
      rcases refused.ids with ⟨stopped, _⟩ | ⟨_, taken, _⟩
      · rw [passes_unlimited unlimited, not_not] at stopped
        exact Or.inl stopped
      · exact Or.inr taken
    have invalid := invalidRequest.mpr (by tauto)
    rw [invalid] at metrics
    exact ⟨stopped, refused, metrics⟩
  · right
    rw [succeeded] at metrics
    exact ⟨accepted.passed.1, accepted, metrics⟩

variable {module after : ExecutionModule}

/-- An item that leaves the orders alone. -/
theorem handles_unordered {item : Keyed} (orders : after.orderManager.orders = module.orderManager.orders)
    (kept : next (slots module item.1) item = slots module item.1)
    (metrics : after.orderManager.metrics =
      Runs.after Metrics.increment module.orderManager.metrics (effect (slots module item.1) item).counted)
    (positions : after.orderManager.positionManager = module.orderManager.positionManager)
    (unmoved : (effect (slots module item.1) item).moved = fun _ => 0) : Handles module item after where
  orders := by
    rw [route, kept, Function.update_eq_self]
    funext key
    rw [slots, slots, orders]
  metrics := metrics
  positions instrument := by rw [positions, unmoved, Int.add_zero]

/-- An item that stores an order. -/
theorem slots_insert {id : OrderId} {order : Order}
    (orders : after.orderManager.orders = module.orderManager.orders.insert id order) :
    slots after = Function.update (slots module) (some id) (some order) := by
  funext key
  cases key with
  | none => rfl
  | some other =>
    rw [slots, Option.bind_some, orders, MapEdits.getElem?_insert]
    by_cases same : id = other
    · rw [if_pos same, same, Function.update_self]
    · rw [if_neg same, Function.update_of_ne (fun equal => same (Option.some.inj equal).symm)]
      rfl

theorem handles_refused {request : OrderRequest} {key : Option OrderId}
    (refused : Refused (module.orderManager.increment .orderRequests) request
      ((module.orderManager.increment .orderRequests).createOrder request).2)
    (metrics : ((module.orderManager.increment .orderRequests).createOrder request).2.metrics =
      (module.orderManager.increment .orderRequests).metrics.increment .invalidOrdersRequest)
    (kept : next (slots module key) (key, .request request) = slots module key)
    (counts : effect (slots module key) (key, .request request) = refusedRequest) :
    Handles module (key, .request request) (module.process (.request request)) := by
  apply handles_unordered
  · exact refused.orders
  · exact kept
  · have counted : (module.process (.request request)).orderManager.metrics =
        ((module.orderManager.increment .orderRequests).createOrder request).2.metrics.increment .ordersSubmitted := rfl
    rw [counted, metrics, counts]
    rfl
  · exact refused.positions
  · rw [counts]
    rfl

theorem handles_request (unlimited : Unlimited module) (request : OrderRequest) :
    Handles module (keyed module.orderManager.nextOrderId (.request request)) (module.process (.request request)) := by
  rcases @createOrder_unlimited (module.orderManager.increment .orderRequests) unlimited request with
    ⟨stopped, refused, metrics⟩ | ⟨valid, accepted, metrics⟩
  · rw [keyed]
    by_cases invalid : isInvalid request
    · rw [if_pos invalid]
      exact handles_refused refused metrics rfl rfl
    · rw [if_neg invalid]
      have taken : module.orderManager.nextOrderId ∈ module.orderManager.orders := stopped.resolve_left invalid
      have held : slots module (some module.orderManager.nextOrderId) = some (module.orderManager.orders.get _ taken) :=
        ExtTreeMap.getElem?_eq_some_getElem taken
      apply handles_refused refused metrics
      · rw [held]
        rfl
      · rw [held]
        rfl
  · rw [keyed, if_neg valid]
    have unused : slots module (some module.orderManager.nextOrderId) = none :=
      ExtTreeMap.getElem?_eq_none accepted.unused
    have positions : (module.process (.request request)).orderManager.positionManager =
      module.orderManager.positionManager := accepted.positions
    have counted : (module.process (.request request)).orderManager.metrics =
      ((module.orderManager.increment .orderRequests).createOrder request).2.metrics.increment .ordersSubmitted := rfl
    refine ⟨?_, ?_, ?_⟩
    · rw [route, unused]
      exact slots_insert accepted.orders
    · rw [counted, metrics, unused]
      rfl
    · intro instrument
      rw [positions, unused]
      exact (Int.add_zero _).symm

theorem process_report (module : ExecutionModule) (report : ExecutionReport) :
    (module.process (.report report)).orderManager =
      if ((module.orderManager.increment .executionReports).applyExecution report).1 then
        ((module.orderManager.increment .executionReports).applyExecution report).2
      else ((module.orderManager.increment .executionReports).applyExecution report).2.increment .executionErrors := by
  cases applied : (module.orderManager.increment .executionReports).applyExecution report with
  | mk processed manager =>
    simp only [ExecutionModule.process, ExecutionModule.processReport, ExecutionModule.increment,
      ExecutionModule.record, applied]
    cases processed with
    | false => rfl
    | true => rfl

theorem handles_report (module : ExecutionModule) (report : ExecutionReport) :
    Handles module (keyed module.orderManager.nextOrderId (.report report)) (module.process (.report report)) := by
  have processed := process_report module report
  cases known : module.orderManager.orders[report.clientOrderId]? with
  | none =>
    have unknown : slots module (some report.clientOrderId) = none := known
    rw [@applyExecution_unknown (module.orderManager.increment .executionReports) _ known] at processed
    apply handles_unordered
    · rw [processed]
      rfl
    · rw [keyed, unknown]
      rfl
    · rw [processed, keyed, unknown]
      rfl
    · rw [processed]
      rfl
    · rw [keyed, unknown]
      rfl
  | some order =>
    have held : slots module (some report.clientOrderId) = some order := known
    rw [@applyExecution_known (module.orderManager.increment .executionReports) _ _ known] at processed
    have orders : (module.process (.report report)).orderManager.orders =
        module.orderManager.orders.insert report.clientOrderId (overwrite order report) := by
      rw [processed]
      split <;> rfl
    have positions : (module.process (.report report)).orderManager.positionManager =
        moved module.orderManager.positionManager order report := by
      rw [processed]
      split <;> rfl
    refine ⟨?_, ?_, ?_⟩
    · rw [keyed, route, held]
      exact slots_insert orders
    · rw [processed, keyed, held]
      by_cases shrunk : shrinks order report
      · simp only [effect, shrunk, if_true]
        rfl
      · simp only [effect, shrunk, if_false]
        rfl
    · intro instrument
      rw [positions, keyed, held, quantityOf_moved]
      rfl

theorem handles (unlimited : Unlimited module) (item : ExecutionWorkItem) :
    Handles module (keyed module.orderManager.nextOrderId item) (module.process item) := by
  cases item with
  | request request => exact handles_request unlimited request
  | report report => exact handles_report module report

theorem process_nextId (unlimited : Unlimited module) (item : ExecutionWorkItem) :
    (module.process item).orderManager.nextOrderId = nextId module.orderManager.nextOrderId item := by
  cases item with
  | report report =>
    obtain ⟨_, _, ids⟩ := applyExecution_frame (module.orderManager.increment .executionReports) report
    rw [process_report]
    split
    next => exact ids
    next => exact ids
  | request request =>
    rw [nextId]
    have passed := @passes_unlimited (module.orderManager.increment .orderRequests) unlimited request
    rcases createOrder_cases (module.orderManager.increment .orderRequests) request with
      ⟨_, _, refused⟩ | ⟨_, accepted⟩
    · rcases refused.ids with ⟨stopped, same⟩ | ⟨valid, _, grown⟩
      · rw [if_pos (not_not.mp (passed.not.mp stopped))]
        exact same
      · rw [if_neg (passed.mp valid)]
        exact grown
    · rw [if_neg accepted.passed.1]
      exact accepted.ids

/-- What a module without limits has done after the items of a run. -/
structure Handled (module : ExecutionModule) (items : List Keyed) (after : ExecutionModule) : Prop where
  orders : slots after = Runs.after (route Prod.fst next) (slots module) items
  metrics : after.orderManager.metrics = Runs.after Metrics.increment module.orderManager.metrics
    ((outputs Prod.fst next effect (slots module) items).flatMap (·.2.counted))
  positions : ∀ instrument, quantityOf after.orderManager.positionManager instrument =
    quantityOf module.orderManager.positionManager instrument +
      ((outputs Prod.fst next effect (slots module) items).map (·.2.moved instrument)).sum

theorem handled (unlimited : Unlimited module) (items : List ExecutionWorkItem) :
    Handled module (Runs.emitted nextId (fun id item => [keyed id item]) module.orderManager.nextOrderId items)
      (module.run items) := by
  induction items generalizing module with
  | nil => exact ⟨rfl, rfl, fun _ => (Int.add_zero _).symm⟩
  | cons item rest ih =>
    have first := handles unlimited item
    have later := ih (unlimited_process module item unlimited)
    rw [process_nextId unlimited] at later
    rw [Runs.emitted_cons, List.singleton_append]
    refine ⟨?_, ?_, ?_⟩
    · rw [Runs.after_cons, ← first.orders]
      exact later.orders
    · rw [outputs, List.flatMap_cons, Runs.after_append, ← first.orders, ← first.metrics]
      exact later.metrics
    · intro instrument
      rw [outputs, List.map_cons, List.sum_cons, ← Int.add_assoc, ← first.orders, ← first.positions]
      exact later.positions instrument

/-- What the requests alone lead to: the next id and the orders that are sent. -/
abbrev Submitted := OrderId × List Order

def submit (submitted : Submitted) (request : OrderRequest) : Submitted :=
  if isInvalid request then submitted
  else
    (submitted.1 + 1,
      if ∃ order ∈ submitted.2, order.clientOrderId = submitted.1 then submitted.2
      else submitted.2 ++ [newOrder submitted.1 request])

structure Submits (submitted : Submitted) (module : ExecutionModule) : Prop where
  ids : module.orderManager.nextOrderId = submitted.1
  sent : module.orderManager.gateway.sentOrders = submitted.2
  tracked : ∀ id, id ∈ module.orderManager.orders ↔ ∃ order ∈ submitted.2, order.clientOrderId = id

theorem Submits.request (unlimited : Unlimited module) {submitted : Submitted} (submits : Submits submitted module)
    (request : OrderRequest) : Submits (submit submitted request) (module.process (.request request)) := by
  have ids := process_nextId unlimited (.request request)
  rw [nextId, submits.ids] at ids
  rcases @createOrder_unlimited (module.orderManager.increment .orderRequests) unlimited request with
    ⟨stopped, refused, _⟩ | ⟨valid, accepted, _⟩
  · have sent : (module.process (.request request)).orderManager.gateway.sentOrders = submitted.2 :=
      (congrArg ExecutionGateway.sentOrders refused.gateway).trans submits.sent
    have orders : (module.process (.request request)).orderManager.orders = module.orderManager.orders := refused.orders
    have tracked := submits.tracked
    rw [← orders] at tracked
    by_cases invalid : isInvalid request
    · rw [if_pos invalid] at ids
      rw [submit, if_pos invalid]
      exact ⟨ids, sent, tracked⟩
    · have taken : module.orderManager.nextOrderId ∈ module.orderManager.orders := stopped.resolve_left invalid
      rw [submits.ids, submits.tracked] at taken
      rw [if_neg invalid] at ids
      rw [submit, if_neg invalid, if_pos taken]
      exact ⟨ids, sent, tracked⟩
  · have sent : (module.process (.request request)).orderManager.gateway =
        module.orderManager.gateway.send (newOrder module.orderManager.nextOrderId request) := accepted.gateway
    have orders : (module.process (.request request)).orderManager.orders =
        module.orderManager.orders.insert module.orderManager.nextOrderId
          (newOrder module.orderManager.nextOrderId request) := accepted.orders
    have unused : module.orderManager.nextOrderId ∉ module.orderManager.orders := accepted.unused
    rw [submits.ids, submits.tracked] at unused
    rw [if_neg valid] at ids
    rw [submit, if_neg valid, if_neg unused]
    refine ⟨ids, ?_, ?_⟩
    · rw [sent, ExecutionGateway.sentOrders_send, submits.sent, submits.ids]
    · intro id
      rw [orders, ExtTreeMap.mem_insert, submits.tracked, submits.ids, LawfulEqCmp.compare_eq_iff_eq]
      constructor
      · rintro (own | ⟨order, member, own⟩)
        · exact ⟨_, List.mem_concat_self, own⟩
        · exact ⟨order, List.mem_append_left _ member, own⟩
      · rintro ⟨order, member, own⟩
        rcases List.mem_append.mp member with earlier | last
        · exact Or.inr ⟨order, earlier, own⟩
        · rw [List.mem_singleton] at last
          subst last
          exact Or.inl own

/-- A report replaces an order that is there already. -/
theorem mem_orders_report (module : ExecutionModule) (report : ExecutionReport) (id : OrderId) :
    id ∈ (module.process (.report report)).orderManager.orders ↔ id ∈ module.orderManager.orders := by
  have mem_slots : ∀ module : ExecutionModule, id ∈ module.orderManager.orders ↔ (slots module (some id)).isSome :=
    fun _ => ExtTreeMap.mem_iff_isSome_getElem?
  rw [mem_slots, mem_slots, (handles_report module report).orders, keyed, route]
  by_cases own : id = report.clientOrderId
  · subst own
    rw [Function.update_self, next, Option.isSome_map]
  · rw [Function.update_of_ne (fun same => own (Option.some.inj same))]

theorem Submits.process (unlimited : Unlimited module) {submitted : Submitted} (submits : Submits submitted module)
    (item : ExecutionWorkItem) :
    Submits (Runs.after submit submitted (requested item)) (module.process item) := by
  cases item with
  | request request => exact submits.request unlimited request
  | report report =>
    refine ⟨?_, ?_, ?_⟩
    · rw [process_nextId unlimited]
      exact submits.ids
    · rw [(report_frame module report).1]
      exact submits.sent
    · intro id
      rw [mem_orders_report]
      exact submits.tracked id

theorem submits_run (unlimited : Unlimited module) {submitted : Submitted} (submits : Submits submitted module)
    (items : List ExecutionWorkItem) :
    Submits (Runs.after submit submitted (items.flatMap requested)) (module.run items) := by
  induction items generalizing module submitted with
  | nil => exact submits
  | cons item rest ih =>
    rw [List.flatMap_cons, Runs.after_append]
    exact ih (unlimited_process module item unlimited) (submits.process unlimited item)

theorem submits_construct (config : Config) : Submits (1, []) (construct config) := by
  refine ⟨rfl, rfl, ?_⟩
  intro id
  refine iff_of_false ExtTreeMap.not_mem_empty ?_
  rintro ⟨order, member, _⟩
  cases member

theorem value_counted (metrics : Metrics) (types : List MetricType) (type : MetricType) :
    (Runs.after Metrics.increment metrics types).value type = metrics.value type + types.count type := by
  induction types generalizing metrics with
  | nil => rfl
  | cons counted rest ih =>
    rw [Runs.after_cons, ih, Metrics.value_increment, List.count_cons, Nat.add_right_comm, Nat.add_assoc]
    simp only [beq_iff_eq, @eq_comm _ counted type]

/-- Two schedules in which the requests come in the same order, and the items of
each order do, leave a module without limits alike. -/
theorem work_items_interleave (config : Config) {first second : List ExecutionWorkItem}
    (requests : first.flatMap requested = second.flatMap requested)
    (same : SameStreams Prod.fst (keyedItems first) (keyedItems second)) :
    ((construct config).run first).orderManager.orders = ((construct config).run second).orderManager.orders ∧
    ((construct config).run first).orderManager.gateway.sentOrders =
      ((construct config).run second).orderManager.gateway.sentOrders ∧
    (∀ instrument, quantityOf ((construct config).run first).orderManager.positionManager instrument =
      quantityOf ((construct config).run second).orderManager.positionManager instrument) ∧
    ∀ type, counter ((construct config).run first) type = counter ((construct config).run second) type := by
  have handledFirst := handled (unlimited_construct config) first
  have handledSecond := handled (unlimited_construct config) second
  have sentFirst := (submits_run (unlimited_construct config) (submits_construct config) first).sent
  have sentSecond := (submits_run (unlimited_construct config) (submits_construct config) second).sent
  obtain ⟨slotsSame, effectsSame⟩ := interleaving_independent next effect same (slots (construct config))
  have perm := effectsSame.perm
  refine ⟨?_, ?_, ?_, ?_⟩
  · apply ExtTreeMap.ext_getElem?
    intro id
    have ended : slots ((construct config).run first) = slots ((construct config).run second) := by
      rw [handledFirst.orders, handledSecond.orders]
      exact slotsSame
    exact congrFun ended (some id)
  · rw [sentFirst, sentSecond, requests]
  · intro instrument
    rw [handledFirst.positions, handledSecond.positions]
    exact congrArg _ (perm.map _).sum_eq
  · intro type
    rw [counter, counter, handledFirst.metrics, handledSecond.metrics, value_counted, value_counted]
    exact congrArg _ ((perm.flatMap_right _).count_eq type)

def ask (instrument : InstrumentId) : OrderRequest where
  instrument := instrument
  price := ⟨100⟩
  quantity := ⟨10⟩

def fill (order : OrderId) (instrument : InstrumentId) : ExecutionReport where
  clientOrderId := order
  instrument := instrument
  execType := .trade
  price := ⟨100⟩
  filledQuantity := ⟨10⟩

def eager : List ExecutionWorkItem := [.request (ask 7), .report (fill 1 7), .request (ask 8), .report (fill 2 8)]

def late : List ExecutionWorkItem := [.request (ask 7), .request (ask 8), .report (fill 2 8), .report (fill 1 7)]

/-- The first fill comes before the second request or after everything else. -/
theorem work_items_interleave_late :
    ((construct {}).run eager).orderManager.orders = ((construct {}).run late).orderManager.orders := by
  have same : SameStreams Prod.fst (keyedItems eager) (keyedItems late) := by
    intro wanted
    have keyedEager : keyedItems eager = [(some 1, .request (ask 7)), (some 1, .report (fill 1 7)),
      (some 2, .request (ask 8)), (some 2, .report (fill 2 8))] := rfl
    have keyedLate : keyedItems late = [(some 1, .request (ask 7)), (some 2, .request (ask 8)),
      (some 2, .report (fill 2 8)), (some 1, .report (fill 1 7))] := rfl
    rw [keyedEager, keyedLate]
    by_cases first : some 1 = wanted
    · subst first
      rfl
    · simp [stream, List.filter_cons, first]
  have requests : eager.flatMap requested = late.flatMap requested := rfl
  exact (work_items_interleave {} requests same).1

end TradingCore.Proofs.WorkItemInterleaving
