import TradingCore.Proofs.OrderManagerSteps

/-! The counters of the execution thread against the work it has done. A
request is counted as submitted whatever becomes of it, so the counters balance
as long as no request is refused. -/

namespace TradingCore.Proofs.ExecutionMetrics
open OrderManager OrderManagerSteps ExecutionModule

def counter (module : ExecutionModule) (type : MetricType) : Nat := module.orderManager.metrics.value type

def refusedRequests (module : ExecutionModule) : Nat :=
  counter module .riskRejected + counter module .invalidOrdersRequest

def ordersSent (module : ExecutionModule) : Nat := module.orderManager.gateway.sentOrders.length

def requested : ExecutionWorkItem → List OrderRequest
  | .request request => [request]
  | .report _ => []

def reported : ExecutionWorkItem → List ExecutionReport
  | .request _ => []
  | .report report => [report]

/-- The error of the creation that an item leads to, if there is one. -/
def refusals (module : ExecutionModule) : ExecutionWorkItem → List OrderCreationError
  | .request request =>
    match ((module.increment .orderRequests).orderManager.createOrder request).1 with
    | .ok _ => []
    | .error error => [error]
  | .report _ => []

/-- The report of an item, if it is not processed. -/
def failures (module : ExecutionModule) : ExecutionWorkItem → List ExecutionReport
  | .request _ => []
  | .report report =>
    if ((module.increment .executionReports).orderManager.applyExecution report).1 then [] else [report]

/-- What the counters of a thread that started at zero say after some items. -/
structure Balanced (start : ExecutionModule) (items : List ExecutionWorkItem) : Prop where
  submitted : ordersSent (start.run items) = ordersSent start + counter (start.run items) .ordersSubmitted
  requests : counter (start.run items) .orderRequests =
    counter (start.run items) .ordersSubmitted + counter (start.run items) .riskRejected +
      counter (start.run items) .invalidOrdersRequest
  reports : counter (start.run items) .executionReports = (items.flatMap reported).length
  errors : counter (start.run items) .executionErrors = (Runs.emitted process failures start items).length

/-- The request is valid, the risk check accepts it at its turn, and its id is
not in use. -/
def Submitted (module : ExecutionModule) : ExecutionWorkItem → Prop
  | .request request =>
    passes module.orderManager request ∧ module.orderManager.nextOrderId ∉ module.orderManager.orders
  | .report _ => True

theorem refusals_eq_nil_iff (module : ExecutionModule) (item : ExecutionWorkItem) :
    refusals module item = [] ↔ Submitted module item := by
  cases item with
  | report report => exact iff_of_true rfl trivial
  | request request =>
    rcases createOrder_cases (module.increment .orderRequests).orderManager request with
      ⟨error, answered, refused⟩ | ⟨answered, accepted⟩
    · refine iff_of_false ?_ ?_
      · rw [refusals, answered]
        exact List.cons_ne_nil error []
      · intro ⟨passed, unused⟩
        rcases refused.ids with ⟨stopped, _⟩ | ⟨_, taken, _⟩
        · exact stopped passed
        · exact unused taken
    · refine iff_of_true ?_ ⟨accepted.passed, accepted.unused⟩
      rw [refusals, answered]

theorem counter_request (module : ExecutionModule) (request : OrderRequest) (type : MetricType) :
    counter (module.process (.request request)) type =
      counter module type + (if type = .orderRequests then 1 else 0) +
        ((refusals module (.request request)).map refusalMetric).count type +
        if type = .ordersSubmitted then 1 else 0 := by
  have metrics := createOrder_metrics (module.increment .orderRequests).orderManager request
  have counted : counter (module.process (.request request)) type =
      (((module.increment .orderRequests).orderManager.createOrder request).2.metrics.increment
        .ordersSubmitted).value type := rfl
  have before : ((module.increment .orderRequests).orderManager.metrics).value type =
      counter module type + if type = .orderRequests then 1 else 0 := Metrics.value_increment ..
  rw [counted, metrics, refusals, Metrics.value_increment]
  cases ((module.increment .orderRequests).orderManager.createOrder request).1 with
  | ok orderId => rw [before, List.map_nil, List.count_nil, Nat.add_zero]
  | error error =>
    have once : [refusalMetric error].count type = if type = refusalMetric error then 1 else 0 := by
      by_cases same : type = refusalMetric error
      · rw [if_pos same, same, List.count_singleton_self]
      · rw [if_neg same, List.count_singleton, if_neg (by simpa using Ne.symm same)]
    rw [Metrics.value_increment, before, List.map_singleton, once]

/-- An invalid report is also counted by the order manager, in a counter of its
own. -/
theorem counter_report (module : ExecutionModule) (report : ExecutionReport) {type : MetricType}
    (other : type ≠ .invalidExecutionReport) :
    counter (module.process (.report report)) type =
      counter module type + (if type = .executionReports then 1 else 0) +
        if type = .executionErrors then (failures module (.report report)).length else 0 := by
  have before : ((module.increment .executionReports).orderManager.metrics).value type =
      counter module type + if type = .executionReports then 1 else 0 := Metrics.value_increment ..
  have applied : (((module.increment .executionReports).orderManager.applyExecution report).2.metrics).value type =
      counter module type + if type = .executionReports then 1 else 0 := by
    rcases applyExecution_metrics (module.increment .executionReports).orderManager report with same | invalid
    · rw [same, before]
    · rw [invalid, Metrics.value_increment, before, if_neg other, Nat.add_zero]
  cases answered : (module.increment .executionReports).orderManager.applyExecution report with
  | mk processed next =>
    have handled : (module.orderManager.increment .executionReports).applyExecution report = (processed, next) :=
      answered
    rw [answered] at applied
    simp only [process, processReport, ExecutionModule.increment, record, handled, failures]
    cases processed with
    | true =>
      simp only [if_true, List.length_nil, ite_self, Nat.add_zero]
      exact applied
    | false =>
      have errors : counter ⟨next.increment .executionErrors, module.recordingQueue ++ [.executionReport report]⟩ type =
          next.metrics.value type + if type = .executionErrors then 1 else 0 := Metrics.value_increment ..
      simp only [Bool.false_eq_true, if_false, errors, applied, List.length_singleton]

theorem count_other {type : MetricType} (other : ∀ error, refusalMetric error ≠ type)
    (errors : List OrderCreationError) : (errors.map refusalMetric).count type = 0 := by
  rw [List.count_eq_zero, List.mem_map]
  intro ⟨error, _, same⟩
  exact other error same

theorem count_refused (errors : List OrderCreationError) :
    (errors.map refusalMetric).count .riskRejected + (errors.map refusalMetric).count .invalidOrdersRequest =
      errors.length := by
  induction errors with
  | nil => rfl
  | cons error rest ih =>
    cases error
    · simp [refusalMetric, ← ih, Nat.add_right_comm]
    · simp [refusalMetric, ← ih, Nat.add_assoc]

theorem adds_request {type : MetricType} (either : type = .orderRequests ∨ type = .ordersSubmitted)
    (module : ExecutionModule) (item : ExecutionWorkItem) :
    counter (module.process item) type = counter module type + (requested item).length := by
  cases item with
  | request request =>
    rw [counter_request, count_other (by rintro (_ | _) rfl <;> simp [refusalMetric] at either)]
    rcases either with rfl | rfl
    · rfl
    · rfl
  | report report =>
    rcases either with rfl | rfl
    · exact counter_report module report (by decide)
    · exact counter_report module report (by decide)

theorem adds_refusal (module : ExecutionModule) (item : ExecutionWorkItem) :
    refusedRequests (module.process item) = refusedRequests module + (refusals module item).length := by
  rw [refusedRequests, refusedRequests]
  cases item with
  | request request =>
    rw [counter_request, counter_request, ← count_refused]
    simp only [reduceCtorEq, if_false, Nat.add_zero]
    exact Nat.add_add_add_comm ..
  | report report =>
    rw [counter_report module report (by decide), counter_report module report (by decide)]
    rfl

theorem ordersSent_request (module : ExecutionModule) (request : OrderRequest) :
    ordersSent (module.process (.request request)) + (refusals module (.request request)).length =
      ordersSent module + 1 := by
  rcases createOrder_cases (module.increment .orderRequests).orderManager request with
    ⟨error, answered, refused⟩ | ⟨answered, accepted⟩
  · have same : (module.process (.request request)).orderManager.gateway = module.orderManager.gateway :=
      refused.gateway
    rw [ordersSent, same, refusals, answered]
    rfl
  · have sent : (module.process (.request request)).orderManager.gateway =
        module.orderManager.gateway.send (newOrder module.orderManager.nextOrderId request) := accepted.gateway
    rw [ordersSent, sent, refusals, answered, ExecutionGateway.sentOrders_send, List.length_append]
    rfl

theorem adds_order (module : ExecutionModule) (item : ExecutionWorkItem) :
    ordersSent (module.process item) + refusedRequests (module.process item) =
      ordersSent module + refusedRequests module + (requested item).length := by
  rw [adds_refusal]
  cases item with
  | request request =>
    have sent := ordersSent_request module request
    have one : (requested (.request request)).length = 1 := rfl
    omega
  | report report =>
    rw [ordersSent, (report_frame module report).1]
    rfl

/-- A request moves neither of the counters about reports. -/
theorem counter_unreported (module : ExecutionModule) (request : OrderRequest) {type : MetricType}
    (either : type = .executionReports ∨ type = .executionErrors) :
    counter (module.process (.request request)) type = counter module type := by
  rw [counter_request, count_other (by rintro (_ | _) rfl <;> simp [refusalMetric] at either)]
  rcases either with rfl | rfl
  · rfl
  · rfl

theorem adds_report (module : ExecutionModule) (item : ExecutionWorkItem) :
    counter (module.process item) .executionReports = counter module .executionReports + (reported item).length := by
  cases item with
  | request request => exact counter_unreported module request (Or.inl rfl)
  | report report => exact counter_report module report (by decide)

theorem adds_failure (module : ExecutionModule) (item : ExecutionWorkItem) :
    counter (module.process item) .executionErrors =
      counter module .executionErrors + (failures module item).length := by
  cases item with
  | request request => exact counter_unreported module request (Or.inr rfl)
  | report report => exact counter_report module report (by decide)

theorem balanced_iff {start : ExecutionModule} (zero : ∀ type, counter start type = 0)
    (items : List ExecutionWorkItem) :
    Balanced start items ↔ Runs.emitted process refusals start items = [] := by
  have requests := Runs.counted (counter · .orderRequests) (adds_request (Or.inl rfl)) start items
  have submitted := Runs.counted (counter · .ordersSubmitted) (adds_request (Or.inr rfl)) start items
  have refused := Runs.counted refusedRequests adds_refusal start items
  have sent := Runs.counted (fun module => ordersSent module + refusedRequests module) adds_order start items
  have reports := Runs.counted (counter · .executionReports) adds_report start items
  have errors := Runs.counted (counter · .executionErrors) adds_failure start items
  rw [← ExecutionModule.run] at requests submitted refused sent reports errors
  rw [Runs.emitted_fixed] at requests submitted sent reports
  simp only [refusedRequests, zero, Nat.zero_add, Nat.add_zero] at requests submitted refused sent reports errors
  rw [← List.length_eq_zero_iff]
  constructor
  · intro balanced
    have agreed := balanced.submitted
    omega
  · intro none
    refine ⟨?_, ?_, reports, errors⟩
    · omega
    · omega

/-- After every prefix of the items the counters balance exactly when no
request among them is refused. -/
theorem counters_balance_iff (start : ExecutionModule) (items : List ExecutionWorkItem)
    (zero : ∀ type, counter start type = 0) :
    (∀ pre, pre <+: items → Balanced start pre) ↔ Runs.Along process Submitted start items := by
  have unrefused : ∀ pre, Balanced start pre ↔ Runs.Along process Submitted start pre := by
    intro pre
    rw [balanced_iff zero, Runs.emitted_eq_nil_iff]
    simp only [refusals_eq_nil_iff]
  simp only [unrefused]
  constructor
  · intro always
    exact always items List.prefix_rfl
  · intro along pre inside
    obtain ⟨rest, rfl⟩ := inside
    exact ((Runs.along_append start pre rest).mp along).1

def unpriced : OrderRequest where
  instrument := 1
  quantity := ⟨1⟩

def priced : OrderRequest where
  instrument := 1
  quantity := ⟨1⟩
  price := ⟨100⟩

def unknownFill : ExecutionReport where
  clientOrderId := 7
  execType := .trade

theorem counters_balance_priced : Balanced (construct {}) [.request priced, .report unknownFill] := by
  apply (counters_balance_iff (construct {}) [.request priced, .report unknownFill] fun _ => rfl).mpr
  · exact ⟨⟨⟨by decide, by decide⟩, by decide⟩, trivial, trivial⟩
  · exact List.prefix_rfl

/-- An invalid request is counted as submitted, and nothing is sent. -/
theorem invalid_counted_as_submitted : ¬ Balanced (construct {}) [.request unpriced] := by
  intro balanced
  have agreed := balanced.submitted
  revert agreed
  decide

end TradingCore.Proofs.ExecutionMetrics
