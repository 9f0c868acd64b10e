import TradingCore.Proofs.OrderManagerSteps

/-! Every run of calls leaves a registry: ids are handed out in order, each
tracked order keeps the terms of the request that created it, and the venue has
received exactly those orders. -/

namespace TradingCore.Proofs.OrderRegistry
open Std OrderManager OrderManagerSteps

def acceptedBy (manager : OrderManager) : Call → List OrderRequest
  | .createOrder request =>
    match (manager.createOrder request).1 with
    | .ok _ => [request]
    | .error _ => []
  | .applyExecution _ => []
  | .cancel _ => []

def acceptedRequests : OrderManager → List Call → List OrderRequest
  | _, [] => []
  | manager, call :: rest => acceptedBy manager call ++ acceptedRequests (manager.step call) rest

structure TermsOf (order : Order) (request : OrderRequest) : Prop where
  instrument : order.instrument = request.instrument
  side : order.side = request.side
  type : order.type = request.type
  price : order.price = request.price
  quantity : order.quantity = request.quantity

/-- The id of a request is its place among the accepted ones, counted from one. -/
structure Registered (requests : List OrderRequest) (manager : OrderManager) : Prop where
  ids : manager.nextOrderId = .ofNat (requests.length + 1)
  tracked : ∀ id, id ∈ manager.orders ↔ 1 ≤ id.toNat ∧ id.toNat ≤ requests.length
  stored : ∀ (id : OrderId) (order : Order), manager.orders[id]? = some order →
    order.clientOrderId = id ∧ ∃ request, requests[id.toNat - 1]? = some request ∧ TermsOf order request
  sent : manager.gateway.sentOrders = requests.mapIdx fun index request => newOrder (.ofNat (index + 1)) request
  cancelled : ∀ id ∈ manager.gateway.cancelledOrders, id ∈ manager.orders

theorem Registered.fresh (riskManager : RiskManager) : Registered [] (OrderManager.fresh riskManager) := by
  refine ⟨rfl, ?_, ?_, rfl, ?_⟩
  · intro id
    have absent : id ∉ (∅ : ExtTreeMap OrderId Order compare) := ExtTreeMap.not_mem_empty
    simp only [OrderManager.fresh, absent, List.length_nil, false_iff]
    omega
  · intro id order stored
    simp [OrderManager.fresh] at stored
  · intro id member
    cases member

variable {requests : List OrderRequest} {manager next : OrderManager}

theorem Registered.unused (valid : Registered requests manager) (few : requests.length < 2 ^ 64) :
    manager.nextOrderId ∉ manager.orders := by
  rw [valid.tracked, valid.ids, UInt64.toNat_ofNat']
  omega

theorem Registered.tracked_range (valid : Registered requests manager) (few : requests.length < 2 ^ 64)
    (id : OrderId) : id ∈ manager.orders ↔ 1 ≤ id ∧ id ≤ manager.nextOrderId - 1 := by
  have last : (manager.nextOrderId - 1).toNat = requests.length := by
    rw [valid.ids, UInt64.toNat_sub, UInt64.toNat_ofNat']
    simp only [UInt64.toNat_one]
    omega
  rw [valid.tracked, UInt64.le_iff_toNat_le, UInt64.le_iff_toNat_le, last]
  rfl

theorem Registered.refused (valid : Registered requests manager) (few : requests.length < 2 ^ 64)
    {request : OrderRequest} (refused : Refused manager request next) :
    Registered requests next ∧ next.nextOrderId = manager.nextOrderId := by
  have same : next.nextOrderId = manager.nextOrderId := by
    rcases refused.ids with ⟨_, same⟩ | ⟨_, taken, _⟩
    · exact same
    · exact absurd taken (valid.unused few)
  obtain ⟨orders, gateway, _, _, _⟩ := refused
  refine ⟨⟨?_, ?_, ?_, ?_, ?_⟩, same⟩
  · exact same.trans valid.ids
  · rw [orders]
    exact valid.tracked
  · rw [orders]
    exact valid.stored
  · rw [gateway]
    exact valid.sent
  · rw [gateway, orders]
    exact valid.cancelled

theorem Registered.accepted {request : OrderRequest} (valid : Registered requests manager)
    (few : (requests ++ [request]).length < 2 ^ 64) (accepted : Accepted manager request next) :
    Registered (requests ++ [request]) next := by
  obtain ⟨_, _, orders, gateway, _, _, ids⟩ := accepted
  rw [List.length_append, List.length_singleton] at few
  have last : manager.nextOrderId.toNat = requests.length + 1 := by
    rw [valid.ids, UInt64.toNat_ofNat']
    omega
  refine ⟨?_, ?_, ?_, ?_, ?_⟩
  · rw [ids, valid.ids, List.length_append, List.length_singleton, UInt64.ofNat_add (requests.length + 1)]
    rfl
  · intro id
    rw [orders, ExtTreeMap.mem_insert, LawfulEqCmp.compare_eq_iff_eq, valid.tracked, List.length_append,
      List.length_singleton, ← UInt64.toNat_inj, last]
    omega
  · intro id order stored
    rw [orders, MapEdits.getElem?_insert] at stored
    split at stored
    next same =>
      subst same
      cases stored
      refine ⟨rfl, request, ?_, rfl, rfl, rfl, rfl, rfl⟩
      simp [last]
    next =>
      obtain ⟨own, earlier, found, terms⟩ := valid.stored id order stored
      have inside := (List.getElem?_eq_some_iff.mp found).1
      exact ⟨own, earlier, by rw [List.getElem?_append_left inside, found], terms⟩
  · rw [gateway, ExecutionGateway.sentOrders_send, valid.sent, List.mapIdx_concat, valid.ids]
  · intro id member
    rw [gateway, ExecutionGateway.cancelledOrders_send] at member
    rw [orders, ExtTreeMap.mem_insert]
    exact Or.inr (valid.cancelled id member)

/-- A report rewrites an order in place and keeps its id and its terms. -/
theorem Registered.report (valid : Registered requests manager) (report : ExecutionReport) :
    Registered requests (manager.applyExecution report).2 := by
  obtain ⟨gateway, _, ids⟩ := applyExecution_frame manager report
  cases known : manager.orders[report.clientOrderId]? with
  | none =>
    rw [applyExecution_unknown known]
    exact ⟨valid.ids, valid.tracked, valid.stored, valid.sent, valid.cancelled⟩
  | some order =>
    rw [applyExecution_known known]
    have member : report.clientOrderId ∈ manager.orders := by
      rw [ExtTreeMap.mem_iff_isSome_getElem?, known]
      rfl
    have kept : ∀ id, id ∈ manager.orders.insert report.clientOrderId (overwrite order report) ↔
        id ∈ manager.orders := by
      intro id
      rw [ExtTreeMap.mem_insert, LawfulEqCmp.compare_eq_iff_eq]
      refine ⟨?_, Or.inr⟩
      rintro (rfl | member)
      · exact member
      · exact member
    refine ⟨valid.ids, ?_, ?_, valid.sent, ?_⟩
    · intro id
      rw [kept]
      exact valid.tracked id
    · intro id stored found
      rw [MapEdits.getElem?_insert] at found
      split at found
      next same =>
        subst same
        cases found
        obtain ⟨own, request, requested, terms⟩ := valid.stored _ order known
        exact ⟨own, request, requested, terms.instrument, terms.side, terms.type, terms.price, terms.quantity⟩
      next => exact valid.stored id stored found
    · intro id cancelled
      rw [kept]
      exact valid.cancelled id cancelled

theorem Registered.cancel (valid : Registered requests manager) (orderId : OrderId) :
    Registered requests (manager.cancel orderId).2 := by
  unfold OrderManager.cancel
  split
  next member =>
    refine ⟨valid.ids, valid.tracked, valid.stored, ?_, ?_⟩
    · rw [ExecutionGateway.sentOrders_cancel]
      exact valid.sent
    · intro id cancelled
      rw [ExecutionGateway.cancelledOrders_cancel, List.mem_append, List.mem_singleton] at cancelled
      rcases cancelled with earlier | rfl
      · exact valid.cancelled id earlier
      · exact member
  next => exact valid

theorem Registered.step (valid : Registered requests manager) (call : Call)
    (few : (requests ++ acceptedBy manager call).length < 2 ^ 64) :
    Registered (requests ++ acceptedBy manager call) (manager.step call) := by
  cases call with
  | createOrder request =>
    rcases createOrder_cases manager request with ⟨error, failed, refused⟩ | ⟨succeeded, accepted⟩
    · simp only [acceptedBy, failed, List.append_nil] at few ⊢
      exact (valid.refused few refused).1
    · simp only [acceptedBy, succeeded] at few ⊢
      exact valid.accepted few accepted
  | applyExecution report =>
    rw [acceptedBy, List.append_nil]
    exact valid.report report
  | cancel orderId =>
    rw [acceptedBy, List.append_nil]
    exact valid.cancel orderId

theorem Registered.run (valid : Registered requests manager) (calls : List Call)
    (few : (requests ++ acceptedRequests manager calls).length < 2 ^ 64) :
    Registered (requests ++ acceptedRequests manager calls) (Runs.after OrderManager.step manager calls) := by
  induction calls generalizing requests manager with
  | nil => simpa only [acceptedRequests, List.append_nil, Runs.after_nil] using valid
  | cons call rest ih =>
    rw [acceptedRequests, ← List.append_assoc] at few ⊢
    have shorter : (requests ++ acceptedBy manager call).length < 2 ^ 64 := by
      rw [List.length_append] at few
      omega
    exact ih (valid.step call shorter) few

structure Untouched (manager next : OrderManager) : Prop where
  ids : next.nextOrderId = manager.nextOrderId
  orders : next.orders = manager.orders
  gateway : next.gateway = manager.gateway
  positions : next.positionManager = manager.positionManager

/-- The registry holds in every state a run of calls can reach. -/
theorem registry_of_run (riskManager : RiskManager) (calls : List Call)
    (few : (acceptedRequests (OrderManager.fresh riskManager) calls).length < 2 ^ 64) :
    let requests := acceptedRequests (OrderManager.fresh riskManager) calls
    let manager := Runs.after OrderManager.step (OrderManager.fresh riskManager) calls
    Registered requests manager ∧
    (∀ id, id ∈ manager.orders ↔ 1 ≤ id ∧ id ≤ manager.nextOrderId - 1) ∧
    ∀ request error, (manager.createOrder request).1 = .error error →
      Untouched manager (manager.createOrder request).2 := by
  intro requests manager
  have valid : Registered requests manager := (Registered.fresh riskManager).run calls few
  refine ⟨valid, valid.tracked_range few, ?_⟩
  intro request error failed
  rcases createOrder_cases manager request with ⟨_, _, refused⟩ | ⟨succeeded, _⟩
  · exact ⟨(valid.refused few refused).2, refused.orders, refused.gateway, refused.positions⟩
  · rw [succeeded] at failed
    cases failed

def sampleRequest : OrderRequest where
  instrument := 7
  price := ⟨100⟩
  quantity := ⟨5⟩

def sampleCalls : List Call :=
  [.createOrder sampleRequest, .createOrder {}, .applyExecution { clientOrderId := 1, filledQuantity := ⟨5⟩ },
    .cancel 1, .createOrder { sampleRequest with side := .sell }]

theorem registry_of_sample :
    acceptedRequests (OrderManager.fresh {}) sampleCalls = [sampleRequest, { sampleRequest with side := .sell }] ∧
    Registered (acceptedRequests (OrderManager.fresh {}) sampleCalls)
      (Runs.after OrderManager.step (OrderManager.fresh {}) sampleCalls) :=
  ⟨by decide, (registry_of_run {} sampleCalls (by decide)).1⟩

end TradingCore.Proofs.OrderRegistry
