import TradingCore.Proofs.OrderManagerSteps

/-! A trade report delivered a second time. The only protection is the
difference to the cumulative quantity stored on the order, so a duplicate goes
unnoticed exactly while the order still stores the quantity it reports. -/

namespace TradingCore.Proofs.Redelivery
open Std OrderManager OrderManagerSteps

def filledOf (manager : OrderManager) (id : OrderId) : Option Quantity :=
  (manager.find id).map (·.filledQuantity)

/-- Delivering the report now changes no filled quantity and no position, at
once or after any later calls. -/
def Unnoticed (manager : OrderManager) (report : ExecutionReport) : Prop :=
  ∀ later : List Call,
    let without := Runs.after OrderManager.step manager later
    let redelivered := Runs.after OrderManager.step (manager.step (.applyExecution report)) later
    (∀ id, filledOf redelivered id = filledOf without id) ∧
    redelivered.positionManager = without.positionManager

def reportedFills (id : OrderId) (calls : List Call) : List Quantity :=
  calls.filterMap fun call => match call with
    | .applyExecution report => if report.clientOrderId = id then some report.filledQuantity else none
    | .createOrder _ => none
    | .cancel _ => none

structure Alike (first second : OrderManager) : Prop where
  positions : first.positionManager = second.positionManager
  limits : first.riskManager.limits = second.riskManager.limits
  ids : first.nextOrderId = second.nextOrderId
  fills : ∀ id, filledOf first id = filledOf second id

theorem filledOf_insert {manager next : OrderManager} {id : OrderId} {order : Order}
    (orders : next.orders = manager.orders.insert id order) (other : OrderId) :
    filledOf next other = if id = other then some order.filledQuantity else filledOf manager other := by
  simp only [filledOf, OrderManager.find, orders, MapEdits.getElem?_insert]
  split <;> rfl

theorem filledOf_same {manager next : OrderManager} (orders : next.orders = manager.orders) (id : OrderId) :
    filledOf next id = filledOf manager id := by
  rw [filledOf, filledOf, OrderManager.find, OrderManager.find, orders]

variable {first second manager : OrderManager} {report : ExecutionReport} {order : Order}

theorem filledOf_known (known : manager.orders[report.clientOrderId]? = some order) (id : OrderId) :
    filledOf (manager.applyExecution report).2 id =
      if report.clientOrderId = id then some report.filledQuantity else filledOf manager id := by
  have orders : (manager.applyExecution report).2.orders =
      manager.orders.insert report.clientOrderId (overwrite order report) := by
    rw [applyExecution_known known]
  exact filledOf_insert orders id

theorem filledOf_unknown (unknown : manager.orders[report.clientOrderId]? = none) (id : OrderId) :
    filledOf (manager.applyExecution report).2 id = filledOf manager id := by
  rw [applyExecution_unknown unknown]
  rfl

theorem Alike.tracked (alike : Alike first second) (id : OrderId) : id ∈ first.orders ↔ id ∈ second.orders := by
  have same := congrArg Option.isSome (alike.fills id)
  simp only [filledOf, OrderManager.find, Option.isSome_map] at same
  rw [ExtTreeMap.mem_iff_isSome_getElem?, ExtTreeMap.mem_iff_isSome_getElem?, same]

theorem checkOrder_result {first second : RiskManager} (limits : first.limits = second.limits)
    (request : OrderRequest) (position : Position) :
    (first.checkOrder request position).1 = (second.checkOrder request position).1 := by
  simp only [RiskManager.checkOrder, limits]

theorem Alike.passes (alike : Alike first second) (request : OrderRequest) :
    passes first request ↔ passes second request := by
  rw [OrderManagerSteps.passes, OrderManagerSteps.passes, alike.positions, checkOrder_result alike.limits]

theorem Alike.createOrder (alike : Alike first second) (request : OrderRequest) :
    Alike (first.createOrder request).2 (second.createOrder request).2 := by
  have passes := alike.passes request
  have tracked := alike.tracked first.nextOrderId
  rcases createOrder_cases first request with ⟨_, _, refused⟩ | ⟨_, accepted⟩ <;>
    rcases createOrder_cases second request with ⟨_, _, refused'⟩ | ⟨_, accepted'⟩
  · refine ⟨?_, ?_, ?_, ?_⟩
    · rw [refused.positions, refused'.positions, alike.positions]
    · rw [refused.limits, refused'.limits, alike.limits]
    · rcases refused.ids with ⟨stopped, same⟩ | ⟨passed, _, next⟩ <;>
        rcases refused'.ids with ⟨stopped', same'⟩ | ⟨passed', _, next'⟩
      · rw [same, same', alike.ids]
      · exact absurd (passes.mpr passed') stopped
      · exact absurd (passes.mp passed) stopped'
      · rw [next, next', alike.ids]
    · intro id
      rw [filledOf_same refused.orders, filledOf_same refused'.orders, alike.fills]
  · rcases refused.ids with ⟨stopped, _⟩ | ⟨_, taken, _⟩
    · exact absurd (passes.mpr accepted'.passed) stopped
    · exact absurd (alike.ids ▸ tracked.mp taken) accepted'.unused
  · rcases refused'.ids with ⟨stopped, _⟩ | ⟨_, taken, _⟩
    · exact absurd (passes.mp accepted.passed) stopped
    · exact absurd (tracked.mpr (alike.ids ▸ taken)) accepted.unused
  · refine ⟨?_, ?_, ?_, ?_⟩
    · rw [accepted.positions, accepted'.positions, alike.positions]
    · rw [accepted.limits, accepted'.limits, alike.limits]
    · rw [accepted.ids, accepted'.ids, alike.ids]
    · intro id
      rw [filledOf_insert accepted.orders, filledOf_insert accepted'.orders, alike.ids, alike.fills]

theorem moved_congr {order other : Order} (same : order.filledQuantity = other.filledQuantity)
    (positions : PositionManager) (report : ExecutionReport) :
    moved positions order report = moved positions other report := by
  have filled : fills order report = fills other report := by
    simp only [fills, same]
  simp only [moved, filled, same]

theorem Alike.applyExecution (alike : Alike first second) (report : ExecutionReport) :
    Alike (first.applyExecution report).2 (second.applyExecution report).2 := by
  have fill := alike.fills report.clientOrderId
  simp only [filledOf, OrderManager.find] at fill
  cases known : first.orders[report.clientOrderId]? with
  | none =>
    have unknown : second.orders[report.clientOrderId]? = none := by
      simpa [known] using fill.symm
    rw [applyExecution_unknown known, applyExecution_unknown unknown]
    exact ⟨alike.positions, alike.limits, alike.ids, alike.fills⟩
  | some order =>
    rw [known] at fill
    obtain ⟨other, known', same⟩ := Option.map_eq_some_iff.mp fill.symm
    refine ⟨?_, ?_, ?_, ?_⟩
    · rw [applyExecution_known known, applyExecution_known known', alike.positions]
      exact moved_congr same.symm _ report
    · rw [applyExecution_known known, applyExecution_known known']
      exact alike.limits
    · rw [applyExecution_known known, applyExecution_known known']
      exact alike.ids
    · intro id
      rw [filledOf_known known, filledOf_known known', alike.fills]

theorem Alike.step (first second : OrderManager) (call : Call) (alike : Alike first second) :
    Alike (first.step call) (second.step call) := by
  cases call with
  | createOrder request => exact alike.createOrder request
  | applyExecution report => exact alike.applyExecution report
  | cancel orderId =>
    obtain ⟨orders, positions, risk, ids⟩ := cancel_frame first orderId
    obtain ⟨orders', positions', risk', ids'⟩ := cancel_frame second orderId
    refine ⟨?_, ?_, ?_, ?_⟩
    · exact positions.trans (alike.positions.trans positions'.symm)
    · rw [OrderManager.step, OrderManager.step, risk, risk']
      exact alike.limits
    · exact ids.trans (alike.ids.trans ids'.symm)
    · intro id
      exact (filledOf_same orders id).trans ((alike.fills id).trans (filledOf_same orders' id).symm)

/-- A report whose quantity is the one stored changes nothing that any call
can tell. -/
theorem alike_of_stored (stored : filledOf manager report.clientOrderId = some report.filledQuantity) :
    Alike (manager.step (.applyExecution report)) manager := by
  obtain ⟨order, known, same⟩ := Option.map_eq_some_iff.mp stored
  refine ⟨?_, ?_, ?_, ?_⟩
  · rw [OrderManager.step, applyExecution_known known]
    simp [moved, fills, same]
  · rw [OrderManager.step, applyExecution_known known]
  · rw [OrderManager.step, applyExecution_known known]
  · intro id
    rw [OrderManager.step, filledOf_known known]
    split
    next own =>
      subst own
      exact stored.symm
    next => rfl

theorem unnoticed_iff_stored {quantity : Quantity} (tracked : filledOf manager report.clientOrderId = some quantity) :
    Unnoticed manager report ↔ quantity = report.filledQuantity := by
  constructor
  · intro unnoticed
    have same := (unnoticed []).1 report.clientOrderId
    obtain ⟨order, known, _⟩ := Option.map_eq_some_iff.mp tracked
    rw [Runs.after_nil, Runs.after_nil, tracked, OrderManager.step, filledOf_known known, if_pos rfl] at same
    exact (Option.some.inj same).symm
  · rintro rfl later
    have alike := Runs.related Alike.step (alike_of_stored tracked) later
    exact ⟨alike.fills, alike.positions⟩

theorem filledOf_after {id : OrderId} {quantity : Quantity} (tracked : filledOf manager id = some quantity)
    (between : List Call) :
    filledOf (Runs.after OrderManager.step manager between) id =
      some ((reportedFills id between).getLast?.getD quantity) := by
  induction between generalizing manager quantity with
  | nil => exact tracked
  | cons call rest ih =>
    rw [Runs.after_cons]
    cases call with
    | createOrder request =>
      refine ih ?_
      rcases createOrder_cases manager request with ⟨_, _, refused⟩ | ⟨_, accepted⟩
      · exact (filledOf_same refused.orders id).trans tracked
      · rw [OrderManager.step, filledOf_insert accepted.orders, if_neg, tracked]
        rintro rfl
        have absent := ExtTreeMap.getElem?_eq_none accepted.unused
        rw [filledOf, OrderManager.find, absent] at tracked
        cases tracked
    | applyExecution report =>
      by_cases own : report.clientOrderId = id
      · subst own
        obtain ⟨order, known, _⟩ := Option.map_eq_some_iff.mp tracked
        have stored := (filledOf_known known report.clientOrderId).trans (if_pos rfl)
        rw [OrderManager.step, ih stored]
        simp [reportedFills, List.getLast?_cons]
      · have kept : filledOf (manager.applyExecution report).2 id = some quantity := by
          cases found : manager.orders[report.clientOrderId]? with
          | none => rw [filledOf_unknown found, tracked]
          | some other => rw [filledOf_known found, if_neg own, tracked]
        rw [OrderManager.step, ih kept]
        simp [reportedFills, own]
    | cancel orderId => exact ih ((filledOf_same (cancel_frame manager orderId).1 id).trans tracked)

/-- Once a report has been applied, delivering it again goes unnoticed exactly
when the last report about its order in between, if there is one, carries the
same cumulative quantity. -/
theorem redelivery_unnoticed_iff (manager : OrderManager) (report : ExecutionReport) (between : List Call)
    (applied : (manager.applyExecution report).1 = true) :
    Unnoticed (Runs.after OrderManager.step (manager.step (.applyExecution report)) between) report ↔
      (reportedFills report.clientOrderId between).getLast?.getD report.filledQuantity = report.filledQuantity := by
  refine unnoticed_iff_stored (filledOf_after ?_ between)
  cases known : manager.orders[report.clientOrderId]? with
  | none =>
    rw [applyExecution_unknown known] at applied
    cases applied
  | some order => exact (filledOf_known known _).trans (if_pos rfl)

def created : OrderManager :=
  OrderManager.fresh {} |>.step (.createOrder { instrument := 1, price := ⟨100⟩, quantity := ⟨10⟩ })

def filledTo (cumulative : Int) : ExecutionReport where
  clientOrderId := 1
  exchangeOrderId := 5
  instrument := 1
  execType := .trade
  status := .partiallyFilled
  price := ⟨100⟩
  quantity := ⟨3⟩
  filledQuantity := ⟨cumulative⟩

theorem immediate_redelivery_unnoticed :
    Unnoticed (Runs.after OrderManager.step (created.step (.applyExecution (filledTo 3))) [.cancel 1]) (filledTo 3) :=
  (redelivery_unnoticed_iff created (filledTo 3) [.cancel 1] (by decide)).mpr (by decide)

/-- The duplicate of the first of two fills makes the second count twice when
it is repeated in turn. -/
theorem late_redelivery_counts_twice :
    (created.applyExecution (filledTo 3)).1 = true ∧
    ¬ Unnoticed (Runs.after OrderManager.step (created.step (.applyExecution (filledTo 3)))
      [.applyExecution (filledTo 10)]) (filledTo 3) := by
  refine ⟨by decide, ?_⟩
  intro unnoticed
  have same := congrArg (quantityOf · 1) (unnoticed [.applyExecution (filledTo 10)]).2
  revert same
  decide

end TradingCore.Proofs.Redelivery
