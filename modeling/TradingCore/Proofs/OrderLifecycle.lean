import TradingCore.Proofs.OrderManagerSteps

/-! The life of a tracked order along a run of calls. Only a report under its
id writes to it, and a report writes the status and the cumulative fill it
carries, whatever the order has been through. -/

namespace TradingCore.Proofs.OrderLifecycle
open Std OrderManager OrderManagerSteps

/-- A tracked order after one more call. -/
def received (id : OrderId) (order : Order) : Call → Order
  | .createOrder _ => order
  | .applyExecution report => if report.clientOrderId = id then overwrite order report else order
  | .cancel _ => order

variable {manager : OrderManager} {id : OrderId} {order : Order}

theorem tracked_step (tracked : manager.find id = some order) (call : Call) :
    (manager.step call).find id = some (received id order call) := by
  cases call with
  | createOrder request =>
    rcases createOrder_cases manager request with ⟨_, _, refused⟩ | ⟨_, accepted⟩
    · rw [OrderManager.step, OrderManager.find, refused.orders]
      exact tracked
    · have other : manager.nextOrderId ≠ id := by
        rintro rfl
        rw [OrderManager.find, ExtTreeMap.getElem?_eq_none accepted.unused] at tracked
        cases tracked
      rw [OrderManager.step, accepted.find, if_neg other]
      exact tracked
  | applyExecution report =>
    rw [OrderManager.step, received]
    cases known : manager.orders[report.clientOrderId]? with
    | none =>
      have other : report.clientOrderId ≠ id := by
        rintro rfl
        cases known.symm.trans tracked
      rw [find_unknown known, if_neg other]
      exact tracked
    | some named =>
      rw [find_known known]
      split
      next same =>
        subst same
        cases known.symm.trans tracked
        rfl
      next => exact tracked
  | cancel orderId =>
    rw [OrderManager.step, OrderManager.find, (cancel_frame manager orderId).1]
    exact tracked

/-- An order that was not there before the call is a new one. -/
theorem untracked_step (untracked : manager.find id = none) {call : Call}
    (tracked : (manager.step call).find id = some order) :
    ∃ request, passes manager request ∧ order = newOrder id request := by
  cases call with
  | createOrder request =>
    rw [OrderManager.step] at tracked
    rcases createOrder_cases manager request with ⟨_, _, refused⟩ | ⟨_, accepted⟩
    · rw [OrderManager.find, refused.orders] at tracked
      cases untracked.symm.trans tracked
    · rw [accepted.find] at tracked
      split at tracked
      next same =>
        subst same
        cases tracked
        exact ⟨request, accepted.passed, rfl⟩
      next => cases untracked.symm.trans tracked
  | applyExecution report =>
    rw [OrderManager.step] at tracked
    cases known : manager.orders[report.clientOrderId]? with
    | none =>
      rw [find_unknown known] at tracked
      cases untracked.symm.trans tracked
    | some named =>
      rw [find_known known] at tracked
      split at tracked
      next same =>
        subst same
        cases untracked.symm.trans known
      next => cases untracked.symm.trans tracked
  | cancel orderId =>
    rw [OrderManager.step, OrderManager.find, (cancel_frame manager orderId).1] at tracked
    cases untracked.symm.trans tracked

def FillsBounded (manager : OrderManager) : Prop :=
  ∀ id order, manager.find id = some order → 0 ≤ order.filledQuantity.raw ∧ order.filledQuantity ≤ order.quantity

def FillsGrow (manager next : OrderManager) : Prop :=
  ∀ id order, manager.find id = some order →
    ∃ later, next.find id = some later ∧ order.filledQuantity ≤ later.filledQuantity

/-- A report for a tracked order neither takes back what is recorded as filled
nor exceeds what was ordered. -/
def OrderlyCall (manager : OrderManager) : Call → Prop
  | .applyExecution report =>
    ∀ order, manager.find report.clientOrderId = some order →
      order.filledQuantity ≤ report.filledQuantity ∧ report.filledQuantity ≤ order.quantity
  | .createOrder _ => True
  | .cancel _ => True

theorem fillsGrow_refl (manager : OrderManager) : FillsGrow manager manager :=
  fun _ order tracked => ⟨order, tracked, Int.le_refl _⟩

theorem fillsGrow_trans (first middle last : OrderManager) (earlier : FillsGrow first middle)
    (later : FillsGrow middle last) : FillsGrow first last := by
  intro id order tracked
  obtain ⟨next, trackedNext, grown⟩ := earlier id order tracked
  obtain ⟨final, trackedFinal, grownMore⟩ := later id next trackedNext
  exact ⟨final, trackedFinal, Int.le_trans grown grownMore⟩

theorem newOrder_bounded {request : OrderRequest} (passed : passes manager request) :
    0 ≤ (newOrder id request).filledQuantity.raw ∧
    (newOrder id request).filledQuantity ≤ (newOrder id request).quantity := by
  have positive : request.quantity.isPositive := by
    by_contra nonpositive
    exact passed.1 (Or.inr (Or.inr (Or.inl nonpositive)))
  exact ⟨Int.le_refl _, Int.le_of_lt positive⟩

theorem orderly_of_bounded {call : Call} (bounded : FillsBounded (manager.step call))
    (grows : FillsGrow manager (manager.step call)) : OrderlyCall manager call := by
  cases call with
  | applyExecution report =>
    intro order tracked
    have next := tracked_step tracked (.applyExecution report)
    rw [received, if_pos rfl] at next
    obtain ⟨later, found, grown⟩ := grows report.clientOrderId order tracked
    rw [next] at found
    cases found
    exact ⟨grown, (bounded report.clientOrderId _ next).2⟩
  | createOrder request => exact trivial
  | cancel orderId => exact trivial

theorem received_bounded {call : Call} (orderly : OrderlyCall manager call) (tracked : manager.find id = some order)
    (bounded : 0 ≤ order.filledQuantity.raw ∧ order.filledQuantity ≤ order.quantity) :
    0 ≤ (received id order call).filledQuantity.raw ∧
    (received id order call).filledQuantity ≤ (received id order call).quantity ∧
    order.filledQuantity ≤ (received id order call).filledQuantity := by
  have same : order.filledQuantity ≤ order.filledQuantity := Int.le_refl _
  cases call with
  | applyExecution report =>
    rw [received]
    split
    next own =>
      subst own
      obtain ⟨grows, within⟩ := orderly order tracked
      exact ⟨Int.le_trans bounded.1 grows, within, grows⟩
    next => exact ⟨bounded.1, bounded.2, same⟩
  | createOrder request => exact ⟨bounded.1, bounded.2, same⟩
  | cancel orderId => exact ⟨bounded.1, bounded.2, same⟩

theorem bounded_step (manager : OrderManager) (call : Call) (bounded : FillsBounded manager) :
    FillsBounded (manager.step call) ∧ FillsGrow manager (manager.step call) ↔ OrderlyCall manager call := by
  constructor
  · intro ⟨next, grows⟩
    exact orderly_of_bounded next grows
  · intro orderly
    constructor
    · intro id order tracked
      cases before : manager.find id with
      | none =>
        obtain ⟨request, passed, rfl⟩ := untracked_step before tracked
        exact newOrder_bounded passed
      | some known =>
        rw [tracked_step before call] at tracked
        cases tracked
        obtain ⟨nonnegative, within, _⟩ := received_bounded orderly before (bounded id known before)
        exact ⟨nonnegative, within⟩
    · intro id order tracked
      obtain ⟨_, _, grows⟩ := received_bounded orderly tracked (bounded id order tracked)
      exact ⟨received id order call, tracked_step tracked call, grows⟩

theorem bounded_fresh (riskManager : RiskManager) : FillsBounded (OrderManager.fresh riskManager) := by
  intro id order tracked
  simp [OrderManager.fresh, OrderManager.find] at tracked

/-- Fills stay between nothing and the ordered quantity and never shrink
exactly when every report of the run is orderly. -/
theorem fills_bounded_iff (riskManager : RiskManager) (calls : List Call) :
    (∀ pre, pre <+: calls → FillsBounded (Runs.after OrderManager.step (OrderManager.fresh riskManager) pre)) ∧
    Runs.Ascending OrderManager.step FillsGrow (OrderManager.fresh riskManager) calls ↔
      Runs.Along OrderManager.step OrderlyCall (OrderManager.fresh riskManager) calls := by
  rw [Runs.ascending_iff fillsGrow_refl fillsGrow_trans]
  exact Runs.always_moving_iff bounded_step (bounded_fresh riskManager) calls

/-- A report of more than was ordered, and one of less than was filled. -/
def disorderlyReports : List Call :=
  let report : ExecutionReport := { clientOrderId := 1, instrument := 1, execType := .trade, price := ⟨100⟩ }
  [.createOrder { instrument := 1, price := ⟨100⟩, quantity := ⟨10⟩ },
    .applyExecution { report with status := .filled, quantity := ⟨12⟩, filledQuantity := ⟨12⟩ },
    .applyExecution { report with status := .partiallyFilled, quantity := ⟨3⟩, filledQuantity := ⟨3⟩ }]

theorem disorderly_reports_break_bounds :
    ¬ FillsBounded (Runs.after OrderManager.step (OrderManager.fresh {}) (disorderlyReports.take 2)) ∧
    ¬ FillsGrow (Runs.after OrderManager.step (OrderManager.fresh {}) (disorderlyReports.take 2))
      (Runs.after OrderManager.step (OrderManager.fresh {}) disorderlyReports) := by
  have filled : ((Runs.after OrderManager.step (OrderManager.fresh {}) (disorderlyReports.take 2)).find 1).map
      (fun order => (order.filledQuantity, order.quantity)) = some (⟨12⟩, ⟨10⟩) := by
    decide
  have shrunk : ((Runs.after OrderManager.step (OrderManager.fresh {}) disorderlyReports).find 1).map
      (·.filledQuantity) = some ⟨3⟩ := by
    decide
  obtain ⟨order, tracked, same⟩ := Option.map_eq_some_iff.mp filled
  obtain ⟨recorded, ordered⟩ := Prod.mk.inj same
  obtain ⟨later, trackedLater, rewritten⟩ := Option.map_eq_some_iff.mp shrunk
  constructor
  · intro bounded
    have within := (bounded 1 order tracked).2
    rw [recorded, ordered] at within
    exact absurd within (by decide)
  · intro grows
    obtain ⟨other, found, grown⟩ := grows 1 order tracked
    rw [trackedLater] at found
    cases found
    rw [recorded, rewritten] at grown
    exact absurd grown (by decide)

/-- Nothing more is expected to happen to such an order at its venue. -/
def terminal : OrderStatus → Prop
  | .filled | .cancelled | .rejected => True
  | .new | .partiallyFilled => False

def TerminalKept (manager next : OrderManager) : Prop :=
  ∀ id order, manager.find id = some order → terminal order.status →
    ∃ later, next.find id = some later ∧ later.status = order.status ∧ later.filledQuantity = order.filledQuantity

/-- A report for an order in a terminal state moves no position. -/
def PositionsKept (manager : OrderManager) : Call → Prop
  | .applyExecution report =>
    ∀ order, manager.find report.clientOrderId = some order → terminal order.status →
      (manager.applyExecution report).2.positionManager = manager.positionManager
  | .createOrder _ => True
  | .cancel _ => True

/-- All that is reported about an order in a terminal state is that state. -/
def RepeatsTerminal (manager : OrderManager) : Call → Prop
  | .applyExecution report =>
    ∀ order, manager.find report.clientOrderId = some order → terminal order.status →
      report.status = order.status ∧ report.filledQuantity = order.filledQuantity
  | .createOrder _ => True
  | .cancel _ => True

/-- Whether a report about an order in a terminal state is refused has nothing
to do with that state: only a trade whose cumulative quantity shrank is. -/
def TerminalAnswered (manager : OrderManager) : Call → Prop
  | .applyExecution report =>
    ∀ order, manager.find report.clientOrderId = some order → terminal order.status →
      ((manager.applyExecution report).1 = false ↔ shrinks order report)
  | .createOrder _ => True
  | .cancel _ => True

theorem terminalKept_refl (manager : OrderManager) : TerminalKept manager manager :=
  fun _ order tracked _ => ⟨order, tracked, rfl, rfl⟩

theorem terminalKept_trans (first middle last : OrderManager) (earlier : TerminalKept first middle)
    (later : TerminalKept middle last) : TerminalKept first last := by
  intro id order tracked ended
  obtain ⟨next, trackedNext, status, filled⟩ := earlier id order tracked ended
  obtain ⟨final, trackedFinal, statusMore, filledMore⟩ := later id next trackedNext (status ▸ ended)
  exact ⟨final, trackedFinal, statusMore.trans status, filledMore.trans filled⟩

theorem repeats_of_kept {call : Call} (kept : TerminalKept manager (manager.step call)) :
    RepeatsTerminal manager call := by
  cases call with
  | applyExecution report =>
    intro order tracked ended
    have next := tracked_step tracked (.applyExecution report)
    obtain ⟨later, found, status, filled⟩ := kept report.clientOrderId order tracked ended
    rw [next, received, if_pos rfl] at found
    cases found
    exact ⟨status, filled⟩
  | createOrder request => exact trivial
  | cancel orderId => exact trivial

theorem terminal_step (manager : OrderManager) (call : Call) :
    TerminalKept manager (manager.step call) ∧ PositionsKept manager call ↔ RepeatsTerminal manager call := by
  constructor
  · intro ⟨kept, _⟩
    exact repeats_of_kept kept
  · intro repeats
    constructor
    · intro id order tracked ended
      refine ⟨received id order call, tracked_step tracked call, ?_⟩
      cases call with
      | applyExecution report =>
        rw [received]
        split
        next own =>
          subst own
          exact repeats order tracked ended
        next => exact ⟨rfl, rfl⟩
      | createOrder request => exact ⟨rfl, rfl⟩
      | cancel orderId => exact ⟨rfl, rfl⟩
    · cases call with
      | applyExecution report =>
        intro order tracked ended
        have filled := (repeats order tracked ended).2
        have still : ¬ fills order report := by
          intro grows
          have more := grows.2
          rw [filled] at more
          exact Int.lt_irrefl _ more
        rw [applyExecution_known tracked, moved, if_neg still]
      | createOrder request => exact trivial
      | cancel orderId => exact trivial

theorem terminal_answered (manager : OrderManager) (call : Call) : TerminalAnswered manager call := by
  cases call with
  | applyExecution report =>
    intro order tracked _
    rw [applyExecution_known tracked]
    simp
  | createOrder request => exact trivial
  | cancel orderId => exact trivial

/-- Orders in a terminal state keep their status and fill, and move no
position, exactly when every later report about one repeats that state. Nothing
but a shrinking trade is refused. -/
theorem terminal_final_iff (riskManager : RiskManager) (calls : List Call) :
    (Runs.Ascending OrderManager.step TerminalKept (OrderManager.fresh riskManager) calls ∧
      Runs.Along OrderManager.step PositionsKept (OrderManager.fresh riskManager) calls ↔
        Runs.Along OrderManager.step RepeatsTerminal (OrderManager.fresh riskManager) calls) ∧
    Runs.Along OrderManager.step TerminalAnswered (OrderManager.fresh riskManager) calls := by
  refine ⟨?_, Runs.along_of_forall (fun manager call _ => terminal_answered manager call) _⟩
  rw [Runs.ascending_iff terminalKept_refl terminalKept_trans, ← Runs.along_and]
  apply @Runs.along_congr _ _ _ fun _ => True
  · exact fun _ _ _ => trivial
  · exact fun manager call _ => terminal_step manager call
  · exact trivial

def lateTrade : ExecutionReport :=
  { clientOrderId := 1, instrument := 1, execType := .trade, status := .partiallyFilled, price := ⟨100⟩,
    quantity := ⟨4⟩, filledQuantity := ⟨4⟩ }

/-- A fill arrives for an order that has been reported as cancelled. -/
def lateFill : List Call :=
  [.createOrder { instrument := 1, price := ⟨100⟩, quantity := ⟨10⟩ },
    .applyExecution
      { clientOrderId := 1, instrument := 1, execType := .cancel, status := .cancelled, price := ⟨100⟩ },
    .applyExecution lateTrade]

theorem late_fill_reopens_cancelled :
    let cancelled := Runs.after OrderManager.step (OrderManager.fresh {}) (lateFill.take 2)
    let reopened := Runs.after OrderManager.step (OrderManager.fresh {}) lateFill
    (cancelled.find 1).map (·.status) = some .cancelled ∧ (cancelled.applyExecution lateTrade).1 = true ∧
    (reopened.find 1).map (fun order => (order.status, order.filledQuantity)) = some (.partiallyFilled, ⟨4⟩) ∧
    quantityOf cancelled.positionManager 1 = 0 ∧ quantityOf reopened.positionManager 1 = 4 := by
  decide

end TradingCore.Proofs.OrderLifecycle
