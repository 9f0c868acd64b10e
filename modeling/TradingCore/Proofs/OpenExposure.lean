import Mathlib.Algebra.Order.Group.Abs
import TradingCore.Proofs.ExecutionLedger
import TradingCore.Proofs.OrderLifecycle
import TradingCore.Proofs.RiskEnforcement

/-! How far a position can go under a position limit. The check of an order looks
at the position and at that order alone, so what the other open orders of its
instrument and side can still add comes on top of the limit. -/

namespace TradingCore.Proofs.OpenExposure
open Std OrderManager OrderManagerSteps PositionTrades ExecutionLedger OrderLifecycle RiskEnforcement

instance : DecidablePred terminal
  | .filled | .cancelled | .rejected => .isTrue trivial
  | .new | .partiallyFilled => .isFalse id

/-- What an order that has not ended can still add on a side of an instrument. -/
def openOf (instrument : InstrumentId) (side : Side) (order : Order) : Int :=
  if order.instrument = instrument ∧ order.side = side ∧ ¬ terminal order.status then
    order.quantity.raw - order.filledQuantity.raw
  else 0

def openQuantity (manager : OrderManager) (instrument : InstrumentId) (side : Side) : Int :=
  MapSum.total (fun _ order => openOf instrument side order) manager.orders

/-- The position, in the direction of a side, once all open orders of that side
have been filled. -/
def exposure (manager : OrderManager) (instrument : InstrumentId) (side : Side) : Int :=
  sign side * quantityOf manager.positionManager instrument + openQuantity manager instrument side

/-- A venue reports in order: fills are trades of the order reported on, they
accumulate up to what was ordered, and an order that has ended stays as it is. -/
structure Lawful (manager : OrderManager) (call : Call) : Prop where
  consistent : ConsistentCall manager call
  orderly : OrderlyCall manager call
  final : RepeatsTerminal manager call

/-- Whenever an order is accepted, the open orders of its instrument and side
have no more than this left. -/
def Spare (spare : Int) (manager : OrderManager) : Call → Prop
  | .createOrder request =>
    passes manager request → openQuantity manager request.instrument request.side ≤ spare
  | .applyExecution _ | .cancel _ => True

variable {manager : OrderManager} {instrument : InstrumentId} {side : Side} {order : Order}

theorem open_nonneg (bounded : order.filledQuantity ≤ order.quantity) : 0 ≤ openOf instrument side order := by
  have within : order.filledQuantity.raw ≤ order.quantity.raw := bounded
  rw [openOf]
  split <;> omega

theorem openQuantity_nonneg (bounded : FillsBounded manager) : 0 ≤ openQuantity manager instrument side :=
  MapSum.total_nonneg fun id order tracked => open_nonneg (bounded id order tracked).2

theorem open_new (id : OrderId) (request : OrderRequest) :
    openOf instrument side (newOrder id request) =
      if request.instrument = instrument ∧ request.side = side then request.quantity.raw else 0 := by
  simp [openOf, newOrder, terminal]

/-- What a report leaves open, when it fills and when it does not. -/
theorem open_overwrite {report : ExecutionReport} (within : report.filledQuantity ≤ order.quantity)
    (running : ¬ terminal order.status) :
    openOf instrument side (overwrite order report) ≤ openOf instrument side order -
      if order.instrument = instrument ∧ order.side = side then
        report.filledQuantity.raw - order.filledQuantity.raw else 0 := by
  have bounded : report.filledQuantity.raw ≤ order.quantity.raw := within
  by_cases own : order.instrument = instrument ∧ order.side = side
  · simp only [openOf, overwrite, own.1, own.2, running, true_and, not_false_eq_true, and_self, if_true]
    split <;> omega
  · have other : ∀ status, ¬ (order.instrument = instrument ∧ order.side = side ∧ ¬ terminal status) :=
      fun status all => own ⟨all.1, all.2.1⟩
    simp only [openOf, overwrite, other, own, if_false, Int.sub_zero, Int.le_refl]

/-- The exposures of a manager stay within a bound, as its limits do and the
fills that are recorded. -/
structure Contained (limits : RiskLimits) (spare : Int) (manager : OrderManager) : Prop where
  configured : manager.riskManager.limits = limits
  fills : FillsBounded manager
  exposure : ∀ instrument side, exposure manager instrument side ≤ limits.maxPositionQuantity.raw + spare

variable {limits : RiskLimits} {spare : Int}

theorem contained_fresh (positive : limits.maxPositionQuantity.isPositive) (nonneg : 0 ≤ spare) :
    Contained limits spare (OrderManager.fresh (.ofLimits limits)) := by
  refine ⟨rfl, bounded_fresh _, ?_⟩
  intro instrument side
  have flat : exposure (OrderManager.fresh (.ofLimits limits)) instrument side = 0 := by
    rw [exposure, agrees_fresh, ledger, openQuantity, OrderManager.fresh, MapSum.total_empty, MapSum.total_empty,
      Int.mul_zero, Int.add_zero]
  have above : 0 < limits.maxPositionQuantity.raw := positive
  rw [flat]
  omega

/-- An accepted order leads no further than the limit by itself. -/
theorem accepted_within (set : limits.maxPositionQuantity.isPositive) (same : manager.riskManager.limits = limits)
    {request : OrderRequest} (passed : passes manager request) :
    sign request.side * quantityOf manager.positionManager request.instrument + request.quantity.raw ≤
      limits.maxPositionQuantity.raw := by
  obtain ⟨_, _, resulting⟩ := (accepted_iff_respects (positive_of_valid passed.1) 0).mp passed.2
  rw [same] at resulting
  have bound := resulting fun zero => Int.ne_of_gt set zero
  rw [newOrder, signed_raw] at bound
  have within := abs_le.mp bound
  rw [quantityOf]
  cases side : request.side with
  | buy =>
    simp only [side, sign] at within ⊢
    omega
  | sell =>
    simp only [side, sign] at within ⊢
    omega

theorem exposure_same {next : OrderManager} (positions : next.positionManager = manager.positionManager)
    (orders : next.orders = manager.orders) (instrument : InstrumentId) (side : Side) :
    exposure next instrument side = exposure manager instrument side := by
  rw [exposure, openQuantity, positions, orders, exposure, openQuantity]

theorem contained_createOrder (set : limits.maxPositionQuantity.isPositive)
    (contained : Contained limits spare manager) {request : OrderRequest}
    (spared : Spare spare manager (.createOrder request)) (instrument : InstrumentId) (side : Side) :
    exposure (manager.createOrder request).2 instrument side ≤ limits.maxPositionQuantity.raw + spare := by
  rcases createOrder_cases manager request with ⟨_, _, refused⟩ | ⟨_, accepted⟩
  · rw [exposure_same refused.positions refused.orders]
    exact contained.exposure instrument side
  · rw [exposure, accepted.positions, openQuantity, accepted.orders, MapSum.total_insert_new _ _ accepted.unused,
      open_new, ← openQuantity]
    by_cases own : request.instrument = instrument ∧ request.side = side
    · obtain ⟨rfl, rfl⟩ := own
      have others := spared accepted.passed
      have within := accepted_within set contained.configured accepted.passed
      rw [if_pos ⟨rfl, rfl⟩]
      omega
    · have before := contained.exposure instrument side
      rw [if_neg own, Int.zero_add, ← exposure]
      exact before

/-- What a trade leaves, read against the direction of the trade. -/
theorem sign_opposed {other : Side} (different : other ≠ side) (held traded : Int) :
    sign side * (held + sign other * traded) = sign side * held - traded := by
  cases side with
  | buy =>
    cases other with
    | buy => exact absurd rfl different
    | sell => simp only [sign]; omega
  | sell =>
    cases other with
    | buy => simp only [sign]; omega
    | sell => exact absurd rfl different

/-- A report moves a position by no more than it takes from the open quantity of
the side it is about. -/
theorem exposure_report {report : ExecutionReport} (lawful : Lawful manager (.applyExecution report))
    (instrument : InstrumentId) (side : Side) :
    exposure (manager.applyExecution report).2 instrument side ≤ exposure manager instrument side := by
  cases known : manager.orders[report.clientOrderId]? with
  | none =>
    rw [applyExecution_unknown known]
    exact Int.le_refl _
  | some order =>
    have unmoved : report.filledQuantity = order.filledQuantity → ¬ fills order report := by
      intro same filled
      have grows := filled.2
      rw [same] at grows
      exact Int.lt_irrefl _ grows
    rw [applyExecution_known known]
    simp only [exposure, openQuantity, quantityOf_moved, MapSum.total_insert_held _ _ known]
    by_cases ended : terminal order.status
    · obtain ⟨status, filled⟩ := lawful.final order known ended
      have same : openOf instrument side (overwrite order report) = openOf instrument side order := by
        simp only [openOf, overwrite, status, filled]
      rw [same, if_neg fun moves => unmoved filled moves.1, Int.add_zero]
      omega
    · have less := @open_overwrite instrument side order report (lawful.orderly order known).2 ended
      rcases lawful.consistent order known with same | ⟨filled, sameInstrument, sameSide⟩
      · rw [same, Int.sub_self, ite_self] at less
        rw [if_neg fun moves => unmoved same moves.1, Int.add_zero]
        omega
      · rw [sameInstrument, sameSide]
        by_cases owner : order.instrument = instrument
        · rw [if_pos ⟨filled, owner⟩]
          by_cases own : order.side = side
          · rw [if_pos ⟨owner, own⟩] at less
            rw [own, sign_moved]
            omega
          · have grows := filled.2
            rw [if_neg fun both => own both.2] at less
            rw [sign_opposed own]
            omega
        · rw [if_neg fun both => owner both.1] at less
          rw [if_neg fun both => owner both.2, Int.add_zero]
          omega

theorem contained_step (set : limits.maxPositionQuantity.isPositive) (manager : OrderManager) (call : Call)
    (contained : Contained limits spare manager) (allowed : Lawful manager call ∧ Spare spare manager call) :
    Contained limits spare (manager.step call) := by
  obtain ⟨lawful, spared⟩ := allowed
  have fills := ((bounded_step manager call contained.fills).mpr lawful.orderly).1
  cases call with
  | createOrder request =>
    refine ⟨?_, fills, contained_createOrder set contained spared⟩
    rcases createOrder_cases manager request with ⟨_, _, refused⟩ | ⟨_, accepted⟩
    · exact refused.limits.trans contained.configured
    · exact accepted.limits.trans contained.configured
  | applyExecution report =>
    refine ⟨?_, fills, fun instrument side => ?_⟩
    · exact (congrArg RiskManager.limits (applyExecution_frame manager report).2.1).trans contained.configured
    · exact Int.le_trans (exposure_report lawful instrument side) (contained.exposure instrument side)
  | cancel orderId =>
    obtain ⟨orders, positions, risk, _⟩ := cancel_frame manager orderId
    refine ⟨?_, fills, fun instrument side => ?_⟩
    · exact (congrArg RiskManager.limits risk).trans contained.configured
    · exact Int.le_trans (Int.le_of_eq (exposure_same positions orders instrument side))
        (contained.exposure instrument side)

/-- On every run with a lawful venue a position goes past its limit by no more
than what was open on the same side whenever an order was accepted, not even if
all open orders were filled at once. -/
theorem position_contained (limits : RiskLimits) (set : limits.maxPositionQuantity.isPositive) {spare : Int}
    (nonneg : 0 ≤ spare) (calls : List Call)
    (allowed : Runs.Along OrderManager.step (fun manager call => Lawful manager call ∧ Spare spare manager call)
      (OrderManager.fresh (.ofLimits limits)) calls) :
    let manager := Runs.after OrderManager.step (OrderManager.fresh (.ofLimits limits)) calls
    ∀ instrument, |quantityOf manager.positionManager instrument| ≤ limits.maxPositionQuantity.raw + spare ∧
      ∀ side, sign side * quantityOf manager.positionManager instrument + openQuantity manager instrument side ≤
        limits.maxPositionQuantity.raw + spare := by
  intro manager instrument
  have contained : Contained limits spare manager :=
    Runs.invariant_along (contained_step set) (contained_fresh set nonneg) allowed
  refine ⟨?_, contained.exposure instrument⟩
  have long := contained.exposure instrument .buy
  have short := contained.exposure instrument .sell
  have buys := @openQuantity_nonneg manager instrument .buy contained.fills
  have sells := @openQuantity_nonneg manager instrument .sell contained.fills
  simp only [exposure, sign] at long short
  rw [abs_le]
  constructor <;> omega

instance : ∀ (manager : OrderManager) (call : Call), Decidable (Lawful manager call)
  | _, .createOrder _ => .isTrue ⟨trivial, trivial, trivial⟩
  | _, .cancel _ => .isTrue ⟨trivial, trivial, trivial⟩
  | manager, .applyExecution report =>
    decidable_of_iff (∀ order ∈ manager.find report.clientOrderId, Consistent order report ∧
      (order.filledQuantity ≤ report.filledQuantity ∧ report.filledQuantity ≤ order.quantity) ∧
      (terminal order.status → report.status = order.status ∧ report.filledQuantity = order.filledQuantity))
      ⟨fun all => ⟨fun order known => (all order known).1, fun order known => (all order known).2.1,
        fun order known => (all order known).2.2⟩,
        fun lawful order known => ⟨lawful.consistent order known, lawful.orderly order known, lawful.final order known⟩⟩

instance (manager : OrderManager) (request : OrderRequest) : Decidable (passes manager request) :=
  inferInstanceAs (Decidable (_ ∧ _))

instance (spare : Int) (manager : OrderManager) : ∀ call : Call, Decidable (Spare spare manager call)
  | .createOrder request =>
    inferInstanceAs (Decidable (passes manager request → openQuantity manager request.instrument request.side ≤ spare))
  | .applyExecution _ => .isTrue trivial
  | .cancel _ => .isTrue trivial

/-- Each of two orders would fill the limit by itself, and the second one is
accepted while the first is still open. -/
def twoOpenOrders : List Call :=
  let request : OrderRequest := { instrument := 1, price := ⟨100⟩, quantity := ⟨5⟩ }
  let report : ExecutionReport := {
    instrument := 1, execType := .trade, status := .filled, price := ⟨100⟩, quantity := ⟨5⟩, filledQuantity := ⟨5⟩ }
  [.createOrder request, .createOrder request, .applyExecution { report with clientOrderId := 2 },
    .applyExecution { report with clientOrderId := 1 }]

theorem position_contained_two_open :
    let manager := Runs.after OrderManager.step
      (OrderManager.fresh (.ofLimits { maxPositionQuantity := ⟨5⟩ })) twoOpenOrders
    |quantityOf manager.positionManager 1| ≤ 5 + 5 ∧ quantityOf manager.positionManager 1 = 10 :=
  ⟨(position_contained { maxPositionQuantity := ⟨5⟩ } (by decide) (by decide : (0 : Int) ≤ 5) twoOpenOrders
    (by decide) 1).1, by decide⟩

end TradingCore.Proofs.OpenExposure
