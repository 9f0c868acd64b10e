import Mathlib.Algebra.Order.Group.Unbundled.Int
import TradingCore.Proofs.OrderManagerSteps

/-! The configured limits against the orders an execution module sends. The
module's risk manager is the default one, whose limits are all disabled, so the
limits hold on a run exactly when they would not have rejected anything. -/

namespace TradingCore.Proofs.RiskEnforcement
open OrderManager OrderManagerSteps PositionTrades ExecutionModule

structure Respects (limits : RiskLimits) (position : Int) (order : Order) : Prop where
  quantity : ¬ limits.maxOrderQuantity.isZero → order.quantity ≤ limits.maxOrderQuantity
  notional : ¬ limits.maxNotional.isZero →
    |(order.price.raw * order.quantity.raw).tdiv ScaledValue.Scale| ≤ limits.maxNotional.raw
  position : ¬ limits.maxPositionQuantity.isZero →
    |position + (order.side.signed order.quantity).raw| ≤ limits.maxPositionQuantity.raw

/-- The orders handed to the gateway while an item is processed. -/
def sentBy (module : ExecutionModule) (item : ExecutionWorkItem) : List Order :=
  (module.process item).orderManager.gateway.sentOrders.drop module.orderManager.gateway.sentOrders.length

def Enforced (config : Config) (module : ExecutionModule) (item : ExecutionWorkItem) : Prop :=
  ∀ order ∈ sentBy module item,
    Respects config.riskLimits (quantityOf module.orderManager.positionManager order.instrument) order

def Screened (config : Config) (module : ExecutionModule) : ExecutionWorkItem → Prop
  | .request request => ¬ isInvalid request → module.orderManager.nextOrderId ∉ module.orderManager.orders →
    ((RiskManager.ofLimits config.riskLimits).checkOrder request
      (module.orderManager.positionManager.getOrDefault request.instrument)).1 = .accepted
  | .report _ => True

theorem positive_of_valid {request : OrderRequest} (valid : ¬ isInvalid request) : request.quantity.isPositive := by
  by_contra negative
  exact valid (Or.inr (Or.inr (Or.inl negative)))

theorem absolute_eq_abs (value : Int) : RiskManager.absolute value = |value| := by
  rw [RiskManager.absolute]
  split
  next negative => exact (abs_of_neg negative).symm
  next positive => exact (abs_of_nonneg (Int.not_lt.mp positive)).symm

theorem positionDelta_eq (request : OrderRequest) :
    RiskManager.positionDelta request = (request.side.signed request.quantity).raw := by
  simp only [RiskManager.positionDelta, Side.signed]
  cases request.side <;> rfl

/-- The check accepts exactly the orders that respect its limits. -/
theorem accepted_iff_respects {manager : RiskManager} {request : OrderRequest} {position : Position}
    (positive : request.quantity.isPositive) (id : OrderId) :
    (manager.checkOrder request position).1 = .accepted ↔
      Respects manager.limits position.currentQuantity.raw (newOrder id request) := by
  simp only [RiskManager.checkOrder, absolute_eq_abs, positionDelta_eq, RiskManager.notional]
  constructor
  · intro accepted
    split_ifs at accepted with tooLarge beyond costly
    exact ⟨fun set => Int.not_lt.mp fun more => tooLarge ⟨set, more⟩,
      fun set => Int.not_lt.mp fun more => costly ⟨set, more⟩,
      fun set => Int.not_lt.mp fun more => beyond ⟨set, more⟩⟩
  · rintro ⟨quantity, notional, resulting⟩
    rw [if_neg (not_not_intro positive), if_neg fun tooLarge => Int.not_le.mpr tooLarge.2 (quantity tooLarge.1),
      if_neg fun beyond => Int.not_le.mpr beyond.2 (resulting beyond.1),
      if_neg fun costly => Int.not_le.mpr costly.2 (notional costly.1)]

theorem passes_unlimited {manager : OrderManager} (unlimited : manager.riskManager.limits = {})
    (request : OrderRequest) : passes manager request ↔ ¬ isInvalid request := by
  refine ⟨And.left, ?_⟩
  intro valid
  refine ⟨valid, (accepted_iff_respects (positive_of_valid valid) 0).mpr ?_⟩
  rw [unlimited]
  exact ⟨fun set => absurd rfl set, fun set => absurd rfl set, fun set => absurd rfl set⟩

theorem sentBy_report (module : ExecutionModule) (report : ExecutionReport) : sentBy module (.report report) = [] := by
  rw [sentBy, (report_frame module report).1, List.drop_length]

theorem sentBy_request (module : ExecutionModule) (request : OrderRequest) :
    sentBy module (.request request) = [newOrder module.orderManager.nextOrderId request] ∧
      passes (module.orderManager.increment .orderRequests) request ∧
      module.orderManager.nextOrderId ∉ module.orderManager.orders ∨
    sentBy module (.request request) = [] ∧
      (¬ passes (module.orderManager.increment .orderRequests) request ∨
        module.orderManager.nextOrderId ∈ module.orderManager.orders) := by
  rcases createOrder_cases (module.orderManager.increment .orderRequests) request with
    ⟨_, _, refused⟩ | ⟨_, accepted⟩
  · refine Or.inr ⟨?_, ?_⟩
    · have same : (module.process (.request request)).orderManager.gateway = module.orderManager.gateway :=
        refused.gateway
      rw [sentBy, same, List.drop_length]
    · rcases refused.ids with ⟨stopped, _⟩ | ⟨_, taken, _⟩
      · exact Or.inl stopped
      · exact Or.inr taken
  · refine Or.inl ⟨?_, accepted.passed, accepted.unused⟩
    have sent : (module.process (.request request)).orderManager.gateway =
        module.orderManager.gateway.send (newOrder module.orderManager.nextOrderId request) := accepted.gateway
    rw [sentBy, sent, ExecutionGateway.sentOrders_send, List.drop_left]

def Unlimited (module : ExecutionModule) : Prop :=
  module.orderManager.riskManager.limits = {}

theorem unlimited_construct (config : Config) : Unlimited (construct config) := rfl

theorem unlimited_process (module : ExecutionModule) (item : ExecutionWorkItem) (unlimited : Unlimited module) :
    Unlimited (module.process item) := by
  cases item with
  | request request =>
    rcases createOrder_cases (module.orderManager.increment .orderRequests) request with
      ⟨_, _, refused⟩ | ⟨_, accepted⟩
    · exact refused.limits.trans unlimited
    · exact accepted.limits.trans unlimited
  | report report =>
    rw [Unlimited, (report_frame module report).2]
    exact unlimited

theorem enforced_iff_screened (config : Config) (module : ExecutionModule) (item : ExecutionWorkItem)
    (unlimited : Unlimited module) : Enforced config module item ↔ Screened config module item := by
  cases item with
  | report report => simp [Enforced, sentBy_report, Screened]
  | request request =>
    have valid := @passes_unlimited (module.orderManager.increment .orderRequests) unlimited request
    rcases sentBy_request module request with ⟨sent, passed, unused⟩ | ⟨sent, stopped⟩
    · have positive := positive_of_valid passed.1
      simp only [Enforced, sent, List.mem_singleton, forall_eq, Screened, valid.mp passed, unused, not_false_eq_true,
        true_implies]
      exact (@accepted_iff_respects (RiskManager.ofLimits config.riskLimits) request
        (module.orderManager.positionManager.getOrDefault request.instrument) positive _).symm
    · refine iff_of_true ?_ ?_
      · simp [Enforced, sent]
      · intro allowed unused
        rcases stopped with stopped | taken
        · exact absurd (valid.mpr allowed) stopped
        · exact absurd taken unused

def Representable : ExecutionWorkItem → Prop
  | .request request => FitsInt64 request.price.raw ∧ FitsInt64 request.quantity.raw
  | .report report =>
    FitsInt64 report.price.raw ∧ FitsInt64 report.quantity.raw ∧ FitsInt64 report.filledQuantity.raw

instance : ∀ item, Decidable (Representable item)
  | .request _ => inferInstanceAs (Decidable (_ ∧ _))
  | .report _ => inferInstanceAs (Decidable (_ ∧ _ ∧ _))

structure RepresentableLimits (limits : RiskLimits) : Prop where
  quantity : FitsInt64 limits.maxOrderQuantity.raw
  position : FitsInt64 limits.maxPositionQuantity.raw
  notional : FitsInt64 limits.maxNotional.raw

def largest : Int := 2 ^ 63 - 1

/-- No representable order can break the limits. -/
structure Ineffective (limits : RiskLimits) : Prop where
  quantity : limits.maxOrderQuantity.isZero ∨ limits.maxOrderQuantity.raw = largest
  position : limits.maxPositionQuantity.isZero
  notional : limits.maxNotional.isZero

theorem screened_ineffective {config : Config} (ineffective : Ineffective config.riskLimits) (module : ExecutionModule)
    {item : ExecutionWorkItem} (representable : Representable item) : Screened config module item := by
  cases item with
  | report report => exact trivial
  | request request =>
    intro valid _
    refine (accepted_iff_respects (positive_of_valid valid) 0).mpr ⟨?_, ?_, ?_⟩
    · intro set
      have bound : config.riskLimits.maxOrderQuantity.raw = largest := ineffective.quantity.resolve_left set
      have fits := representable.2.2
      rw [largest] at bound
      show request.quantity.raw ≤ config.riskLimits.maxOrderQuantity.raw
      omega
    · intro set
      exact absurd ineffective.notional set
    · intro set
      exact absurd ineffective.position set

def largestRequest : OrderRequest where
  instrument := 1
  price := ⟨largest⟩
  quantity := ⟨largest⟩

def largestFill : ExecutionReport where
  clientOrderId := 1
  instrument := 1
  execType := .trade
  status := .filled
  price := ⟨largest⟩
  quantity := ⟨largest⟩
  filledQuantity := ⟨largest⟩

def largestOrders : List ExecutionWorkItem :=
  [.request largestRequest, .report largestFill, .request largestRequest]

theorem ineffective_of_enforced {config : Config} (fits : RepresentableLimits config.riskLimits)
    (enforced : Runs.Along process (Enforced config) (construct config) largestOrders) :
    Ineffective config.riskLimits := by
  have sent : newOrder 2 largestRequest ∈
      sentBy (((construct {}).process (.request largestRequest)).process (.report largestFill))
        (.request largestRequest) := by
    decide
  have held : quantityOf (((construct {}).process (.request largestRequest)).process
      (.report largestFill)).orderManager.positionManager 1 = largest := by
    decide
  obtain ⟨quantity, notional, position⟩ := enforced.2.2.1 (newOrder 2 largestRequest) sent
  obtain ⟨fitsQuantity, fitsPosition, fitsNotional⟩ := fits
  refine ⟨?_, ?_, ?_⟩
  · by_cases set : config.riskLimits.maxOrderQuantity.isZero
    · exact Or.inl set
    · have bound : largest ≤ config.riskLimits.maxOrderQuantity.raw := quantity set
      have below := fitsQuantity.2
      refine Or.inr ?_
      rw [largest] at bound ⊢
      omega
  · by_contra set
    have bound : |largest + largest| ≤ config.riskLimits.maxPositionQuantity.raw := held ▸ position set
    have below := fitsPosition.2
    have above := (le_abs_self _).trans bound
    rw [largest] at above
    omega
  · by_contra set
    have bound : |(largest * largest).tdiv ScaledValue.Scale| ≤ config.riskLimits.maxNotional.raw := notional set
    have below := fitsNotional.2
    have above := (le_abs_self _).trans bound
    have huge : 2 ^ 63 ≤ (largest * largest).tdiv ScaledValue.Scale := by decide
    omega

/-- On every run the limits are respected exactly when each valid request would
have been accepted by a risk manager that has them; and they are respected on
every run of representable items exactly when no such item could break them. -/
theorem limits_enforced_iff (config : Config) :
    (∀ items, Runs.Along process (Enforced config) (construct config) items ↔
      Runs.Along process (Screened config) (construct config) items) ∧
    (RepresentableLimits config.riskLimits →
      ((∀ items, (∀ item ∈ items, Representable item) →
          Runs.Along process (Enforced config) (construct config) items) ↔
        Ineffective config.riskLimits)) := by
  have exactly : ∀ items, Runs.Along process (Enforced config) (construct config) items ↔
      Runs.Along process (Screened config) (construct config) items :=
    fun items => Runs.along_congr unlimited_process (enforced_iff_screened config) (unlimited_construct config) items
  refine ⟨exactly, ?_⟩
  intro fits
  constructor
  · intro enforced
    exact ineffective_of_enforced fits (enforced largestOrders (by decide))
  · intro ineffective items representable
    refine (exactly items).mpr (Runs.along_of_forall ?_ _)
    intro module item member
    exact screened_ineffective ineffective module (representable item member)

def limited : Config where
  riskLimits := { maxOrderQuantity := ⟨1⟩ }

theorem limits_enforced_iff_limited :
    ¬ ∀ items, (∀ item ∈ items, Representable item) →
      Runs.Along process (Enforced limited) (construct limited) items := by
  intro enforced
  have ineffective := ((limits_enforced_iff limited).2 ⟨by decide, by decide, by decide⟩).mp enforced
  exact absurd ineffective.quantity (by decide)

def exceeding : OrderRequest where
  instrument := 1
  price := ⟨100⟩
  quantity := ⟨2⟩

theorem limit_ignored : ¬ Runs.Along process (Enforced limited) (construct limited) [.request exceeding] := by
  intro enforced
  have sent : newOrder 1 exceeding ∈ sentBy (construct limited) (.request exceeding) := by
    decide
  have respected := enforced.1 (newOrder 1 exceeding) sent
  exact absurd (respected.quantity (by decide)) (by decide)

end TradingCore.Proofs.RiskEnforcement
