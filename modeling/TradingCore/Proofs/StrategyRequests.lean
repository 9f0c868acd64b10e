import TradingCore.Proofs.OrderManagerSteps
import TradingCore.Proofs.StoredLevels
import TradingCore.Strategy.StrategyModule

/-! The requests a strategy makes of published events against what the order
manager takes for a valid request. A side without levels shows a price of zero,
and the strategy signals whenever only one side has levels. -/

namespace TradingCore.Proofs.StrategyRequests
open Std BookBuilder BookUpdates OrderManager OrderManagerSteps StoredLevels

def Positive (price : Price) (quantity : Quantity) : Prop := price.isPositive ∧ quantity.isPositive

instance (price : Price) (quantity : Quantity) : Decidable (Positive price quantity) :=
  inferInstanceAs (Decidable (_ ∧ _))

/-- A snapshot and updates of positive prices and quantities, but for the
quantities of removals. -/
structure PositiveFeed (builder : BookBuilder) (snapshot : Snapshot) (timed : List (Timestamp × BookUpdate)) :
    Prop where
  configured : builder.instrument ≠ 0
  accepted : (builder.applySnapshot snapshot).1 = true
  bids : ∀ level ∈ snapshot.bids, Positive level.price level.quantity
  asks : ∀ level ∈ snapshot.asks, Positive level.price level.quantity
  updates : ∀ item ∈ timed, ∀ level ∈ item.2.updates,
    level.price.isPositive ∧ (level.quantity.isZero ∨ level.quantity.isPositive)

theorem PositiveFeed.stores {builder : BookBuilder} {snapshot : Snapshot} {timed : List (Timestamp × BookUpdate)}
    (feed : PositiveFeed builder snapshot timed) :
    BookStores Positive (Runs.after onTimed (builder.applySnapshot snapshot).2 timed).orderBook := by
  have start : BookStores Positive (builder.applySnapshot snapshot).2.orderBook := by
    rw [applySnapshot_own (own_of_accepted feed.accepted)]
    exact (bookStores_setState _ _ _).mpr ⟨lists_of_all feed.bids, lists_of_all feed.asks⟩
  have preserved : ∀ (state : BookBuilder) (item : Timestamp × BookUpdate), BookStores Positive state.orderBook →
      (∀ level ∈ item.2.updates, level.price.isPositive ∧ (level.quantity.isZero ∨ level.quantity.isPositive)) →
      BookStores Positive (state.onTimed item).orderBook := by
    intro state item stores positive
    apply stores.onBookUpdate item.1
    intro level member set
    obtain ⟨price, quantity⟩ := positive level member
    exact ⟨price, quantity.resolve_left set⟩
  exact Runs.invariant_along preserved start (Runs.along_of_forall (fun _ => feed.updates) _)

theorem run_instrument {builder : BookBuilder} {snapshot : Snapshot}
    (accepted : (builder.applySnapshot snapshot).1 = true) (timed : List (Timestamp × BookUpdate)) :
    (Runs.after onTimed (builder.applySnapshot snapshot).2 timed).instrument = builder.instrument := by
  have start : (builder.applySnapshot snapshot).2.instrument = builder.instrument := by
    rw [applySnapshot_own (own_of_accepted accepted)]
  have preserved : ∀ (state : BookBuilder) item, state.instrument = builder.instrument →
      (state.onTimed item).instrument = builder.instrument := by
    intro state item same
    exact (onBookUpdate_frame item.1 state item.2).1.trans same
  exact Runs.invariant preserved start timed

section
variable {order : Price → Price → Ordering} [TransCmp order] [LawfulEqCmp order] {levels : Levels order}

/-- A side shows zeros when it has no level, and a positive price and quantity
otherwise. -/
theorem shown_best (stores : Stores Positive levels) :
    levels = ∅ ∧ (getBestPrice levels).elim ({} : Price) (·.price) = {} ∧
        (getBestPrice levels).elim ({} : Quantity) (·.quantity) = {} ∨
    levels ≠ ∅ ∧ Positive ((getBestPrice levels).elim {} (·.price)) ((getBestPrice levels).elim {} (·.quantity)) := by
  cases best : getBestPrice levels with
  | none => exact Or.inl ⟨best_none_iff.mp best, rfl, rfl⟩
  | some level =>
    refine Or.inr ⟨?_, stores.best best⟩
    rw [ne_eq, ← best_none_iff, best]
    exact Option.some_ne_none level

end

section
variable {config : StrategyConfig} {event : MarketEvent}

theorem no_signal (bid : event.bestBidQuantity.isZero) (ask : event.bestAskQuantity.isZero)
    (strategy : ImbalanceStrategy) : strategy.evaluate event = .none := by
  simp only [ImbalanceStrategy.evaluate, bid, ask]
  rfl

/-- The threshold is at most one, and a side alone is an imbalance of one. -/
theorem buy_signal (valid : isValidStrategyConfig config) (bid : event.bestBidQuantity.isPositive)
    (ask : event.bestAskQuantity.isZero) : (StrategyModule.construct config).strategy.evaluate event = .buy := by
  have reached : event.bestBidQuantity.raw * config.thresholdNumerator ≤
      event.bestBidQuantity.raw * config.thresholdDenominator :=
    Int.mul_le_mul_of_nonneg_left valid.2.2 (Int.le_of_lt bid)
  simp only [ImbalanceStrategy.evaluate, StrategyModule.construct, ask, Int.add_zero, Int.sub_zero]
  rw [if_neg (Int.not_le.mpr bid), if_pos bid, if_pos reached]

theorem sell_signal (valid : isValidStrategyConfig config) (bid : event.bestBidQuantity.isZero)
    (ask : event.bestAskQuantity.isPositive) : (StrategyModule.construct config).strategy.evaluate event = .sell := by
  have reached : event.bestAskQuantity.raw * config.thresholdNumerator ≤
      event.bestAskQuantity.raw * config.thresholdDenominator :=
    Int.mul_le_mul_of_nonneg_left valid.2.2 (Int.le_of_lt ask)
  simp only [ImbalanceStrategy.evaluate, StrategyModule.construct, bid, Int.zero_add, Int.zero_sub, Int.neg_neg]
  rw [if_neg (Int.not_le.mpr ask), if_neg (by omega), if_pos (by omega), if_pos reached]

end

def Pushes (module : StrategyModule) (event : MarketEvent) (request : OrderRequest) : Prop :=
  (module.onEvent event).executor.executionQueue = module.executor.executionQueue ++ [.request request]

instance (module : StrategyModule) (event : MarketEvent) (request : OrderRequest) :
    Decidable (Pushes module event request) := inferInstanceAs (Decidable (_ = _))

/-- The request that a signal would lead to: at the price of the other side. -/
def requestFor (module : StrategyModule) (event : MarketEvent) : OrderRequest where
  instrument := event.instrument
  side := if module.strategy.evaluate event = .buy then .buy else .sell
  type := .limit
  price := if module.strategy.evaluate event = .buy then event.bestAsk else event.bestBid
  quantity := module.executor.orderQuantity

theorem pushes_iff (module : StrategyModule) (event : MarketEvent) (request : OrderRequest) :
    Pushes module event request ↔ module.strategy.evaluate event ≠ .none ∧ request = requestFor module event := by
  rw [Pushes, StrategyModule.onEvent, StrategyExecutor.execute]
  by_cases silent : module.strategy.evaluate event = .none
  · simp [silent]
  · simp [silent, requestFor, eq_comm]

theorem run_configured (config : StrategyConfig) (events : List MarketEvent) :
    ((StrategyModule.construct config).run events).strategy = (StrategyModule.construct config).strategy ∧
    ((StrategyModule.construct config).run events).executor.orderQuantity = config.orderQuantity := by
  have preserved : ∀ (module : StrategyModule) event,
      module.strategy = (StrategyModule.construct config).strategy ∧
        module.executor.orderQuantity = config.orderQuantity →
      (module.onEvent event).strategy = (StrategyModule.construct config).strategy ∧
        (module.onEvent event).executor.orderQuantity = config.orderQuantity := by
    intro module event configured
    refine ⟨configured.1, ?_⟩
    rw [StrategyModule.onEvent, StrategyExecutor.execute]
    split
    · exact configured.2
    · exact configured.2
  exact Runs.invariant preserved ⟨rfl, rfl⟩ events

def Published (builder : BookBuilder) (item : Timestamp × BookUpdate) (event : MarketEvent) : Prop :=
  (builder.onTimed item).eventDispatcher.strategyQueue = builder.eventDispatcher.strategyQueue ++ [event]

instance (builder : BookBuilder) (item : Timestamp × BookUpdate) (event : MarketEvent) :
    Decidable (Published builder item event) := inferInstanceAs (Decidable (_ = _))

theorem published_top {builder : BookBuilder} {item : Timestamp × BookUpdate} {event : MarketEvent}
    (published : Published builder item event) :
    event = topOfBook builder.instrument (builder.onTimed item).orderBook item.1 item.2 := by
  rw [Published, onTimed] at published
  by_cases inSequence : InSequence builder item.2
  · by_cases applicable : LevelsApplicable builder item.2
    · rw [onBookUpdate_applied item.1 inSequence applicable] at published
      rw [onTimed, onBookUpdate_applied item.1 inSequence applicable]
      exact (List.cons.inj (List.append_cancel_left published)).1.symm
    · rw [onBookUpdate_refused item.1 inSequence applicable] at published
      simp at published
  · rw [onBookUpdate_ignored item.1 inSequence] at published
    simp at published

theorem invalid_of_unpriced {request : OrderRequest} (unpriced : request.price.isZero) : isInvalid request :=
  Or.inr (Or.inr (Or.inr (Or.inl unpriced)))

theorem valid_of_positive {request : OrderRequest} (known : request.instrument ≠ 0)
    (quantity : request.quantity.isPositive) (price : request.price.isPositive) : ¬ isInvalid request := by
  rintro (unknown | none | negative | unpriced | negative)
  · exact known unknown
  · exact Int.ne_of_gt quantity none
  · exact negative quantity
  · exact Int.ne_of_gt price unpriced
  · exact negative price

/-- The two sides of the book are empty together or not at all. -/
def Balanced (book : OrderBook) : Prop := book.bids = ∅ ↔ book.asks = ∅

theorem invalid_iff_unbalanced {config : StrategyConfig} {module : StrategyModule} {event : MarketEvent}
    {book : OrderBook} {instrument : InstrumentId} {now : Timestamp} {update : BookUpdate}
    (valid : isValidStrategyConfig config) (configured : module.strategy = (StrategyModule.construct config).strategy)
    (positive : module.executor.orderQuantity.isPositive) (known : instrument ≠ 0) (stores : BookStores Positive book)
    (top : event = topOfBook instrument book now update) :
    module.strategy.evaluate event ≠ .none ∧ isInvalid (requestFor module event) ↔ ¬ Balanced book := by
  have bid := shown_best stores.bids
  have ask := shown_best stores.asks
  have bidPrice : event.bestBid = (getBestPrice book.bids).elim {} (·.price) := by rw [top]; rfl
  have bidQuantity : event.bestBidQuantity = (getBestPrice book.bids).elim {} (·.quantity) := by rw [top]; rfl
  have askPrice : event.bestAsk = (getBestPrice book.asks).elim {} (·.price) := by rw [top]; rfl
  have askQuantity : event.bestAskQuantity = (getBestPrice book.asks).elim {} (·.quantity) := by rw [top]; rfl
  have own : event.instrument = instrument := by rw [top]; rfl
  rw [← bidPrice, ← bidQuantity] at bid
  rw [← askPrice, ← askQuantity] at ask
  rw [Balanced]
  rcases bid with ⟨noBids, noBid, zeroBid⟩ | ⟨bids, bid⟩
  · rcases ask with ⟨noAsks, _, zeroAsk⟩ | ⟨asks, ask⟩
    · have silent := no_signal (congrArg ScaledValue.raw zeroBid) (congrArg ScaledValue.raw zeroAsk) module.strategy
      exact iff_of_false (fun signal => signal.1 silent) (not_not_intro (iff_of_true noBids noAsks))
    · have signal := sell_signal valid (congrArg ScaledValue.raw zeroBid) ask.2
      rw [← configured] at signal
      refine iff_of_true ⟨?_, ?_⟩ fun balanced => asks (balanced.mp noBids)
      · rw [signal]
        exact Signal.noConfusion
      · apply invalid_of_unpriced
        rw [requestFor, signal, noBid]
        rfl
  · rcases ask with ⟨noAsks, noAsk, zeroAsk⟩ | ⟨asks, ask⟩
    · have signal := buy_signal valid bid.2 (congrArg ScaledValue.raw zeroAsk)
      rw [← configured] at signal
      refine iff_of_true ⟨?_, ?_⟩ fun balanced => bids (balanced.mpr noAsks)
      · rw [signal]
        exact Signal.noConfusion
      · apply invalid_of_unpriced
        rw [requestFor, signal, noAsk]
        rfl
    · refine iff_of_false ?_ (not_not_intro (iff_of_false bids asks))
      rintro ⟨_, invalid⟩
      refine valid_of_positive ?_ positive ?_ invalid
      · rw [requestFor, own]
        exact known
      · rw [requestFor]
        dsimp only
        split
        next => exact ask.1
        next => exact bid.1

/-- The request passes, and the id that is next is in use. -/
def Clashes (manager : OrderManager) (request : OrderRequest) : Prop :=
  passes manager request ∧ manager.nextOrderId ∈ manager.orders

/-- The request of a published event is taken for a valid one exactly when the
book shows both sides or neither, and the next order id is free. -/
theorem request_valid_iff {config : StrategyConfig} {builder : BookBuilder} {snapshot : Snapshot}
    {before : List (Timestamp × BookUpdate)} {item : Timestamp × BookUpdate} {event : MarketEvent}
    (valid : isValidStrategyConfig config) (positive : config.orderQuantity.isPositive)
    (feed : PositiveFeed builder snapshot (before ++ [item]))
    (published : Published (Runs.after onTimed (builder.applySnapshot snapshot).2 before) item event)
    (earlier : List MarketEvent) (manager : OrderManager) :
    (∀ request, Pushes ((StrategyModule.construct config).run earlier) event request →
      (manager.createOrder request).1 ≠ .error .invalidRequest) ↔
    Balanced (Runs.after onTimed (builder.applySnapshot snapshot).2 (before ++ [item])).orderBook ∧
      (((StrategyModule.construct config).run earlier).strategy.evaluate event ≠ .none →
        ¬ Clashes manager (requestFor ((StrategyModule.construct config).run earlier) event)) := by
  obtain ⟨strategy, quantity⟩ := run_configured config earlier
  have known : (Runs.after onTimed (builder.applySnapshot snapshot).2 before).instrument ≠ 0 := by
    rw [run_instrument feed.accepted]
    exact feed.configured
  have stores := feed.stores
  have top := published_top published
  rw [Runs.after_append, Runs.after_cons, Runs.after_nil] at stores ⊢
  have unbalanced := invalid_iff_unbalanced valid strategy (by rw [quantity]; exact positive) known stores top
  simp only [pushes_iff, ne_eq, createOrder_invalidRequest_iff]
  constructor
  · intro accepted
    refine ⟨?_, ?_⟩
    · by_contra broken
      obtain ⟨signal, invalid⟩ := unbalanced.mpr broken
      exact accepted _ ⟨signal, rfl⟩ (Or.inl invalid)
    · intro signal clash
      exact accepted _ ⟨signal, rfl⟩ (Or.inr clash)
  · rintro ⟨balanced, free⟩ request ⟨signal, rfl⟩ (invalid | clash)
    · exact unbalanced.mp ⟨signal, invalid⟩ balanced
    · exact free signal clash

def twoSided : Snapshot where
  instrument := 1
  sequence := 100
  bids := [⟨⟨500⟩, ⟨3⟩⟩]
  asks := [⟨⟨501⟩, ⟨3⟩⟩]

/-- A bid of forty against an ask of three, or against none. -/
def largeBid : Timestamp × BookUpdate :=
  (9, { instrument := 1, sequenceRange := { first := 101, last := 101 }, updates := [⟨.buy, ⟨500⟩, ⟨40⟩⟩] })

def twoSidedEvent : MarketEvent where
  instrument := 1
  sequence := 101
  receiveTimestamp := 9
  bestBid := ⟨500⟩
  bestBidQuantity := ⟨40⟩
  bestAsk := ⟨501⟩
  bestAskQuantity := ⟨3⟩

def oneSidedEvent : MarketEvent := { twoSidedEvent with bestAsk := {}, bestAskQuantity := {} }

/-- The request to buy at the best ask. -/
def askRequest : OrderRequest where
  instrument := 1
  side := .buy
  type := .limit
  price := ⟨501⟩
  quantity := ⟨100000000⟩

theorem request_valid_two_sided :
    Pushes (StrategyModule.construct {}) twoSidedEvent askRequest ∧
    (({} : OrderManager).createOrder askRequest).1 ≠ .error .invalidRequest := by
  have valid : isValidStrategyConfig {} := by decide
  have feed : PositiveFeed emptyBuilder twoSided ([] ++ [largeBid]) :=
    ⟨by decide, by decide, by decide, by decide, by decide⟩
  have published :
      Published (Runs.after onTimed (emptyBuilder.applySnapshot twoSided).2 []) largeBid twoSidedEvent := by
    decide
  have pushed : Pushes ((StrategyModule.construct {}).run []) twoSidedEvent askRequest := by decide
  refine ⟨pushed, (request_valid_iff valid (by decide) feed published [] {}).mpr ⟨?_, ?_⟩ askRequest pushed⟩
  · refine iff_of_false ?_ ?_
    · rw [← best_none_iff]
      decide
    · rw [← best_none_iff]
      decide
  · intro _ clash
    exact absurd clash.2 (by decide)

/-- The price of the missing ask is zero, and so is that of the request. -/
theorem one_sided_request_invalid :
    PositiveFeed emptyBuilder oneBid [largeBid] ∧
    Published (emptyBuilder.applySnapshot oneBid).2 largeBid oneSidedEvent ∧
    Pushes (StrategyModule.construct {}) oneSidedEvent
      { instrument := 1, side := .buy, type := .limit, price := {}, quantity := ⟨100000000⟩ } ∧
    (({} : OrderManager).createOrder
      { instrument := 1, side := .buy, type := .limit, price := {}, quantity := ⟨100000000⟩ }).1 =
        .error .invalidRequest :=
  ⟨⟨by decide, by decide, by decide, by decide, by decide⟩, by decide, by decide, by decide⟩

end TradingCore.Proofs.StrategyRequests
