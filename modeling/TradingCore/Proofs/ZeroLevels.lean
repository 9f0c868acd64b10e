import TradingCore.Proofs.StoredLevels

/-! Levels without quantity. An update never leaves one behind; a state that is
set as a whole keeps the ones it is given, and its events then show an empty
side where there is a level. -/

namespace TradingCore.Proofs.ZeroLevels
open Std BookLevels StoredLevels

def Nonzero (_ : Price) (quantity : Quantity) : Prop := ¬ quantity.isZero

theorem best_zero_iff {order : Price → Price → Ordering} [TransCmp order] [LawfulEqCmp order] {levels : Levels order}
    (nonzero : Stores Nonzero levels) :
    ((getBestPrice levels).elim ({} : Quantity) (·.quantity)).isZero ↔ levels = ∅ := by
  cases best : getBestPrice levels with
  | none => exact iff_of_true rfl (best_none_iff.mp best)
  | some level =>
    refine iff_of_false (nonzero.best best) ?_
    rw [← best_none_iff, best]
    exact Option.some_ne_none level

/-- In every event published from the book, a best quantity of zero says that
the side has no level. -/
def ZeroMeansEmpty (book : OrderBook) : Prop :=
  ∀ (builder : BookBuilder) now sequence exchangeTimestamp event, builder.orderBook = book →
    (builder.publishMarketEvent now sequence exchangeTimestamp).eventDispatcher =
      builder.eventDispatcher.onMarketEvent event →
    (event.bestBidQuantity.isZero ↔ book.bids = ∅) ∧ (event.bestAskQuantity.isZero ↔ book.asks = ∅)

theorem onMarketEvent_inj {dispatcher : MarketEventDispatcher} {first second : MarketEvent}
    (same : dispatcher.onMarketEvent first = dispatcher.onMarketEvent second) : first = second := by
  have queues := congrArg (·.strategyQueue) same
  simpa [MarketEventDispatcher.onMarketEvent] using queues

theorem zeroMeansEmpty_of_nonzero {book : OrderBook} (nonzero : BookStores Nonzero book) : ZeroMeansEmpty book := by
  rintro builder now sequence exchangeTimestamp event rfl published
  rw [← onMarketEvent_inj published]
  exact ⟨best_zero_iff nonzero.bids, best_zero_iff nonzero.asks⟩

def ListsNonzero (_ : OrderBook) : OrderBook.Call → Prop
  | .setState _ snapBids snapAsks => Lists Nonzero snapBids ∧ Lists Nonzero snapAsks
  | .applyUpdate _ => True
  | .clear => True

theorem nonzero_step (book : OrderBook) (call : OrderBook.Call) (nonzero : BookStores Nonzero book) :
    BookStores Nonzero (book.step call) ↔ ListsNonzero book call := by
  cases call with
  | setState sequence snapBids snapAsks => exact bookStores_setState sequence snapBids snapAsks
  | applyUpdate update => exact iff_of_true (nonzero.applyLevel fun set => set) trivial
  | clear => exact iff_of_true ⟨stores_empty, stores_empty⟩ trivial

/-- Throughout a run every level has a quantity, and the events tell an empty
side from one with levels, exactly when no state of the run is set from lists
that give a price none. -/
theorem nonzero_kept_iff (depth : Nat) (calls : List OrderBook.Call) :
    (∀ pre, pre <+: calls →
      BookStores Nonzero (Runs.after OrderBook.step { depthValue := depth } pre) ∧
      ZeroMeansEmpty (Runs.after OrderBook.step { depthValue := depth } pre)) ↔
      Runs.Along OrderBook.step ListsNonzero { depthValue := depth } calls := by
  have start : BookStores Nonzero { depthValue := depth } := ⟨stores_empty, stores_empty⟩
  rw [← Runs.always_iff nonzero_step start calls]
  constructor
  · intro always pre inside
    exact (always pre inside).1
  · intro always pre inside
    exact ⟨always pre inside, zeroMeansEmpty_of_nonzero (always pre inside)⟩

/-- The book has a bid of quantity zero, and its event shows no bid. -/
theorem set_state_keeps_zero :
    let book := OrderBook.step { depthValue := 1 } (.setState 100 [⟨⟨10⟩, ⟨0⟩⟩] [])
    ¬ BookStores Nonzero book ∧ ¬ ZeroMeansEmpty book := by
  intro book
  have held : book.bids[(⟨10⟩ : Price)]? = some ⟨0⟩ := by decide
  refine ⟨fun nonzero => nonzero.bids ⟨10⟩ ⟨0⟩ held rfl, ?_⟩
  intro shown
  have empty := ((shown { orderBook := book } 0 0 0 _ rfl rfl).1).mp (by decide)
  rw [empty, ExtTreeMap.getElem?_empty] at held
  cases held

end TradingCore.Proofs.ZeroLevels
