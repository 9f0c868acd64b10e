import TradingCore.Foundation.MapEdits
import TradingCore.Proofs.BookUpdates

/-! A property of every level that a side stores: which lists of levels bring
it and which updates keep it. -/

namespace TradingCore.Proofs.StoredLevels
open Std BookBuilder BookLevels BookUpdates

section
variable {order : Price → Price → Ordering} [TransCmp order] {good : Price → Quantity → Prop} {levels : Levels order}

def Stores (good : Price → Quantity → Prop) (levels : Levels order) : Prop :=
  ∀ (price : Price) (quantity : Quantity), levels[price]? = some quantity → good price quantity

/-- The first level listed for each price, which is the one a side is set
from, has the property. -/
def Lists (good : Price → Quantity → Prop) (listed : List BookLevel) : Prop :=
  ∀ level, listed.find? (·.price = level.price) = some level → good level.price level.quantity

theorem stores_empty : Stores good (∅ : Levels order) := by
  intro price quantity held
  rw [ExtTreeMap.getElem?_empty] at held
  cases held

theorem Stores.erase (stores : Stores good levels) (price : Price) : Stores good (levels.erase price) := by
  intro other quantity held
  rw [ExtTreeMap.getElem?_erase] at held
  split at held
  next => cases held
  next => exact stores other quantity held

theorem best_none_iff : getBestPrice levels = none ↔ levels = ∅ := by
  rw [getBestPrice, Option.map_eq_none_iff, List.head?_eq_none_iff]
  exact ExtTreeMap.toList_eq_nil_iff

variable [LawfulEqCmp order]

theorem Stores.best (stores : Stores good levels) {level : BookLevel} (best : getBestPrice levels = some level) :
    good level.price level.quantity := by
  obtain ⟨first, head, rfl⟩ := Option.map_eq_some_iff.mp best
  apply stores
  exact ExtTreeMap.mem_toList_iff_getElem?_eq_some.mp (List.mem_of_head? head)

theorem Stores.insert (stores : Stores good levels) {price : Price} {quantity : Quantity}
    (holds : good price quantity) : Stores good (levels.insert price quantity) := by
  intro other volume held
  rw [MapEdits.getElem?_insert] at held
  split at held
  next same =>
    subst same
    cases held
    exact holds
  next => exact stores other volume held

/-- A removal stores nothing, so only the other updates need the property. -/
theorem Stores.update (stores : Stores good levels) {update : PriceLevelUpdate}
    (holds : ¬ update.quantity.isZero → good update.price update.quantity) (depth : Nat) :
    Stores good (applyBookUpdate levels update depth).2 := by
  unfold applyBookUpdate
  split
  next => exact stores.erase update.price
  next nonzero =>
    have set := holds nonzero
    split
    next => exact stores.insert set
    next =>
      split
      next => exact stores.insert set
      next =>
        cases levels.toList.getLast? with
        | none => exact stores
        | some worst =>
          dsimp only
          split
          next => exact (stores.erase worst.1).insert set
          next => exact stores

theorem lists_of_all {listed : List BookLevel} (all : ∀ level ∈ listed, good level.price level.quantity) :
    Lists good listed := fun level found => all level (List.mem_of_find?_eq_some found)

theorem stores_emplaceAll (listed : List BookLevel) :
    Stores good (emplaceAll listed : Levels order) ↔ Lists good listed := by
  constructor
  · intro stores level found
    apply stores level.price
    rw [getElem?_emplaceAll, found]
    rfl
  · intro lists price quantity held
    rw [getElem?_emplaceAll, Option.map_eq_some_iff] at held
    obtain ⟨level, found, rfl⟩ := held
    obtain rfl : level.price = price := by simpa using List.find?_some found
    exact lists level found

end

structure BookStores (good : Price → Quantity → Prop) (book : OrderBook) : Prop where
  bids : Stores good book.bids
  asks : Stores good book.asks

variable {good : Price → Quantity → Prop} {book : OrderBook}

theorem bookStores_setState (sequence : SequenceNumber) (snapBids snapAsks : List BookLevel) :
    BookStores good (book.setState sequence snapBids snapAsks) ↔ Lists good snapBids ∧ Lists good snapAsks := by
  rw [← @stores_emplaceAll greater, ← @stores_emplaceAll less]
  exact ⟨fun sides => ⟨sides.bids, sides.asks⟩, fun sides => ⟨sides.1, sides.2⟩⟩

theorem BookStores.applyLevel (stores : BookStores good book) {update : PriceLevelUpdate}
    (holds : ¬ update.quantity.isZero → good update.price update.quantity) :
    BookStores good (applyLevel book update) := by
  rw [BookLevels.applyLevel, OrderBook.applyUpdate]
  cases update.side with
  | buy => exact ⟨stores.bids.update holds book.depthValue, stores.asks⟩
  | sell => exact ⟨stores.bids, stores.asks.update holds book.depthValue⟩

/-- Whatever becomes of an update, the book stores no level that it did not
have or that the update does not set. -/
theorem BookStores.onBookUpdate {builder : BookBuilder} (stores : BookStores good builder.orderBook) (now : Timestamp)
    {update : BookUpdate}
    (holds : ∀ level ∈ update.updates, ¬ level.quantity.isZero → good level.price level.quantity) :
    BookStores good (builder.onBookUpdate now update).orderBook := by
  have levels : ∀ listed : List PriceLevelUpdate,
      (∀ level ∈ listed, ¬ level.quantity.isZero → good level.price level.quantity) →
      BookStores good (Runs.after BookLevels.applyLevel builder.orderBook listed) := by
    intro listed each
    refine Runs.invariant_along ?_ stores (Runs.along_of_forall (fun _ => each) _)
    intro book level stores sets
    exact stores.applyLevel sets
  by_cases inSequence : InSequence builder update
  · by_cases applicable : LevelsApplicable builder update
    · rw [onBookUpdate_applied now inSequence applicable]
      have applied := levels update.updates holds
      exact ⟨applied.bids, applied.asks⟩
    · rw [onBookUpdate_refused now inSequence applicable]
      apply levels
      intro level member
      exact holds level (Runs.mem_upTo member)
  · rw [onBookUpdate_ignored now inSequence]
    exact stores

end TradingCore.Proofs.StoredLevels
