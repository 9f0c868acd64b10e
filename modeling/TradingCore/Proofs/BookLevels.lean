import TradingCore.Foundation.MapEdits
import TradingCore.OrderBook.BookBuilder

/-! When one level update is applied to a side of the book, and what a list of
level updates with an early exit leaves behind. -/

namespace TradingCore.Proofs.BookLevels
open Std

section
variable {order : Price → Price → Ordering} [TransCmp order] {levels : Levels order} {update : PriceLevelUpdate}
  {depth : Nat}

/-- A removal needs a held price. Any other level needs a held price, room
within the depth, or a worse level to replace. -/
def Applicable (levels : Levels order) (update : PriceLevelUpdate) (depth : Nat) : Prop :=
  if update.quantity.isZero then update.price ∈ levels
  else update.price ∈ levels ∨ levels.size < depth ∨ ∃ level ∈ levels.toList, order update.price level.1 = .lt

instance (levels : Levels order) (update : PriceLevelUpdate) (depth : Nat) :
    Decidable (Applicable levels update depth) := by
  unfold Applicable
  infer_instance

theorem worst_of_getLast {worst level : Price × Quantity} (last : levels.toList.getLast? = some worst)
    (member : level ∈ levels.toList) : level = worst ∨ order level.1 worst.1 = .lt := by
  obtain ⟨front, split⟩ := List.getLast?_eq_some_iff.mp last
  have sorted := levels.ordered_keys_toList
  rw [split] at member sorted
  rcases List.mem_append.mp member with earlier | same
  · exact Or.inr ((List.pairwise_append.mp sorted).2.2 level earlier worst (List.mem_singleton_self worst))
  · exact Or.inl (List.mem_singleton.mp same)

theorem replaces_iff {worst : Price × Quantity} (last : levels.toList.getLast? = some worst) (price : Price) :
    (∃ level ∈ levels.toList, order price level.1 = .lt) ↔ order price worst.1 = .lt := by
  constructor
  · intro ⟨level, member, better⟩
    rcases worst_of_getLast last member with rfl | lower
    · exact better
    · exact TransCmp.lt_trans better lower
  · intro better
    exact ⟨worst, List.mem_of_getLast? last, better⟩

theorem applied_iff : (applyBookUpdate levels update depth).1 = true ↔ Applicable levels update depth := by
  unfold applyBookUpdate Applicable
  split
  next => exact ExtTreeMap.contains_iff_mem
  next =>
    split
    next held => simp [held]
    next absent =>
      split
      next room => simp [room]
      next full =>
        cases last : levels.toList.getLast? with
        | none =>
          have empty := List.getLast?_eq_none_iff.mp last
          simp [absent, full, empty]
        | some worst =>
          rw [replaces_iff last]
          by_cases better : order update.price worst.1 = .lt
          · simp [better]
          · simp [absent, full, better]

/-- The prices an applicable level changes: its own, and the worst one when it
takes its place on a full side. -/
def levelChanges (levels : Levels order) (update : PriceLevelUpdate) (depth : Nat) : List (Price × Option Quantity) :=
  if update.quantity.isZero then [(update.price, none)]
  else if update.price ∈ levels ∨ levels.size < depth then [(update.price, some update.quantity)]
  else
    match levels.toList.getLast? with
    | some worst => [(worst.1, none), (update.price, some update.quantity)]
    | none => []

theorem applied_changes (applicable : Applicable levels update depth) :
    (applyBookUpdate levels update depth).2 = Runs.after MapEdits.edit levels (levelChanges levels update depth) := by
  rw [applyBookUpdate, levelChanges]
  rw [Applicable] at applicable
  split
  next => rfl
  next nonzero =>
    rw [if_neg nonzero] at applicable
    by_cases held : update.price ∈ levels
    · rw [if_pos held, if_pos (Or.inl held)]
      rfl
    · rw [if_neg held]
      by_cases room : levels.size < depth
      · rw [if_pos room, if_pos (Or.inr room)]
        rfl
      · rw [if_neg room, if_neg (not_or.mpr ⟨held, room⟩)]
        have replaces := (applicable.resolve_left held).resolve_left room
        cases last : levels.toList.getLast? with
        | none => rfl
        | some worst =>
          have better := (replaces_iff last update.price).mp replaces
          simp only [better, if_true]
          rfl

variable [LawfulEqCmp order]

theorem getElem?_emplaced (listed : List BookLevel) (side : Levels order) (price : Price) :
    (listed.foldl (fun side level => side.insertIfNew level.price level.quantity) side)[price]? =
      side[price]?.or ((listed.find? (·.price = price)).map (·.quantity)) := by
  induction listed generalizing side with
  | nil => simp
  | cons level rest ih =>
    rw [List.foldl_cons, ih, ExtTreeMap.getElem?_insertIfNew]
    by_cases own : level.price = price
    · subst own
      rw [List.find?_cons_of_pos (by simp)]
      by_cases held : level.price ∈ side
      · simp [held]
      · simp [held]
    · rw [List.find?_cons_of_neg (by simpa using own)]
      simp [LawfulEqCmp.compare_eq_iff_eq, own]

theorem getElem?_emplaceAll (listed : List BookLevel) (price : Price) :
    (emplaceAll listed : Levels order)[price]? = (listed.find? (·.price = price)).map (·.quantity) := by
  rw [emplaceAll, getElem?_emplaced, ExtTreeMap.getElem?_empty, Option.none_or]

/-- A refused level leaves its side as it was. -/
theorem refused_unchanged (refused : ¬ Applicable levels update depth) :
    (applyBookUpdate levels update depth).2 = levels := by
  unfold Applicable at refused
  unfold applyBookUpdate
  split
  next zero =>
    rw [if_pos zero] at refused
    apply ExtTreeMap.ext_getElem?
    intro price
    rw [ExtTreeMap.getElem?_erase]
    split
    next same =>
      rw [← LawfulEqCmp.eq_of_compare same]
      exact (ExtTreeMap.getElem?_eq_none refused).symm
    next => rfl
  next nonzero =>
    rw [if_neg nonzero] at refused
    rw [if_neg fun held => refused (Or.inl held), if_neg fun room => refused (Or.inr (Or.inl room))]
    cases last : levels.toList.getLast? with
    | none => rfl
    | some worst =>
      have better : ¬ order update.price worst.1 = .lt := by
        rw [← replaces_iff last]
        exact fun replaces => refused (Or.inr (Or.inr replaces))
      simp only [better, if_false]

end

def LevelApplicable (book : OrderBook) (update : PriceLevelUpdate) : Prop :=
  match update.side with
  | .buy => Applicable book.bids update book.depthValue
  | .sell => Applicable book.asks update book.depthValue

instance (book : OrderBook) (update : PriceLevelUpdate) : Decidable (LevelApplicable book update) := by
  unfold LevelApplicable
  cases update.side <;> infer_instance

def applyLevel (book : OrderBook) (update : PriceLevelUpdate) : OrderBook := (book.applyUpdate update).2

def acceptedLevels (book : OrderBook) (updates : List PriceLevelUpdate) : List PriceLevelUpdate :=
  Runs.upTo applyLevel LevelApplicable book updates

theorem applyUpdate_iff (book : OrderBook) (update : PriceLevelUpdate) :
    (book.applyUpdate update).1 = true ↔ LevelApplicable book update := by
  unfold OrderBook.applyUpdate LevelApplicable
  cases update.side
  · exact applied_iff
  · exact applied_iff

theorem applyLevel_refused {book : OrderBook} {update : PriceLevelUpdate} (refused : ¬ LevelApplicable book update) :
    applyLevel book update = book := by
  unfold applyLevel OrderBook.applyUpdate
  unfold LevelApplicable at refused
  cases side : update.side with
  | buy =>
    rw [side] at refused
    simp only [refused_unchanged refused]
  | sell =>
    rw [side] at refused
    simp only [refused_unchanged refused]

theorem applyLevel_frame (book : OrderBook) (update : PriceLevelUpdate) :
    (applyLevel book update).sequenceNumber = book.sequenceNumber ∧
    (applyLevel book update).depthValue = book.depthValue := by
  unfold applyLevel OrderBook.applyUpdate
  cases update.side
  · exact ⟨rfl, rfl⟩
  · exact ⟨rfl, rfl⟩

theorem applyLevels_frame (book : OrderBook) (updates : List PriceLevelUpdate) :
    (Runs.after applyLevel book updates).sequenceNumber = book.sequenceNumber ∧
    (Runs.after applyLevel book updates).depthValue = book.depthValue := by
  have preserved : ∀ (state : OrderBook) update,
      state.sequenceNumber = book.sequenceNumber ∧ state.depthValue = book.depthValue →
      (applyLevel state update).sequenceNumber = book.sequenceNumber ∧
        (applyLevel state update).depthValue = book.depthValue := by
    intro state update ⟨sequence, depth⟩
    obtain ⟨sameSequence, sameDepth⟩ := applyLevel_frame state update
    exact ⟨sameSequence.trans sequence, sameDepth.trans depth⟩
  exact Runs.invariant preserved ⟨rfl, rfl⟩ updates

theorem allOf_iff (book : OrderBook) (updates : List PriceLevelUpdate) :
    (allOf OrderBook.applyUpdate book updates).1 = true ↔ Runs.Along applyLevel LevelApplicable book updates := by
  induction updates generalizing book with
  | nil => simp [allOf]
  | cons update rest ih =>
    rw [allOf, Runs.along_cons, ← applyUpdate_iff, ← ih]
    cases answered : book.applyUpdate update with
    | mk applied next =>
      cases applied
      · simp
      · simp [applyLevel, answered]

def bidChanges (book : OrderBook) (update : PriceLevelUpdate) : List (Price × Option Quantity) :=
  match update.side with
  | .buy => levelChanges book.bids update book.depthValue
  | .sell => []

def askChanges (book : OrderBook) (update : PriceLevelUpdate) : List (Price × Option Quantity) :=
  match update.side with
  | .buy => []
  | .sell => levelChanges book.asks update book.depthValue

/-- The changes of one side along a list of levels. -/
def changesAlong (changes : OrderBook → PriceLevelUpdate → List (Price × Option Quantity)) :
    OrderBook → List PriceLevelUpdate → List (Price × Option Quantity)
  | _, [] => []
  | book, update :: rest => changes book update ++ changesAlong changes (applyLevel book update) rest

theorem applyLevel_changes {book : OrderBook} {update : PriceLevelUpdate} (applicable : LevelApplicable book update) :
    (applyLevel book update).bids = Runs.after MapEdits.edit book.bids (bidChanges book update) ∧
    (applyLevel book update).asks = Runs.after MapEdits.edit book.asks (askChanges book update) := by
  rw [applyLevel, OrderBook.applyUpdate, bidChanges, askChanges]
  rw [LevelApplicable] at applicable
  cases side : update.side with
  | buy =>
    rw [side] at applicable
    exact ⟨applied_changes applicable, rfl⟩
  | sell =>
    rw [side] at applicable
    exact ⟨rfl, applied_changes applicable⟩

theorem applyLevels_changes {book : OrderBook} {updates : List PriceLevelUpdate}
    (applicable : Runs.Along applyLevel LevelApplicable book updates) :
    (Runs.after applyLevel book updates).bids =
      Runs.after MapEdits.edit book.bids (changesAlong bidChanges book updates) ∧
    (Runs.after applyLevel book updates).asks =
      Runs.after MapEdits.edit book.asks (changesAlong askChanges book updates) := by
  induction updates generalizing book with
  | nil => exact ⟨rfl, rfl⟩
  | cons update rest ih =>
    obtain ⟨bids, asks⟩ := applyLevel_changes applicable.1
    obtain ⟨restBids, restAsks⟩ := ih applicable.2
    constructor
    · rw [Runs.after_cons, restBids, changesAlong, Runs.after_append, bids]
    · rw [Runs.after_cons, restAsks, changesAlong, Runs.after_append, asks]

/-- The early exit leaves exactly the levels before the refused one applied. -/
theorem allOf_book (book : OrderBook) (updates : List PriceLevelUpdate) :
    (allOf OrderBook.applyUpdate book updates).2 = Runs.after applyLevel book (acceptedLevels book updates) := by
  induction updates generalizing book with
  | nil => rfl
  | cons update rest ih =>
    have accepts := applyUpdate_iff book update
    cases answered : book.applyUpdate update with
    | mk applied next =>
      have same : applyLevel book update = next := by
        rw [applyLevel, answered]
      rw [answered] at accepts
      cases applied with
      | true =>
        rw [acceptedLevels, Runs.upTo, if_pos (accepts.mp rfl), Runs.after_cons, same, allOf, answered]
        exact ih next
      | false =>
        have refused : ¬ LevelApplicable book update := by
          intro applicable
          cases accepts.mpr applicable
        rw [acceptedLevels, Runs.upTo, if_neg refused, allOf, answered]
        exact same.symm.trans (applyLevel_refused refused)

end TradingCore.Proofs.BookLevels
