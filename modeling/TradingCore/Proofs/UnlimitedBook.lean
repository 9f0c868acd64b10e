import TradingCore.Foundation.MapViews
import TradingCore.Proofs.BookLevels

/-! The book next to one without a depth limit that is started from the same
snapshot and given the same level updates. What the book holds the other holds
too. Its best level is the best one of the other unless a level it has lost is
better. -/

namespace TradingCore.Proofs.UnlimitedBook
open Std BookLevels MapViews

section
variable {order : Price → Price → Ordering} [TransCmp order]

/-- The listed levels of a snapshot, where an earlier one overwrites a later
one of the same price. -/
def firstListed (listed : List BookLevel) : Levels order :=
  listed.foldr (fun level rest => rest.insert level.price level.quantity) ∅

/-- A zero quantity erases, any other overwrites or inserts. -/
def setLevel (levels : Levels order) (update : PriceLevelUpdate) : Levels order :=
  if update.quantity.isZero then levels.erase update.price else levels.insert update.price update.quantity

/-- The price an update puts on top of a side without being better than the
level that was there: the second one when the best is removed, or the first
one of an empty side. -/
def newTop (levels : Levels order) (update : PriceLevelUpdate) : Option Price :=
  match levels.toList with
  | [] => if update.quantity.isZero then none else some update.price
  | [_] => none
  | best :: next :: _ => if update.quantity.isZero ∧ update.price = best.1 then some next.1 else none

/-- Whatever the update puts on top is not worse than a level of the other
side that the update leaves alone. -/
def KeepsTop (held whole : Levels order) (update : PriceLevelUpdate) : Prop :=
  ∀ price ∈ newTop held update, ∀ other ∈ whole, other ≠ update.price → (order price other).isLE

def TopTrue (held whole : Levels order) : Prop :=
  ∀ level, getBestPrice held = some level → getBestPrice whole = some level

variable {held whole : Levels order} {update : PriceLevelUpdate} {depth : Nat}

theorem firstListed_cons (level : BookLevel) (rest : List BookLevel) :
    (firstListed (level :: rest) : Levels order) = (firstListed rest).insert level.price level.quantity :=
  rfl

theorem setLevel_edit (levels : Levels order) (update : PriceLevelUpdate) :
    setLevel levels update =
      MapEdits.edit levels (update.price, if update.quantity.isZero then none else some update.quantity) := by
  rw [setLevel]
  split <;> rfl

theorem unheld_of_refused (refused : ¬ Applicable held update depth) : update.price ∉ held := by
  intro member
  apply refused
  rw [Applicable]
  split
  · exact member
  · exact Or.inl member

variable [LawfulEqCmp order]

theorem getElem?_firstListed (listed : List BookLevel) (price : Price) :
    (firstListed listed : Levels order)[price]? = (listed.find? (·.price = price)).map (·.quantity) := by
  induction listed with
  | nil => exact ExtTreeMap.getElem?_empty
  | cons level rest ih =>
    rw [firstListed_cons, MapEdits.getElem?_insert, ih]
    by_cases own : level.price = price
    · rw [List.find?_cons_of_pos (by simpa using own), if_pos own]
      rfl
    · rw [List.find?_cons_of_neg (by simpa using own), if_neg own]

/-- A price listed twice keeps its first level. -/
theorem emplaceAll_eq_firstListed (listed : List BookLevel) :
    (emplaceAll listed : Levels order) = firstListed listed := by
  apply ExtTreeMap.ext_getElem?
  intro price
  rw [getElem?_emplaceAll, getElem?_firstListed]

theorem mem_setLevel {price : Price} :
    price ∈ setLevel whole update ↔
      price ∈ whole ∧ price ≠ update.price ∨ price = update.price ∧ ¬ update.quantity.isZero := by
  rw [setLevel]
  split
  next zero =>
    rw [mem_erase_iff, and_comm, or_iff_left]
    exact fun own => own.2 zero
  next nonzero =>
    rw [mem_insert_iff]
    by_cases same : price = update.price
    · simp [same, nonzero]
    · simp [same]

theorem atTop_setLevel {price : Price} :
    AtTop (setLevel whole update) price ↔
      (∀ other ∈ whole, other ≠ update.price → (order price other).isLE) ∧
      (¬ update.quantity.isZero → (order price update.price).isLE) := by
  constructor
  · intro top
    exact ⟨fun other member different => top other (mem_setLevel.mpr (Or.inl ⟨member, different⟩)),
      fun nonzero => top update.price (mem_setLevel.mpr (Or.inr ⟨rfl, nonzero⟩))⟩
  · intro ⟨others, own⟩ other member
    rcases mem_setLevel.mp member with ⟨member, different⟩ | ⟨rfl, nonzero⟩
    · exact others other member different
    · exact own nonzero

/-- One update on both sides: evictions and refusals only lose levels. -/
theorem inside_update (inside : Inside held whole) :
    Inside (applyBookUpdate held update depth).2 (setLevel whole update) := by
  by_cases applicable : Applicable held update depth
  · rw [applied_changes applicable, levelChanges, setLevel_edit]
    split
    next => exact inside.edit (update.price, none)
    next =>
      split
      next => exact inside.edit (update.price, some update.quantity)
      next full =>
        cases last : held.toList.getLast? with
        | none =>
          apply inside.edit_whole
          exact fun member => full (Or.inl member)
        | some worst => exact (inside.erase worst.1).edit (update.price, some update.quantity)
  · rw [refused_unchanged applicable, setLevel_edit]
    exact inside.edit_whole (unheld_of_refused applicable)

theorem topTrue_iff (inside : Inside held whole) :
    TopTrue held whole ↔ ∀ best, held.toList.head? = some best → AtTop whole best.1 := by
  constructor
  · intro top best head
    have reported := top ⟨best.1, best.2⟩ (by rw [getBestPrice, head]; rfl)
    rw [getBestPrice] at reported
    cases shown : whole.toList.head? with
    | none =>
      rw [shown] at reported
      cases reported
    | some other =>
      rw [shown] at reported
      have same : other = best := by simpa [Prod.ext_iff] using reported
      exact same ▸ atTop_of_head shown
  · intro top level reported
    rw [getBestPrice] at reported ⊢
    cases head : held.toList.head? with
    | none =>
      rw [head] at reported
      cases reported
    | some best =>
      rw [head] at reported
      rw [(inside.head_iff head).mpr (top best head)]
      exact reported

/-- A side that is not empty keeps a true top through every update that leaves
it a level at least as good as the best one it had. -/
theorem atTop_kept {best : Price × Quantity} {next : Levels order} (top : AtTop whole best.1)
    (kept : ∃ price ∈ next, (order price best.1).isLE)
    (own : ¬ update.quantity.isZero → ∃ price ∈ next, (order price update.price).isLE)
    {first : Price × Quantity} (head : next.toList.head? = some first) :
    AtTop (setLevel whole update) first.1 := by
  rw [atTop_setLevel]
  constructor
  · obtain ⟨price, member, better⟩ := kept
    have least : AtTop whole price := top.above better
    intro other held _
    exact TransCmp.isLE_trans (atTop_of_head head price member) (least other held)
  · intro nonzero
    obtain ⟨price, member, better⟩ := own nonzero
    exact TransCmp.isLE_trans (atTop_of_head head price member) better

/-- After any update but the removal of its best level, a side has a level at
least as good as that one, and one at least as good as a level it was given. -/
theorem best_kept (depth : Nat) {best : Price × Quantity} (head : held.toList.head? = some best)
    (stays : ¬ (update.quantity.isZero ∧ update.price = best.1)) :
    (∃ price ∈ (applyBookUpdate held update depth).2, (order price best.1).isLE) ∧
    (¬ update.quantity.isZero → ∃ price ∈ (applyBookUpdate held update depth).2, (order price update.price).isLE) := by
  have listed := mem_of_head head
  by_cases applicable : Applicable held update depth
  · rw [applied_changes applicable, levelChanges]
    split
    next zero =>
      have other : update.price ≠ best.1 := fun same => stays ⟨zero, same⟩
      refine ⟨⟨best.1, ?_, ReflCmp.isLE_rfl⟩, fun nonzero => absurd zero nonzero⟩
      simpa [MapEdits.edit, other] using listed
    next nonzero =>
      split
      next =>
        refine ⟨⟨best.1, ?_, ReflCmp.isLE_rfl⟩, fun _ => ⟨update.price, ?_, ReflCmp.isLE_rfl⟩⟩
        · simp [MapEdits.edit, listed]
        · simp [MapEdits.edit]
      next full =>
        rw [Applicable, if_neg nonzero] at applicable
        obtain ⟨unheld, noRoom⟩ := not_or.mp full
        have replaces := (applicable.resolve_left unheld).resolve_left noRoom
        cases last : held.toList.getLast? with
        | none =>
          rw [List.getLast?_eq_none_iff.mp last] at head
          cases head
        | some worst =>
          have better := (replaces_iff last update.price).mp replaces
          refine ⟨?_, fun _ => ⟨update.price, by simp [MapEdits.edit], ReflCmp.isLE_rfl⟩⟩
          by_cases only : worst.1 = best.1
          · refine ⟨update.price, by simp [MapEdits.edit], ?_⟩
            rw [← only]
            exact Ordering.isLE_of_eq_lt better
          · exact ⟨best.1, by simp [MapEdits.edit, listed, only], ReflCmp.isLE_rfl⟩
  · rw [refused_unchanged applicable]
    refine ⟨⟨best.1, listed, ReflCmp.isLE_rfl⟩, fun nonzero => ⟨best.1, listed, ?_⟩⟩
    rw [Applicable, if_neg nonzero] at applicable
    by_contra worse
    apply applicable
    refine Or.inr (Or.inr ⟨best, List.mem_of_head? head, ?_⟩)
    exact OrientedCmp.lt_of_not_isLE worse

theorem topTrue_empty (positive : 0 < depth) :
    (∀ best, (applyBookUpdate (∅ : Levels order) update depth).2.toList.head? = some best →
      AtTop (setLevel whole update) best.1) ↔ KeepsTop ∅ whole update := by
  have listed : (∅ : Levels order).toList = [] := ExtTreeMap.toList_eq_nil_iff.mpr rfl
  rw [KeepsTop, newTop, listed, applyBookUpdate]
  by_cases zero : update.quantity.isZero
  · rw [if_pos zero]
    simp [if_pos zero, listed]
  · have added : ((∅ : Levels order).insert update.price update.quantity).toList.head? =
        some (update.price, update.quantity) := by
      refine head_iff.mpr ⟨ExtTreeMap.getElem?_insert_self, ?_⟩
      intro other member
      obtain rfl : update.price = other := by simpa using member
      exact ReflCmp.isLE_rfl
    have room : (∅ : Levels order).size < depth := positive
    have own : (order update.price update.price).isLE := ReflCmp.isLE_rfl
    rw [if_neg zero, if_neg ExtTreeMap.not_mem_empty, if_pos room, added]
    simp [if_neg zero, atTop_setLevel, own]

theorem topTrue_removed {best : Price × Quantity} {rest : List (Price × Quantity)}
    (listed : held.toList = best :: rest) (removed : update.quantity.isZero ∧ update.price = best.1) :
    (∀ first, (applyBookUpdate held update depth).2.toList.head? = some first →
      AtTop (setLevel whole update) first.1) ↔ KeepsTop held whole update := by
  rw [KeepsTop, newTop, listed, applyBookUpdate, if_pos removed.1]
  cases rest with
  | nil =>
    have left : held.erase update.price = ∅ := by
      rw [removed.2]
      exact erase_only listed
    have none : (∅ : Levels order).toList = [] := ExtTreeMap.toList_eq_nil_iff.mpr rfl
    simp [left, none]
  | cons next rest =>
    have head : (held.erase update.price).toList.head? = some next := by
      rw [removed.2]
      exact head_erase listed
    have gone : ¬ update.quantity.isZero → (order next.1 update.price).isLE :=
      fun nonzero => absurd removed.1 nonzero
    simp only [head, if_pos removed, Option.some.injEq, forall_eq', Option.mem_def, atTop_setLevel]
    exact and_iff_left gone

/-- An update that puts no outranked level on top keeps a true top true, and
only such an update does. -/
theorem topTrue_step (positive : 0 < depth) (inside : Inside held whole) (top : TopTrue held whole) :
    TopTrue (applyBookUpdate held update depth).2 (setLevel whole update) ↔ KeepsTop held whole update := by
  rw [topTrue_iff (inside_update inside)]
  rw [topTrue_iff inside] at top
  cases listed : held.toList with
  | nil =>
    obtain rfl : held = ∅ := ExtTreeMap.toList_eq_nil_iff.mp listed
    exact topTrue_empty positive
  | cons best rest =>
    have head : held.toList.head? = some best := by rw [listed]; rfl
    by_cases removed : update.quantity.isZero ∧ update.price = best.1
    · exact topTrue_removed listed removed
    · obtain ⟨kept, own⟩ := best_kept depth head removed
      refine iff_of_true (fun _ first => atTop_kept (top best head) kept own first) ?_
      rw [KeepsTop, newTop, listed]
      intro price promoted
      cases rest with
      | nil => cases promoted
      | cons next rest =>
        simp only [if_neg removed] at promoted
        cases promoted

end

/-- The same book without a limit on its sides. -/
structure Reference where
  bids : BidLevels := ∅
  asks : AskLevels := ∅

namespace Reference

def ofSnapshot (snapBids snapAsks : List BookLevel) : Reference where
  bids := firstListed snapBids
  asks := firstListed snapAsks

def apply (reference : Reference) (update : PriceLevelUpdate) : Reference :=
  match update.side with
  | .buy => { reference with bids := setLevel reference.bids update }
  | .sell => { reference with asks := setLevel reference.asks update }

end Reference

structure Shown (book : OrderBook) (reference : Reference) : Prop where
  bids : Inside book.bids reference.bids
  asks : Inside book.asks reference.asks

structure BestsHeld (book : OrderBook) (reference : Reference) : Prop where
  bid : ∀ level, book.bestBid = some level → reference.bids[level.price]? = some level.quantity
  ask : ∀ level, book.bestAsk = some level → reference.asks[level.price]? = some level.quantity

/-- What a side that is not empty reports as its best level is the best level
of the reference. -/
structure TopsTrue (book : OrderBook) (reference : Reference) : Prop where
  bid : ∀ level, book.bestBid = some level → getBestPrice reference.bids = some level
  ask : ∀ level, book.bestAsk = some level → getBestPrice reference.asks = some level

def KeepsTops (books : OrderBook × Reference) (update : PriceLevelUpdate) : Prop :=
  match update.side with
  | .buy => KeepsTop books.1.bids books.2.bids update
  | .sell => KeepsTop books.1.asks books.2.asks update

variable {book : OrderBook} {reference : Reference}

theorem Shown.update (shown : Shown book reference) (update : PriceLevelUpdate) :
    Shown (applyLevel book update) (reference.apply update) := by
  unfold applyLevel OrderBook.applyUpdate Reference.apply
  cases update.side with
  | buy => exact ⟨inside_update shown.bids, shown.asks⟩
  | sell => exact ⟨shown.bids, inside_update shown.asks⟩

theorem Shown.bestsHeld (shown : Shown book reference) : BestsHeld book reference := by
  constructor
  · intro level reported
    obtain ⟨best, head, rfl⟩ := Option.map_eq_some_iff.mp reported
    exact shown.bids _ _ (head_iff.mp head).1
  · intro level reported
    obtain ⟨best, head, rfl⟩ := Option.map_eq_some_iff.mp reported
    exact shown.asks _ _ (head_iff.mp head).1

theorem installed_levels (book : OrderBook) (sequence : SequenceNumber) (snapBids snapAsks : List BookLevel) :
    (book.setState sequence snapBids snapAsks).bids = (Reference.ofSnapshot snapBids snapAsks).bids ∧
    (book.setState sequence snapBids snapAsks).asks = (Reference.ofSnapshot snapBids snapAsks).asks :=
  ⟨emplaceAll_eq_firstListed snapBids, emplaceAll_eq_firstListed snapAsks⟩

theorem shown_installed (book : OrderBook) (sequence : SequenceNumber) (snapBids snapAsks : List BookLevel) :
    Shown (book.setState sequence snapBids snapAsks) (.ofSnapshot snapBids snapAsks) := by
  obtain ⟨bids, asks⟩ := installed_levels book sequence snapBids snapAsks
  constructor
  · rw [bids]
    exact Inside.refl _
  · rw [asks]
    exact Inside.refl _

theorem shown_run (shown : Shown book reference) (updates : List PriceLevelUpdate) :
    Shown (Runs.after applyLevel book updates) (Runs.after Reference.apply reference updates) := by
  apply Runs.related
  · exact fun _ _ update shown => Shown.update shown update
  · exact shown

/-- No level of the book is stale or made up: the reference, started from the
levels of the same snapshot and given the same updates, holds it with the same
quantity. -/
theorem held_levels_current (book : OrderBook) (sequence : SequenceNumber) (snapBids snapAsks : List BookLevel)
    (updates : List PriceLevelUpdate) :
    let installed := book.setState sequence snapBids snapAsks
    let reference := Reference.ofSnapshot snapBids snapAsks
    Shown (Runs.after applyLevel installed updates) (Runs.after Reference.apply reference updates) := by
  intro installed reference
  exact shown_run (shown_installed book sequence snapBids snapAsks) updates

theorem topsTrue_step {update : PriceLevelUpdate} (positive : 0 < book.depthValue) (shown : Shown book reference)
    (tops : TopsTrue book reference) :
    TopsTrue (applyLevel book update) (reference.apply update) ↔ KeepsTops (book, reference) update := by
  unfold applyLevel OrderBook.applyUpdate Reference.apply KeepsTops
  cases update.side with
  | buy =>
    rw [← topTrue_step positive shown.bids tops.bid]
    exact ⟨fun next => next.bid, fun bid => ⟨bid, tops.ask⟩⟩
  | sell =>
    rw [← topTrue_step positive shown.asks tops.ask]
    exact ⟨fun next => next.ask, fun ask => ⟨tops.bid, ask⟩⟩

/-- A reported best level is always a level of the reference. It is the best
one throughout a run exactly when no update of the run puts a level on top that
is worse than one the reference still has. -/
theorem top_of_book_iff {depth : Nat} (positive : 0 < depth) (sequence : SequenceNumber)
    (snapBids snapAsks : List BookLevel) (updates : List PriceLevelUpdate) :
    let installed := ({ depthValue := depth } : OrderBook).setState sequence snapBids snapAsks
    let reference := Reference.ofSnapshot snapBids snapAsks
    let books := Runs.after (Runs.both applyLevel Reference.apply) (installed, reference)
    (∀ pre, pre <+: updates → BestsHeld (books pre).1 (books pre).2) ∧
    ((∀ pre, pre <+: updates → TopsTrue (books pre).1 (books pre).2) ↔
      Runs.Along (Runs.both applyLevel Reference.apply) KeepsTops (installed, reference) updates) := by
  intro installed reference books
  have shown : Shown installed reference := shown_installed _ sequence snapBids snapAsks
  constructor
  · intro pre _
    simp only [books, Runs.after_both]
    exact (shown_run shown pre).bestsHeld
  · let valid (books : OrderBook × Reference) : Prop := 0 < books.1.depthValue ∧ Shown books.1 books.2
    let tops (books : OrderBook × Reference) : Prop := TopsTrue books.1 books.2
    have preserved : ∀ books update, valid books → valid (Runs.both applyLevel Reference.apply books update) := by
      intro books update ⟨depth, shown⟩
      refine ⟨?_, shown.update update⟩
      rw [Runs.both, (applyLevel_frame books.1 update).2]
      exact depth
    have exact_step : ∀ books update, valid books → tops books →
        (tops (Runs.both applyLevel Reference.apply books update) ↔ KeepsTops books update) := by
      intro books update ⟨depth, shown⟩
      exact topsTrue_step depth shown
    apply Runs.always_iff_within preserved exact_step
    · exact ⟨positive, shown⟩
    · obtain ⟨bids, asks⟩ := installed_levels { depthValue := depth } sequence snapBids snapAsks
      exact ⟨fun _ reported => bids ▸ reported, fun _ reported => asks ▸ reported⟩

/-- The only bid is pushed out by a better one, which is removed again before
a worse one arrives. -/
def forgottenBid : List PriceLevelUpdate :=
  [{ price := ⟨11⟩, quantity := ⟨1⟩ }, { price := ⟨11⟩ }, { price := ⟨9⟩, quantity := ⟨1⟩ }]

theorem forgotten_bid_is_better :
    let installed := ({ depthValue := 1 } : OrderBook).setState 100 [⟨⟨10⟩, ⟨1⟩⟩] []
    let reference := Reference.ofSnapshot [⟨⟨10⟩, ⟨1⟩⟩] []
    (Runs.after applyLevel installed forgottenBid).bestBid = some ⟨⟨9⟩, ⟨1⟩⟩ ∧
    getBestPrice (Runs.after Reference.apply reference forgottenBid).bids = some ⟨⟨10⟩, ⟨1⟩⟩ := by
  decide

theorem top_of_book_iff_forgotten :
    let installed := ({ depthValue := 1 } : OrderBook).setState 100 [⟨⟨10⟩, ⟨1⟩⟩] []
    let reference := Reference.ofSnapshot [⟨⟨10⟩, ⟨1⟩⟩] []
    let step := Runs.both applyLevel Reference.apply
    BestsHeld (Runs.after step (installed, reference) (forgottenBid.take 1)).1
      (Runs.after step (installed, reference) (forgottenBid.take 1)).2 ∧
    ¬ Runs.Along step KeepsTops (installed, reference) forgottenBid := by
  have decided := @top_of_book_iff 1 (by decide) 100 [⟨⟨10⟩, ⟨1⟩⟩] [] forgottenBid
  refine ⟨decided.1 (forgottenBid.take 1) (List.take_prefix 1 _), ?_⟩
  intro keeps
  have reported := (decided.2.mpr keeps forgottenBid List.prefix_rfl).bid ⟨⟨9⟩, ⟨1⟩⟩ (by decide)
  revert reported
  decide

end TradingCore.Proofs.UnlimitedBook
