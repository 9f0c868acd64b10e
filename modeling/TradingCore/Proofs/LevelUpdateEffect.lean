import TradingCore.Foundation.MapViews
import TradingCore.Proofs.BookLevels

/-! The exact effect of one level update: when it is refused, what it changes
on its side of the book and what it leaves alone. -/

namespace TradingCore.Proofs.LevelUpdateEffect
open Std BookLevels MapViews

section
variable {order : Price → Price → Ordering} [TransCmp order]

/-- No price of the side comes after it. -/
def Worst (levels : Levels order) (price : Price) : Prop :=
  price ∈ levels ∧ ∀ other ∈ levels, (order other price).isLE

/-- The update brings a new price to a side that is full. -/
def Displaces (levels : Levels order) (update : PriceLevelUpdate) (depth : Nat) : Prop :=
  ¬ update.quantity.isZero ∧ update.price ∉ levels ∧ depth ≤ levels.size

/-- What makes a side return false: the removal of a price it does not hold,
or a new price that is not better than the worst one of a full side. -/
def Refuses (levels : Levels order) (update : PriceLevelUpdate) (depth : Nat) : Prop :=
  update.quantity.isZero ∧ update.price ∉ levels ∨
  Displaces levels update depth ∧ ∃ worst, Worst levels worst ∧ ¬ order update.price worst = .lt

/-- What an accepted update has made of its side. -/
structure Effect (held next : Levels order) (update : PriceLevelUpdate) (depth : Nat) : Prop where
  own : getVolume next update.price = update.quantity
  displaced : Displaces held update depth → ∀ worst, Worst held worst → worst ∉ next
  kept : ∀ price, price ≠ update.price → ¬ (Displaces held update depth ∧ Worst held price) →
    next[price]? = held[price]?
  best : ∀ level, getBestPrice next = some level ↔
    next[level.price]? = some level.quantity ∧ AtTop next level.price

variable {held : Levels order} {update : PriceLevelUpdate} {depth : Nat}

theorem last_of_full (positive : 0 < depth) (full : depth ≤ held.size) :
    ∃ worst, held.toList.getLast? = some worst := by
  cases last : held.toList.getLast? with
  | some worst => exact ⟨worst, rfl⟩
  | none =>
    have empty : held.size = 0 := by
      rw [← ExtTreeMap.length_toList, List.getLast?_eq_none_iff.mp last]
      rfl
    omega

variable [LawfulEqCmp order]

theorem worst_iff_last {worst : Price × Quantity} (last : held.toList.getLast? = some worst) (price : Price) :
    Worst held price ↔ price = worst.1 := by
  have member : worst.1 ∈ held := by
    rw [ExtTreeMap.mem_iff_isSome_getElem?,
      ExtTreeMap.mem_toList_iff_getElem?_eq_some.mp (List.mem_of_getLast? last)]
    rfl
  have lowest : ∀ other ∈ held, (order other worst.1).isLE := by
    intro other held
    obtain ⟨quantity, found⟩ := Option.isSome_iff_exists.mp (ExtTreeMap.mem_iff_isSome_getElem?.mp held)
    rcases worst_of_getLast last (ExtTreeMap.mem_toList_iff_getElem?_eq_some.mpr found) with rfl | better
    · exact ReflCmp.isLE_rfl
    · exact Ordering.isLE_of_eq_lt better
  constructor
  · intro ⟨found, below⟩
    exact LawfulEqCmp.eq_of_compare (OrientedCmp.isLE_antisymm (lowest price found) (below worst.1 member))
  · rintro rfl
    exact ⟨member, lowest⟩

theorem refuses_iff (positive : 0 < depth) : Refuses held update depth ↔ ¬ Applicable held update depth := by
  rw [Refuses, Displaces, Applicable]
  by_cases zero : update.quantity.isZero
  · rw [if_pos zero]
    constructor
    · rintro (⟨_, absent⟩ | ⟨⟨nonzero, _⟩, _⟩)
      · exact absent
      · exact absurd zero nonzero
    · exact fun absent => Or.inl ⟨zero, absent⟩
  · rw [if_neg zero]
    constructor
    · rintro (⟨none, _⟩ | ⟨⟨_, absent, full⟩, worst, lowest, behind⟩)
      · exact absurd none zero
      · obtain ⟨level, last⟩ := last_of_full positive full
        rw [(worst_iff_last last worst).mp lowest] at behind
        rintro (member | room | replaces)
        · exact absent member
        · exact Nat.not_lt.mpr full room
        · exact behind ((replaces_iff last update.price).mp replaces)
    · intro refused
      have full : depth ≤ held.size := Nat.not_lt.mp fun room => refused (Or.inr (Or.inl room))
      obtain ⟨level, last⟩ := last_of_full positive full
      refine Or.inr ⟨⟨zero, fun member => refused (Or.inl member), full⟩, level.1, ?_, ?_⟩
      · exact (worst_iff_last last level.1).mpr rfl
      · exact fun better => refused (Or.inr (Or.inr ((replaces_iff last update.price).mpr better)))

theorem bestPrice_iff (level : BookLevel) :
    getBestPrice held = some level ↔ held[level.price]? = some level.quantity ∧ AtTop held level.price := by
  rw [getBestPrice, ← @head_iff _ _ _ _ held (level.price, level.quantity)]
  constructor
  · intro reported
    obtain ⟨first, head, rfl⟩ := Option.map_eq_some_iff.mp reported
    exact head
  · intro head
    rw [head]
    rfl

omit [LawfulEqCmp order] in
/-- Apart from its own price, an accepted update touches only the worst price
of a full side. -/
theorem levelChanges_cases (applicable : Applicable held update depth) :
    (¬ Displaces held update depth ∧
      ∃ value : Option Quantity, value.getD {} = update.quantity ∧
        levelChanges held update depth = [(update.price, value)]) ∨
    (Displaces held update depth ∧
      ∃ worst, held.toList.getLast? = some worst ∧
        levelChanges held update depth = [(worst.1, none), (update.price, some update.quantity)]) := by
  rw [levelChanges]
  by_cases zero : update.quantity.isZero
  · rw [if_pos zero]
    refine Or.inl ⟨fun displaces => displaces.1 zero, none, ?_, rfl⟩
    exact ScaledValue.ext zero.symm
  · rw [if_neg zero]
    by_cases fits : update.price ∈ held ∨ held.size < depth
    · rw [if_pos fits]
      refine Or.inl ⟨?_, some update.quantity, rfl, rfl⟩
      intro displaces
      obtain ⟨_, absent, full⟩ := displaces
      rcases fits with member | room
      · exact absent member
      · exact Nat.not_lt.mpr full room
    · rw [if_neg fits]
      obtain ⟨absent, full⟩ := not_or.mp fits
      refine Or.inr ⟨⟨zero, absent, Nat.not_lt.mp full⟩, ?_⟩
      rw [Applicable, if_neg zero] at applicable
      obtain ⟨level, member, _⟩ := (applicable.resolve_left absent).resolve_left full
      cases last : held.toList.getLast? with
      | some worst => exact ⟨worst, rfl, rfl⟩
      | none =>
        rw [List.getLast?_eq_none_iff.mp last] at member
        cases member

theorem effect_of_applicable (applicable : Applicable held update depth) :
    Effect held (applyBookUpdate held update depth).2 update depth := by
  rw [applied_changes applicable]
  rcases levelChanges_cases applicable with ⟨stays, value, volume, changes⟩ | ⟨displaces, worst, last, changes⟩
  · rw [changes, Runs.after_cons, Runs.after_nil]
    refine ⟨?_, fun displaces => absurd displaces stays, ?_, bestPrice_iff⟩
    · rw [getVolume, MapEdits.getElem?_edit_self held (update.price, value)]
      exact volume
    · intro price other _
      exact MapEdits.getElem?_edit_other held (Ne.symm other)
  · have absent : update.price ∉ held := displaces.2.1
    have lowest := worst_iff_last last
    rw [changes, Runs.after_cons, Runs.after_cons, Runs.after_nil]
    refine ⟨?_, ?_, ?_, bestPrice_iff⟩
    · rw [getVolume, MapEdits.getElem?_edit_self _ (update.price, some update.quantity)]
      rfl
    · intro _ price isWorst
      have other : update.price ≠ price := fun same => absent (same ▸ isWorst.1)
      obtain rfl := (lowest price).mp isWorst
      rw [ExtTreeMap.mem_iff_isSome_getElem?, MapEdits.getElem?_edit_other _ other,
        MapEdits.getElem?_edit_self held (worst.1, none)]
      exact Bool.false_ne_true
    · intro price other keeps
      have better : worst.1 ≠ price := fun same => keeps ⟨displaces, (lowest price).mpr same.symm⟩
      rw [MapEdits.getElem?_edit_other _ (Ne.symm other), MapEdits.getElem?_edit_other held better]

end

def RefusesLevel (book : OrderBook) (update : PriceLevelUpdate) : Prop :=
  match update.side with
  | .buy => Refuses book.bids update book.depthValue
  | .sell => Refuses book.asks update book.depthValue

def LevelEffect (book next : OrderBook) (update : PriceLevelUpdate) : Prop :=
  match update.side with
  | .buy => Effect book.bids next.bids update book.depthValue
  | .sell => Effect book.asks next.asks update book.depthValue

/-- What no update of one side touches. -/
def LevelFrame (book next : OrderBook) (update : PriceLevelUpdate) : Prop :=
  next.sequence = book.sequence ∧
  match update.side with
  | .buy => next.asks = book.asks
  | .sell => next.bids = book.bids

theorem refusesLevel_iff {book : OrderBook} (positive : 0 < book.depthValue) (update : PriceLevelUpdate) :
    RefusesLevel book update ↔ ¬ LevelApplicable book update := by
  rw [RefusesLevel, LevelApplicable]
  cases update.side
  · exact refuses_iff positive
  · exact refuses_iff positive

theorem levelEffect_of_applicable {book : OrderBook} {update : PriceLevelUpdate}
    (applicable : LevelApplicable book update) : LevelEffect book (applyLevel book update) update := by
  rw [LevelApplicable] at applicable
  rw [LevelEffect, applyLevel, OrderBook.applyUpdate]
  cases side : update.side with
  | buy =>
    rw [side] at applicable
    exact effect_of_applicable applicable
  | sell =>
    rw [side] at applicable
    exact effect_of_applicable applicable

theorem levelFrame (book : OrderBook) (update : PriceLevelUpdate) :
    LevelFrame book (applyLevel book update) update := by
  refine ⟨(applyLevel_frame book update).1, ?_⟩
  rw [applyLevel, OrderBook.applyUpdate]
  cases update.side
  · rfl
  · rfl

def fullBook : OrderBook := OrderBook.step { depthValue := 1 } (.setState 100 [⟨⟨10⟩, ⟨1⟩⟩] [⟨⟨20⟩, ⟨1⟩⟩])

end TradingCore.Proofs.LevelUpdateEffect
