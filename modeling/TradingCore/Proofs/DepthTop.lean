import Mathlib.Data.List.Dedup
import TradingCore.Foundation.MapTops
import TradingCore.Proofs.UnlimitedBook

/-! A side that is never removed from against the unlimited one. Refused and
displaced levels are forgotten, and may be offered again with another quantity;
whatever has been forgotten is always behind a full side. -/

namespace TradingCore.Proofs.DepthTop
open Std BookLevels MapViews MapTops UnlimitedBook

section
variable {order : Price → Price → Ordering} [TransCmp order]

/-- The last quantity written for each price, with no limit on their number. -/
def lastWrites (updates : List PriceLevelUpdate) : Levels order :=
  updates.foldl (fun levels update => levels.insert update.price update.quantity) ∅

def applied (depth : Nat) (levels : Levels order) (update : PriceLevelUpdate) : Levels order :=
  (applyBookUpdate levels update depth).2

structure HoldsTop (depth : Nat) (held whole : Levels order) : Prop where
  top : Top held whole
  size : held.size = min depth whole.size

variable {held whole : Levels order} {update : PriceLevelUpdate} {updates : List PriceLevelUpdate} {depth : Nat}

/-- A full side stays full, whatever the other side gains. -/
theorem full_size (full : held.size = depth) (holds : HoldsTop depth held whole) (price : Price) (quantity : Quantity) :
    depth = min depth (whole.insert price quantity).size := by
  have larger := @ExtTreeMap.size_le_size_insert _ _ _ whole _ price quantity
  have size := holds.size
  omega

variable [LawfulEqCmp order]

theorem worst_of_mem {worst : Price × Quantity} (last : held.toList.getLast? = some worst) {price : Price}
    (member : price ∈ held) : price = worst.1 ∨ order price worst.1 = .lt := by
  obtain ⟨quantity, listed⟩ := Option.isSome_iff_exists.mp (ExtTreeMap.mem_iff_isSome_getElem?.mp member)
  rcases worst_of_getLast last (ExtTreeMap.mem_toList_iff_getElem?_eq_some.mpr listed) with same | better
  · exact Or.inl (congrArg Prod.fst same)
  · exact Or.inr better

namespace HoldsTop
variable {price : Price}

theorem overwrite (holds : HoldsTop depth held whole) (member : price ∈ held) (quantity : Quantity) :
    HoldsTop depth (held.insert price quantity) (whole.insert price quantity) := by
  have known : price ∈ whole := by
    rw [ExtTreeMap.mem_iff_isSome_getElem?] at member ⊢
    obtain ⟨current, listed⟩ := Option.isSome_iff_exists.mp member
    rw [holds.top.inside _ _ listed]
    rfl
  refine ⟨holds.top.insert_shown member quantity, ?_⟩
  rw [size_insert_of_mem member, size_insert_of_mem known]
  exact holds.size

/-- A side with room for another level holds everything. -/
theorem add (holds : HoldsTop depth held whole) (room : held.size < depth) (quantity : Quantity) :
    HoldsTop depth (held.insert price quantity) (whole.insert price quantity) := by
  have size := holds.size
  have grown := @ExtTreeMap.size_insert_le _ _ _ held _ price quantity
  obtain rfl := holds.top.eq_of_size (by omega)
  exact ⟨Top.refl _, by omega⟩

/-- A full side gives up its worst level for a better one. -/
theorem displace {worst : Price × Quantity} (holds : HoldsTop depth held whole) (full : held.size = depth)
    (absent : price ∉ held) (last : held.toList.getLast? = some worst) (better : order price worst.1 = .lt)
    (quantity : Quantity) :
    HoldsTop depth ((held.erase worst.1).insert price quantity) (whole.insert price quantity) := by
  have shown : worst.1 ∈ held := mem_of_mem_toList (List.mem_of_getLast? last)
  have unheld : price ∉ held.erase worst.1 := fun kept => absent (mem_erase_iff.mp kept).2
  refine ⟨holds.top.replace_last shown (fun _ => worst_of_mem last) better quantity, ?_⟩
  rw [size_insert_of_not_mem unheld, size_erase_of_mem shown, full]
  exact full_size full holds price quantity

/-- What a full side refuses is behind everything it holds. -/
theorem refuse {worst : Price × Quantity} (holds : HoldsTop depth held whole) (full : held.size = depth)
    (absent : price ∉ held) (last : held.toList.getLast? = some worst) (notBetter : ¬ order price worst.1 = .lt)
    (quantity : Quantity) : HoldsTop depth held (whole.insert price quantity) := by
  have worse : order worst.1 price = .lt := by
    apply OrientedCmp.lt_of_not_isLE
    intro ahead
    rcases Ordering.isLE_iff_eq_lt_or_eq_eq.mp ahead with better | same
    · exact notBetter better
    · apply absent
      rw [LawfulEqCmp.eq_of_compare same]
      exact mem_of_mem_toList (List.mem_of_getLast? last)
  have behind : ∀ other ∈ held, order other price = .lt := by
    intro other kept
    rcases worst_of_mem last kept with rfl | better
    · exact worse
    · exact TransCmp.lt_trans better worse
  refine ⟨holds.top.insert_after behind quantity, ?_⟩
  rw [full]
  exact full_size full holds price quantity

/-- One level more on both sides, by the branches of the source. -/
theorem step (holds : HoldsTop depth held whole) (positive : 0 < depth) (nonzero : ¬ update.quantity.isZero) :
    HoldsTop depth (applied depth held update) (whole.insert update.price update.quantity) := by
  rw [applied, applyBookUpdate, if_neg nonzero]
  by_cases member : update.price ∈ held
  · rw [if_pos member]
    exact holds.overwrite member update.quantity
  · rw [if_neg member]
    by_cases room : held.size < depth
    · rw [if_pos room]
      exact holds.add room update.quantity
    · have size := holds.size
      have full : held.size = depth := by omega
      rw [if_neg room]
      cases last : held.toList.getLast? with
      | none =>
        have empty := congrArg List.length (List.getLast?_eq_none_iff.mp last)
        rw [ExtTreeMap.length_toList, List.length_nil] at empty
        omega
      | some worst =>
        dsimp only
        split
        next better => exact holds.displace full member last better update.quantity
        next notBetter => exact holds.refuse full member last notBetter update.quantity

end HoldsTop

theorem holdsTop_run (positive : 0 < depth) (quoted : ∀ update ∈ updates, ¬ update.quantity.isZero)
    (holds : HoldsTop depth held whole) :
    HoldsTop depth (Runs.after (applied depth) held updates)
      (updates.foldl (fun levels update => levels.insert update.price update.quantity) whole) := by
  induction updates generalizing held whole with
  | nil => exact holds
  | cons update rest ih =>
    apply ih fun other member => quoted other (List.mem_cons_of_mem update member)
    exact holds.step positive (quoted update List.mem_cons_self)

theorem mem_lastWrites (updates : List PriceLevelUpdate) (price : Price) :
    price ∈ (lastWrites updates : Levels order) ↔ price ∈ updates.map (·.price) := by
  have written : ∀ levels : Levels order,
      price ∈ updates.foldl (fun levels update => levels.insert update.price update.quantity) levels ↔
        price ∈ updates.map (·.price) ∨ price ∈ levels := by
    induction updates with
    | nil => simp
    | cons update rest ih =>
      intro levels
      rw [List.foldl_cons, ih, mem_insert_iff, List.map_cons, List.mem_cons]
      exact or_left_comm.trans or_assoc.symm
  rw [lastWrites, written ∅]
  simp

theorem size_lastWrites (updates : List PriceLevelUpdate) :
    (lastWrites updates : Levels order).size = (updates.map (·.price)).dedup.length := by
  rw [← ExtTreeMap.length_keys]
  apply List.Perm.length_eq
  rw [List.perm_ext_iff_of_nodup ExtTreeMap.nodup_keys (List.nodup_dedup _)]
  intro price
  rw [ExtTreeMap.mem_keys, mem_lastWrites, List.mem_dedup]

/-- The prices written do not depend on the order in which they are. -/
theorem keys_lastWrites {reordered : List PriceLevelUpdate} (same : reordered.Perm updates) :
    (lastWrites reordered : Levels order).keys = (lastWrites updates : Levels order).keys := by
  apply keys_eq_of_mem_iff
  intro price
  rw [mem_lastWrites, mem_lastWrites]
  exact (same.map _).mem_iff

theorem side_is_top (positive : 0 < depth) (quoted : ∀ update ∈ updates, ¬ update.quantity.isZero) :
    (Runs.after (applied depth) (∅ : Levels order) updates).toList =
      (lastWrites updates : Levels order).toList.take (min depth (updates.map (·.price)).dedup.length) := by
  have empty : HoldsTop depth (∅ : Levels order) ∅ := ⟨Top.refl ∅, (Nat.min_zero depth).symm⟩
  have holds : HoldsTop depth (Runs.after (applied depth) (∅ : Levels order) updates) (lastWrites updates) :=
    holdsTop_run positive quoted empty
  rw [holds.top.toList_eq, holds.size, size_lastWrites]

end

/-- The levels of one side of a book, best first. -/
def levelsOf (book : OrderBook) : Side → List (Price × Quantity)
  | .buy => book.bids.toList
  | .sell => book.asks.toList

/-- The levels of an unlimited side in the same order. -/
def unlimitedLevels (updates : List PriceLevelUpdate) : Side → List (Price × Quantity)
  | .buy => (lastWrites updates : BidLevels).toList
  | .sell => (lastWrites updates : AskLevels).toList

structure Quotes (side : Side) (update : PriceLevelUpdate) : Prop where
  side : update.side = side
  nonzero : ¬ update.quantity.isZero

theorem bids_run (book : OrderBook) {updates : List PriceLevelUpdate}
    (quotes : ∀ update ∈ updates, Quotes .buy update) :
    (Runs.after applyLevel book updates).bids = Runs.after (applied book.depthValue) book.bids updates := by
  induction updates generalizing book with
  | nil => rfl
  | cons update rest ih =>
    have next : (applyLevel book update).bids = applied book.depthValue book.bids update := by
      rw [applyLevel, OrderBook.applyUpdate, (quotes update List.mem_cons_self).side, applied]
    rw [Runs.after_cons, ih _ fun other member => quotes other (List.mem_cons_of_mem update member), next,
      (applyLevel_frame book update).2, Runs.after_cons]

theorem asks_run (book : OrderBook) {updates : List PriceLevelUpdate}
    (quotes : ∀ update ∈ updates, Quotes .sell update) :
    (Runs.after applyLevel book updates).asks = Runs.after (applied book.depthValue) book.asks updates := by
  induction updates generalizing book with
  | nil => rfl
  | cons update rest ih =>
    have next : (applyLevel book update).asks = applied book.depthValue book.asks update := by
      rw [applyLevel, OrderBook.applyUpdate, (quotes update List.mem_cons_self).side, applied]
    rw [Runs.after_cons, ih _ fun other member => quotes other (List.mem_cons_of_mem update member), next,
      (applyLevel_frame book update).2, Runs.after_cons]

theorem levels_top {depth : Nat} (positive : 0 < depth) {side : Side} {updates : List PriceLevelUpdate}
    (quotes : ∀ update ∈ updates, Quotes side update) :
    levelsOf (Runs.after applyLevel { depthValue := depth } updates) side =
      (unlimitedLevels updates side).take (min depth (updates.map (·.price)).dedup.length) := by
  have quoted : ∀ update ∈ updates, ¬ update.quantity.isZero := fun update member => (quotes update member).nonzero
  cases side with
  | buy =>
    rw [levelsOf, bids_run _ quotes, unlimitedLevels]
    exact side_is_top positive quoted
  | sell =>
    rw [levelsOf, asks_run _ quotes, unlimitedLevels]
    exact side_is_top positive quoted

theorem length_unlimitedLevels (updates : List PriceLevelUpdate) (side : Side) :
    (unlimitedLevels updates side).length = (updates.map (·.price)).dedup.length := by
  cases side with
  | buy => rw [unlimitedLevels, ExtTreeMap.length_toList, size_lastWrites]
  | sell => rw [unlimitedLevels, ExtTreeMap.length_toList, size_lastWrites]

theorem prices_reordered {updates reordered : List PriceLevelUpdate} (same : reordered.Perm updates) (side : Side) :
    (unlimitedLevels reordered side).map (·.1) = (unlimitedLevels updates side).map (·.1) := by
  cases side with
  | buy =>
    rw [unlimitedLevels, unlimitedLevels, ExtTreeMap.map_fst_toList_eq_keys, ExtTreeMap.map_fst_toList_eq_keys]
    exact keys_lastWrites same
  | sell =>
    rw [unlimitedLevels, unlimitedLevels, ExtTreeMap.map_fst_toList_eq_keys, ExtTreeMap.map_fst_toList_eq_keys]
    exact keys_lastWrites same

/-- Without removals a side of limited depth is the top of the unlimited one,
so that the prices it holds do not depend on the order of the updates. -/
theorem bounded_side_is_top {depth : Nat} (positive : 0 < depth) {side : Side} {updates : List PriceLevelUpdate}
    (quotes : ∀ update ∈ updates, Quotes side update) :
    let book := Runs.after applyLevel { depthValue := depth } updates
    let distinct := (updates.map (·.price)).dedup.length
    levelsOf book side = (unlimitedLevels updates side).take (min depth distinct) ∧
    (levelsOf book side).length = min depth distinct ∧
    ∀ reordered : List PriceLevelUpdate, reordered.Perm updates →
      (levelsOf (Runs.after applyLevel { depthValue := depth } reordered) side).map (·.1) =
        (levelsOf book side).map (·.1) := by
  intro book distinct
  have top : levelsOf book side = (unlimitedLevels updates side).take (min depth distinct) := levels_top positive quotes
  refine ⟨top, ?_, ?_⟩
  · rw [top, List.length_take, length_unlimitedLevels]
    exact Nat.min_eq_left (Nat.min_le_right _ _)
  · intro reordered same
    have others : ∀ update ∈ reordered, Quotes side update := fun update member => quotes update (same.subset member)
    have count : (reordered.map (·.price)).dedup.length = distinct := (same.map _).dedup.length_eq
    rw [levels_top positive others, top, count, List.map_take, List.map_take, prices_reordered same]

/-- A bid pushed out by two better ones and offered again, larger. -/
def returningBid : List PriceLevelUpdate :=
  [{ price := ⟨10⟩, quantity := ⟨1⟩ }, { price := ⟨12⟩, quantity := ⟨2⟩ }, { price := ⟨11⟩, quantity := ⟨3⟩ },
    { price := ⟨10⟩, quantity := ⟨9⟩ }]

theorem bounded_side_is_top_returning :
    levelsOf (Runs.after applyLevel { depthValue := 2 } returningBid) .buy =
      (unlimitedLevels returningBid .buy).take (min 2 (returningBid.map (·.price)).dedup.length) := by
  have quotes : ∀ update ∈ returningBid, Quotes .buy update := by
    intro update member
    simp only [returningBid, List.mem_cons, List.not_mem_nil, or_false] at member
    rcases member with rfl | rfl | rfl | rfl <;> exact ⟨rfl, by decide⟩
  exact (@bounded_side_is_top 2 (by decide) .buy returningBid quotes).1

end TradingCore.Proofs.DepthTop
