import Mathlib.Data.List.Dedup
import TradingCore.Foundation.MapViews
import TradingCore.OrderBook.OrderBook

/-! How many levels a side may hold. No update takes a side beyond its depth; a
state that is set as a whole is taken as it comes. -/

namespace TradingCore.Proofs.DepthBound
open Std OrderBook MapViews

section
variable {order : Price → Price → Ordering} [TransCmp order] [LawfulEqCmp order]

theorem size_update {levels : Levels order} {depth : Nat} (bounded : levels.size ≤ depth) (update : PriceLevelUpdate) :
    (applyBookUpdate levels update depth).2.size ≤ depth := by
  unfold applyBookUpdate
  split
  next => exact Nat.le_trans ExtTreeMap.size_erase_le bounded
  next =>
    split
    next held =>
      rw [size_insert_of_mem held]
      exact bounded
    next =>
      split
      next room =>
        apply Nat.le_trans ExtTreeMap.size_insert_le
        exact room
      next =>
        cases last : levels.toList.getLast? with
        | none => exact bounded
        | some worst =>
          dsimp only
          split
          next =>
            -- the new level takes the room of the one it pushes out
            apply Nat.le_trans ExtTreeMap.size_insert_le
            rw [size_erase_of_mem (mem_of_mem_toList (List.mem_of_getLast? last))]
            exact bounded
          next => exact bounded

theorem mem_emplaced (listed : List BookLevel) (side : Levels order) (price : Price) :
    price ∈ listed.foldl (fun side level => side.insertIfNew level.price level.quantity) side ↔
      price ∈ side ∨ price ∈ listed.map (·.price) := by
  induction listed generalizing side with
  | nil => simp
  | cons level rest ih =>
    simp only [List.foldl_cons, ih, ExtTreeMap.mem_insertIfNew, LawfulEqCmp.compare_eq_iff_eq, List.map_cons,
      List.mem_cons]
    simp only [or_assoc, or_left_comm, eq_comm]

/-- A list of levels fills a side with one level for each price it names. -/
theorem size_emplaceAll (listed : List BookLevel) :
    (emplaceAll listed : Levels order).size = (listed.map (·.price)).dedup.length := by
  rw [← ExtTreeMap.length_keys]
  apply List.Perm.length_eq
  rw [List.perm_ext_iff_of_nodup ?_ (List.nodup_dedup _)]
  · intro price
    rw [ExtTreeMap.mem_keys, emplaceAll, mem_emplaced, List.mem_dedup]
    simp
  · exact ExtTreeMap.nodup_keys

end

def WithinDepth (book : OrderBook) : Prop :=
  book.bidSize ≤ book.depthValue ∧ book.askSize ≤ book.depthValue

/-- The lists a state is set from name no more prices than the depth. -/
def ListsWithinDepth (book : OrderBook) : Call → Prop
  | .setState _ snapBids snapAsks =>
    (snapBids.map (·.price)).dedup.length ≤ book.depthValue ∧
    (snapAsks.map (·.price)).dedup.length ≤ book.depthValue
  | .applyUpdate _ => True
  | .clear => True

theorem withinDepth_step (book : OrderBook) (call : Call) (within : WithinDepth book) :
    WithinDepth (book.step call) ↔ ListsWithinDepth book call := by
  cases call with
  | setState sequence snapBids snapAsks =>
    rw [ListsWithinDepth, ← @size_emplaceAll greater, ← @size_emplaceAll less]
    rfl
  | applyUpdate update =>
    refine iff_of_true ?_ trivial
    rw [OrderBook.step, OrderBook.applyUpdate]
    cases update.side with
    | buy => exact ⟨size_update within.1 update, within.2⟩
    | sell => exact ⟨within.1, size_update within.2 update⟩
  | clear =>
    refine iff_of_true ?_ trivial
    exact ⟨Nat.zero_le _, Nat.zero_le _⟩

/-- A book stays within its depth throughout a run exactly when no state of
the run is set from lists with more prices than that. -/
theorem depth_kept_iff (depth : Nat) (calls : List Call) :
    (∀ pre, pre <+: calls → WithinDepth (Runs.after OrderBook.step { depthValue := depth } pre)) ↔
      Runs.Along OrderBook.step ListsWithinDepth { depthValue := depth } calls := by
  apply Runs.always_iff withinDepth_step
  exact ⟨Nat.zero_le _, Nat.zero_le _⟩

/-- Two bids are set on a book of depth one. -/
theorem set_state_exceeds_depth :
    ¬ WithinDepth (OrderBook.step { depthValue := 1 } (.setState 100 [⟨⟨10⟩, ⟨1⟩⟩, ⟨⟨9⟩, ⟨1⟩⟩] [])) := by
  rw [WithinDepth]
  decide

end TradingCore.Proofs.DepthBound
