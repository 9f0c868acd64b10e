import TradingCore.Foundation.Truncation
import TradingCore.Proofs.RiskEnforcement

/-! What an acceptance by the risk check covers, and which orders that reduce a
position it blocks. The check looks at the position a completely filled order
would lead to. -/

namespace TradingCore.Proofs.RiskAcceptance
open PositionTrades RiskEnforcement OrderManagerSteps

variable {manager : RiskManager} {request other : OrderRequest} {position : Position}

theorem positive_of_accepted (accepted : (manager.checkOrder request position).1 = .accepted) :
    request.quantity.isPositive := by
  by_contra nonpositive
  simp only [RiskManager.checkOrder, if_pos nonpositive] at accepted
  cases accepted

theorem reason_of_accepted (accepted : (manager.checkOrder request position).1 = .accepted) :
    (manager.checkOrder request position).2.lastReason = .none := by
  simp only [RiskManager.checkOrder] at accepted ⊢
  split_ifs at accepted ⊢
  rfl

theorem within_of_ends {held limit : Int} {side : Side} {filled ordered : Quantity} (before : |held| ≤ limit)
    (after : |held + (side.signed ordered).raw| ≤ limit) (nonnegative : ¬ filled.isNegative)
    (part : filled ≤ ordered) : |held + (side.signed filled).raw| ≤ limit := by
  have above : 0 ≤ filled.raw := Int.not_lt.mp nonnegative
  have below : filled.raw ≤ ordered.raw := part
  rw [signed_raw, abs_le] at after ⊢
  rw [abs_le] at before
  cases side with
  | buy =>
    rw [sign] at after ⊢
    omega
  | sell =>
    rw [sign] at after ⊢
    omega

theorem notional_le (quantity : other.quantity.isPositive) (fewer : other.quantity ≤ request.quantity)
    (price : ¬ other.price.isNegative) (cheaper : other.price ≤ request.price) :
    |(other.price.raw * other.quantity.raw).tdiv ScaledValue.Scale| ≤
      |(request.price.raw * request.quantity.raw).tdiv ScaledValue.Scale| := by
  have nonnegative : 0 ≤ other.price.raw := Int.not_lt.mp price
  have worth : 0 ≤ other.price.raw * other.quantity.raw := Int.mul_nonneg nonnegative (Int.le_of_lt quantity)
  have less : other.price.raw * other.quantity.raw ≤ request.price.raw * request.quantity.raw :=
    Int.mul_le_mul cheaper fewer (Int.le_of_lt quantity) (Int.le_trans nonnegative cheaper)
  apply abs_le_abs_of_nonneg
  · exact Int.tdiv_nonneg worth (Int.le_of_lt ScaledValue.scale_positive)
  · exact Int.tdiv_le_tdiv ScaledValue.scale_positive less

/-- An accepted order keeps a position that is within its limit there however
much of it is filled, and every smaller order at a price that is not higher is
accepted as well. -/
theorem acceptance_covers_less
    (within : ¬ manager.limits.maxPositionQuantity.isZero →
      |position.currentQuantity.raw| ≤ manager.limits.maxPositionQuantity.raw)
    (accepted : (manager.checkOrder request position).1 = .accepted) :
    (∀ filled : Quantity, ¬ filled.isNegative → filled ≤ request.quantity →
      ¬ manager.limits.maxPositionQuantity.isZero →
        |position.currentQuantity.raw + (request.side.signed filled).raw| ≤ manager.limits.maxPositionQuantity.raw) ∧
    ∀ other : OrderRequest, other.side = request.side → other.quantity.isPositive →
      other.quantity ≤ request.quantity → ¬ other.price.isNegative → other.price ≤ request.price →
        (manager.checkOrder other position).1 = .accepted ∧
          (manager.checkOrder other position).2.lastReason = .none := by
  have respects := (accepted_iff_respects (positive_of_accepted accepted) 0).mp accepted
  have partial_fill : ∀ filled : Quantity, ¬ filled.isNegative → filled ≤ request.quantity →
      ¬ manager.limits.maxPositionQuantity.isZero →
        |position.currentQuantity.raw + (request.side.signed filled).raw| ≤
          manager.limits.maxPositionQuantity.raw := by
    intro filled nonnegative part set
    exact within_of_ends (within set) (respects.position set) nonnegative part
  refine ⟨partial_fill, ?_⟩
  intro other side quantity fewer price cheaper
  have covered : (manager.checkOrder other position).1 = .accepted := by
    apply (accepted_iff_respects quantity 0).mpr
    refine ⟨?_, ?_, ?_⟩
    · intro set
      exact Int.le_trans fewer (respects.quantity set)
    · intro set
      exact Int.le_trans (notional_le quantity fewer price cheaper) (respects.notional set)
    · intro set
      have nonnegative : ¬ other.quantity.isNegative := Int.not_lt.mpr (Int.le_of_lt quantity)
      have moved := partial_fill other.quantity nonnegative fewer set
      rw [← side] at moved
      exact moved
  exact ⟨covered, reason_of_accepted covered⟩

def heldMore : Position where
  currentQuantity := ⟨15000000000⟩
  averageEntryPrice := ⟨10000000000⟩

def sellOf (quantity : Int) : OrderRequest where
  side := .sell
  price := ⟨10000000000⟩
  quantity := ⟨quantity⟩

/-- Ten sold of an accepted sixty, under a limit of two hundred. -/
theorem acceptance_covers_less_ten :
    |heldMore.currentQuantity.raw + (Side.sell.signed ⟨1000000000⟩).raw| ≤ 20000000000 := by
  have within : |heldMore.currentQuantity.raw| ≤ 20000000000 := by decide
  exact (@acceptance_covers_less (.ofLimits { maxPositionQuantity := ⟨20000000000⟩ }) (sellOf 6000000000) heldMore
    (fun _ => within) (by decide)).1 ⟨1000000000⟩ (by decide) (by decide) (by decide)

def BlockedByPosition (manager : RiskManager) (request : OrderRequest) (position : Position) : Prop :=
  (manager.checkOrder request position).1 = .rejected ∧
  (manager.checkOrder request position).2.lastReason = .maxPositionQuantity

theorem blocked_iff (positive : request.quantity.isPositive) :
    BlockedByPosition manager request position ↔
      ¬ (¬ manager.limits.maxOrderQuantity.isZero ∧ manager.limits.maxOrderQuantity < request.quantity) ∧
      ¬ manager.limits.maxPositionQuantity.isZero ∧
        manager.limits.maxPositionQuantity.raw <
          |position.currentQuantity.raw + (request.side.signed request.quantity).raw| := by
  simp only [BlockedByPosition, RiskManager.checkOrder, absolute_eq_abs, positionDelta_eq, RiskManager.lastReason]
  rw [if_neg (not_not_intro positive)]
  split_ifs with tooLarge beyond costly
  · exact iff_of_false (fun blocked => blocked.2.elim) (fun holds => holds.1 tooLarge)
  · exact iff_of_true ⟨rfl, rfl⟩ ⟨tooLarge, beyond⟩
  · exact iff_of_false (fun blocked => blocked.2.elim) (fun holds => beyond holds.2)
  · exact iff_of_false (fun blocked => blocked.2.elim) (fun holds => beyond holds.2)

theorem reduced_size (against : sign request.side * position.currentQuantity.raw < 0)
    (within : request.quantity.raw ≤ |position.currentQuantity.raw|) :
    |position.currentQuantity.raw + (request.side.signed request.quantity).raw| =
      |position.currentQuantity.raw| - request.quantity.raw := by
  rw [signed_raw]
  cases side : request.side with
  | buy =>
    rw [side, sign] at against
    have short : position.currentQuantity.raw < 0 := by omega
    rw [abs_of_neg short] at within ⊢
    rw [sign, abs_of_nonpos (by omega)]
    omega
  | sell =>
    rw [side, sign] at against
    have long : 0 < position.currentQuantity.raw := by omega
    rw [abs_of_pos long] at within ⊢
    rw [sign, abs_of_nonneg (by omega)]
    omega

/-- The position limit lets an order that reduces a position through exactly
when it is disabled or holds for what the order would leave, or when the order
is refused for its own quantity first. -/
theorem reduction_unblocked_iff (manager : RiskManager)
    (against : sign request.side * position.currentQuantity.raw < 0) (positive : request.quantity.isPositive)
    (within : request.quantity.raw ≤ |position.currentQuantity.raw|) :
    ¬ BlockedByPosition manager request position ↔
      manager.limits.maxPositionQuantity.isZero ∨
      |position.currentQuantity.raw| - request.quantity.raw ≤ manager.limits.maxPositionQuantity.raw ∨
      (¬ manager.limits.maxOrderQuantity.isZero ∧ manager.limits.maxOrderQuantity < request.quantity) := by
  rw [blocked_iff positive, reduced_size against within, ← Int.not_lt]
  tauto

def limitedToHundred : RiskManager := .ofLimits { maxPositionQuantity := ⟨10000000000⟩ }

theorem reduction_unblocked_sixty : ¬ BlockedByPosition limitedToHundred (sellOf 6000000000) heldMore := by
  apply (@reduction_unblocked_iff (sellOf 6000000000) heldMore limitedToHundred (by decide) (by decide)
    (by decide)).mpr
  exact Or.inr (Or.inl (by decide))

/-- A sale of thirty would leave a hundred and twenty. -/
theorem reduction_blocked_thirty :
    sign (sellOf 3000000000).side * heldMore.currentQuantity.raw < 0 ∧
    0 < (sellOf 3000000000).quantity.raw ∧ (sellOf 3000000000).quantity.raw ≤ |heldMore.currentQuantity.raw| ∧
    BlockedByPosition limitedToHundred (sellOf 3000000000) heldMore := by
  refine ⟨by decide, by decide, by decide, ?_⟩
  exact ⟨by decide, by decide⟩

end TradingCore.Proofs.RiskAcceptance
