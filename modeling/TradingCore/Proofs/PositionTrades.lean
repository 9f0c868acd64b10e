import TradingCore.Position.PositionManager

/-! What a trade of positive quantity does to a position. The branches of the
source are read through five kinds of trade, and the signed quantity adds up
in every one of them. -/

namespace TradingCore.Proofs.PositionTrades

def sign : Side → Int
  | .buy => 1
  | .sell => -1

@[simp] theorem signed_raw (side : Side) (quantity : Quantity) :
    (side.signed quantity).raw = sign side * quantity.raw := by
  cases side <;> simp [Side.signed, sign]

theorem sign_mul_self (side : Side) : sign side * sign side = 1 := by
  cases side <;> rfl

/-- What a trade leaves, read in the direction of the trade. -/
theorem sign_moved (side : Side) (held traded : Int) :
    sign side * (held + sign side * traded) = sign side * held + traded := by
  rw [Int.mul_add, ← Int.mul_assoc, sign_mul_self, Int.one_mul]

inductive Kind where
  | opens
  | increases
  | reduces
  | closes
  | reverses
deriving DecidableEq, Repr

def kind (position : Position) (side : Side) (quantity : Quantity) : Kind :=
  if position.currentQuantity.raw = 0 then .opens
  else if 0 < sign side * position.currentQuantity.raw then .increases
  else if quantity.raw < -(sign side * position.currentQuantity.raw) then .reduces
  else if quantity.raw = -(sign side * position.currentQuantity.raw) then .closes
  else .reverses

variable {position : Position} {side : Side} {price : Price} {quantity : Quantity}

theorem kind_opens (opens : kind position side quantity = .opens) : position.currentQuantity.raw = 0 := by
  unfold kind at opens
  split at opens
  · assumption
  · split_ifs at opens

theorem kind_increases (increases : kind position side quantity = .increases) :
    0 < sign side * position.currentQuantity.raw := by
  unfold kind at increases
  split_ifs at increases
  assumption

theorem kind_reduces (reduces : kind position side quantity = .reduces) :
    sign side * position.currentQuantity.raw < 0 ∧ quantity.raw < -(sign side * position.currentQuantity.raw) := by
  unfold kind at reduces
  split_ifs at reduces with flat same smaller
  refine ⟨?_, smaller⟩
  cases side <;> simp only [sign] at same smaller ⊢ <;> omega

theorem kind_closes (closes : kind position side quantity = .closes) :
    sign side * position.currentQuantity.raw < 0 ∧ quantity.raw = -(sign side * position.currentQuantity.raw) := by
  unfold kind at closes
  split_ifs at closes with flat same smaller equal
  refine ⟨?_, equal⟩
  cases side <;> simp only [sign] at same equal ⊢ <;> omega

theorem kind_reverses (reverses : kind position side quantity = .reverses) :
    sign side * position.currentQuantity.raw < 0 ∧ -(sign side * position.currentQuantity.raw) < quantity.raw := by
  unfold kind at reverses
  split_ifs at reverses with flat same smaller equal
  cases side <;> simp only [sign] at same smaller equal ⊢ <;> omega

theorem kind_of_flat (flat : position.isFlat) : kind position side quantity = .opens := if_pos flat

theorem nonflat_of_sign (signed : sign side * position.currentQuantity.raw ≠ 0) :
    position.currentQuantity.raw ≠ 0 := by
  intro flat
  rw [flat, Int.mul_zero] at signed
  exact signed rfl

theorem kind_of_along (along : 0 < sign side * position.currentQuantity.raw) :
    kind position side quantity = .increases := by
  rw [kind, if_neg (nonflat_of_sign (Int.ne_of_gt along)), if_pos along]

theorem kind_of_against (against : sign side * position.currentQuantity.raw < 0) :
    kind position side quantity =
      if quantity.raw < -(sign side * position.currentQuantity.raw) then .reduces
      else if quantity.raw = -(sign side * position.currentQuantity.raw) then .closes
      else .reverses := by
  rw [kind, if_neg (nonflat_of_sign (Int.ne_of_lt against)), if_neg (Int.not_lt.mpr (Int.le_of_lt against))]

private theorem absolute_eq (opposite : sign side * position.currentQuantity.raw < 0) :
    position.absoluteCurrentQuantity = -(sign side * position.currentQuantity.raw) := by
  unfold Position.absoluteCurrentQuantity
  cases side <;> simp only [sign] at opposite ⊢ <;> split <;> omega

private theorem opposite_direction (positive : quantity.isPositive)
    (opposite : sign side * position.currentQuantity.raw < 0) : ¬ position.sameDirection side quantity := by
  unfold Position.sameDirection
  cases side <;> simp only [sign, signed_raw, ScaledValue.isPositive] at opposite ⊢ <;> omega

theorem absolute_increases (same : 0 < sign side * position.currentQuantity.raw) :
    position.absoluteCurrentQuantity = sign side * position.currentQuantity.raw := by
  unfold Position.absoluteCurrentQuantity
  cases side <;> simp only [sign] at same ⊢ <;> split <;> omega

theorem absoluteCurrentQuantity_eq (position : Position) :
    position.absoluteCurrentQuantity = |position.currentQuantity.raw| := by
  unfold Position.absoluteCurrentQuantity
  split
  next short => exact (abs_of_neg short).symm
  next long => exact (abs_of_nonneg (Int.not_lt.mp long)).symm

theorem absolute_nonneg (position : Position) : 0 ≤ position.absoluteCurrentQuantity := by
  rw [absoluteCurrentQuantity_eq]
  exact abs_nonneg _

theorem total_positive (position : Position) (positive : quantity.isPositive) : 0 < position.totalQuantity quantity :=
  Int.add_pos_of_nonneg_of_pos (absolute_nonneg position) positive

theorem applyTrade_opens (positive : quantity.isPositive) (opens : kind position side quantity = .opens) :
    position.applyTrade side price quantity =
      { position with currentQuantity := side.signed quantity, averageEntryPrice := price } := by
  have flat := kind_opens opens
  have nonzero : quantity.raw ≠ 0 := by omega
  simp only [Position.applyTrade, ScaledValue.isZero, flat, nonzero, if_true, if_false]

theorem applyTrade_increases (positive : quantity.isPositive) (increases : kind position side quantity = .increases) :
    position.applyTrade side price quantity =
      { position with
        currentQuantity := position.currentQuantity + side.signed quantity
        averageEntryPrice :=
          ⟨toInt64 ((position.weightedPrice price quantity).tdiv (position.totalQuantity quantity))⟩ } := by
  have same := kind_increases increases
  have nonzero : quantity.raw ≠ 0 := by omega
  have held := nonflat_of_sign same.ne'
  have direction : position.sameDirection side quantity := by
    unfold Position.sameDirection
    cases side <;> simp only [sign, signed_raw, ScaledValue.isPositive] at same ⊢ <;> omega
  simp only [Position.applyTrade, ScaledValue.isZero, nonzero, held, direction, if_true, if_false]

theorem applyTrade_reduces (positive : quantity.isPositive) (reduces : kind position side quantity = .reduces) :
    position.applyTrade side price quantity =
      { position with currentQuantity := position.currentQuantity + side.signed quantity } := by
  obtain ⟨opposite, smaller⟩ := kind_reduces reduces
  have nonzero : quantity.raw ≠ 0 := by omega
  have held := nonflat_of_sign opposite.ne
  simp only [Position.applyTrade, ScaledValue.isZero, nonzero, held, opposite_direction positive opposite,
    absolute_eq opposite, smaller, if_true, if_false]

theorem applyTrade_closes (positive : quantity.isPositive) (closes : kind position side quantity = .closes) :
    position.applyTrade side price quantity =
      { position with currentQuantity := {}, averageEntryPrice := {} } := by
  obtain ⟨opposite, equal⟩ := kind_closes closes
  have nonzero : quantity.raw ≠ 0 := by omega
  have held := nonflat_of_sign opposite.ne
  simp only [Position.applyTrade, ScaledValue.isZero, nonzero, held, opposite_direction positive opposite,
    absolute_eq opposite, ← equal, lt_irrefl, if_true, if_false]

theorem applyTrade_reverses (positive : quantity.isPositive) (reverses : kind position side quantity = .reverses) :
    position.applyTrade side price quantity =
      { position with
        currentQuantity := position.currentQuantity + side.signed quantity
        averageEntryPrice := price } := by
  obtain ⟨opposite, larger⟩ := kind_reverses reverses
  have nonzero : quantity.raw ≠ 0 := by omega
  have held := nonflat_of_sign opposite.ne
  have notSmaller : ¬ quantity.raw < -(sign side * position.currentQuantity.raw) := by omega
  have different : ¬ quantity.raw = -(sign side * position.currentQuantity.raw) := by omega
  simp only [Position.applyTrade, ScaledValue.isZero, nonzero, held, opposite_direction positive opposite,
    absolute_eq opposite, notSmaller, different, if_false]

/-- The signed quantity moves by the signed trade in every branch. -/
theorem quantity_applyTrade (positive : quantity.isPositive) :
    (position.applyTrade side price quantity).currentQuantity.raw =
      position.currentQuantity.raw + sign side * quantity.raw := by
  cases found : kind position side quantity with
  | opens => simp [applyTrade_opens positive found, kind_opens found]
  | increases => simp [applyTrade_increases positive found]
  | reduces => simp [applyTrade_reduces positive found]
  | closes =>
    obtain ⟨_, equal⟩ := kind_closes found
    rw [applyTrade_closes positive found]
    cases side <;> simp only [sign] at equal ⊢ <;> omega
  | reverses => simp [applyTrade_reverses positive found]

theorem absolute_grown (positive : quantity.isPositive) (increases : kind position side quantity = .increases) :
    (position.applyTrade side price quantity).absoluteCurrentQuantity = position.totalQuantity quantity := by
  have same := kind_increases increases
  have moved : (position.applyTrade side price quantity).currentQuantity.raw =
      position.currentQuantity.raw + sign side * quantity.raw := quantity_applyTrade positive
  have grown : 0 < sign side * (position.applyTrade side price quantity).currentQuantity.raw := by
    rw [moved]
    cases side <;> simp only [sign] at same ⊢ <;> omega
  rw [absolute_increases grown, Position.totalQuantity, absolute_increases same, moved, sign_moved]

end TradingCore.Proofs.PositionTrades
