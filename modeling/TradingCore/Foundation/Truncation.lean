import Mathlib.Algebra.Order.Group.Int
import Mathlib.Algebra.Order.Ring.Abs
import Mathlib.Algebra.Order.Ring.Int
import Mathlib.Tactic.Linarith

/-! How far a truncating division can be from exact, and which parts of a
dividend it does not notice. -/

namespace Truncation

/-- Multiplying a truncated quotient back misses the dividend by less than
the divisor, whatever the sign of the dividend. -/
theorem abs_mul_tdiv_sub_le (dividend : Int) {divisor : Int} (positive : 0 < divisor) :
    |divisor * dividend.tdiv divisor - dividend| ≤ divisor - 1 := by
  have split := Int.mul_tdiv_add_tmod dividend divisor
  have small : (dividend.tmod divisor).natAbs < divisor.natAbs := by
    rw [Int.natAbs_tmod]
    exact Nat.mod_lt _ (by omega)
  rw [abs_le]
  omega

/-- The remainder has the sign of the dividend and is less than the divisor. -/
private theorem tmod_cases (dividend : Int) {divisor : Int} (positive : 0 < divisor) :
    0 ≤ dividend ∧ 0 ≤ dividend.tmod divisor ∧ dividend.tmod divisor < divisor ∨
    dividend < 0 ∧ -divisor < dividend.tmod divisor ∧ dividend.tmod divisor ≤ 0 := by
  have below := Int.tmod_lt_of_pos dividend positive
  have above := Int.lt_tmod_of_pos dividend positive
  rcases lt_or_ge dividend 0 with negative | nonnegative
  · have mirrored := Int.tmod_nonneg divisor (Int.neg_nonneg_of_nonpos (Int.le_of_lt negative))
    rw [Int.neg_tmod] at mirrored
    exact Or.inr ⟨negative, above, Int.nonpos_of_neg_nonneg mirrored⟩
  · exact Or.inl ⟨nonnegative, Int.tmod_nonneg divisor nonnegative, below⟩

/-- What a truncating division leaves over: less than the divisor, and of the
sign of the quotient. -/
structure Leaves (divisor quotient rest : Int) : Prop where
  small : |rest| < divisor
  above : 0 < quotient → 0 ≤ rest
  below : quotient < 0 → rest ≤ 0

theorem leaves_tmod (dividend : Int) {divisor : Int} (positive : 0 < divisor) :
    Leaves divisor (dividend.tdiv divisor) (dividend.tmod divisor) := by
  have none := Int.zero_tdiv divisor
  rcases tmod_cases dividend positive with ⟨sign, rest, small⟩ | ⟨sign, small, rest⟩
  · have quotient := Int.tdiv_le_tdiv positive sign
    refine ⟨abs_lt.mpr ⟨by omega, small⟩, fun _ => rest, fun negative => ?_⟩
    omega
  · have quotient := Int.tdiv_le_tdiv positive (Int.le_of_lt sign)
    refine ⟨abs_lt.mpr ⟨small, by omega⟩, fun above => ?_, fun _ => rest⟩
    omega

theorem Leaves.not_lt {divisor quotient rest larger left : Int} (positive : 0 < divisor)
    (leaves : Leaves divisor quotient rest) (other : Leaves divisor larger left)
    (same : divisor * quotient + rest = divisor * larger + left) : ¬ quotient < larger := by
  intro less
  have apart : divisor * 1 ≤ divisor * (larger - quotient) :=
    Int.mul_le_mul_of_nonneg_left (by omega) (Int.le_of_lt positive)
  rw [Int.mul_sub, Int.mul_one] at apart
  have small := abs_lt.mp leaves.small
  have smallLeft := abs_lt.mp other.small
  rcases lt_or_ge 0 larger with above | below
  · have nonnegative := other.above above
    omega
  · have nonpositive := leaves.below (by omega)
    omega

theorem tdiv_eq_iff {dividend divisor quotient : Int} (positive : 0 < divisor) :
    dividend.tdiv divisor = quotient ↔ Leaves divisor quotient (dividend - divisor * quotient) := by
  have split := Int.mul_tdiv_add_tmod dividend divisor
  have leaves := leaves_tmod dividend positive
  constructor
  · rintro rfl
    have rest : dividend - divisor * dividend.tdiv divisor = dividend.tmod divisor := by omega
    rwa [rest]
  · intro other
    have same : divisor * dividend.tdiv divisor + dividend.tmod divisor =
        divisor * quotient + (dividend - divisor * quotient) := by omega
    exact Int.le_antisymm (Int.not_lt.mp (other.not_lt positive leaves same.symm))
      (Int.not_lt.mp (leaves.not_lt positive other same))

/-- A change goes unnoticed when with the remainder it stays less than the
divisor and does not turn against the quotient. -/
theorem add_tdiv_eq_iff {whole change divisor : Int} (positive : 0 < divisor) :
    (whole + change).tdiv divisor = whole.tdiv divisor ↔
      Leaves divisor (whole.tdiv divisor) (whole.tmod divisor + change) := by
  have split := Int.mul_tdiv_add_tmod whole divisor
  have rest : whole + change - divisor * whole.tdiv divisor = whole.tmod divisor + change := by omega
  rw [tdiv_eq_iff positive, rest]
theorem tdiv_le_of_le_mul {dividend divisor bound : Int} (positive : 0 < divisor) (below : dividend ≤ bound * divisor) :
    dividend.tdiv divisor ≤ bound := by
  rw [← Int.mul_tdiv_cancel bound (Int.ne_of_gt positive)]
  exact Int.tdiv_le_tdiv positive below

private theorem abs_le_one {count divisor : Int} (positive : 0 < divisor) (small : |divisor * count| < 2 * divisor) :
    |count| ≤ 1 := by
  rw [abs_mul, abs_of_pos positive, Int.mul_comm 2] at small
  exact Int.lt_add_one_iff.mp (Int.lt_of_mul_lt_mul_left small (Int.le_of_lt positive))

/-- Dividends less than a divisor apart have quotients at most one apart. -/
theorem abs_tdiv_sub_tdiv_le {first second divisor : Int} (positive : 0 < divisor)
    (near : |first - second| < divisor) : |first.tdiv divisor - second.tdiv divisor| ≤ 1 := by
  apply abs_le_one positive
  have firstSplit := Int.mul_tdiv_add_tmod first divisor
  have secondSplit := Int.mul_tdiv_add_tmod second divisor
  rw [abs_lt] at near
  rw [Int.mul_sub, abs_lt]
  rcases tmod_cases first positive with firstCase | firstCase
  · rcases tmod_cases second positive with secondCase | secondCase <;> omega
  · rcases tmod_cases second positive with secondCase | secondCase <;> omega

/-- Dividing two amounts of one sign apart loses at most one against dividing
their sum. -/
theorem abs_add_tdiv_sub_le {first second divisor : Int} (positive : 0 < divisor)
    (aligned : 0 ≤ first ∧ 0 ≤ second ∨ first ≤ 0 ∧ second ≤ 0) :
    |(first + second).tdiv divisor - (first.tdiv divisor + second.tdiv divisor)| ≤ 1 := by
  apply abs_le_one positive
  have sumSplit := Int.mul_tdiv_add_tmod (first + second) divisor
  have firstSplit := Int.mul_tdiv_add_tmod first divisor
  have secondSplit := Int.mul_tdiv_add_tmod second divisor
  rw [Int.mul_sub, Int.mul_add, abs_lt]
  rcases tmod_cases (first + second) positive with sumCase | sumCase
  · rcases tmod_cases first positive with firstCase | firstCase
    · rcases tmod_cases second positive with secondCase | secondCase <;> omega
    · omega
  · rcases tmod_cases first positive with firstCase | firstCase
    · rcases tmod_cases second positive with secondCase | secondCase <;> omega
    · rcases tmod_cases second positive with secondCase | secondCase <;> omega

/-- A part of an amount is still one after both have been divided. -/
theorem tdiv_inside {whole part divisor : Int} (positive : 0 < divisor)
    (inside : 0 ≤ part ∧ part ≤ whole ∨ whole ≤ part ∧ part ≤ 0) :
    0 ≤ part.tdiv divisor ∧ part.tdiv divisor ≤ whole.tdiv divisor ∨
    whole.tdiv divisor ≤ part.tdiv divisor ∧ part.tdiv divisor ≤ 0 := by
  have none := Int.zero_tdiv divisor
  rcases inside with ⟨above, within⟩ | ⟨within, below⟩
  · refine Or.inl ⟨?_, Int.tdiv_le_tdiv positive within⟩
    rw [← none]
    exact Int.tdiv_le_tdiv positive above
  · refine Or.inr ⟨Int.tdiv_le_tdiv positive within, ?_⟩
    rw [← none]
    exact Int.tdiv_le_tdiv positive below

theorem tdiv_lt_iff {dividend divisor bound : Int} (positive : 0 < divisor) (above : 0 < bound) :
    dividend.tdiv divisor < bound ↔ dividend < bound * divisor := by
  refine ⟨Int.lt_mul_of_tdiv_lt positive, ?_⟩
  intro below
  rcases lt_or_ge dividend 0 with negative | nonnegative
  · have small := Int.tdiv_le_tdiv positive (Int.le_of_lt negative)
    rw [Int.zero_tdiv] at small
    exact Int.lt_of_le_of_lt small above
  · rw [Int.tdiv_eq_ediv_of_nonneg nonnegative]
    exact Int.ediv_lt_of_lt_mul positive below

theorem lt_tdiv_iff {dividend divisor bound : Int} (positive : 0 < divisor) (below : bound < 0) :
    bound < dividend.tdiv divisor ↔ bound * divisor < dividend := by
  have mirrored := @tdiv_lt_iff (-dividend) divisor (-bound) positive (by omega)
  rw [Int.neg_tdiv, Int.neg_mul] at mirrored
  omega

end Truncation
