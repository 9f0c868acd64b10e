import Mathlib.Order.Basic
import Mathlib.Algebra.Order.Ring.Int

/-! Fixed-point values with eight implicit decimals. The raw storage is an
`int64_t` whose overflow is undefined in the source, so sums and differences
are the exact ones and range is stated where it matters; a conversion back to
`int64_t` is defined to wrap and is modelled as such by `toInt64`. -/

namespace TradingCore

def pow10 : Nat → Int
  | 0 => 1
  | exponent + 1 => pow10 exponent * 10

inductive Domain where
  | price
  | quantity

/-- The parameter keeps prices and quantities apart, as the derived class of
the source does; it carries no data. -/
structure ScaledValue (Derived : Domain) where
  raw : Int := 0
deriving DecidableEq, Repr

abbrev Price := ScaledValue .price
abbrev Quantity := ScaledValue .quantity

namespace ScaledValue

def DecimalPlaces : Nat := 8
def Scale : Int := pow10 DecimalPlaces

variable {Derived : Domain}

@[ext] theorem ext {first second : ScaledValue Derived} (same : first.raw = second.raw) : first = second := by
  cases first
  cases second
  exact congrArg mk same

abbrev isZero (value : ScaledValue Derived) : Prop := value.raw = 0
abbrev isPositive (value : ScaledValue Derived) : Prop := 0 < value.raw
abbrev isNegative (value : ScaledValue Derived) : Prop := value.raw < 0

instance : Add (ScaledValue Derived) := ⟨fun first second => ⟨first.raw + second.raw⟩⟩
instance : Sub (ScaledValue Derived) := ⟨fun first second => ⟨first.raw - second.raw⟩⟩
instance : LT (ScaledValue Derived) := ⟨fun first second => first.raw < second.raw⟩
instance : LE (ScaledValue Derived) := ⟨fun first second => first.raw ≤ second.raw⟩
instance : Ord (ScaledValue Derived) := ⟨fun first second => compare first.raw second.raw⟩

instance (first second : ScaledValue Derived) : Decidable (first < second) :=
  inferInstanceAs (Decidable (first.raw < second.raw))

instance (first second : ScaledValue Derived) : Decidable (first ≤ second) :=
  inferInstanceAs (Decidable (first.raw ≤ second.raw))

instance : Std.TransOrd (ScaledValue Derived) :=
  inferInstanceAs (Std.TransCmp (compareOn (raw : ScaledValue Derived → Int)))

instance : Std.LawfulEqOrd (ScaledValue Derived) where
  eq_of_compare {first second} same :=
    ext (Std.LawfulEqOrd.eq_of_compare (show compare first.raw second.raw = .eq from same))

@[simp] theorem raw_add (first second : ScaledValue Derived) : (first + second).raw = first.raw + second.raw := rfl
@[simp] theorem raw_sub (first second : ScaledValue Derived) : (first - second).raw = first.raw - second.raw := rfl

@[simp] theorem scale_eq : Scale = 100000000 := rfl

theorem scale_positive : 0 < Scale := by decide

end ScaledValue

def FitsInt64 (value : Int) : Prop := -2 ^ 63 ≤ value ∧ value < 2 ^ 63

instance (value : Int) : Decidable (FitsInt64 value) :=
  inferInstanceAs (Decidable (-2 ^ 63 ≤ value ∧ value < 2 ^ 63))

theorem FitsInt64.part {whole part : Int} (fits : FitsInt64 whole)
    (inside : 0 ≤ part ∧ part ≤ whole ∨ whole ≤ part ∧ part ≤ 0) : FitsInt64 part := by
  obtain ⟨above, below⟩ := fits
  exact ⟨by omega, by omega⟩

/-- The range of `__int128_t`. -/
def FitsInt128 (value : Int) : Prop := -2 ^ 127 ≤ value ∧ value < 2 ^ 127

instance (value : Int) : Decidable (FitsInt128 value) :=
  inferInstanceAs (Decidable (-2 ^ 127 ≤ value ∧ value < 2 ^ 127))

/-- `static_cast<int64_t>` of a wider integer. -/
def toInt64 (value : Int) : Int := value.bmod (2 ^ 64)

theorem toInt64_of_fits {value : Int} (fits : FitsInt64 value) : toInt64 value = value := by
  obtain ⟨above, below⟩ := fits
  exact Int.bmod_eq_of_le (by omega) (by omega)

theorem toInt64_fits (value : Int) : FitsInt64 (toInt64 value) := by
  have above : -((2 ^ 64 : Nat) / 2 : Int) ≤ toInt64 value := Int.le_bmod (by decide)
  have below : toInt64 value < ((2 ^ 64 : Nat) + 1) / 2 := Int.bmod_lt (by decide)
  exact ⟨by omega, by omega⟩

/-- The narrowing is exact for what fits, and for nothing else. -/
theorem toInt64_eq_iff (value : Int) : toInt64 value = value ↔ FitsInt64 value := by
  refine ⟨?_, toInt64_of_fits⟩
  intro same
  rw [← same]
  exact toInt64_fits value

end TradingCore
