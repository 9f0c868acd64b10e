import Mathlib.Algebra.Group.Nat.Defs

/-! Bytes whose bits are shifted, masked and joined, as numbers. -/

namespace Bits

theorem toNat_high (byte : UInt8) (shift : Nat) (within : shift < 8) :
    (byte >>> UInt8.ofNat shift).toNat = byte.toNat / 2 ^ shift := by
  have small : shift < 2 ^ 8 := by omega
  rw [UInt8.toNat_shiftRight, UInt8.toNat_ofNat', Nat.mod_eq_of_lt small, Nat.mod_eq_of_lt within,
    Nat.shiftRight_eq_div_pow]

theorem toNat_low (byte : UInt8) (width : Nat) (within : width ≤ 8) :
    (byte &&& UInt8.ofNat (2 ^ width - 1)).toNat = byte.toNat % 2 ^ width := by
  have mask : 2 ^ width - 1 < 2 ^ 8 :=
    Nat.lt_of_lt_of_le (Nat.sub_one_lt_of_lt (Nat.two_pow_pos width)) (Nat.pow_le_pow_right (by decide) within)
  rw [UInt8.toNat_and, UInt8.toNat_ofNat', Nat.mod_eq_of_lt mask, Nat.and_two_pow_sub_one_eq_mod]

/-- The low bits of one byte, moved up to make room for another value. -/
theorem toNat_joined (high low : UInt8) (width shift : Nat) (within : width + shift ≤ 8) (some : shift < 8)
    (fits : low.toNat < 2 ^ shift) :
    (((high &&& UInt8.ofNat (2 ^ width - 1)) <<< UInt8.ofNat shift) ||| low).toNat =
      high.toNat % 2 ^ width * 2 ^ shift + low.toNat := by
  have small : shift < 2 ^ 8 := by omega
  have moved : high.toNat % 2 ^ width * 2 ^ shift < 2 ^ 8 :=
    calc high.toNat % 2 ^ width * 2 ^ shift < 2 ^ width * 2 ^ shift :=
          Nat.mul_lt_mul_of_pos_right (Nat.mod_lt _ (Nat.two_pow_pos width)) (Nat.two_pow_pos shift)
      _ = 2 ^ (width + shift) := (Nat.pow_add 2 width shift).symm
      _ ≤ 2 ^ 8 := Nat.pow_le_pow_right (by decide) within
  rw [UInt8.toNat_or, UInt8.toNat_shiftLeft, toNat_low high width (by omega), UInt8.toNat_ofNat',
    Nat.mod_eq_of_lt small, Nat.mod_eq_of_lt some, Nat.shiftLeft_eq, Nat.mod_eq_of_lt moved, ← Nat.shiftLeft_eq,
    ← Nat.shiftLeft_add_eq_or_of_lt fits]

theorem ofNat_eq_of_toNat {byte : UInt8} {value : Nat} (same : value = byte.toNat) : UInt8.ofNat value = byte := by
  rw [same, UInt8.ofNat_toNat]

end Bits
