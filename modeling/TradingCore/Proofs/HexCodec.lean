import TradingCore.Foundation.Bits
import TradingCore.Utilities.HexConverter
import Mathlib.Algebra.Group.Nat.Even

/-! Hexadecimal texts and the bytes they stand for. Every converter to a text
writes the same two digits per byte, wherever it keeps its position, and both
readers take the digits in pairs. -/

namespace TradingCore.Proofs.HexCodec
open Utilities Utilities.HexConverter

def digitsOf (byte : UInt8) : StdString := [digitOf (byte >>> 4), digitOf (byte &&& 0x0f)]

def hexOf (bytes : List UInt8) : StdString := bytes.flatMap digitsOf

theorem hexOf_cons (byte : UInt8) (bytes : List UInt8) : hexOf (byte :: bytes) = digitsOf byte ++ hexOf bytes :=
  List.flatMap_cons

/-- The byte of two digits. -/
def byteOf (first second : Char) : UInt8 := 16 * hexCode first + hexCode second

def bytesOf : StdString → Option (List UInt8)
  | [] => some []
  | first :: second :: rest => (bytesOf rest).map (byteOf first second :: ·)
  | [_] => none

def hexDigits : List Char := table ++ ['a', 'b', 'c', 'd', 'e', 'f']

theorem writeDigits_front (front behind : StdString) (old0 old1 : Char) (byte : UInt8) :
    writeDigits (front ++ old0 :: old1 :: behind) front.length byte = front ++ digitsOf byte ++ behind := by
  simp [writeDigits, digitsOf, List.set_append_right]

/-- Converting overwrites two characters per byte and nothing around them. -/
theorem foldl_writeNext (bytes : List UInt8) {old : StdString} (room : old.length = 2 * bytes.length)
    (front behind : StdString) :
    (bytes.foldl writeNext (front.length, front ++ old ++ behind)).2 = front ++ hexOf bytes ++ behind := by
  induction bytes generalizing front old with
  | nil =>
    rw [List.eq_nil_of_length_eq_zero room]
    rfl
  | cons byte bytes ih =>
    rw [List.length_cons] at room
    obtain ⟨old0, old1, old, rfl⟩ : ∃ old0 old1 behind, old = old0 :: old1 :: behind := by
      rcases old with _ | ⟨old0, _ | ⟨old1, old⟩⟩
      · exact absurd room (by simp)
      · exact absurd room (by simp; omega)
      · exact ⟨old0, old1, old, rfl⟩
    have rest : old.length = 2 * bytes.length := by
      rw [List.length_cons, List.length_cons] at room
      omega
    have written : writeNext (front.length, front ++ old0 :: old1 :: old ++ behind) byte =
        ((front ++ digitsOf byte).length, front ++ digitsOf byte ++ old ++ behind) := by
      rw [writeNext, List.append_assoc, List.cons_append, List.cons_append, writeDigits_front, List.length_append]
      simp [digitsOf]
    rw [List.foldl_cons, written, ih rest, hexOf_cons, List.append_assoc front]

theorem writeAll_eq (bytes behind : List UInt8) (pos : Nat) (dest : StdString) :
    writeAll (bytes ++ behind) bytes.length pos dest = some (bytes.foldl writeNext (pos, dest)).2 := by
  induction bytes generalizing pos dest with
  | nil => rw [List.nil_append, List.length_nil, writeAll, List.foldl_nil]
  | cons byte bytes ih =>
    rw [List.cons_append, List.length_cons, writeAll, ih]
    rfl

theorem bytesToHex_eq (bytes : List UInt8) : bytesToHex bytes = hexOf bytes := by
  have room : (List.replicate (bytes.length * 2) '0').length = 2 * bytes.length := by
    rw [List.length_replicate, Nat.mul_comm]
  have written := foldl_writeNext bytes room [] []
  rwa [List.nil_append, List.append_nil, List.nil_append, List.append_nil] at written

/-- The loop reads the pairs of the rest behind the bytes that it has. -/
theorem readPairs_eq (hexString : StdString) (i : Nat) (bytes : List UInt8) :
    readPairs hexString i bytes = (bytesOf (hexString.drop i)).map (bytes ++ ·) := by
  induction i, bytes using readPairs.induct hexString with
  | case1 i bytes more ih =>
    have some : 0 < (hexString.drop i).length := by
      rw [List.length_drop]
      omega
    rw [readPairs, if_pos more, StdString.substr]
    simp only [ih, ← List.drop_drop]
    generalize hexString.drop i = rest at some ⊢
    rcases rest with _ | ⟨first, _ | ⟨second, rest⟩⟩
    · exact absurd some (Nat.lt_irrefl 0)
    · rfl
    · simp [hex2UChar, bytesOf, byteOf, Function.comp_def]
  | case2 i bytes done =>
    rw [readPairs, if_neg done, List.drop_eq_nil_of_le (Nat.le_of_not_lt done), bytesOf, Option.map_some,
      List.append_nil]

theorem hex2BytesString_eq (hexString : StdString) : hex2BytesString hexString = bytesOf hexString := by
  rw [hex2BytesString, readPairs_eq, List.drop_zero]
  exact Option.map_id'

theorem hexCode_digitOf {half : UInt8} (within : half.toNat < 16) : hexCode (digitOf half) = half := by
  have all : ∀ code : Fin 16, (hexCode (table.getD code '0')).toNat = code.val := by decide
  exact UInt8.toNat_inj.mp (all ⟨half.toNat, within⟩)

/-- A digit stands for a half of a byte, which is written as the upper case of
the digit. -/
theorem digitOf_hexCode {digit : Char} (digital : digit ∈ hexDigits) :
    (hexCode digit).toNat < 16 ∧ digitOf (hexCode digit) = digit.toUpper := by
  have all : hexDigits.all fun digit =>
      (hexCode digit).toNat < 16 ∧ digitOf (hexCode digit) = digit.toUpper := by decide
  exact of_decide_eq_true (List.all_eq_true.mp all digit digital)

theorem toNat_upper (byte : UInt8) : (byte >>> 4).toNat = byte.toNat / 16 := Bits.toNat_high byte 4 (by decide)

theorem toNat_lower (byte : UInt8) : (byte &&& 0x0f).toNat = byte.toNat % 16 := Bits.toNat_low byte 4 (by decide)

theorem toNat_halves {upper lower : UInt8} (first : upper.toNat < 16) (second : lower.toNat < 16) :
    (16 * upper + lower).toNat = 16 * upper.toNat + lower.toNat := by
  have sixteen : (16 : UInt8).toNat = 16 := rfl
  rw [UInt8.toNat_add, UInt8.toNat_mul, sixteen]
  omega

theorem byteOf_digitsOf (byte : UInt8) : byteOf (digitOf (byte >>> 4)) (digitOf (byte &&& 0x0f)) = byte := by
  have bound := byte.toNat_lt
  have upper : (byte >>> 4).toNat < 16 := by
    rw [toNat_upper]
    omega
  have lower : (byte &&& 0x0f).toNat < 16 := by
    rw [toNat_lower]
    omega
  rw [byteOf, hexCode_digitOf upper, hexCode_digitOf lower]
  apply UInt8.toNat_inj.mp
  rw [toNat_halves upper lower, toNat_upper, toNat_lower]
  omega

theorem digitsOf_byteOf {first second : Char} (upper : first ∈ hexDigits) (lower : second ∈ hexDigits) :
    digitsOf (byteOf first second) = [first.toUpper, second.toUpper] := by
  obtain ⟨fits0, written0⟩ := digitOf_hexCode upper
  obtain ⟨fits1, written1⟩ := digitOf_hexCode lower
  have joined := toNat_halves fits0 fits1
  have half0 : byteOf first second >>> 4 = hexCode first := by
    apply UInt8.toNat_inj.mp
    rw [toNat_upper, byteOf, joined]
    omega
  have half1 : byteOf first second &&& 0x0f = hexCode second := by
    apply UInt8.toNat_inj.mp
    rw [toNat_lower, byteOf, joined]
    omega
  rw [digitsOf, half0, half1, written0, written1]

theorem bytesOf_hexOf (bytes : List UInt8) : bytesOf (hexOf bytes) = some bytes := by
  induction bytes with
  | nil => rfl
  | cons byte bytes ih =>
    rw [hexOf_cons, digitsOf, List.cons_append, List.cons_append, List.nil_append, bytesOf, ih, byteOf_digitsOf,
      Option.map_some]

theorem hexOf_bytesOf {text : StdString} (even : Even text.length) (digital : ∀ ch ∈ text, ch ∈ hexDigits) :
    (bytesOf text).map hexOf = some (text.map Char.toUpper) := by
  induction text using bytesOf.induct with
  | case1 => rfl
  | case2 first second rest ih =>
    rw [List.forall_mem_cons, List.forall_mem_cons] at digital
    obtain ⟨upper, lower, others⟩ := digital
    have shorter : Even rest.length := by
      rw [List.length_cons, List.length_cons, Nat.even_add_one, Nat.even_add_one, not_not] at even
      exact even
    have ih := ih shorter others
    obtain ⟨bytes, read, written⟩ := Option.map_eq_some_iff.mp ih
    rw [bytesOf, read, Option.map_some, Option.map_some, hexOf_cons, digitsOf_byteOf upper lower, written]
    rfl
  | case3 => exact absurd even Nat.not_even_one

/-- All ways to write bytes agree and are undone by both readers; reading an even
number of digits and writing them again leaves their upper case. -/
theorem hex_roundtrip :
    (∀ bytes : List UInt8, hex2BytesString (bytesToHex bytes) = some bytes ∧
      hex2Bytes (bytesToHex bytes) = some bytes) ∧
    (∀ bytes behind : List UInt8, bytes ≠ [] →
      bytesToHexStr (bytes ++ behind) bytes.length = some (bytesToHex bytes) ∧
      ∀ dest : StdString, 2 * bytes.length ≤ dest.length →
        bytesToHexStrAt (bytes ++ behind) bytes.length dest =
          some (bytesToHex bytes ++ dest.drop (2 * bytes.length))) ∧
    ∀ text : StdString, Even text.length → (∀ ch ∈ text, ch ∈ hexDigits) →
      (hex2BytesString text).map bytesToHex = some (text.map Char.toUpper) := by
  refine ⟨?_, ?_, ?_⟩
  · intro bytes
    have read : hex2BytesString (bytesToHex bytes) = some bytes := by
      rw [hex2BytesString_eq, bytesToHex_eq, bytesOf_hexOf]
    exact ⟨read, read⟩
  · intro bytes behind nonempty
    constructor
    · obtain ⟨byte, rest, rfl⟩ := List.exists_cons_of_ne_nil nonempty
      rw [bytesToHexStr, writeAll_eq]
      rfl
    · intro dest room
      have taken : (dest.take (2 * bytes.length)).length = 2 * bytes.length := List.length_take_of_le room
      have written := foldl_writeNext bytes taken [] (dest.drop (2 * bytes.length))
      rw [List.nil_append, List.take_append_drop, List.nil_append] at written
      rw [bytesToHexStrAt, writeAll_eq, bytesToHex_eq, ← written]
      rfl
  · intro text even digital
    rw [hex2BytesString_eq, funext bytesToHex_eq]
    exact hexOf_bytesOf even digital

/-- A byte with both kinds of digits, and its digits in lower case. -/
theorem hex_roundtrip_letters :
    bytesToHexStr [0x1f, 0xb0] 1 = some (bytesToHex [0x1f]) ∧
    (hex2BytesString ['1', 'f']).map bytesToHex = some ['1', 'F'] := by
  have digital : ∀ ch ∈ ['1', 'f'], ch ∈ hexDigits := by simp [hexDigits, table]
  exact ⟨(hex_roundtrip.2.1 [0x1f] [0xb0] (by decide)).1, hex_roundtrip.2.2 ['1', 'f'] (by decide) digital⟩

end TradingCore.Proofs.HexCodec
