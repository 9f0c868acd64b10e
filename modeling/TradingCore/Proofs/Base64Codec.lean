import TradingCore.Foundation.Bits
import TradingCore.Utilities.Base64

/-! Base64 encoding against the decoder of RFC 4648. Three bytes become four
groups of six bits; one or two bytes at the end are filled up with zero bits and
padded. -/

namespace TradingCore.Proofs.Base64Codec
open Utilities Utilities.Base64

/-- The value of a character of the standard alphabet. -/
def digitValue (ch : Char) : Option Nat :=
  if 'A' ≤ ch ∧ ch ≤ 'Z' then some (ch.toNat - 'A'.toNat)
  else if 'a' ≤ ch ∧ ch ≤ 'z' then some (ch.toNat - 'a'.toNat + 26)
  else if '0' ≤ ch ∧ ch ≤ '9' then some (ch.toNat - '0'.toNat + 52)
  else if ch = '+' then some 62
  else if ch = '/' then some 63
  else none

/-- Four characters. Only the last ones of a text may be padded, and the bits
that the padding leaves over have to be zero. -/
def decodeBlock (first second third fourth : Char) (last : Bool) : Option (List UInt8) := do
  let value0 ← digitValue first
  let value1 ← digitValue second
  let byte0 := UInt8.ofNat (value0 * 4 + value1 / 16)
  if fourth = '=' ∧ last then
    if third = '=' then
      if value1 % 16 = 0 then some [byte0] else none
    else
      let value2 ← digitValue third
      if value2 % 4 = 0 then some [byte0, UInt8.ofNat (value1 % 16 * 16 + value2 / 4)] else none
  else
    let value2 ← digitValue third
    let value3 ← digitValue fourth
    some [byte0, UInt8.ofNat (value1 % 16 * 16 + value2 / 4), UInt8.ofNat (value2 % 4 * 64 + value3)]

def base64Decode : StdString → Option (List UInt8)
  | [] => some []
  | first :: second :: third :: fourth :: rest => do
    let bytes ← decodeBlock first second third fourth rest.isEmpty
    let others ← base64Decode rest
    some (bytes ++ others)
  | _ => none

/-- What the encoder makes of up to three bytes. -/
def encodeBlock (byte0 : UInt8) (byte1 byte2 : Option UInt8) : StdString :=
  [encoded (byte0 >>> 2),
    encoded (((byte0 &&& 0x03) <<< 4) ||| (byte1.getD 0 >>> 4)),
    byte1.elim padding fun byte1 => encoded (((byte1 &&& 0x0f) <<< 2) ||| (byte2.getD 0 >>> 6)),
    byte2.elim padding fun byte2 => encoded (byte2 &&& 0x3f)]

def encodeBlocks : List UInt8 → StdString
  | [] => []
  | [byte0] => encodeBlock byte0 none none
  | [byte0, byte1] => encodeBlock byte0 (some byte1) none
  | byte0 :: byte1 :: byte2 :: rest => encodeBlock byte0 (some byte1) (some byte2) ++ encodeBlocks rest

/-- What the loop reads at an index is the block at the front of the rest. -/
theorem base64EncodeFrom_eq (str : List UInt8) (index : Nat) :
    base64EncodeFrom str index = encodeBlocks (str.drop index) := by
  induction index using base64EncodeFrom.induct str with
  | case1 index more ih =>
    have read : ∀ ahead, str.getD (index + ahead) 0 = (str.drop index).getD ahead 0 := by
      intro ahead
      rw [List.getD_eq_getElem?_getD, List.getD_eq_getElem?_getD, List.getElem?_drop]
    have within : ∀ ahead, index + ahead < str.length ↔ ahead < (str.drop index).length := by
      intro ahead
      rw [List.length_drop]
      omega
    rw [← List.drop_drop] at ih
    rw [base64EncodeFrom, if_pos more, ih]
    simp only [read 1, read 2, within 1, within 2]
    have first := read 0
    have some := (within 0).mp more
    rw [Nat.add_zero] at first
    rw [first]
    generalize str.drop index = rest at some ⊢
    rcases rest with _ | ⟨byte0, _ | ⟨byte1, _ | ⟨byte2, rest⟩⟩⟩
    · exact absurd some (Nat.lt_irrefl 0)
    · rfl
    · rfl
    · simp [encodeBlocks, encodeBlock]
  | case2 index done =>
    rw [base64EncodeFrom, if_neg done, List.drop_eq_nil_of_le (Nat.le_of_not_lt done), encodeBlocks]

theorem digitValue_encoded {index : UInt8} (within : index.toNat < 64) :
    digitValue (encoded index) = some index.toNat := by
  have table : ∀ index : Fin 64, digitValue (encodingTable.getD index padding) = some index.val := by decide
  exact table ⟨index.toNat, within⟩

theorem toNat_first (byte0 : UInt8) : (byte0 >>> 2).toNat = byte0.toNat / 4 := Bits.toNat_high byte0 2 (by decide)

theorem toNat_second (byte0 byte1 : UInt8) :
    (((byte0 &&& 0x03) <<< 4) ||| (byte1 >>> 4)).toNat = byte0.toNat % 4 * 16 + byte1.toNat / 16 := by
  have high : (byte1 >>> 4).toNat = byte1.toNat / 16 := Bits.toNat_high byte1 4 (by decide)
  have fits : (byte1 >>> 4).toNat < 2 ^ 4 := by
    have bound := byte1.toNat_lt
    omega
  rw [← high]
  exact Bits.toNat_joined byte0 (byte1 >>> 4) 2 4 (by decide) (by decide) fits

theorem toNat_third (byte1 byte2 : UInt8) :
    (((byte1 &&& 0x0f) <<< 2) ||| (byte2 >>> 6)).toNat = byte1.toNat % 16 * 4 + byte2.toNat / 64 := by
  have high : (byte2 >>> 6).toNat = byte2.toNat / 64 := Bits.toNat_high byte2 6 (by decide)
  have fits : (byte2 >>> 6).toNat < 2 ^ 2 := by
    have bound := byte2.toNat_lt
    omega
  rw [← high]
  exact Bits.toNat_joined byte1 (byte2 >>> 6) 4 2 (by decide) (by decide) fits

theorem toNat_fourth (byte2 : UInt8) : (byte2 &&& 0x3f).toNat = byte2.toNat % 64 :=
  Bits.toNat_low byte2 6 (by decide)

/-- The digits of a block, each with the bits that it stands for. -/
theorem digits (byte0 byte1 byte2 : UInt8) :
    digitValue (encoded (byte0 >>> 2)) = some (byte0.toNat / 4) ∧
    digitValue (encoded (((byte0 &&& 0x03) <<< 4) ||| (byte1 >>> 4))) =
      some (byte0.toNat % 4 * 16 + byte1.toNat / 16) ∧
    digitValue (encoded (((byte1 &&& 0x0f) <<< 2) ||| (byte2 >>> 6))) =
      some (byte1.toNat % 16 * 4 + byte2.toNat / 64) ∧
    digitValue (encoded (byte2 &&& 0x3f)) = some (byte2.toNat % 64) := by
  have bound0 := byte0.toNat_lt
  have bound1 := byte1.toNat_lt
  have bound2 := byte2.toNat_lt
  rw [← toNat_first, ← toNat_second, ← toNat_third, ← toNat_fourth]
  refine ⟨digitValue_encoded ?_, digitValue_encoded ?_, digitValue_encoded ?_, digitValue_encoded ?_⟩
  · rw [toNat_first]
    omega
  · rw [toNat_second]
    omega
  · rw [toNat_third]
    omega
  · rw [toNat_fourth]
    omega

theorem ne_padding {ch : Char} {value : Nat} (digit : digitValue ch = some value) : ch ≠ '=' := by
  rintro rfl
  exact absurd digit (by decide +revert)

theorem byte_first (byte0 byte1 : UInt8) :
    UInt8.ofNat (byte0.toNat / 4 * 4 + (byte0.toNat % 4 * 16 + byte1.toNat / 16) / 16) = byte0 := by
  have bound := byte1.toNat_lt
  apply Bits.ofNat_eq_of_toNat
  omega

theorem byte_second (byte0 byte1 byte2 : UInt8) :
    UInt8.ofNat ((byte0.toNat % 4 * 16 + byte1.toNat / 16) % 16 * 16 +
      (byte1.toNat % 16 * 4 + byte2.toNat / 64) / 4) = byte1 := by
  have bound1 := byte1.toNat_lt
  have bound2 := byte2.toNat_lt
  apply Bits.ofNat_eq_of_toNat
  omega

theorem byte_third (byte1 byte2 : UInt8) :
    UInt8.ofNat ((byte1.toNat % 16 * 4 + byte2.toNat / 64) % 4 * 64 + byte2.toNat % 64) = byte2 := by
  have bound := byte2.toNat_lt
  apply Bits.ofNat_eq_of_toNat
  omega

theorem decode_three (byte0 byte1 byte2 : UInt8) (rest : StdString) :
    base64Decode (encodeBlock byte0 (some byte1) (some byte2) ++ rest) =
      (base64Decode rest).map ([byte0, byte1, byte2] ++ ·) := by
  obtain ⟨first, second, third, fourth⟩ := digits byte0 byte1 byte2
  have unpadded := ne_padding fourth
  simp only [encodeBlock, Option.getD_some, Option.elim_some, List.cons_append, List.nil_append, base64Decode,
    decodeBlock, first, second, third, fourth, unpadded, false_and, if_false, Option.bind_eq_bind,
    Option.bind_some, byte_first, byte_second, byte_third]
  cases base64Decode rest <;> rfl

/-- The bits behind the last byte are those of a zero. -/
theorem decode_two (byte0 byte1 : UInt8) :
    base64Decode (encodeBlock byte0 (some byte1) none) = some [byte0, byte1] := by
  obtain ⟨first, second, third, _⟩ := digits byte0 byte1 0
  have unpadded := ne_padding third
  have zeros : (byte1.toNat % 16 * 4 + UInt8.toNat 0 / 64) % 4 = 0 := by
    rw [UInt8.toNat_zero]
    omega
  simp only [encodeBlock, Option.getD_some, Option.getD_none, Option.elim_some, Option.elim_none, base64Decode,
    decodeBlock, first, second, third, padding, List.isEmpty_nil, and_self, if_true, unpadded, if_false,
    Option.bind_eq_bind, Option.bind_some, zeros, byte_first, byte_second]
  rfl

theorem decode_one (byte0 : UInt8) : base64Decode (encodeBlock byte0 none none) = some [byte0] := by
  obtain ⟨first, second, _, _⟩ := digits byte0 0 0
  have zeros : (byte0.toNat % 4 * 16 + UInt8.toNat 0 / 16) % 16 = 0 := by
    rw [UInt8.toNat_zero]
    omega
  simp only [encodeBlock, Option.getD_none, Option.elim_none, base64Decode, decodeBlock, first, second, padding,
    List.isEmpty_nil, and_self, if_true, Option.bind_eq_bind, Option.bind_some, zeros, byte_first]
  rfl

theorem decode_encodeBlocks (str : List UInt8) : base64Decode (encodeBlocks str) = some str := by
  induction str using encodeBlocks.induct with
  | case1 => rfl
  | case2 byte0 => exact decode_one byte0
  | case3 byte0 byte1 => exact decode_two byte0 byte1
  | case4 byte0 byte1 byte2 rest ih =>
    rw [encodeBlocks, decode_three, ih]
    rfl

theorem length_encodeBlock (byte0 : UInt8) (byte1 byte2 : Option UInt8) :
    (encodeBlock byte0 byte1 byte2).length = 4 := rfl

theorem length_encodeBlocks (str : List UInt8) : (encodeBlocks str).length = 4 * ((str.length + 2) / 3) := by
  induction str using encodeBlocks.induct with
  | case1 => rfl
  | case2 byte0 => rw [encodeBlocks, length_encodeBlock, List.length_singleton]
  | case3 byte0 byte1 => rw [encodeBlocks, length_encodeBlock, List.length_cons, List.length_singleton]
  | case4 byte0 byte1 byte2 rest ih =>
    rw [encodeBlocks, List.length_append, ih, length_encodeBlock]
    simp only [List.length_cons]
    omega

/-- How many bytes are missing from the last block. -/
def paddingOf (length : Nat) : Nat := (3 - length % 3) % 3

theorem encodeBlocks_shape (str : List UInt8) :
    ∃ text, encodeBlocks str = text ++ List.replicate (paddingOf str.length) '=' ∧
      ∀ ch ∈ text, (digitValue ch).isSome := by
  induction str using encodeBlocks.induct with
  | case1 => exact ⟨[], rfl, by simp⟩
  | case2 byte0 =>
    obtain ⟨first, second, _, _⟩ := digits byte0 0 0
    refine ⟨[_, _], by rw [encodeBlocks, encodeBlock]; rfl, ?_⟩
    rw [List.forall_mem_cons, List.forall_mem_singleton]
    exact ⟨Option.isSome_of_eq_some first, Option.isSome_of_eq_some second⟩
  | case3 byte0 byte1 =>
    obtain ⟨first, second, third, _⟩ := digits byte0 byte1 0
    refine ⟨[_, _, _], by rw [encodeBlocks, encodeBlock]; rfl, ?_⟩
    rw [List.forall_mem_cons, List.forall_mem_cons, List.forall_mem_singleton]
    exact ⟨Option.isSome_of_eq_some first, Option.isSome_of_eq_some second, Option.isSome_of_eq_some third⟩
  | case4 byte0 byte1 byte2 rest ih =>
    obtain ⟨text, same, digital⟩ := ih
    obtain ⟨first, second, third, fourth⟩ := digits byte0 byte1 byte2
    have period : paddingOf (byte0 :: byte1 :: byte2 :: rest).length = paddingOf rest.length := by
      simp only [paddingOf, List.length_cons]
      omega
    refine ⟨encodeBlock byte0 (some byte1) (some byte2) ++ text, ?_, ?_⟩
    · rw [encodeBlocks, same, period, List.append_assoc]
    · intro ch member
      rcases List.mem_append.mp member with block | later
      · simp only [encodeBlock, Option.getD_some, Option.elim_some, List.mem_cons, List.not_mem_nil, or_false] at block
        rcases block with rfl | rfl | rfl | rfl
        · exact Option.isSome_of_eq_some first
        · exact Option.isSome_of_eq_some second
        · exact Option.isSome_of_eq_some third
        · exact Option.isSome_of_eq_some fourth
      · exact digital ch later

/-- Every text has the length and the alphabet of RFC 4648 and is decoded to the
bytes it was made of. -/
theorem base64_invertible :
    (∀ str : List UInt8, (base64Encode str).length = 4 * ((str.length + 2) / 3) ∧
      (∃ text, base64Encode str = text ++ List.replicate (paddingOf str.length) '=' ∧
        ∀ ch ∈ text, (digitValue ch).isSome) ∧
      base64Decode (base64Encode str) = some str) ∧
    Function.Injective base64Encode := by
  have blocks : ∀ str, base64Encode str = encodeBlocks str := fun str => base64EncodeFrom_eq str 0
  have decoded : ∀ str, base64Decode (base64Encode str) = some str := by
    intro str
    rw [blocks, decode_encodeBlocks]
  constructor
  · intro str
    refine ⟨?_, ?_, decoded str⟩
    · rw [blocks, length_encodeBlocks]
    · rw [blocks]
      exact encodeBlocks_shape str
  · intro first second same
    have both := congrArg base64Decode same
    rw [decoded, decoded] at both
    exact Option.some.inj both

end TradingCore.Proofs.Base64Codec
