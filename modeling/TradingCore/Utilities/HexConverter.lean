import TradingCore.Utilities.StdString

/-! Bytes written as pairs of hexadecimal digits, and read back. A pointer is the
memory from there on; nothing stands for a read behind the end of it, or of a
view. The destinations have room for two digits a byte. -/

namespace TradingCore.Utilities.HexConverter

def table : List Char := ['0', '1', '2', '3', '4', '5', '6', '7', '8', '9', 'A', 'B', 'C', 'D', 'E', 'F']

/-- The table's character; a half of a byte is below 16. -/
def digitOf (half : UInt8) : Char := table.getD half.toNat '0'

def writeDigits (dest : StdString) (pos : Nat) (ch : UInt8) : StdString :=
  (dest.set pos (digitOf (ch >>> 4))).set (pos + 1) (digitOf (ch &&& 0x0f))

def writeAll : List UInt8 → Nat → Nat → StdString → Option StdString
  | _, 0, _, dest => some dest
  | [], _ + 1, _, _ => none
  | ch :: src, len + 1, pos, dest => writeAll src len (pos + 2) (writeDigits dest pos ch)

def bytesToHexStrAt (src : List UInt8) (len : Nat) (dest : StdString) : Option StdString := writeAll src len 0 dest

/-- The first byte is read even if there is none to convert. -/
def bytesToHexStr (src : List UInt8) (len : Nat) : Option StdString := do
  let _ ← src.head?
  writeAll src len 0 (List.replicate (len * 2) '0')

def writeNext (state : Nat × StdString) (ch : UInt8) : Nat × StdString :=
  (state.1 + 2, writeDigits state.2 state.1 ch)

def bytesToHex (bytesStr : List UInt8) : StdString :=
  (bytesStr.foldl writeNext (0, List.replicate (bytesStr.length * 2) '0')).2

def hexCode (symbol : Char) : UInt8 :=
  if '0' ≤ symbol ∧ symbol ≤ '9' then UInt8.ofNat (symbol.toNat - '0'.toNat)
  else if 'A' ≤ symbol ∧ symbol ≤ 'F' then UInt8.ofNat (symbol.toNat - 'A'.toNat + 10)
  else if 'a' ≤ symbol ∧ symbol ≤ 'f' then UInt8.ofNat (symbol.toNat - 'a'.toNat + 10)
  else 0

def hex2UChar (hexValue : StdString) : Option UInt8 := do
  let first ← hexValue[0]?
  let second ← hexValue[1]?
  some (16 * hexCode first + hexCode second)

/-- The loop of both decoders, with the bytes read so far. -/
def readPairs (hexString : StdString) (i : Nat) (bytes : List UInt8) : Option (List UInt8) :=
  if i < hexString.length then do
    let byte ← hex2UChar (hexString.substr i 2)
    readPairs hexString (i + 2) (bytes ++ [byte])
  else some bytes
termination_by hexString.length - i

def hex2Bytes (hexString : StdString) : Option (List UInt8) := readPairs hexString 0 []

def hex2BytesString (hexString : StdString) : Option (List UInt8) := readPairs hexString 0 []

end TradingCore.Utilities.HexConverter
