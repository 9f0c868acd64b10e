import TradingCore.Utilities.StdString

/-! Base64 encoding of byte strings. The shifts are made on promoted values in
the source; none of them leaves eight bits. -/

namespace TradingCore.Utilities.Base64

def encodingTable : List Char :=
  ['A', 'B', 'C', 'D', 'E', 'F', 'G', 'H', 'I', 'J', 'K', 'L', 'M', 'N', 'O', 'P',
    'Q', 'R', 'S', 'T', 'U', 'V', 'W', 'X', 'Y', 'Z', 'a', 'b', 'c', 'd', 'e', 'f',
    'g', 'h', 'i', 'j', 'k', 'l', 'm', 'n', 'o', 'p', 'q', 'r', 's', 't', 'u', 'v',
    'w', 'x', 'y', 'z', '0', '1', '2', '3', '4', '5', '6', '7', '8', '9', '+', '/']

def padding : Char := '='

/-- The table's character; every index the encoder computes is below 64. -/
def encoded (index : UInt8) : Char := encodingTable.getD index.toNat padding

/-- The loop from an index on, which reads three bytes at a time and zeros
behind the end. -/
def base64EncodeFrom (str : List UInt8) (index : Nat) : StdString :=
  if index < str.length then
    let byte0 := str.getD index 0
    let byte1 := if index + 1 < str.length then str.getD (index + 1) 0 else 0
    let byte2 := if index + 2 < str.length then str.getD (index + 2) 0 else 0
    [encoded (byte0 >>> 2),
      encoded (((byte0 &&& 0x03) <<< 4) ||| (byte1 >>> 4)),
      if index + 1 < str.length then encoded (((byte1 &&& 0x0f) <<< 2) ||| (byte2 >>> 6)) else padding,
      if index + 2 < str.length then encoded (byte2 &&& 0x3f) else padding] ++
    base64EncodeFrom str (index + 3)
  else []
termination_by str.length - index

def base64Encode (str : List UInt8) : StdString := base64EncodeFrom str 0

end TradingCore.Utilities.Base64
