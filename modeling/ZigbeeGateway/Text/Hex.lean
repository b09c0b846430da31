-- Bytes as hex text, two digits a byte, highest digit first.
import ZigbeeGateway.Bytes
import ZigbeeGateway.Text.Numeral
namespace ZigbeeGateway.Hex

/-- Each byte as two lower-case hex digits. -/
def ofBytes (bs : Bytes) : List Char := bs.flatMap fun b => Numeral.hex 2 b.toNat

/-- The bytes that pairs of hex digits stand for. -/
def toBytes? : List Char → Option Bytes
  | [] => some []
  | [_] => none
  | high :: low :: rest => do
    let h ← Numeral.digit? 16 high
    let l ← Numeral.digit? 16 low
    let bs ← toBytes? rest
    return UInt8.ofNat (16 * h + l) :: bs

end ZigbeeGateway.Hex
