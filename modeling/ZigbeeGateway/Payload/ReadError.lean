-- Why bytes cannot be read as a value or a frame.
import ZigbeeGateway.Payload.Type
namespace ZigbeeGateway

/-- Why bytes are refused. -/
inductive ReadError where
  /-- The bytes end too early. -/
  | bufferTooSmall (needed present : Nat)
  | unknownDatatype (tag : UInt8)
  | invalidBool (byte : UInt8)
  | nestingTooDeep
  /-- An item of a repetition took no bytes, so the repetition would never end. -/
  | emptyItem (item : PayloadType)
  | trailingBytes (count : Nat) (type : PayloadType)
  | trailingPayload (count : Nat) (command : String)
  | reservedFrameType (bits : UInt8)
  /-- An item of a heartbeat cannot be read. -/
  | heartbeat (tag : UInt8) (inner : ReadError)
deriving Repr

/-- How deep values may stand inside each other on the wire. -/
def maxNesting : Nat := 32

namespace ReadError

/-- The wording of an error. -/
def message : ReadError → String
  | bufferTooSmall needed present =>
    "buffer too small: need " ++ inDecimal needed ++ " bytes, have " ++ inDecimal present
  | unknownDatatype tag => "unknown datatype: " ++ inHex 2 tag.toNat
  | invalidBool byte => "decode error: invalid bool value " ++ inHex 2 byte.toNat
  | nestingTooDeep => "decode error: nesting too deep (limit " ++ inDecimal maxNesting ++ ")"
  | emptyItem item => "decode error: repeated " ++ item.text ++ " consumed no input"
  | trailingBytes count type =>
    "decode error: " ++ inDecimal count ++ " trailing bytes after " ++ type.text
  | trailingPayload count command =>
    "decode error: " ++ inDecimal count ++ " trailing bytes after " ++ inQuotes command ++
      " payload"
  | reservedFrameType bits => "decode error: reserved ZCL frame type " ++ inDecimal bits.toNat
  | heartbeat tag inner =>
    "decode error: FF01 tag " ++ inDecimal tag.toNat ++ ": " ++ inner.message

end ReadError

end ZigbeeGateway
