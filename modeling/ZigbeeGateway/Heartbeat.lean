-- The heartbeat of some sensors: an attribute of the basic cluster whose bytes are a list
-- of items, each a tag byte and a value with its datatype in front.
import ZigbeeGateway.Payload.Read
namespace ZigbeeGateway.Heartbeat

/-- The cluster of the heartbeat. -/
def basicCluster : UInt16 := 0x0000

/-- The attribute that holds the heartbeat. -/
def attributeId : UInt16 := 0xff01

/-- The name of an item: its tag in decimal. -/
def itemName (tag : UInt8) : String := inDecimal tag.toNat

/-- The value after a tag. -/
def readValue (tag : UInt8) : Reader Value := fun bs =>
  (PayloadType.variant.decode none bs).mapError (.heartbeat tag)

/-- One item. -/
def readItem : Reader (String × Value) := do
  let tag ← Reader.byte
  return (itemName tag, ← readValue tag)

/-- The record that a heartbeat is. Of two items with one tag the later one stands. An item takes
at least its tag, so none is ever empty. -/
def decode (bs : Bytes) : Except ReadError Value :=
  (Reader.untilEnd readItem (.emptyItem .variant) bs).map fun (items, _) => .ofFields items

/-- The bytes of a heartbeat that was sent as a text or as octets. -/
def bytes? : Value → Option Bytes
  | .text s => s.toList.mapM fun c =>
    if c.toNat < 256 then some (UInt8.ofNat c.toNat) else none
  | .list items => items.mapM Value.toByte?
  | _ => none

end ZigbeeGateway.Heartbeat
