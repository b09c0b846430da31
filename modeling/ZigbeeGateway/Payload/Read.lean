-- Reading values from bytes: one datatype at a time, and payload types built from them.
-- Numbers, strings and counts keep their largest pattern for "no value".
import ZigbeeGateway.Payload.Reader
import ZigbeeGateway.Schema.Cluster
namespace ZigbeeGateway

/-! ## Numbers with a pattern for null -/

/-- A number of `width` bytes, null if all its bits are set. -/
def readOrNull (width : Nat) (meaning : Nat → Value) : Reader Value := do
  let n ← Reader.number width
  return if n = LittleEndian.allOnes width then .null else meaning n

/-- The bits of a number, highest first. -/
def bitsValue (count n : Nat) : Value :=
  .list ((List.range count).reverse.map fun i => .bool (n.testBit i))

/-- A number of `width` bytes in two's complement. -/
def signedValue (width n : Nat) : Value :=
  .ofInt (if 2 * n < LittleEndian.limit width then n else (n : Int) - LittleEndian.limit width)

/-- The double that a pattern stands for, null for every NaN. -/
def floatValue (layout : FloatLayout) (raw : Nat) : Value :=
  let x := layout.decode raw
  if x.isNaN then .null else .float x

def readFloat (layout : FloatLayout) : Reader Value :=
  floatValue layout <$> Reader.number layout.width

/-! ## Strings, dates and addresses -/

/-- As many bytes as the length in front of them says, null for the largest length. -/
def readCounted (size : LengthSize) (meaning : Bytes → Value) : Reader Value := do
  let length ← Reader.number size.bytes
  if length = LittleEndian.allOnes size.bytes then return .null
  return meaning (← Reader.take length)

/-- A text whose bytes are its characters by number. -/
def latinValue (bs : Bytes) : Value :=
  .text (String.ofList (bs.map fun b => Char.ofNat b.toNat))

/-- What the fields of a time of day are called, in wire order, and the number that stands for a
zero byte in each. -/
def timeOfDayFields : List (String × Int) :=
  [("hours", 0), ("minutes", 0), ("seconds", 0), ("hundredths", 0)]

/-- What the fields of a date are called. Years count from 1900. -/
def dateFields : List (String × Int) :=
  [("year", 1900), ("month", 0), ("day", 0), ("weekday", 0)]

/-- A byte of a date or time, null for the largest. -/
def fieldValue (base : Int) (b : UInt8) : Value :=
  if b = 0xff then .null else .ofInt (b.toNat + base)

/-- Fields of one byte each. -/
def readFields (fields : List (String × Int)) : Reader Value := do
  let bs ← Reader.take fields.length
  return .ofFields ((fields.zip bs).map fun ((name, base), b) => (name, fieldValue base b))

/-- The address of a device as it is written: sixteen hex digits in upper case. -/
def addressText (n : Nat) : String := String.ofList (Numeral.upperHex 16 n)

/-- An attribute by its name in the cluster, else by its number. -/
def attributeValue (cluster : Option Cluster) (id : Nat) : Value :=
  match cluster.bind (·.attributes.withId? id) with
  | some info => .text info.name
  | none => .ofNat id

/-! ## Datatypes -/

/-- A truth value, null for `0xFF`. -/
def readBool : Reader Value := do
  match (← Reader.byte) with
  | 0x00 => return .bool false
  | 0x01 => return .bool true
  | 0xff => return .null
  | b => throw (.invalidBool b)

/-- The datatype whose tag comes next. -/
def readTag : Reader Datatype := do
  let tag ← Reader.byte
  match Datatype.ofTag? tag with
  | some t => return t
  | none => throw (.unknownDatatype tag)

/-- A value behind the tag of its datatype. -/
def readTagged (read : Datatype → Reader Value) : Reader Value := do
  let t ← readTag
  return .typed t.name (← read t)

/-- A count of two bytes and as many items, null for the largest count. -/
def readItems (item : Reader Value) : Reader Value := do
  let count ← Reader.number 2
  if count = LittleEndian.allOnes 2 then return .null
  return .list (← Reader.times item count)

/-- Reads a value of a datatype that holds no other values. -/
def Datatype.readFlat (cluster : Option Cluster) : Datatype → Reader Value
  | data w => .ofBytes <$> Reader.take w.bytes
  | bitmap w => readOrNull w.bytes (bitsValue w.bits)
  | unsigned w => readOrNull w.bytes .ofNat
  | signed w => readOrNull w.bytes (signedValue w.bytes)
  | enum8 => readOrNull 1 .ofNat
  | enum16 => readOrNull 2 .ofNat
  | semi => readFloat .semi
  | single => readFloat .single
  | double => readFloat .double
  | bool => readBool
  | octets size => readCounted size .ofBytes
  | text size => readCounted size latinValue
  | timeOfDay => readFields timeOfDayFields
  | date => readFields dateFields
  | utc => readOrNull 4 .ofNat
  | bacnetOid => readOrNull 4 .ofNat
  | clusterId => readOrNull 2 .ofNat
  | attributeId => readOrNull 2 (attributeValue cluster)
  | eui64 => readOrNull 8 fun n => .text (addressText n)
  | key128 => .ofBytes <$> Reader.take 16
  | noData | unknown | sequence _ | struct => return .null

/-- Reads a value of a datatype, with `room` for that many values inside each other. -/
def Datatype.read (cluster : Option Cluster) : (room : Nat) → Datatype → Reader Value
  | 0, sequence _ => throw .nestingTooDeep
  | room + 1, sequence _ => do
    let element ← readTag
    let elements ← readItems (element.read cluster room)
    return .ofFields [("element_type", .text element.name), ("elements", elements)]
  | 0, struct => throw .nestingTooDeep
  | room + 1, struct => readItems (readTagged (Datatype.read cluster room))
  | _, t => t.readFlat cluster

/-! ## Payload types -/

namespace PayloadType

mutual

/-- Reads a value of a type, with `room` for that many values inside each other. -/
def read (cluster : Option Cluster) : (room : Nat) → PayloadType → Reader Value
  | room, variant => readTagged (Datatype.read cluster room)
  | room, scalar t => t.read cluster room
  | 0, object _ => throw .nestingTooDeep
  | room + 1, object properties => .record <$> readProperties cluster room [] properties
  | 0, repeated _ => throw .nestingTooDeep
  | room + 1, repeated item => .list <$> Reader.untilEnd (item.read cluster room) (.emptyItem item)
  | room, errorOr inner => do
    let status ← Reader.byte
    if status ≠ 0 then return .ofFields [("status", .ofByte status)]
    match room with
    | 0 => throw .nestingTooDeep
    | room + 1 =>
      return .ofFields [("status", .ofByte status), ("value", ← inner.read cluster room)]

/-- Reads properties one after the other and adds them to the fields read so far. -/
def readProperties (cluster : Option Cluster) (room : Nat) (fields : Fields Value) :
    List (String × PayloadType) → Reader (Fields Value)
  | [] => return fields
  | (name, type) :: rest => do
    let v ← type.read cluster room
    readProperties cluster room (Fields.set name v fields) rest

end

/-- The value at the front of some bytes, and the bytes after it. A repetition reads up to their
end. -/
def decode (cluster : Option Cluster) (type : PayloadType) (bs : Bytes) :
    Except ReadError (Value × Bytes) :=
  type.read cluster maxNesting bs

/-- The value that some bytes are, all of them. -/
def decodeAll (cluster : Option Cluster) (type : PayloadType) (bs : Bytes) :
    Except ReadError Value := do
  let (v, rest) ← type.decode cluster bs
  if rest.isEmpty then return v
  throw (.trailingBytes rest.length type)

end PayloadType

end ZigbeeGateway
