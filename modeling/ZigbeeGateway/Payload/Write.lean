-- Writing values as bytes: one datatype at a time, and payload types built from them. A
-- value that would get the pattern of "no value" is refused, so null alone has it.
import ZigbeeGateway.Payload.Read
import ZigbeeGateway.Payload.Writer
import ZigbeeGateway.Text.Cut
namespace ZigbeeGateway

/-- What a datatype wants, and what came instead. -/
def WriteError.unfit (t : Datatype) (expected : String) (v : Value) : WriteError :=
  .mismatch (.scalar t) expected v.kind

/-! ## Numbers with a pattern for null -/

/-- A number of `width` bytes, with all bits set for null. -/
def writeOrNull (t : Datatype) (width : Nat) (v : Value) (meaning : Except WriteError Nat) :
    Writer :=
  if v.isNull then Writer.number width (LittleEndian.allOnes width)
  else
    match meaning with
    | .error e => throw e
    | .ok n =>
      if n = LittleEndian.allOnes width then throw (.reservedForNull t v)
      else Writer.number width n

/-- One more bit after those before it, highest first. -/
def addBit (t : Datatype) (n : Nat) : Value → Except WriteError Nat
  | .bool b => .ok (2 * n + b.toNat)
  | v => .error (.unfit t "bool bit" v)

/-- The number whose bits a list gives. -/
def bitsNumber (t : Datatype) (count : Nat) (v : Value) : Except WriteError Nat :=
  match v.toList? with
  | none => .error (.unfit t "array of bool" v)
  | some bits =>
    if bits.length = count then bits.foldlM (addBit t) 0
    else .error (.bitCount t count bits.length)

/-- A number in two's complement. -/
def signedNumber (t : Datatype) (width : Nat) (v : Value) : Except WriteError Nat :=
  match v.toInt? with
  | none => .error (.unfit t "signed integer" v)
  | some n =>
    let limit : Int := LittleEndian.limit width
    if -limit ≤ 2 * n ∧ 2 * n < limit then .ok (n % limit).toNat
    else .error (.doesNotFit n (8 * width))

/-- A number without a sign. -/
def unsignedNumber (t : Datatype) (width : Nat) (v : Value) : Except WriteError Nat :=
  match v.toNat?, v.toInt? with
  | some n, _ => if n < LittleEndian.limit width then .ok n else .error (.doesNotFit n (8 * width))
  | none, some n => .error (.doesNotFit n (8 * width))
  | none, none => .error (.unfit t "unsigned integer" v)

def writeUnsigned (t : Datatype) (width : Nat) (v : Value) : Writer :=
  writeOrNull t width v (unsignedNumber t width v)

/-- The infinity that a text names. -/
def infinityOf? (s : String) : Option Double :=
  if s = "inf" ∨ s = "+inf" then some (.infinity false)
  else if s = "-inf" then some (.infinity true)
  else none

/-- A double: null is NaN, the infinities may be texts. -/
def doubleOf? : Value → Option Double
  | .null => some .nan
  | .text s => infinityOf? s
  | v => v.toDouble?

def writeFloat (t : Datatype) (layout : FloatLayout) (v : Value) : Writer :=
  match doubleOf? v with
  | some x => Writer.number layout.width (layout.encode x)
  | none => throw (.unfit t "number" v)

/-! ## Strings, dates and addresses -/

/-- A byte given as a number. -/
def byteOf (t : Datatype) (v : Value) : Except WriteError UInt8 :=
  match v.toByte? with
  | some b => .ok b
  | none => .error (.notAByte t v)

/-- The byte of a character of the first 256. -/
def latinByte (t : Datatype) (c : Char) : Except WriteError UInt8 :=
  if c.toNat < 256 then .ok (UInt8.ofNat c.toNat) else .error (.characterTooLarge t c)

/-- A fixed number of bytes. -/
def writeBytes (t : Datatype) (count : Nat) (v : Value) : Writer :=
  match v.toList? with
  | none => throw (.unfit t "array of bytes" v)
  | some items =>
    if items.length = count then Writer.eachByte (byteOf t) items
    else throw (.byteCount t count items.length)

/-- The bytes of a string: a text by the numbers of its characters, or, for octets, a list of
bytes. -/
def stringBytes (t : Datatype) : Value → Except WriteError Bytes
  | .text s => s.toList.mapM (latinByte t)
  | .list items =>
    match t with
    | .octets _ => items.mapM (byteOf t)
    | _ => .error (.unfit t "string" (.list items))
  | v => .error (.unfit t "string" v)

/-- A string behind its length. -/
def writeString (t : Datatype) (size : LengthSize) (v : Value) : Writer :=
  let null := LittleEndian.allOnes size.bytes
  if v.isNull then Writer.number size.bytes null
  else
    match stringBytes t v with
    | .error e => throw e
    | .ok bs =>
      if null ≤ bs.length then throw (.tooLong t bs.length (null - 1))
      else do
        Writer.number size.bytes bs.length
        Writer.bytes bs

/-- A byte of a date or time. -/
def fieldByte (t : Datatype) (name : String) (base : Int) (v : Value) : Except WriteError UInt8 :=
  if v.isNull then .ok 0xff
  else
    match v.toInt? with
    | some n =>
      if 0 ≤ n - base ∧ n - base < 0xff then .ok (UInt8.ofNat (n - base).toNat)
      else .error (.fieldOutOfRange t name v)
    | none => .error (.fieldOutOfRange t name v)

/-- Fields of one byte each, all of them unset for null. -/
def writeFields (t : Datatype) (fields : List (String × Int)) (v : Value) : Writer :=
  if v.isNull then Writer.bytes (fields.map fun _ => 0xff)
  else
    match v.toFields? with
    | none => throw (.unfit t "object" v)
    | some _ =>
      Writer.eachByte (fun (name, base) => fieldByte t name base (v.getOrNull name)) fields

/-- The number of an attribute, given by its name in the cluster or as a number. -/
def attributeNumber (cluster : Option Cluster) : Value → Except WriteError Nat
  | .text name =>
    match cluster with
    | none => .error (.noCluster name)
    | some c =>
      match c.attributes.withName? name with
      | some info => .ok info.id.toNat
      | none => .error (.noAttribute c.name name)
  | v =>
    match v.toNat?.filter (· < UInt16.size) with
    | some n => .ok n
    | none => .error (.invalidAttributeId v)

/-- A device address, given as sixteen hex digits after an optional `0x`, or as a number. -/
def addressNumber : Value → Except WriteError Nat
  | .text s =>
    let cs := s.toList
    let ds := (Cut.after? ['0', 'x'] cs).getD cs
    match (Numeral.ofDigits? 16 ds).filter fun _ => ds.length = 16 with
    | some n => .ok n
    | none => .error (.notAnAddress s)
  | v =>
    match v.toNat? with
    | some n => .ok n
    | none => .error (.unfit .eui64 "hex string" v)

/-! ## Datatypes -/

def writeBool (v : Value) : Writer :=
  match v with
  | .null => Writer.bytes [0xff]
  | .bool b => Writer.bytes [if b then 1 else 0]
  | v => throw (.unfit .bool "bool" v)

/-- The datatype that a field of a record names. -/
def namedType (field : String) (v : Value) (missing : WriteError) (unknown : String → WriteError) :
    Except WriteError Datatype :=
  match (v.get? field).bind Value.toText? with
  | none => .error missing
  | some name =>
    match Datatype.ofName? name with
    | some t => .ok t
    | none => .error (unknown name)

def writeTag (t : Datatype) : Writer := Writer.bytes [t.tag]

/-- A value behind the tag of its datatype; null is the datatype without data. -/
def writeTagged (write : Datatype → Value → Writer) (v : Value) : Writer :=
  match v with
  | .null => writeTag .noData
  | .record _ =>
    match namedType "type" v .variantWithoutType .variantUnknownType with
    | .error e => throw e
    | .ok t => do
      writeTag t
      write t (v.getOrNull "value")
  | v => throw (.variantNotAnObject v.kind)

/-- A count of two bytes and the items of a list, the largest count for null. -/
def writeItems (item : Value → Writer) (tooMany mismatch : WriteError) (v : Value) : Writer :=
  match v with
  | .null => Writer.number 2 (LittleEndian.allOnes 2)
  | .list items =>
    if LittleEndian.allOnes 2 ≤ items.length then throw tooMany
    else do
      Writer.number 2 items.length
      Writer.each item items
  | _ => throw mismatch

/-- Writes a value of a datatype that holds no other values. -/
def Datatype.writeFlat (cluster : Option Cluster) (t : Datatype) (v : Value) : Writer :=
  match t with
  | data w => writeBytes t w.bytes v
  | bitmap w => writeOrNull t w.bytes v (bitsNumber t w.bits v)
  | unsigned w => writeUnsigned t w.bytes v
  | signed w => writeOrNull t w.bytes v (signedNumber t w.bytes v)
  | enum8 => writeUnsigned t 1 v
  | enum16 => writeUnsigned t 2 v
  | semi => writeFloat t .semi v
  | single => writeFloat t .single v
  | double => writeFloat t .double v
  | bool => writeBool v
  | octets size => writeString t size v
  | text size => writeString t size v
  | timeOfDay => writeFields t timeOfDayFields v
  | date => writeFields t dateFields v
  | utc => writeUnsigned t 4 v
  | bacnetOid => writeUnsigned t 4 v
  | clusterId => writeUnsigned t 2 v
  | attributeId => writeOrNull t 2 v (attributeNumber cluster v)
  | eui64 => writeOrNull t 8 v (addressNumber v)
  | key128 => writeBytes t 16 v
  | noData | unknown | sequence _ | struct =>
    if v.isNull then pure () else throw (.unfit t "null" v)

/-- Writes a value of a datatype, with `room` for that many values inside each other. -/
def Datatype.write (cluster : Option Cluster) : (room : Nat) → Datatype → Value → Writer
  | 0, sequence _, _ => throw .nestingTooDeep
  | room + 1, sequence kind, v =>
    let t := sequence kind
    match namedType "element_type" v (.noElementType t) (.unknownElementType t) with
    | .error e => throw e
    | .ok element => do
      writeTag element
      let elements := v.getOrNull "elements"
      writeItems (element.write cluster room) (.tooManyElements t)
        (.unfit t "array of elements" elements) elements
  | 0, struct, _ => throw .nestingTooDeep
  | room + 1, struct, v =>
    writeItems (writeTagged (Datatype.write cluster room)) .tooManyMembers
      (.unfit struct "array of variants" v) v
  | _, t, v => t.writeFlat cluster v

/-! ## Payload types -/

namespace PayloadType

/-- The status byte of a value that may be an error. A missing status means success. -/
def statusOf (type : PayloadType) (v : Value) : Except WriteError UInt8 :=
  match v.toFields? with
  | none => .error (.mismatch type "object" v.kind)
  | some _ =>
    let status := v.getOrNull "status"
    if status.isNull then .ok 0
    else
      match status.toByte? with
      | some b => .ok b
      | none => .error (.invalidStatus type status)

mutual

/-- Writes a value of a type, with `room` for that many values inside each other. -/
def write (cluster : Option Cluster) : (room : Nat) → PayloadType → Value → Writer
  | room, variant, v => writeTagged (Datatype.write cluster room) v
  | room, scalar t, v => t.write cluster room v
  | 0, object _, _ => throw .nestingTooDeep
  | room + 1, object properties, v =>
    match v.toFields? with
    | none => throw (.notAnObject v.kind)
    | some _ => writeProperties cluster room v properties
  | 0, repeated _, _ => throw .nestingTooDeep
  | room + 1, repeated item, v =>
    match v.toList? with
    | none => throw (.mismatch (repeated item) "array" v.kind)
    | some items => Writer.each (item.write cluster room) items
  | room, errorOr inner, v =>
    match (errorOr inner).statusOf v with
    | .error e => throw e
    | .ok status => do
      Writer.bytes [status]
      if status ≠ 0 then pure ()
      else
        match room with
        | 0 => throw .nestingTooDeep
        | room + 1 => Writer.inside "value" (inner.write cluster room (v.getOrNull "value"))

/-- Writes the properties of a record in their order; a missing one is null. -/
def writeProperties (cluster : Option Cluster) (room : Nat) (v : Value) :
    List (String × PayloadType) → Writer
  | [] => pure ()
  | (name, type) :: rest => do
    Writer.inside name (type.write cluster room (v.getOrNull name))
    writeProperties cluster room v rest

end

/-- Adds the bytes of a value to a buffer. If the value is refused, the buffer stays as it was. -/
def encodeOnto (cluster : Option Cluster) (type : PayloadType) (v : Value) (out : Array UInt8) :
    Except WriteError Unit × Array UInt8 :=
  (type.write cluster maxNesting v).onto out

/-- The bytes of a value. -/
def encode (cluster : Option Cluster) (type : PayloadType) (v : Value) : Except WriteError Bytes :=
  (type.write cluster maxNesting v).toBytes

end PayloadType

end ZigbeeGateway
