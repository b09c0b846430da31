-- The datatypes of the Zigbee cluster library. Each has a tag byte, by which a
-- self-describing value names its type, and a keyword for schemas and JSON.
namespace ZigbeeGateway

/-- A width of one to eight bytes, counted from zero. -/
abbrev Width := Fin 8

/-- How many bytes a width stands for. -/
def Width.bytes (w : Width) : Nat := w.val + 1

/-- How many bits a width stands for. -/
def Width.bits (w : Width) : Nat := 8 * w.bytes

/-- How long the length in front of a string is. -/
inductive LengthSize where
  | oneByte
  | twoBytes
deriving DecidableEq, Repr

/-- The bytes of a length. -/
def LengthSize.bytes : LengthSize → Nat
  | .oneByte => 1
  | .twoBytes => 2

/-- The types of counted elements that all have one type. -/
inductive SequenceKind where
  | array
  | set
  | bag
deriving DecidableEq, Repr

/-- A scalar datatype. The families of fixed width stand together under one name each. -/
inductive Datatype where
  | noData
  /-- Opaque bytes. -/
  | data (w : Width)
  | bool
  /-- A bitmap. -/
  | bitmap (w : Width)
  | unsigned (w : Width)
  | signed (w : Width)
  | enum8
  | enum16
  /-- Half precision. -/
  | semi
  | single
  | double
  | octets (length : LengthSize)
  | text (length : LengthSize)
  | sequence (kind : SequenceKind)
  | struct
  | timeOfDay
  | date
  | utc
  | clusterId
  | attributeId
  | bacnetOid
  | eui64
  | key128
  | unknown
deriving DecidableEq, Repr

/-- What the bytes of a fixed-width type mean. -/
inductive Family where
  | data
  | bitmap
  | unsigned
  | signed
  | enum
deriving DecidableEq, Repr

namespace Datatype

/-- Every datatype, in the order of the tags. -/
def all : List Datatype :=
  [noData] ++ (List.finRange 8).map data ++ [bool] ++ (List.finRange 8).map bitmap ++
  (List.finRange 8).map unsigned ++ (List.finRange 8).map signed ++
  [enum8, enum16, semi, single, double,
   octets .oneByte, text .oneByte, octets .twoBytes, text .twoBytes,
   sequence .array, struct, sequence .set, sequence .bag,
   timeOfDay, date, utc, clusterId, attributeId, bacnetOid, eui64, key128, unknown]

/-- The tag byte. Within a family the tags follow the widths. -/
def tag : Datatype → UInt8
  | noData => 0x00
  | data w => 0x08 + UInt8.ofNat w.val
  | bool => 0x10
  | bitmap w => 0x18 + UInt8.ofNat w.val
  | unsigned w => 0x20 + UInt8.ofNat w.val
  | signed w => 0x28 + UInt8.ofNat w.val
  | enum8 => 0x30
  | enum16 => 0x31
  | semi => 0x38
  | single => 0x39
  | double => 0x3a
  | octets .oneByte => 0x41
  | text .oneByte => 0x42
  | octets .twoBytes => 0x43
  | text .twoBytes => 0x44
  | sequence .array => 0x48
  | struct => 0x4c
  | sequence .set => 0x50
  | sequence .bag => 0x51
  | timeOfDay => 0xe0
  | date => 0xe1
  | utc => 0xe2
  | clusterId => 0xe8
  | attributeId => 0xe9
  | bacnetOid => 0xea
  | eui64 => 0xf0
  | key128 => 0xf1
  | unknown => 0xff

/-- A family's keyword followed by the number of bits. -/
def sized (family : String) (w : Width) : String := family ++ Nat.repr w.bits

/-- The keyword of a datatype. -/
def name : Datatype → String
  | noData => "nodata"
  | data w => sized "data" w
  | bool => "bool"
  | bitmap w => sized "map" w
  | unsigned w => sized "uint" w
  | signed w => sized "int" w
  | enum8 => "enum8"
  | enum16 => "enum16"
  | semi => "semi"
  | single => "single"
  | double => "double"
  | octets .oneByte => "octstr"
  | text .oneByte => "string"
  | octets .twoBytes => "octstr16"
  | text .twoBytes => "string16"
  | sequence .array => "array"
  | struct => "struct"
  | sequence .set => "set"
  | sequence .bag => "bag"
  | timeOfDay => "ToD"
  | date => "date"
  | utc => "UTC"
  | clusterId => "clusterId"
  | attributeId => "attribId"
  | bacnetOid => "bacOID"
  | eui64 => "EUI64"
  | key128 => "key128"
  | unknown => "unk"

/-- The datatype with a tag. -/
def ofTag? (tag : UInt8) : Option Datatype := all.find? (·.tag == tag)

/-- The datatype with a keyword, letter case included. -/
def ofName? (name : String) : Option Datatype := all.find? (·.name == name)

/-- The family and width of a fixed-width type. -/
def family? : Datatype → Option (Family × Width)
  | data w => some (.data, w)
  | bitmap w => some (.bitmap, w)
  | unsigned w => some (.unsigned, w)
  | signed w => some (.signed, w)
  | enum8 => some (.enum, 0)
  | enum16 => some (.enum, 1)
  | _ => none

/-- Whether values are counted elements of one type. -/
def isSequence : Datatype → Bool
  | sequence _ => true
  | _ => false

/-- No datatype is missing from the list. -/
theorem mem_all (d : Datatype) : d ∈ all := by
  cases d with
  | octets l => cases l <;> decide
  | text l => cases l <;> decide
  | sequence k => cases k <;> decide
  | _ => simp [all, List.mem_finRange]

/-- A tag names its datatype. -/
theorem ofTag?_tag : ∀ d : Datatype, ofTag? d.tag = some d := by
  have h : ∀ d ∈ all, ofTag? d.tag = some d := by decide +kernel
  exact fun d => h d (mem_all d)

/-- A keyword names its datatype. -/
theorem ofName?_name : ∀ d : Datatype, ofName? d.name = some d := by
  have h : ∀ d ∈ all, ofName? d.name = some d := by decide +kernel
  exact fun d => h d (mem_all d)

end Datatype

end ZigbeeGateway
