-- How many bytes a value takes, without writing it. The size of a value that can be
-- written is exact; of others only what the size depends on is checked.
import ZigbeeGateway.Payload.Write
namespace ZigbeeGateway

/-- The sizes of some items, added up. -/
def sumSizes {α : Type} (size : α → Except WriteError Nat) (items : List α) :
    Except WriteError Nat :=
  items.foldlM (fun sum item => (size item).map (sum + ·)) 0

/-- The items of a value; one that is not a list has none. -/
def Value.items (v : Value) : List Value := v.toList?.getD []

/-- The size of a string with its length. -/
def stringSize (t : Datatype) (size : LengthSize) (v : Value) : Except WriteError Nat :=
  if v.isNull then .ok size.bytes else (stringBytes t v).map (size.bytes + ·.length)

/-- The size of a value behind its tag. -/
def taggedSize (size : Datatype → Value → Except WriteError Nat) (v : Value) :
    Except WriteError Nat :=
  if v.isNull then .ok 1
  else do
    let t ← namedType "type" v .variantNoKnownType fun _ => .variantNoKnownType
    return 1 + (← size t (v.getOrNull "value"))

/-- The size of a value of a datatype that holds no other values. -/
def Datatype.flatSize (t : Datatype) (v : Value) : Except WriteError Nat :=
  match t with
  | data w | bitmap w | unsigned w | signed w => .ok w.bytes
  | enum8 | bool => .ok 1
  | enum16 | clusterId | attributeId => .ok 2
  | utc | bacnetOid | timeOfDay | date => .ok 4
  | eui64 => .ok 8
  | key128 => .ok 16
  | semi => .ok FloatLayout.semi.width
  | single => .ok FloatLayout.single.width
  | double => .ok FloatLayout.double.width
  | octets size | text size => stringSize t size v
  | noData | unknown | sequence _ | struct => .ok 0

/-- The size of a value of a datatype, with `room` for that many values inside each other. -/
def Datatype.size : (room : Nat) → Datatype → Value → Except WriteError Nat
  | 0, sequence _, _ => .error .nestingTooDeep
  | room + 1, sequence kind, v => do
    let none := .noKnownElementType (sequence kind)
    let element ← namedType "element_type" v none fun _ => none
    return 3 + (← sumSizes (element.size room) (v.getOrNull "elements").items)
  | 0, struct, _ => .error .nestingTooDeep
  | room + 1, struct, v => (sumSizes (taggedSize (Datatype.size room)) v.items).map (2 + ·)
  | _, t, v => t.flatSize v

namespace PayloadType

mutual

/-- The size of a value of a type, with `room` for values inside each other. Only sequences and
structures take from it. -/
def sizeWithin (room : Nat) : PayloadType → Value → Except WriteError Nat
  | variant, v => taggedSize (Datatype.size room) v
  | scalar t, v => t.size room v
  | object properties, v => propertiesSize room v 0 properties
  | repeated item, v => sumSizes (item.sizeWithin room) v.items
  | errorOr inner, v => do
    let status ← (errorOr inner).statusOf v
    if status ≠ 0 then return 1
    return 1 + (← inner.sizeWithin room (v.getOrNull "value"))

/-- The sizes of the properties of a record, added to those before them. -/
def propertiesSize (room : Nat) (v : Value) (sum : Nat) :
    List (String × PayloadType) → Except WriteError Nat
  | [] => .ok sum
  | (name, type) :: rest => do
    let n ← type.sizeWithin room (v.getOrNull name)
    propertiesSize room v (sum + n) rest

end

/-- The number of bytes that a value of a type takes. -/
def size (type : PayloadType) (v : Value) : Except WriteError Nat := type.sizeWithin maxNesting v

end PayloadType

end ZigbeeGateway
