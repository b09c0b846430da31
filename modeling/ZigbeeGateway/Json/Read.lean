-- What JSON text means as a value of the gateway.
import ZigbeeGateway.Json.Syntax
import ZigbeeGateway.Value
namespace ZigbeeGateway.Json

/-! ## Strings -/

/-- The character of a UTF-16 unit that stands alone, or of two units that make up one character
beyond the first plane. -/
def ofUnits? (parts : List StringPart) : Option (List Char) :=
  match parts with
  | [] => some []
  | .char c :: rest => (ofUnits? rest).map (c :: ·)
  | .unit n :: rest =>
    if n < 0xd800 ∨ 0xdfff < n then (ofUnits? rest).map (Char.ofNat n :: ·)
    else
      match rest with
      | .unit m :: rest =>
        if n ≤ 0xdbff ∧ 0xdc00 ≤ m ∧ m ≤ 0xdfff then
          (ofUnits? rest).map (Char.ofNat (0x10000 + (n - 0xd800) * 0x400 + (m - 0xdc00)) :: ·)
        else none
      | _ => none

/-- The text of a string, if its units are well paired. -/
def text? (parts : List StringPart) : Option String := (ofUnits? parts).map String.ofList

/-! ## Numbers -/

namespace Number

/-- The number that a run of digits stands for. -/
def natural (ds : List Char) : Nat := (Numeral.ofDigits? 10 ds).getD 0

/-- The exponent, zero if none is written. -/
def exponentValue (n : Number) : Int :=
  match n.exponent with
  | none => 0
  | some (negative, ds) => if negative then -(natural ds : Int) else natural ds

/-- The nearest double; none if that is infinite. -/
def toDouble? (n : Number) : Option Double :=
  let fraction := n.fraction.getD []
  let x := Double.ofDecimal n.negative (natural (n.whole ++ fraction))
    (n.exponentValue - fraction.length)
  if x.isInfinite then none else some x

/-- A number without point and exponent is whole if 64 bits hold it, signed or unsigned; minus
zero and all others are doubles. -/
def toValue? (n : Number) : Option Value :=
  let whole := natural n.whole
  if n.fraction.isNone ∧ n.exponent.isNone ∧
      (if n.negative then 0 < whole ∧ whole ≤ 0x8000000000000000 else whole < UInt64.size) then
    some (if n.negative then .ofInt (-(whole : Int)) else .ofNat whole)
  else n.toDouble?.map .float

end Number

/-! ## Values -/

/-- How deep arrays and objects may stand inside each other, plus one. -/
def nestingLimit : Nat := 128

mutual

/-- The value of a tree with at most `room` arrays and objects inside each other. Of two members
with one name the later one stands. -/
def Tree.toValue? : (room : Nat) → Tree → Option Value
  | _, .null => some .null
  | _, .bool b => some (.bool b)
  | _, .number n => n.toValue?
  | _, .string parts => (text? parts).map .text
  | 0, .array _ => none
  | room + 1, .array items => (itemValues? room [] items).map .list
  | 0, .object _ => none
  | room + 1, .object members => (memberValues? room [] members).map .record

/-- The values of the items of an array, after those before them in reverse. -/
def itemValues? (room : Nat) (before : List Value) : List Tree → Option (List Value)
  | [] => some before.reverse
  | item :: items =>
    match item.toValue? room with
    | none => none
    | some v => itemValues? room (v :: before) items

/-- The fields that the members of an object make up, set one after the other. -/
def memberValues? (room : Nat) (fields : Fields Value) :
    List (List StringPart × Tree) → Option (Fields Value)
  | [] => some fields
  | (name, item) :: members =>
    match text? name, item.toValue? room with
    | some name, some v => memberValues? room (Fields.set name v fields) members
    | _, _ => none

end

/-- The value of a JSON text. -/
def readChars? (cs : List Char) : Option Value :=
  (parse? cs).bind (Tree.toValue? (nestingLimit - 1))

/-- The value of a JSON text. -/
def read? (text : String) : Option Value := readChars? text.toList

end ZigbeeGateway.Json
