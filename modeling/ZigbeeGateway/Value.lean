-- The values that pass between the radio and the message bus: what JSON can say, with
-- whole numbers and doubles kept apart.
import ZigbeeGateway.Bytes
import ZigbeeGateway.Fields
import ZigbeeGateway.Number.Double
namespace ZigbeeGateway

/-- A value. A whole number above the largest 64-bit signed one is a `uint`; reading and decoding
never make a `uint` of a smaller number. -/
inductive Value where
  | null
  | bool (b : Bool)
  | int (n : Int64)
  | uint (n : UInt64)
  | float (x : Double)
  | text (s : String)
  | list (items : List Value)
  | record (fields : List (String × Value))
deriving Repr, Inhabited

namespace Value

/-- A natural number of 64 bits. -/
def ofNat (n : Nat) : Value :=
  if n < 0x8000000000000000 then int (Int64.ofNat n) else uint (UInt64.ofNat n)

/-- A whole number of 64 signed bits. -/
def ofInt (n : Int) : Value := int (Int64.ofInt n)

def ofByte (b : UInt8) : Value := ofNat b.toNat

/-- Bytes as a list of numbers. -/
def ofBytes (bs : Bytes) : Value := list (bs.map ofByte)

/-- A record with fields given in any order. -/
def ofFields (entries : List (String × Value)) : Value := record (Fields.ofList entries)

/-- A self-describing value: the keyword of its type beside it. -/
def typed (keyword : String) (value : Value) : Value :=
  ofFields [("type", .text keyword), ("value", value)]

/-! ## Looking at values -/

def isNull : Value → Bool
  | null => true
  | _ => false

/-- A signed number; a `uint` is none. -/
def toInt? : Value → Option Int
  | int n => some n.toInt
  | _ => none

/-- A whole number that is not negative. -/
def toNat? : Value → Option Nat
  | int n => if 0 ≤ n.toInt then some n.toInt.toNat else none
  | uint n => some n.toNat
  | _ => none

/-- Any number as the nearest double. -/
def toDouble? : Value → Option Double
  | int n => some (Double.ofInt n.toInt)
  | uint n => some (Double.ofInt n.toNat)
  | float x => some x
  | _ => none

def toBool? : Value → Option Bool
  | bool b => some b
  | _ => none

def toText? : Value → Option String
  | text s => some s
  | _ => none

def toList? : Value → Option (List Value)
  | list items => some items
  | _ => none

def toFields? : Value → Option (Fields Value)
  | record fields => some fields
  | _ => none

/-- A number from 0 to 255. -/
def toByte? (v : Value) : Option UInt8 := (v.toNat?.filter (· < 256)).map UInt8.ofNat

/-- The field of a record; other values have none. -/
def get? (name : String) : Value → Option Value
  | record fields => Fields.get? name fields
  | _ => none

/-- The field of a record, or null. -/
def getOrNull (name : String) (v : Value) : Value := (v.get? name).getD null

/-- A number of 64 bits comes back, whichever of the two kinds holds it. -/
theorem toNat?_ofNat {n : Nat} (h : n < UInt64.size) : (ofNat n).toNat? = some n := by
  unfold ofNat
  split
  · rename_i hs
    have : (Int64.ofNat n).toInt = n := Int64.toInt_ofNat_of_lt hs
    simp [toNat?, this]
  · simp [toNat?, UInt64.toNat_ofNat_of_lt' h]

/-- No number is larger than 64 bits. -/
theorem toNat?_lt {v : Value} {n : Nat} (h : v.toNat? = some n) : n < UInt64.size := by
  cases v with
  | int i =>
    have hi := i.toInt_lt
    simp only [toNat?, Option.ite_none_right_eq_some, Option.some.injEq] at h
    have hsize : UInt64.size = 2 ^ 64 := rfl
    omega
  | uint u =>
    cases h
    exact u.toNat_lt
  | _ => cases h

/-- A number of 64 signed bits comes back. -/
theorem toInt?_ofInt {n : Int} (hlow : -0x8000000000000000 ≤ n) (hhigh : n < 0x8000000000000000) :
    (ofInt n).toInt? = some n := by
  simp [ofInt, toInt?, Int64.toInt_ofInt_of_le hlow hhigh]

theorem toByte?_ofByte (b : UInt8) : (ofByte b).toByte? = some b := by
  have hb : b.toNat < 256 := b.toNat_lt
  rw [ofByte, toByte?, toNat?_ofNat (Nat.lt_trans hb (by decide)), Option.filter_some,
    if_pos (by simpa using hb)]
  simp

/-- The kind of a value as error texts name it. -/
def kind : Value → String
  | null => "null"
  | bool _ => "bool"
  | int _ => "integer"
  | uint _ => "integer"
  | float _ => "float"
  | text _ => "string"
  | list _ => "array"
  | record _ => "object"

end Value

end ZigbeeGateway
