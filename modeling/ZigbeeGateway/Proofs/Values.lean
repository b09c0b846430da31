-- What stands inside a value, at any depth.
import ZigbeeGateway.Value
namespace ZigbeeGateway.Value

/-- A value stands in another one, at any depth, or is that value. -/
inductive Within (u : Value) : Value → Prop
  | self : Within u u
  | item {item : Value} {items : List Value} : Within u item → item ∈ items → Within u (list items)
  | field {field : String × Value} {fields : List (String × Value)} :
      Within u field.2 → field ∈ fields → Within u (record fields)

/-- A whole number is a `uint` only if it is too large for an `int`. -/
def Normal (v : Value) : Prop := ∀ n, (uint n).Within v → Int64.maxValue.toInt < n.toNat

/-- Every double is a number. -/
def NoNaN (v : Value) : Prop := ∀ x, (float x).Within v → x.isNaN = false

end ZigbeeGateway.Value
