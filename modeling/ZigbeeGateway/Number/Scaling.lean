-- Decoding as a processor does it: the fields are cut out of a word, and the significand, as a
-- double, is multiplied by a power of two that is put together from its bits.
import ZigbeeGateway.Number.Words
namespace ZigbeeGateway

open Words

namespace Double

/-- A double with its sign turned. -/
def negate (x : Double) : Double :=
  ofPattern (FloatLayout.double.withSign (!x.isNegative) x.magnitude)

/-- The double nearest to the product of two. -/
def times (x y : Double) : Double :=
  let negative := x.isNegative != y.isNegative
  if x.isNaN ∨ y.isNaN then nan
  else if x.isInfinite then if y.magnitude = 0 then nan else infinity negative
  else if y.isInfinite then if x.magnitude = 0 then nan else infinity negative
  else
    let (s, i) := x.significandScale
    let (t, j) := y.significandScale
    ofPattern (FloatLayout.double.withSign negative (FloatLayout.double.roundScaled (s * t) (i + j)))

/-- A power of two, infinite above the largest that is a double and zero below the smallest. -/
def powerOfTwo? (n : Int) : Option Double := do
  if 1023 < n then return infinity false
  else if -1022 ≤ n then
    let exponent ← word? (← int? (n + 1023))
    return ofPattern (← shiftLeft? exponent 52)
  else if -1074 ≤ n then return ofPattern (← shiftLeft? 1 (← int? (n + 1074)))
  else return ofPattern 0

end Double

namespace FloatLayout

variable (f : FloatLayout)

/-- A significand on the scale of an exponent field. -/
def scale? (significand : Nat) (exponent : Int) : Option Double := do
  let unbiased ← int? (exponent - (← f.bias?))
  let power ← Double.powerOfTwo? (← int? (unbiased - f.fractionBits))
  return (Double.ofInt significand).times power

/-- The double for the fields of a pattern, without a sign. -/
def decodeFields? (exponent fraction : Nat) : Option Double := do
  if exponent = (← f.topExponent?) then
    return if fraction = 0 then Double.infinity false else Double.nan
  else if exponent = 0 then f.scale? fraction 1
  else f.scale? (fraction ||| (← shiftLeft? 1 f.fractionBits)) exponent

/-- The double that a pattern of the layout stands for, step by step. -/
def decode? (raw : Nat) : Option Double := do
  let sign ← shiftRight? raw (← count? (f.fractionBits + f.exponentBits))
  let exponent ← shiftRight? raw f.fractionBits
  let mask ← word? ((← shiftLeft? 1 f.fractionBits) - 1)
  let magnitude ← f.decodeFields? (exponent &&& (← f.topExponent?)) (raw &&& mask)
  return if sign &&& 1 = 1 then magnitude.negate else magnitude

end FloatLayout

end ZigbeeGateway
