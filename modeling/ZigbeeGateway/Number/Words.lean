-- Encoding as a processor does it: on words of 64 bits and whole numbers of 32, where every shift,
-- sum and difference has to stay in range. Nothing comes of a step that does not.
import ZigbeeGateway.Number.Double
namespace ZigbeeGateway

namespace Words

/-- A number that a word of 64 bits holds. -/
def word? (n : Int) : Option Nat :=
  if 0 ≤ n ∧ n < 0x10000000000000000 then some n.toNat else none

/-- A number that 32 bits hold. -/
def count? (n : Int) : Option Int := if 0 ≤ n ∧ n < 0x100000000 then some n else none

/-- A number that 32 bits hold, one of them for the sign. -/
def int? (n : Int) : Option Int :=
  if -0x80000000 ≤ n ∧ n < 0x80000000 then some n else none

/-- A shift to the left by less than a word in which no bit is lost. -/
def shiftLeft? (word : Nat) (amount : Int) : Option Nat :=
  if 0 ≤ amount ∧ amount < 64 then word? (word <<< amount.toNat : Nat) else none

/-- A shift to the right by less than a word. -/
def shiftRight? (word : Nat) (amount : Int) : Option Nat :=
  if 0 ≤ amount ∧ amount < 64 then some (word >>> amount.toNat) else none

/-- How many zeros stand in front of the leading one of a word. -/
def leadingZeros (word : Nat) : Nat := if word = 0 then 64 else 63 - word.log2

/-- A word shifted to the right and rounded to the nearest, a half going to the even neighbour. -/
def roundShift? (word : Nat) (amount : Int) : Option Nat := do
  if amount ≤ 0 then
    shiftLeft? word (← int? (-amount))
  else if 64 ≤ amount then
    return 0
  else
    let q ← shiftRight? word amount
    let mask ← word? ((← shiftLeft? 1 amount) - 1)
    let half ← shiftLeft? 1 (← int? (amount - 1))
    if word &&& mask > half ∨ word &&& mask = half ∧ q &&& 1 = 1 then word? (q + 1) else return q

end Words

namespace FloatLayout

open Words

variable (f : FloatLayout)

def bias? : Option Int := do
  let half ← shiftLeft? 1 (← count? (f.exponentBits - 1))
  int? ((← int? half) - 1)

/-- The exponent of infinities and NaNs. -/
def topExponent? : Option Nat := do word? ((← shiftLeft? 1 f.exponentBits) - 1)

/-- The fields of a pattern put together. -/
def pack? (sign exponent fraction : Nat) : Option Nat := do
  return sign ||| (← shiftLeft? exponent f.fractionBits) ||| fraction

/-- The pattern for a full significand and its exponent, or the infinity if there is no such
exponent. -/
def packNormal? (sign significand : Nat) (exponent : Int) : Option Nat := do
  let top ← f.topExponent?
  if top ≤ exponent.toNat then f.pack? sign top 0
  else f.pack? sign exponent.toNat (← word? (significand - (← shiftLeft? 1 f.fractionBits)))

/-- The pattern for a full significand that may have carried into the next exponent. -/
def packRounded? (sign significand : Nat) (exponent : Int) : Option Nat := do
  if significand = (← shiftLeft? 1 (← count? (f.fractionBits + 1))) then
    f.packNormal? sign (← shiftRight? significand 1) (← int? (exponent + 1))
  else f.packNormal? sign significand exponent

/-- The pattern for a significand on the smallest scale. One that has become full is a power of
two. -/
def packSmall? (sign significand : Nat) : Option Nat := do
  if significand = (← shiftLeft? 1 f.fractionBits) then f.pack? sign 1 0
  else f.pack? sign 0 significand

/-- The pattern nearest to `significand * 2 ^ scale`, for a significand above zero. -/
def packScaled? (sign significand : Nat) (scale : Int) : Option Nat := do
  let topBit ← int? (63 - leadingZeros significand)
  let unbiased ← int? (scale + topBit)
  let exponent ← int? (unbiased + (← f.bias?))
  if 1 ≤ exponent then
    f.packRounded? sign (← roundShift? significand (← int? (topBit - f.fractionBits))) exponent
  else
    let smallest ← int? ((← int? (1 - (← f.bias?))) - f.fractionBits)
    f.packSmall? sign (← roundShift? significand (← int? (smallest - scale)))

/-- The pattern nearest to a finite double above zero, from its word without the sign. -/
def encodeFinite? (sign word : Nat) : Option Nat := do
  let exponent ← int? ((← shiftRight? word 52) &&& 0x7ff : Nat)
  let mask ← word? ((← shiftLeft? 1 52) - 1)
  if exponent = 0 then f.packScaled? sign (word &&& mask) (-1074)
  else
    let leading ← shiftLeft? 1 52
    f.packScaled? sign (word &&& mask ||| leading) (← int? (exponent - 1075))

/-- The pattern nearest to a double, step by step. -/
def encode? (x : Double) : Option Nat := do
  let sign ← shiftLeft? x.isNegative.toNat (← count? (f.fractionBits + f.exponentBits))
  if x.isNaN then
    return (← shiftLeft? (← f.topExponent?) f.fractionBits) |||
      (← shiftLeft? 1 (← count? (f.fractionBits - 1)))
  else if x.isInfinite then f.pack? sign (← f.topExponent?) 0
  else if x.magnitude = 0 then return sign
  else f.encodeFinite? sign x.magnitude

end FloatLayout

end ZigbeeGateway
