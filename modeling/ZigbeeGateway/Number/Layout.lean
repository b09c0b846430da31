-- Binary floating point as bit patterns: a sign, a biased exponent and a fraction, with
-- field widths of one's choice. Everything is exact arithmetic on whole numbers.
namespace ZigbeeGateway

/-- `num / den` to the nearest whole number, a half going to the even neighbour. -/
def divNearestEven (num den : Nat) : Nat :=
  let q := num / den
  let twice := 2 * (num % den)
  if twice > den ∨ (twice = den ∧ q % 2 = 1) then q + 1 else q

/-- A power whose exponent may be below zero: then it is one, so that `base ^ exponent` is the ratio
of `power base exponent` and `power base (-exponent)`. -/
def power (base : Nat) (exponent : Int) : Nat := Nat.pow base exponent.toNat

/-- The largest `l` with `2 ^ l ≤ num / den`, for numbers above zero. -/
def ratioLog2 (num den : Nat) : Int :=
  let l : Int := (num.log2 : Int) - den.log2
  if den * power 2 l ≤ num * power 2 (-l) then l else l - 1

/-- The widths of the two fields after the sign bit. -/
structure FloatLayout where
  fractionBits : Nat
  exponentBits : Nat
deriving DecidableEq, Repr

namespace FloatLayout

/-- Half precision. -/
def semi : FloatLayout := ⟨10, 5⟩

/-- Single precision. -/
def single : FloatLayout := ⟨23, 8⟩

/-- Double precision. -/
def double : FloatLayout := ⟨52, 11⟩

variable (f : FloatLayout)

/-- How many bytes a pattern takes. -/
def width : Nat := (1 + f.fractionBits + f.exponentBits) / 8

/-- How many fractions there are. -/
def fractions : Nat := Nat.pow 2 f.fractionBits

/-- How many stored exponents there are. -/
def exponents : Nat := Nat.pow 2 f.exponentBits

/-- What is added to an exponent before it is stored. -/
def bias : Nat := f.exponents / 2 - 1

/-- The exponent of the last place of the smallest numbers. -/
def minScale : Int := 1 - f.bias - f.fractionBits

/-- The pattern of the positive infinity. Larger magnitudes are NaNs. -/
def infinity : Nat := (f.exponents - 1) * f.fractions

/-- The NaN that is written for every NaN: positive, with only the top fraction bit set. -/
def quietNaN : Nat := f.infinity + f.fractions / 2

/-- The weight of the sign bit. -/
def signBit : Nat := f.exponents * f.fractions

/-- Whether the sign bit of a pattern is set. -/
def isNegative (raw : Nat) : Bool := raw / f.signBit % 2 = 1

/-- A pattern without its sign bit. -/
def magnitude (raw : Nat) : Nat := raw % f.signBit

/-- The magnitude of a finite pattern is `significand * 2 ^ scale`. -/
def significandScale (raw : Nat) : Nat × Int :=
  let fraction := raw % f.fractions
  let exponent := f.magnitude raw / f.fractions
  if exponent = 0 then (fraction, f.minScale)
  else (f.fractions + fraction, f.minScale + (exponent - 1))

/-- The pattern nearest to the ratio `num / den`, a half going to the even pattern; from half a
unit past the largest finite number on it is infinity. A carry out of the fraction runs into the
exponent field by itself. -/
def round (num den : Nat) : Nat :=
  if num = 0 then 0
  else
    let scale := max (ratioLog2 num den - f.fractionBits) f.minScale
    let steps := divNearestEven (num * power 2 (-scale)) (den * power 2 scale)
    min ((scale - f.minScale).toNat * f.fractions + steps) f.infinity

/-- The pattern nearest to `significand * 2 ^ scale`. -/
def roundScaled (significand : Nat) (scale : Int) : Nat :=
  f.round (significand * power 2 scale) (power 2 (-scale))

/-- A pattern with a sign put on a magnitude. -/
def withSign (negative : Bool) (magnitude : Nat) : Nat :=
  if negative then f.signBit + magnitude else magnitude

end FloatLayout

end ZigbeeGateway
