-- Doubles as 64-bit patterns, and how they turn into the patterns of other layouts and
-- back. No arithmetic of the processor is involved.
import ZigbeeGateway.Number.Layout
import ZigbeeGateway.Text.Numeral
namespace ZigbeeGateway

/-- A double precision number, given by its bits. -/
structure Double where
  bits : UInt64
deriving DecidableEq, Repr

namespace Double

/-- The double with a pattern of the double layout. -/
def ofPattern (n : Nat) : Double := ⟨UInt64.ofNat n⟩

/-- The pattern in the double layout. -/
def pattern (x : Double) : Nat := x.bits.toNat

def isNegative (x : Double) : Bool := FloatLayout.double.isNegative x.pattern

/-- The pattern without its sign bit. -/
def magnitude (x : Double) : Nat := FloatLayout.double.magnitude x.pattern

def isNaN (x : Double) : Bool := x.magnitude > FloatLayout.double.infinity

def isInfinite (x : Double) : Bool := x.magnitude = FloatLayout.double.infinity

/-- A finite double is `significand * 2 ^ scale`, up to its sign. -/
def significandScale (x : Double) : Nat × Int := FloatLayout.double.significandScale x.pattern

def nan : Double := ofPattern FloatLayout.double.quietNaN

def infinity (negative : Bool) : Double :=
  ofPattern (FloatLayout.double.withSign negative FloatLayout.double.infinity)

/-- The double nearest to a ratio of whole numbers, with a sign. -/
def ofRatio (negative : Bool) (num den : Nat) : Double :=
  ofPattern (FloatLayout.double.withSign negative (FloatLayout.double.round num den))

/-- The double nearest to a whole number. -/
def ofInt (n : Int) : Double := ofRatio (n < 0) n.natAbs 1

/-- The double nearest to `digits * 10 ^ exponent`. Far outside the range of doubles the power of
ten is not worked out. -/
def ofDecimal (negative : Bool) (digits : Nat) (exponent : Int) : Double :=
  let top := (Numeral.digits 10 digits).length + exponent
  if digits = 0 ∨ top < -400 then ofRatio negative 0 1
  else if top > 400 then infinity negative
  else ofRatio negative (digits * power 10 exponent) (power 10 (-exponent))

end Double

namespace FloatLayout

/-- The largest exponent of a power of two that is a double. -/
def maxScale : Int := double.bias

/-- The pattern of `significand * 2 ^ scale` as a double, for a significand above zero or a scale
within range. The power is rounded on its own: below the smallest double it counts as zero, and
beyond the largest as infinite. In layouts with fields no wider than those of doubles neither ever
happens. -/
def scaled (significand : Nat) (scale : Int) : Nat :=
  if scale < double.minScale then 0
  else if maxScale < scale then double.infinity
  else double.roundScaled significand scale

/-- The double that a pattern of the layout stands for. -/
def decode (f : FloatLayout) (raw : Nat) : Double :=
  if f.magnitude raw > f.infinity then Double.nan
  else if f.magnitude raw = f.infinity then Double.infinity (f.isNegative raw)
  else
    let (significand, scale) := f.significandScale raw
    Double.ofPattern (double.withSign (f.isNegative raw) (scaled significand scale))

/-- The pattern of the layout nearest to a double. Infinities stay, and every NaN becomes the
quiet one. -/
def encode (f : FloatLayout) (x : Double) : Nat :=
  if x.isNaN then f.quietNaN
  else if x.isInfinite then f.withSign x.isNegative f.infinity
  else
    let (significand, scale) := x.significandScale
    f.withSign x.isNegative (f.roundScaled significand scale)

end FloatLayout

end ZigbeeGateway
