-- The decimal text of a double: the fewest digits that read back as the same double, and
-- of those the nearest.
import ZigbeeGateway.Number.Double
namespace ZigbeeGateway

/-- A decimal number `digits * 10 ^ exponent`. -/
structure Decimal where
  digits : Nat
  exponent : Int
deriving DecidableEq, Repr

/-- The same decimal without zeros at the end of its digits. -/
def Decimal.trim (d : Decimal) : Decimal :=
  if _h : d.digits ≠ 0 ∧ d.digits % 10 = 0 then Decimal.trim ⟨d.digits / 10, d.exponent + 1⟩ else d
termination_by d.digits
decreasing_by omega

namespace Shortest

/-- The numbers that round to one double, all in units of a quarter of its last place: the double
itself and the two ends of the interval, which belong to it when the double's pattern is even. -/
structure Interval where
  low : Nat
  middle : Nat
  high : Nat
  closed : Bool
  /-- The exponent of the unit. -/
  scale : Int

/-- The interval of a finite double. Just above a power of two the lower neighbour is nearer. -/
def Interval.ofDouble (x : Double) : Interval :=
  let double := FloatLayout.double
  let (s, scale) := x.significandScale
  let below := if s = double.fractions ∧ scale > double.minScale then 1 else 2
  { low := 4 * s - below, middle := 4 * s, high := 4 * s + 2, closed := s % 2 = 0,
    scale := scale - 2 }

/-- A number of units as a ratio over a common denominator. -/
def Interval.ratio (i : Interval) (units : Nat) : Nat := units * power 2 i.scale

def Interval.den (i : Interval) : Nat := power 2 (-i.scale)

/-- Whether a decimal lies in the interval. -/
def Interval.holds (i : Interval) (d : Decimal) : Bool :=
  let v := d.digits * power 10 d.exponent * i.den
  let one := power 10 (-d.exponent)
  if i.closed then i.ratio i.low * one ≤ v && v ≤ i.ratio i.high * one
  else i.ratio i.low * one < v && v < i.ratio i.high * one

/-- The exponent of the leading decimal digit of the ratio `num / den`. -/
def leadingExponent (num den : Nat) : Int :=
  if den ≤ num then (Numeral.digits 10 (num / den)).length - 1
  else -((Numeral.digits 10 ((den + num - 1) / num - 1)).length : Int)

/-- The grid point below a double and the one above it, on the grid of multiples of
`10 ^ exponent`; the nearer one first, and of two equally near ones the even one. -/
def neighbours (i : Interval) (exponent : Int) : Decimal × Decimal :=
  let num := i.ratio i.middle * power 10 (-exponent)
  let den := i.den * power 10 exponent
  let below := num / den
  let nearest := divNearestEven num den
  if nearest = below then (⟨below, exponent⟩, ⟨below + 1, exponent⟩)
  else (⟨below + 1, exponent⟩, ⟨below, exponent⟩)

/-- The best decimal on one grid that reads back, if there is one. -/
def onGrid? (i : Interval) (exponent : Int) : Option Decimal :=
  let (first, second) := neighbours i exponent
  if i.holds first then some first else if i.holds second then some second else none

/-- Tries ever finer grids, `tries` of them, from the given exponent downwards. -/
def search (i : Interval) : (tries : Nat) → (exponent : Int) → Option Decimal
  | 0, _ => none
  | tries + 1, exponent => (onGrid? i exponent).or (search i tries (exponent - 1))

end Shortest

open Shortest in
/-- The shortest decimal that reads back as a finite double, up to its sign. Seventeen digits are
always enough. -/
def Double.shortest (x : Double) : Decimal :=
  if x.magnitude = 0 then ⟨0, 0⟩
  else
    let i := Interval.ofDouble x
    ((search i 17 (leadingExponent (i.ratio i.middle) i.den)).getD ⟨0, 0⟩).trim

/-- How a decimal is written: positionally while the exponent of its leading digit lies between
two limits, else with one digit before the point and an exponent. -/
structure DecimalFormat where
  lowestPositional : Int
  highestPositional : Int

/-- Numbers in JSON are positional from `0.00001` to just below `1e+16`. -/
def DecimalFormat.json : DecimalFormat := ⟨-5, 15⟩

/-- A decimal in a format. Positional text always has a point and a digit after it; the exponent
always has a sign. -/
def DecimalFormat.text (format : DecimalFormat) (d : Decimal) : List Char :=
  let ds := Numeral.decimal d.digits
  let top : Int := ds.length - 1 + d.exponent
  if format.lowestPositional ≤ top ∧ top ≤ format.highestPositional then
    if top < 0 then '0' :: '.' :: List.replicate (-top - 1).toNat '0' ++ ds
    else
      let whole := top.toNat + 1
      ds.take whole ++ List.replicate (whole - ds.length) '0' ++
        '.' :: (if ds.length ≤ whole then ['0'] else ds.drop whole)
  else
    let fraction := ds.drop 1
    ds.take 1 ++ (if fraction.isEmpty then [] else '.' :: fraction) ++
      'e' :: (if top < 0 then '-' else '+') :: Numeral.decimal top.natAbs

/-- The text of a finite double in a format, with a minus sign if its sign bit is set. -/
def Double.text (format : DecimalFormat) (x : Double) : List Char :=
  let t := format.text x.shortest
  if x.isNegative then '-' :: t else t

end ZigbeeGateway
