import ThermalLabel.Decimal.Text
import ThermalLabel.Scalar.Rational

/-! # Exact numbers as text

Rational numbers are read without rounding, and all their digits are written. Only numbers whose
denominator divides a power of ten have finitely many digits: other numbers have no JSON text, and
their plain text is a fraction. -/

namespace ThermalLabel

namespace Decimal

/-- The number for `± significand · 10 ^ exponent`. -/
def readRational (negative : Bool) (significand : Nat) (exponent : Int) : Rat :=
  let magnitude :=
    mkRat (significand * Interval.powUp 10 exponent) (Interval.powDown 10 exponent)
  if negative then -magnitude else magnitude

/-- The digits of `m / n` on the first of `fuel` grids downwards from `10 ^ p` that it lies on. -/
def digitsOf? (m n : Nat) : Nat → Int → Option Digits
  | 0, _ => none
  | fuel + 1, p =>
    let value := m * Interval.powDown 10 p
    let step := n * Interval.powUp 10 p
    if value % step = 0 then some ⟨value / step, p⟩ else digitsOf? m n fuel (p - 1)

/-- A number in a style, unless its digits do not end. A denominator that divides a power of ten
divides the one with the exponent `log2` of it. -/
def writeRational (s : Style) (x : Rat) : Option String :=
  let m := x.num.natAbs
  let places := (Nat.toDigits 10 m).length
  let magnitude :=
    if m = 0 then some s.zero
    else (digitsOf? m x.den (places + x.den.log2 + 1) places).map s.write
  magnitude.map fun text => if x < 0 then "-" ++ text else text

end Decimal

instance : NumberText Rat where
  ofDecimal negative significand exponent :=
    some (Decimal.readRational negative significand exponent)
  json := Decimal.writeRational Decimal.jsonStyle
  plain x := (Decimal.writeRational Decimal.plainStyle x).getD
    (toString x.num ++ "/" ++ toString x.den)

end ThermalLabel
