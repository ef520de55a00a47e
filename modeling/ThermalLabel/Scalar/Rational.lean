import ThermalLabel.Scalar

/-! # Exact scalars

The rational numbers as scalars: every operation is exact, every number is finite, and the order for
sorting is the order itself. -/

namespace ThermalLabel

/-- The nearest whole number; a half goes away from zero. -/
def Rational.round (x : Rat) : Rat :=
  if 0 ≤ x then ((x + 1 / 2).floor : Int) else ((x - 1 / 2).ceil : Int)

instance : Scalar Rat where
  ofInt n := n
  lt x y := decide (x < y)
  le x y := decide (x ≤ y)
  min x y := if x ≤ y then x else y
  max x y := if x ≤ y then y else x
  abs x := if 0 ≤ x then x else -x
  round := Rational.round
  isFinite _ := true
  totalLe x y := decide (x ≤ y)
  toInt64 x := Scalar.clampInt64 (x.num.tdiv x.den)

end ThermalLabel
