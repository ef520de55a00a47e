import ThermalLabel.Scalar

/-! # Binary floating-point scalars

A binary64 number is its sign, a significand `m` and an exponent `q` with value `± m · 2 ^ q`, or an
infinity, or undefined. Rounding to a whole number and cutting to 64 bits are computed from these
parts in exact arithmetic. -/

namespace ThermalLabel

/-- What the 64 bits of a floating-point number stand for. -/
inductive Binary64 where
  /-- The number `significand · 2 ^ exponent`, below zero if `negative`. -/
  | finite (negative : Bool) (significand : Nat) (exponent : Int)
  /-- An infinity. -/
  | infinite (negative : Bool)
  /-- The result of an undefined operation. -/
  | undefined
deriving DecidableEq

namespace Binary64

/-- The parts of a number. Subnormal numbers share the least exponent with the least normal ones. -/
def ofFloat (x : Float) : Binary64 :=
  let bits : Nat := x.toBits.toNat
  let negative := bits / Nat.pow 2 63 == 1
  let biased : Nat := bits / Nat.pow 2 52 % Nat.pow 2 11
  let fraction : Nat := bits % Nat.pow 2 52
  if biased == 2047 then
    if fraction == 0 then .infinite negative else .undefined
  else if biased == 0 then .finite negative fraction (-1074)
  else .finite negative (Nat.pow 2 52 + fraction) ((biased : Int) - 1075)

/-- The sign put on a magnitude. -/
def signed (negative : Bool) (n : Nat) : Int := if negative then -(n : Int) else n

/-- The whole part, held at the ends of the 64-bit range; an undefined number has none and gives
zero. -/
def toInt64 : Binary64 → Int64
  | .finite negative m (.ofNat e) => Scalar.clampInt64 (signed negative (m * Nat.pow 2 e))
  | .finite negative m (.negSucc e) => Scalar.clampInt64 (signed negative (m / Nat.pow 2 (e + 1)))
  | .infinite true => Int64.minValue
  | .infinite false => Int64.maxValue
  | .undefined => 0

/-- The nearest whole number of `m / 2 ^ k`, a half going up. -/
def roundShift (m k : Nat) : Nat := (2 * m + Nat.pow 2 k) / Nat.pow 2 (k + 1)

end Binary64

namespace Float64

/-- The nearest whole number; a half goes away from zero and the sign stays. A number without
binary places is whole already. -/
def round (x : Float) : Float :=
  match Binary64.ofFloat x with
  | .finite negative m (.negSucc e) =>
    let whole := (Binary64.roundShift m (e + 1)).toUInt64.toFloat
    if negative then -whole else whole
  | _ => x

/-- The number nearest to an integer within 64 bits. -/
def ofInt (n : Int) : Float :=
  let magnitude := n.natAbs.toUInt64.toFloat
  if n < 0 then -magnitude else magnitude

/-- The larger number. An undefined operand loses, and of two equal numbers the second is taken. -/
def max (x y : Float) : Float := if y.isNaN then x else if y < x then x else y

/-- The smaller number. An undefined operand loses, and of two equal numbers the second is taken. -/
def min (x y : Float) : Float := if y.isNaN then x else if x < y then x else y

/-- The bits as a number that grows with the float: negative numbers count down from zero. -/
def rank (x : Float) : Int :=
  let bits : Nat := x.toBits.toNat
  if bits < Nat.pow 2 63 then bits else (Nat.pow 2 63 : Int) - 1 - bits

end Float64

instance : Scalar Float where
  ofInt := Float64.ofInt
  lt x y := x < y
  le x y := x ≤ y
  min := Float64.min
  max := Float64.max
  abs := Float.abs
  round := Float64.round
  isFinite := Float.isFinite
  totalLe x y := Float64.rank x ≤ Float64.rank y
  toInt64 x := (Binary64.ofFloat x).toInt64

end ThermalLabel
