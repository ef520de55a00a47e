import ThermalLabel.Decimal.Style
import ThermalLabel.Scalar.Binary64

/-! # Numbers as text

How the numbers of a layout are read from decimals and written as decimals. Two styles are in use:
JSON text, where every number shows that it is not an integer, and plain text, as printer commands
and lists take it.

A decimal is read in two roundings: its significand is rounded to a number, and this is multiplied
or divided by the power of ten. -/

namespace ThermalLabel

/-- Reading and writing the numbers of a layout. -/
class NumberText (α : Type) where
  /-- The number for `± significand · 10 ^ exponent`, unless it is out of range. -/
  ofDecimal : (negative : Bool) → (significand : Nat) → (exponent : Int) → Option α
  /-- The JSON text of a finite number. -/
  json : α → Option String
  /-- The number without a power of ten and without a superfluous point. -/
  plain : α → String

namespace Decimal

/-- JSON numbers: a power of ten below `0.00001` and from `1e+16` on, and a point in whole numbers.
-/
def jsonStyle : Style := ⟨some (-5, 15), true, .even⟩

/-- Lengths in printer commands and lists: never a power of ten. -/
def plainStyle : Style := ⟨none, false, .up⟩

/-- The parts of a number in a style, unless it is infinite or undefined. -/
def writeBinary64 (s : Style) : Binary64 → Option String
  | .finite negative m q =>
    let magnitude :=
      if m == 0 then s.zero else s.write ((Interval.of (Nat.pow 2 52) (-1074) m q).shortest s.tie)
    some (if negative then "-" ++ magnitude else magnitude)
  | _ => none

/-- The number without a power of ten; infinities and undefined numbers by name. -/
def plainBinary64 (x : Binary64) : String :=
  match writeBinary64 plainStyle x, x with
  | some text, _ => text
  | none, .infinite true => "-inf"
  | none, .infinite false => "inf"
  | none, _ => "NaN"

/-- A power of ten that the format can hold. -/
def powerOfTen (e : Nat) : Float := Float.ofScientific 1 false e

/-- Division by `10 ^ e`, in steps of `10 ^ 308` until nothing is left. -/
def scaleDown (x : Float) (e : Nat) : Float :=
  if e ≤ 308 then x / powerOfTen e
  else if x == 0 then x
  else scaleDown (x / powerOfTen 308) (e - 308)
termination_by e

/-- Multiplication by `10 ^ e`, unless the product is out of range. -/
def scaleUp (x : Float) (e : Nat) : Option Float :=
  if e ≤ 308 then
    let product := x * powerOfTen e
    if product.isInf then none else some product
  else if x == 0 then some x
  else none

/-- The number for a decimal with a significand of at most 64 bits. -/
def readFloat (negative : Bool) (significand : Nat) (exponent : Int) : Option Float :=
  let x := significand.toUInt64.toFloat
  let scaled := match exponent with
    | .ofNat e => scaleUp x e
    | .negSucc e => some (scaleDown x (e + 1))
  scaled.map fun y => if negative then -y else y

end Decimal

instance : NumberText Float where
  ofDecimal := Decimal.readFloat
  json x := Decimal.writeBinary64 Decimal.jsonStyle (Binary64.ofFloat x)
  plain x := Decimal.plainBinary64 (Binary64.ofFloat x)

end ThermalLabel
