/-! # Scalars

Positions, sizes and point sizes are numbers in millimetres or points. The layout rules use only the
operations collected here, so they read the same over the binary floating-point numbers that the
program computes with (`Scalar.Binary64`) and over the exact rationals (`Scalar.Rational`).

Comparisons are Boolean tests: over floating-point numbers every test with a number that is not
ordered fails. -/

namespace ThermalLabel

/-- The numbers of a layout and the operations that layout rules may use. -/
class Scalar (α : Type) extends Add α, Sub α, Mul α, Div α, BEq α where
  /-- The number nearest to an integer. -/
  ofInt : Int → α
  /-- Strictly below. -/
  lt : α → α → Bool
  /-- Below or equal. -/
  le : α → α → Bool
  /-- The smaller number; a number wins over one that is not ordered. -/
  min : α → α → α
  /-- The larger number; a number wins over one that is not ordered. -/
  max : α → α → α
  /-- Distance from zero. -/
  abs : α → α
  /-- The nearest whole number; a half goes away from zero. -/
  round : α → α
  /-- Neither infinite nor undefined. -/
  isFinite : α → Bool
  /-- A total order that refines `le`, for sorting. -/
  totalLe : α → α → Bool
  /-- The whole part, held at the ends of the 64-bit range. -/
  toInt64 : α → Int64

namespace Scalar

variable {α : Type} [Scalar α]

/-- A natural number as a scalar. -/
def ofNat (n : Nat) : α := ofInt (Int.ofNat n)

/-- Zero, the coordinate of the label's top and left edge. -/
def zero : α := ofNat 0

/-- One, the least side of an element in millimetres. -/
def one : α := ofNat 1

/-- Half of a number. -/
def half (x : α) : α := x / ofNat 2

/-- An integer, held at the ends of the 64-bit range. -/
def clampInt64 (n : Int) : Int64 :=
  Int64.ofInt (Min.min (Max.max n Int64.minValue.toInt) Int64.maxValue.toInt)

end Scalar

end ThermalLabel
