import ThermalLabel.Scalar

/-! # Printer dots

Every printer here has 203 dots to the inch, taken as exactly eight to the millimetre. A length
becomes the nearest number of dots, held at the ends of the 64-bit range. -/

namespace ThermalLabel

variable {α : Type} [Scalar α]

/-- The dots of a length in millimetres. -/
def dots (millimetres : α) : Int64 := Scalar.toInt64 (Scalar.round (millimetres * Scalar.ofNat 8))

/-- A typographic point, a 72nd of an inch, in millimetres. -/
def millimetresPerPoint : α := Scalar.ofNat 254 / Scalar.ofNat 10 / Scalar.ofNat 72

/-- The dots of a length in points. -/
def pointDots (points : α) : Int64 := dots (points * millimetresPerPoint)

end ThermalLabel
