import ThermalLabel.Scalar

/-! # Fonts

The font families of the editor and the resident printer fonts that stand for them. -/

namespace ThermalLabel.Font

/-- The family of an element that names none. -/
def defaultFamily : String := "Arial, sans-serif"

/-- The families on offer, with the codes of the resident fonts. -/
def table : List (String × String) := [
  ("Arial, sans-serif", "0"),
  ("Courier New, monospace", "3"),
  ("Times New Roman, serif", "2")]

/-- The families on offer. -/
def families : List String := table.map Prod.fst

/-- The code of the resident font for a family; every other family has font 0. -/
def code (family : String) : String := (table.lookup family).getD "0"

/-- How many times a resident font of twelve points is enlarged for a point size, at least once and
within 32 bits. -/
def magnification {α : Type} [Scalar α] (points : α) : Nat :=
  let whole := (Scalar.toInt64 (Scalar.round (points / Scalar.ofNat 12))).toInt.toNat
  max 1 (min whole (Nat.pow 2 32 - 1))

end ThermalLabel.Font
