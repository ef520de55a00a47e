import ThermalLabel.Json.Decode

/-! # Label stock

The size of a label and the stock sizes on offer. -/

namespace ThermalLabel

/-- A label size in millimetres. -/
structure LabelSize (α : Type) where
  name : String
  width : α
  height : α
deriving BEq

namespace LabelSize

variable {α : Type} [Scalar α]

/-- Whether both sides are positive. -/
def isValid (size : LabelSize α) : Bool :=
  Scalar.lt Scalar.zero size.width && Scalar.lt Scalar.zero size.height

/-- The stock sizes on offer. -/
def presets : List (LabelSize α) := [
  ⟨"40 x 30 mm", Scalar.ofNat 40, Scalar.ofNat 30⟩,
  ⟨"50 x 30 mm", Scalar.ofNat 50, Scalar.ofNat 30⟩,
  ⟨"58 x 40 mm", Scalar.ofNat 58, Scalar.ofNat 40⟩,
  ⟨"100 x 50 mm", Scalar.ofNat 100, Scalar.ofNat 50⟩,
  ⟨"100 x 150 mm", Scalar.ofNat 100, Scalar.ofNat 150⟩]

/-- The name of the stock for new labels. -/
def defaultName : String := "50 x 30 mm"

/-- The stock for new labels. -/
def standard : LabelSize α := ⟨defaultName, Scalar.ofNat 50, Scalar.ofNat 30⟩

/-- The stock with a name; capital and small ASCII letters count as equal. -/
def preset? (name : String) : Option (LabelSize α) :=
  presets.find? fun size => size.name.toList.map Char.toLower == name.toList.map Char.toLower

/-! ### JSON -/

/-- A size as a record; the name may be left out. -/
def ofTree? (t : Json.Tree α) : Option (LabelSize α) := do
  let fields ← t.fields? ["name", "width", "height"]
  let name ← Json.Tree.orDefault? "" Json.Tree.string? (fields.get? "name")
  let width ← fields.require? "width" Json.Tree.scalar?
  let height ← fields.require? "height" Json.Tree.scalar?
  return ⟨name, width, height⟩

/-- A size written down. -/
def toTree (size : LabelSize α) : Json.Tree α :=
  .object [("name", .string size.name), ("width", .number (.float size.width)),
    ("height", .number (.float size.height))]

end LabelSize

end ThermalLabel
