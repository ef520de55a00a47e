import ThermalLabel.Geometry
import ThermalLabel.Json.Decode

/-! # Geometry in JSON

Points, sizes and rectangles are records in which no field may be left out. -/

namespace ThermalLabel

variable {α : Type}

/-- A scalar written down. -/
def scalarTree (x : α) : Json.Tree α := .number (.float x)

/-- A point as a record. -/
def Point.ofTree? [Scalar α] (t : Json.Tree α) : Option (Point α) := do
  let fields ← t.fields? ["x", "y"]
  return ⟨← fields.require? "x" Json.Tree.scalar?, ← fields.require? "y" Json.Tree.scalar?⟩

/-- A point written down. -/
def Point.toTree (p : Point α) : Json.Tree α :=
  .object [("x", scalarTree p.x), ("y", scalarTree p.y)]

/-- A size as a record. -/
def Size.ofTree? [Scalar α] (t : Json.Tree α) : Option (Size α) := do
  let fields ← t.fields? ["width", "height"]
  return ⟨← fields.require? "width" Json.Tree.scalar?, ← fields.require? "height" Json.Tree.scalar?⟩

/-- A size written down. -/
def Size.toTree (s : Size α) : Json.Tree α :=
  .object [("width", scalarTree s.width), ("height", scalarTree s.height)]

/-- A rectangle as a record. -/
def Rect.ofTree? [Scalar α] (t : Json.Tree α) : Option (Rect α) := do
  let fields ← t.fields? ["x", "y", "width", "height"]
  return ⟨← fields.require? "x" Json.Tree.scalar?, ← fields.require? "y" Json.Tree.scalar?,
    ← fields.require? "width" Json.Tree.scalar?, ← fields.require? "height" Json.Tree.scalar?⟩

/-- A rectangle written down. -/
def Rect.toTree (r : Rect α) : Json.Tree α :=
  .object [("x", scalarTree r.x), ("y", scalarTree r.y), ("width", scalarTree r.width),
    ("height", scalarTree r.height)]

end ThermalLabel
