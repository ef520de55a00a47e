import ThermalLabel.Scalar

/-! # Plane geometry

Points, sizes and rectangles with the origin at the top left, and snapping to a grid. Lengths are in
millimetres, or in canvas pixels while a pointer is dragged. -/

namespace ThermalLabel

variable {α : Type}

/-- A point or a displacement. -/
structure Point (α : Type) where
  x : α
  y : α
deriving BEq

/-- Width and height. -/
structure Size (α : Type) where
  width : α
  height : α
deriving BEq

/-- A rectangle with its sides along the axes. -/
structure Rect (α : Type) where
  x : α
  y : α
  width : α
  height : α
deriving BEq

variable [Scalar α]

namespace Point

/-- The displacement from the second point to the first. -/
instance : Sub (Point α) := ⟨fun p q => ⟨p.x - q.x, p.y - q.y⟩⟩

/-- The larger of the two distances along the axes. -/
def maxAbs (p : Point α) : α := Scalar.max (Scalar.abs p.x) (Scalar.abs p.y)

/-- Both coordinates multiplied. -/
def scale (p : Point α) (factor : α) : Point α := ⟨p.x * factor, p.y * factor⟩

end Point

/-- No extent. -/
def Size.zero : Size α := ⟨Scalar.zero, Scalar.zero⟩

namespace Rect

/-- The rectangle between two opposite corners. -/
def ofCorners (a b : Point α) : Rect α :=
  let left := Scalar.min a.x b.x
  let top := Scalar.min a.y b.y
  ⟨left, top, Scalar.max a.x b.x - left, Scalar.max a.y b.y - top⟩

/-- The right edge. -/
def right (r : Rect α) : α := r.x + r.width

/-- The bottom edge. -/
def bottom (r : Rect α) : α := r.y + r.height

/-- Whether two rectangles overlap; touching edges do not count. -/
def intersects (r s : Rect α) : Bool :=
  Scalar.lt r.x s.right && Scalar.lt s.x r.right && Scalar.lt r.y s.bottom && Scalar.lt s.y r.bottom

/-- Position and sides multiplied. -/
def scale (r : Rect α) (factor : α) : Rect α :=
  ⟨r.x * factor, r.y * factor, r.width * factor, r.height * factor⟩

/-- The smallest rectangle around two. -/
def union (r s : Rect α) : Rect α :=
  let left := Scalar.min r.x s.x
  let top := Scalar.min r.y s.y
  ⟨left, top, Scalar.max r.right s.right - left, Scalar.max r.bottom s.bottom - top⟩

/-- The smallest rectangle around all of a list, built up from its front. -/
def unionAll : List (Rect α) → Option (Rect α)
  | [] => none
  | r :: rest => some (rest.foldl union r)

end Rect

/-- The multiple of the grid nearest to a value, a half going away from zero. A grid that is not a
positive finite number leaves the value as it is. -/
def snap (value grid : α) : α :=
  if Scalar.le grid Scalar.zero || !Scalar.isFinite grid then value
  else Scalar.round (value / grid) * grid

/-- Snapping while a grid is in force. -/
def snapTo (grid : Option α) (value : α) : α :=
  match grid with
  | some g => snap value g
  | none => value

end ThermalLabel
