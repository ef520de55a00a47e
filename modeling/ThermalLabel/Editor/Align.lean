import ThermalLabel.Element.Sequence
import ThermalLabel.LabelSize

/-! # Alignment and distribution

Both give the selected elements target positions and move nothing themselves. One element alone is
aligned with the label, several with the rectangle around them. Distribution keeps the first and the
last element along an axis and spaces the rest evenly between them; it needs three elements. -/

namespace ThermalLabel

/-- The edges and centres that elements are aligned by. -/
inductive Alignment where
  | left
  | center
  | right
  | top
  | middle
  | bottom
deriving DecidableEq

/-- The axes that elements are distributed along. -/
inductive Distribution where
  | horizontal
  | vertical
deriving DecidableEq

namespace Alignment

/-- The names of the alignments. -/
def choices : List (String × Alignment) := [
  ("left", .left), ("center", .center), ("right", .right), ("top", .top), ("middle", .middle),
  ("bottom", .bottom)]

/-- The name of an alignment. -/
def name : Alignment → String
  | .left => "left"
  | .center => "center"
  | .right => "right"
  | .top => "top"
  | .middle => "middle"
  | .bottom => "bottom"

/-- The alignment for a name in any case. -/
def parse (s : String) : Except Error Alignment :=
  let name := Text.lowercase s
  match choices.lookup name with
  | some alignment => .ok alignment
  | none => .error (.invalidArgument (.unknownAlignment name))

end Alignment

namespace Distribution

/-- The names of the distributions in JSON. -/
def choices : List (String × Distribution) := [
  ("distribute-h", .horizontal), ("distribute-v", .vertical)]

/-- Further names of the distributions. -/
def aliases : List (String × Distribution) := [
  ("horizontal", .horizontal), ("h", .horizontal), ("vertical", .vertical), ("v", .vertical)]

/-- The name of a distribution. -/
def name : Distribution → String
  | .horizontal => "distribute-h"
  | .vertical => "distribute-v"

/-- The distribution for a name in any case. -/
def parse (s : String) : Except Error Distribution :=
  let name := Text.lowercase s
  match (choices ++ aliases).lookup name with
  | some distribution => .ok distribution
  | none => .error (.invalidArgument (.unknownDistribution name))

end Distribution

namespace Align

variable {α : Type} [Scalar α]

/-- Where a rectangle goes to be aligned with a reference rectangle. -/
def place (alignment : Alignment) (reference r : Rect α) : Point α :=
  match alignment with
  | .left => ⟨reference.x, r.y⟩
  | .right => ⟨reference.right - r.width, r.y⟩
  | .center => ⟨reference.x + Scalar.half (reference.width - r.width), r.y⟩
  | .top => ⟨r.x, reference.y⟩
  | .bottom => ⟨r.x, reference.bottom - r.height⟩
  | .middle => ⟨r.x, reference.y + Scalar.half (reference.height - r.height)⟩

/-- The rectangle that elements are aligned with. -/
def reference? (label : LabelSize α) : List (Rect α) → Option (Rect α)
  | [] => none
  | [_] => some ⟨Scalar.zero, Scalar.zero, label.width, label.height⟩
  | rects => Rect.unionAll rects

/-- A point with its negative coordinates at zero. -/
def clamp (p : Point α) : Point α := ⟨Scalar.max p.x Scalar.zero, Scalar.max p.y Scalar.zero⟩

/-- The targets of an alignment, in drawing order. -/
def targets (selected : List (Element α)) (measured : MeasuredSizes α) (label : LabelSize α)
    (alignment : Alignment) : List (ElementId × Point α) :=
  match reference? label (selected.map (Element.bounds measured)) with
  | none => []
  | some reference =>
    selected.map fun e => (e.id, clamp (place alignment reference (e.bounds measured)))

end Align

namespace Distribute

variable {α : Type} [Scalar α]

/-- The position of an element along an axis. -/
def along : Distribution → Element α → α
  | .horizontal, e => e.x
  | .vertical, e => e.y

/-- The position of an element with its place along an axis replaced. -/
def withAlong : Distribution → α → Element α → Point α
  | .horizontal, place, e => ⟨place, e.y⟩
  | .vertical, place, e => ⟨e.x, place⟩

/-- The place of the element with index `i` of `count`, the first and the last one being kept. -/
def placeAt (first last : α) (count i : Nat) : α :=
  if i = 0 then first
  else if i + 1 = count then last
  else first + (last - first) / Scalar.ofNat (count - 1) * Scalar.ofNat i

/-- Elements in their order along an axis; elements at the same place keep their order. -/
def sorted (distribution : Distribution) (els : List (Element α)) : List (Element α) :=
  els.mergeSort fun a b => Scalar.totalLe (along distribution a) (along distribution b)

/-- The targets of a distribution, in order along the axis; none for fewer than three elements. -/
def targets (selected : List (Element α)) (distribution : Distribution) :
    List (ElementId × Point α) :=
  let row := sorted distribution selected
  match row.head?, row.getLast? with
  | some first, some last =>
    if row.length < 3 then []
    else
      row.mapIdx fun i e => (e.id, withAlong distribution
        (placeAt (along distribution first) (along distribution last) row.length i) e)
  | _, _ => []

end Distribute

end ThermalLabel
