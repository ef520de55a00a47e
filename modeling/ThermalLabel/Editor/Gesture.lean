import ThermalLabel.Editor.Selection

/-! # Pointer gestures

A gesture begins when the pointer goes down, goes on while it moves and ends when it goes up or is
cancelled. A drag moves the selected elements, a resize changes one element, and a marquee selects.
A gesture that moves elements keeps the sequence as it was, so that it can be taken back.

Pointer positions are in canvas pixels, displacements of elements in millimetres. -/

namespace ThermalLabel

/-- The handles that an element is resized by: right edge, bottom edge, or the corner between. -/
inductive Handle where
  | e
  | s
  | se
deriving DecidableEq

namespace Handle

/-- The names of the handles. -/
def choices : List (String × Handle) := [("e", .e), ("s", .s), ("se", .se)]

/-- The name of a handle. -/
def name : Handle → String
  | .e => "e"
  | .s => "s"
  | .se => "se"

/-- The handle for a name in any case. -/
def parse (text : String) : Except Error Handle :=
  let name := Text.lowercase text
  match choices.lookup name with
  | some handle => .ok handle
  | none => .error (.invalidArgument (.unknownHandle name))

/-- Whether a handle changes the width. -/
def affectsWidth : Handle → Bool
  | .s => false
  | _ => true

/-- Whether a handle changes the height. -/
def affectsHeight : Handle → Bool
  | .e => false
  | _ => true

end Handle

/-- Keys held during a pointer event. -/
structure Modifiers where
  /-- A press toggles, and a marquee extends the selection. -/
  additive : Bool
  /-- No snapping. -/
  precise : Bool
deriving DecidableEq

namespace Modifiers

/-- Keys as a record. -/
def ofTree? {α : Type} (t : Json.Tree α) : Option Modifiers := do
  let fields ← t.fields? ["additive", "precise"]
  return ⟨← fields.require? "additive" Json.Tree.bool?, ← fields.require? "precise" Json.Tree.bool?⟩

/-- Keys written down. -/
def toTree {α : Type} (m : Modifiers) : Json.Tree α :=
  .object [("additive", .bool m.additive), ("precise", .bool m.precise)]

end Modifiers

/-- What the pointer goes down on. -/
inductive PointerTarget where
  | element (id : ElementId)
  | handle (id : ElementId) (handle : Handle)
  | canvas
deriving DecidableEq

/-- A drag of the selected elements. -/
structure Drag (α : Type) where
  /-- The element under the pointer. -/
  primary : ElementId
  start : Point α
  /-- The elements as they were when the pointer went down. -/
  origin : List (Element α)
  moved : Bool
  /-- The element to select alone if the press turns out to be a click. -/
  collapseTo : Option ElementId

/-- A resize of one element. -/
structure Resize (α : Type) where
  id : ElementId
  handle : Handle
  start : Point α
  /-- The elements as they were when the pointer went down. -/
  origin : List (Element α)
  /-- The size of the element when the pointer went down. -/
  initial : Size α
  moved : Bool

/-- A rectangle drawn to select. -/
structure Marquee (α : Type) where
  start : Point α
  current : Point α
  additive : Bool
  /-- The ids that stay selected. -/
  base : Selection

/-- The gesture in progress. -/
inductive Gesture (α : Type) where
  | idle
  | dragging (d : Drag α)
  | resizing (r : Resize α)
  | marquee (m : Marquee α)

namespace Gesture

variable {α : Type} [Scalar α]

/-- Whether no gesture is in progress. -/
def isIdle : Gesture α → Bool
  | .idle => true
  | _ => false

/-- The rectangle of a marquee. -/
def marqueeRect? : Gesture α → Option (Rect α)
  | .marquee m => some (Rect.ofCorners m.start m.current)
  | _ => none

/-- The pointer travel up to which a press is a click: a tenth of a millimetre. -/
def clickTravel : α := Scalar.one / Scalar.ofNat 10

/-- Whether a displacement is more than a click. -/
def exceedsClick (delta : Point α) : Bool := Scalar.lt clickTravel delta.maxAbs

/-- The new position of the primary element: not beyond the label's origin, then snapped. -/
def dragPosition (origin delta : Point α) (grid : Option α) : Point α :=
  ⟨snapTo grid (Scalar.max (origin.x + delta.x) Scalar.zero),
    snapTo grid (Scalar.max (origin.y + delta.y) Scalar.zero)⟩

/-- A side grown by a displacement: snapped, and never below one millimetre. -/
def grow (side delta : α) (grid : Option α) : α :=
  Scalar.max (snapTo grid (Scalar.max (side + delta) Scalar.one)) Scalar.one

/-- The new size of a resized element; a side that the handle does not change stays. -/
def resized (initial : Size α) (handle : Handle) (delta : Point α) (grid : Option α) : Size α where
  width := if handle.affectsWidth then grow initial.width delta.x grid else initial.width
  height := if handle.affectsHeight then grow initial.height delta.y grid else initial.height

/-- The displacement of the pointer in millimetres. -/
def travel (start position : Point α) (zoom : α) : Point α :=
  (position - start).scale (Scalar.one / zoom)

end Gesture

namespace Drag

variable {α : Type} [Scalar α]

/-- The positions of the elements when the pointer went down. -/
def origins (d : Drag α) : StringMap (Point α) :=
  StringMap.ofList (d.origin.map fun e => (e.id, e.position))

/-- A selected element in a frame of a drag: the primary one at its target, every other one
displaced from its origin as the primary one is. -/
def place (d : Drag α) (target applied : Point α) (e : Element α) : Element α :=
  if e.id == d.primary then e.moveTo target
  else
    match d.origins.get? e.id with
    | some o => e.moveTo ⟨o.x + applied.x, o.y + applied.y⟩
    | none => e

/-- The elements in a frame of a drag. -/
def frame (d : Drag α) (selection : Selection) (delta : Point α) (grid : Option α)
    (els : List (Element α)) : List (Element α) :=
  match d.origins.get? d.primary with
  | none => els
  | some origin =>
    let target := Gesture.dragPosition origin delta grid
    els.map fun e => if selection.contains e.id then d.place target (target - origin) e else e

end Drag

end ThermalLabel
