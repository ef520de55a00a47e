import ThermalLabel.Editor.State

/-! # Pointer events

What the editor does when the pointer goes down, moves and goes up, and how a gesture is cancelled.
The frames of a gesture depend only on what it kept when it began, on the selection, grid and zoom,
and on where the pointer is. -/

namespace ThermalLabel.Editor

variable {α : Type} [Scalar α]

/-- The gesture in progress given up: moved elements go back, and a marquee leaves the selection
that it began with. -/
def cancel (e : Editor α) : Editor α :=
  match e.gesture with
  | .idle => e
  | .dragging d => { e.withElements d.origin with gesture := .idle }
  | .resizing r => { e.withElements r.origin with gesture := .idle }
  | .marquee m => { e with gesture := .idle, selection := m.base }

/-- A drag of the selection begun on an element. -/
def beginDrag (e : Editor α) (id : ElementId) (pos : Point α) (collapseTo : Option ElementId) :
    Editor α :=
  { e with gesture := .dragging {
      primary := id, start := pos, origin := e.elements, moved := false, collapseTo } }

/-- The pointer gone down on an element. It selects the element, or toggles it; what is selected
then can be dragged. -/
def pressElement (e : Editor α) (id : ElementId) (pos : Point α) (modifiers : Modifiers) :
    Editor α :=
  if !e.document.contains id then e
  else if modifiers.additive then
    let e := { e with selection := e.selection.toggle id }
    if e.selection.contains id then e.beginDrag id pos none else e
  else if e.selection.contains id then
    e.beginDrag id pos (if 1 < e.selection.size then some id else none)
  else { e with selection := Selection.only id }.beginDrag id pos none

/-- The pointer gone down on a handle. Elements without a stored size have none. -/
def pressHandle (e : Editor α) (id : ElementId) (handle : Handle) (pos : Point α) : Editor α :=
  match (e.document.find? id).bind Element.size? with
  | none => e
  | some initial =>
    { e with
      selection := Selection.only id
      gesture := .resizing {
        id, handle, start := pos, origin := e.elements, initial, moved := false } }

/-- The pointer gone down on the canvas. -/
def pressCanvas (e : Editor α) (pos : Point α) (modifiers : Modifiers) : Editor α :=
  let base := if modifiers.additive then e.selection else StringMap.empty
  { e with
    selection := base
    gesture := .marquee { start := pos, current := pos, additive := modifiers.additive, base } }

/-- The pointer gone down. A gesture in progress is cancelled first. -/
def pointerDown (e : Editor α) (target : PointerTarget) (pos : Point α) (modifiers : Modifiers) :
    Editor α :=
  let e := e.cancel
  match target with
  | .element id => e.pressElement id pos modifiers
  | .handle id handle => e.pressHandle id handle pos
  | .canvas => e.pressCanvas pos modifiers

/-- A frame of a drag. Up to the travel of a click nothing happens. -/
def dragTo (e : Editor α) (d : Drag α) (pos : Point α) (grid : Option α) : Editor α :=
  let delta := Gesture.travel d.start pos e.zoom
  if !d.moved && !Gesture.exceedsClick delta then e
  else
    { e.withElements (d.frame e.selection delta grid e.elements) with
      gesture := .dragging { d with moved := true } }

/-- A frame of a resize. Up to the travel of a click nothing happens. -/
def resizeTo (e : Editor α) (r : Resize α) (pos : Point α) (grid : Option α) : Editor α :=
  let delta := Gesture.travel r.start pos e.zoom
  if !r.moved && !Gesture.exceedsClick delta then e
  else
    let size := Gesture.resized r.initial r.handle delta grid
    { e.withElements (Sequence.modify (fun el => el.resize size) r.id e.elements) with
      gesture := .resizing { r with moved := true } }

/-- A frame of a marquee: what it began with is selected, and what it hits. -/
def marqueeTo (e : Editor α) (m : Marquee α) (pos : Point α) : Editor α :=
  let hits := Selection.marqueeHits e.elements e.measured (Rect.ofCorners m.start pos) e.zoom
  { e with
    selection := m.base.addAll hits
    gesture := .marquee { m with current := pos } }

/-- The pointer moved. -/
def pointerMove (e : Editor α) (pos : Point α) (modifiers : Modifiers) : Editor α :=
  match e.gesture with
  | .idle => e
  | .dragging d => e.dragTo d pos (e.grid? modifiers)
  | .resizing r => e.resizeTo r pos (e.grid? modifiers)
  | .marquee m => e.marqueeTo m pos

/-- The gesture in progress brought to its end. A drag that never moved was a click. -/
def release (e : Editor α) : Reply α Unit :=
  let ended := { e with gesture := .idle }
  match e.gesture with
  | .idle => ended.keeping ()
  | .marquee _ => ended.keeping ()
  | .resizing r => if r.moved then ended.commit () else ended.keeping ()
  | .dragging d =>
    if d.moved then ended.commit ()
    else
      match d.collapseTo with
      | some id => { ended with selection := Selection.only id }.keeping ()
      | none => ended.keeping ()

/-- The pointer gone up: a last frame, and the end of the gesture. -/
def pointerUp (e : Editor α) (pos : Point α) (modifiers : Modifiers) : Reply α Unit :=
  (e.pointerMove pos modifiers).release

end ThermalLabel.Editor
