import ThermalLabel.Document.Template
import ThermalLabel.Editor.Align
import ThermalLabel.Editor.Pointer

/-! # Edits

Selection, changes of the elements, undo and redo, and changes of label size and settings. What
fails or finds nothing to change leaves the editor as it was. -/

namespace ThermalLabel.Editor

variable {α : Type} [Scalar α]

/-! ### Selection -/

/-- An element selected alone; an unknown id clears the selection. -/
def select (e : Editor α) (id : ElementId) : Editor α :=
  { e with selection := if e.document.contains id then Selection.only id else StringMap.empty }

/-- Every element selected. -/
def selectAll (e : Editor α) : Editor α := { e with selection := IdSet.ofIds e.document.ids }

/-- Nothing selected. -/
def clearSelection (e : Editor α) : Editor α := { e with selection := StringMap.empty }

/-! ### Elements -/

/-- A new element put on top and selected. The value is its id. -/
def add (e : Editor α) (kind : Kind) (patch : Patch α) : Reply α ElementId :=
  let id := e.supply.next
  { e with
    document := e.document.add id kind patch
    selection := Selection.only id
    supply := e.supply.rest }.commit id

/-- An element changed by a patch. The value says whether there is one. -/
def update (e : Editor α) (id : ElementId) (patch : Patch α) : Reply α Bool :=
  if e.document.contains id then
    { e with document := e.document.update id patch }.commitChange true
  else e.keeping false

/-- The selected elements taken away. -/
def delete (e : Editor α) : Reply α Unit :=
  if e.selection.isEmpty then e.keeping ()
  else
    { e with
      document := e.document.remove e.selection
      selection := StringMap.empty }.commitChange ()

/-- Copies of the selected elements put on top and selected. The value is their ids. -/
def duplicate (e : Editor α) : Reply α (List ElementId) :=
  if e.selection.isEmpty then e.keeping []
  else
    let (document, ids, supply) := e.document.duplicate e.selection e.supply
    { e with document, supply, selection := IdSet.ofIds ids }.commitChange ids

/-- An element moved through the drawing order. -/
def reorder (e : Editor α) (id : ElementId) (how : Reorder) : Reply α Unit :=
  { e with document := e.document.reorder id how }.commitChange ()

/-- The selected elements moved by a displacement. -/
def nudge (e : Editor α) (offset : Point α) : Reply α Unit :=
  let moved := e.elements.map fun el =>
    if e.selection.contains el.id then el.moveBy offset.x offset.y else el
  (e.withElements moved).commitChange ()

/-- Elements moved to their targets. -/
def moveToTargets (e : Editor α) (targets : List (ElementId × Point α)) : Reply α Unit :=
  if targets.isEmpty then e.keeping ()
  else (e.withElements (Sequence.moveAll (StringMap.ofList targets) e.elements)).commitChange ()

/-- The selected elements aligned. -/
def align (e : Editor α) (alignment : Alignment) : Reply α Unit :=
  e.moveToTargets (Align.targets (Sequence.selected e.elements e.selection) e.measured
    e.document.labelSize alignment)

/-- The selected elements distributed. -/
def distribute (e : Editor α) (distribution : Distribution) : Reply α Unit :=
  e.moveToTargets (Distribute.targets (Sequence.selected e.elements e.selection) distribution)

/-! ### History -/

/-- The editor at the current snapshot of another history; what is gone is no longer selected. -/
def travelTo (e : Editor α) (history : History (List (Element α))) : Editor α :=
  { e.withElements history.current with
    history, selection := Selection.retain e.selection history.current }

/-- The snapshot before the current one taken up, after the gesture is cancelled. The value says
whether there is one. -/
def undo (e : Editor α) : Reply α Bool :=
  let e := e.cancel
  match e.history.undo? with
  | some history => (e.travelTo history).saving true
  | none => e.keeping false

/-- The snapshot after the current one taken up, after the gesture is cancelled. The value says
whether there is one. -/
def redo (e : Editor α) : Reply α Bool :=
  let e := e.cancel
  match e.history.redo? with
  | some history => (e.travelTo history).saving true
  | none => e.keeping false

/-! ### Label and layout -/

/-- The label size replaced. The value says whether the new one is positive. -/
def setLabelSize (e : Editor α) (size : LabelSize α) : Reply α Bool :=
  match e.document.setLabelSize? size with
  | some document => { e with document }.saving true
  | none => e.keeping false

/-- The label size replaced by the stock of a name. -/
def applyPreset (e : Editor α) (name : String) : Reply α (Except Error Unit) :=
  match LabelSize.preset? name with
  | some size => (e.setLabelSize size).map fun _ => .ok ()
  | none => e.keeping (.error (.invalidArgument (.unknownPreset name)))

/-- The starter layout with a new history; the settings stay. -/
def reset (e : Editor α) : Reply α Unit :=
  let (document, supply) := Document.starter e.supply
  { e with
    document, supply
    selection := StringMap.empty
    history := e.history.reset document.elements
    gesture := .idle }.saving ()

/-- Another session in place of this one. -/
def restore (e : Editor α) (s : Session α) : Reply α Unit := (e.load s).saving ()

/-- The document replaced by the one of a template. A text that is no template changes nothing. -/
def importTemplate [NumberText α] (e : Editor α) (text : String) : Reply α (Except Error Unit) :=
  match Template.parse text with
  | .error error => e.keeping (.error error)
  | .ok template =>
    let (document, supply) := template.toDocument e.supply
    { e with document, supply, selection := StringMap.empty, gesture := .idle }.commit (.ok ())

/-! ### Settings -/

/-- The editor with other settings, saved. -/
def changeSettings (e : Editor α) (settings : Settings α) : Reply α Unit :=
  { e with settings }.saving ()

/-- A variable set. -/
def setVariable (e : Editor α) (key value : String) : Reply α Unit :=
  e.changeSettings { e.settings with custom := e.settings.custom.insert key value }

/-- A variable taken away. The value says whether there was one. -/
def removeVariable (e : Editor α) (key : String) : Reply α Bool :=
  if e.settings.custom.contains key then
    (e.changeSettings { e.settings with custom := e.settings.custom.erase key }).map
      fun _ => true
  else e.keeping false

/-- The printer language chosen. -/
def setLanguage (e : Editor α) (language : Language) : Reply α Unit :=
  e.changeSettings { e.settings with language }

/-- The snapping grid set; a size that is not finite means no grid. -/
def setGrid (e : Editor α) (size : α) : Reply α Unit :=
  e.changeSettings { e.settings with
    gridSize := if Scalar.isFinite size then size else Scalar.zero }

/-- The rendered size of an element noted. -/
def measure (e : Editor α) (id : ElementId) (size : Size α) : Editor α :=
  { e with measured := e.measured.insert id size }

/-- The zoom set, if it is positive and finite. -/
def setZoom (e : Editor α) (zoom : α) : Editor α :=
  if Scalar.lt Scalar.zero zoom && Scalar.isFinite zoom then { e with zoom } else e

end ThermalLabel.Editor
