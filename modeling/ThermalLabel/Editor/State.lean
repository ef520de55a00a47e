import ThermalLabel.Editor.Gesture
import ThermalLabel.Editor.History
import ThermalLabel.Session.Basic

/-! # The editor

An editor holds a document with the operator's settings, the selection, the history of the elements
and the gesture in progress.

An operation that changes the elements for good makes a snapshot and asks for the session to be
saved. While a gesture is in progress, only the document changes: the end of the gesture makes the
snapshot, and a cancelled gesture puts the elements back that it began with. -/

namespace ThermalLabel

/-- An editing session in progress. -/
structure Editor (α : Type) where
  document : Document α
  settings : Settings α
  selection : Selection
  /-- Snapshots of the elements. -/
  history : History (List (Element α))
  gesture : Gesture α
  /-- Rendered sizes as the display reports them. -/
  measured : MeasuredSizes α
  /-- Canvas pixels to a millimetre. -/
  zoom : α
  /-- Where the ids of new elements come from. -/
  supply : IdSupply

/-- What an operation gives back. A session that is to be saved is the one of the editor after it.
-/
structure Reply (α β : Type) where
  editor : Editor α
  /-- Whether the session is to be saved. -/
  saves : Bool
  value : β

namespace Reply

variable {α β γ : Type}

/-- A reply with its value changed. -/
def map (f : β → γ) (r : Reply α β) : Reply α γ := { r with value := f r.value }

/-- The session to be saved. -/
def saved? (r : Reply α β) : Option (Session α) :=
  if r.saves then some ⟨r.editor.document, r.editor.settings⟩ else none

end Reply

namespace Editor

variable {α β : Type}

/-- What is left of the editor after a restart. -/
def session (e : Editor α) : Session α := ⟨e.document, e.settings⟩

/-- The elements in drawing order. -/
def elements (e : Editor α) : List (Element α) := e.document.elements

/-- The editor with other elements in its document. -/
def withElements (e : Editor α) (elements : List (Element α)) : Editor α :=
  { e with document := { e.document with elements } }

/-- A reply that asks for no save. -/
def keeping (e : Editor α) (value : β) : Reply α β := ⟨e, false, value⟩

/-- A reply that asks for a save. -/
def saving (e : Editor α) (value : β) : Reply α β := ⟨e, true, value⟩

/-- A snapshot of the elements made, and the session saved. -/
def commit (e : Editor α) (value : β) : Reply α β :=
  { e with history := e.history.commit e.elements }.saving value

variable [Scalar α]

/-- A snapshot made if the elements are not the current one. -/
def commitChange (e : Editor α) (value : β) : Reply α β :=
  if e.elements == e.history.current then e.keeping value else e.commit value

/-- The snapping grid that is in force: none while the grid is off or the operator asks for
precision. -/
def grid? (e : Editor α) (modifiers : Modifiers) : Option α :=
  if modifiers.precise || Scalar.le e.settings.gridSize Scalar.zero then none
  else some e.settings.gridSize

/-! ### Opening -/

/-- The editor with a session in place of its own, put in order first. The history starts anew;
rendered sizes and zoom stay. -/
def load (e : Editor α) (s : Session α) : Editor α :=
  let (document, supply) := s.document.normalize e.supply
  { e with
    document, supply
    settings := s.settings
    selection := StringMap.empty
    history := e.history.reset document.elements
    gesture := .idle }

/-- Four pixels to a millimetre. -/
def standardZoom : α := Scalar.ofNat 4

/-- An editor for a session. -/
def ofSession (s : Session α) (supply : IdSupply) : Editor α :=
  load {
    document := s.document
    settings := s.settings
    selection := StringMap.empty
    history := History.of []
    gesture := .idle
    measured := StringMap.empty
    zoom := standardZoom
    supply } s

/-- An editor for what a store holds: its session, or the starter layout if there is none or it
cannot be read. -/
def openStored (stored : Except Error (Option (Session α))) (supply : IdSupply) : Editor α :=
  match stored with
  | .ok (some session) => ofSession session supply
  | _ =>
    let (session, supply) := Session.starter supply
    ofSession session supply

end Editor

end ThermalLabel
