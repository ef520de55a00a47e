import ThermalLabel.Document.Basic
import ThermalLabel.Printer.Language
import ThermalLabel.Variables

/-! # Sessions

A session is what an operator finds again after a restart: the document and the settings. Its JSON
form may leave the settings out. -/

namespace ThermalLabel

/-- The settings of an operator. -/
structure Settings (α : Type) where
  /-- Variables laid over those that every session has. -/
  custom : Variables
  language : Language
  /-- The snapping grid in millimetres; zero and less mean no grid. -/
  gridSize : α
deriving BEq

/-- A document with the settings of its operator. -/
structure Session (α : Type) where
  document : Document α
  settings : Settings α
deriving BEq

namespace Settings

/-- The settings of a new session: no variables, line commands and a grid of one millimetre. -/
def standard {α : Type} [Scalar α] : Settings α := ⟨StringMap.empty, .tspl, Scalar.one⟩

end Settings

namespace Session

variable {α : Type} [Scalar α]

/-- The session of an operator who starts with the starter layout, and the supply after. -/
def starter (supply : IdSupply) : Session α × IdSupply :=
  let (document, after) := Document.starter supply
  (⟨document, Settings.standard⟩, after)

/-! ### JSON -/

/-- A session as a record. -/
def ofTree? [NumberText α] (t : Json.Tree α) : Option (Session α) := do
  let fields ← t.fields? ["labelSize", "elements", "customVariables", "printerLang", "gridSize"]
  let labelSize ← fields.require? "labelSize" LabelSize.ofTree?
  let elements ← fields.require? "elements" (Json.Tree.list? Element.ofTree?)
  let standard := Settings.standard
  let custom ← Json.Tree.orDefault? standard.custom Json.Tree.stringMap?
    (fields.get? "customVariables")
  let language ← Json.Tree.orDefault? standard.language
    (Json.Tree.choice? Json.Tree.isNull Language.choices) (fields.get? "printerLang")
  let gridSize ← Json.Tree.orDefault? standard.gridSize Json.Tree.scalar?
    (fields.get? "gridSize")
  return ⟨⟨labelSize, elements⟩, ⟨custom, language, gridSize⟩⟩

/-- A session written down. -/
def toTree (s : Session α) : Json.Tree α :=
  .object [("labelSize", s.document.labelSize.toTree),
    ("elements", Document.elementsTree s.document.elements),
    ("customVariables", s.settings.custom.toTree),
    ("printerLang", .string s.settings.language.name), ("gridSize", scalarTree s.settings.gridSize)]

end Session

end ThermalLabel
