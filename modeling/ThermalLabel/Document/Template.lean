import ThermalLabel.Calendar
import ThermalLabel.Document.Basic
import ThermalLabel.Json.Printer

/-! # Templates

A template is a document as it is passed from one session to another: label size and elements, with
a version and a timestamp.

Reading is lenient. Only the label size and the list of elements must be there and readable;
elements that cannot be read are left out, and a version or timestamp of an unexpected shape does no
harm. What is read in such a way is read as a value first, which fails on a broken embedded text. -/

namespace ThermalLabel

/-- A template. -/
structure Template (α : Type) where
  labelSize : LabelSize α
  elements : List (Element α)
  version : String
  timestamp : Option Timestamp
deriving BEq

namespace Template

variable {α : Type} [Scalar α] [NumberText α]

/-- The version that is written. -/
def currentVersion : String := "1.0"

/-- A document at a point in time. -/
def ofDocument (d : Document α) (timestamp : Timestamp) : Template α :=
  ⟨d.labelSize, d.elements, currentVersion, some timestamp⟩

/-! ### Reading -/

/-- The elements of a list that can be read. -/
def readElements? : Json α → Option (List (Element α))
  | .array items => (items.mapM Json.reread?).map fun items =>
      items.filterMap fun item => Element.ofTree? (Json.Tree.ofValue item)
  | _ => none

/-- The version: a string as it is, nothing for `null`, and JSON text for anything else. -/
def readVersion : Json α → String
  | .string s => s
  | .null => ""
  | v => v.compact

/-- The timestamp: a text, or the milliseconds since the start of 1970 within 64 bits. -/
def readTimestamp : Json α → Option Timestamp
  | .string s => Timestamp.parse? s
  | .number (.integer n) => if n < Nat.pow 2 63 then Timestamp.ofMilliseconds? n else none
  | _ => none

/-- A member that is read in a lenient way: one that is left out is like `null`. -/
def lenient? {β : Type} (v : Json α) (field : String) (read : Json α → β) : Option β :=
  (Json.reread? ((v.member? field).getD .null)).map read

/-- A member that is there and not `null`. -/
def require (v : Json α) (field : String) : Except TemplateFault (Json α) :=
  match v.member? field with
  | none => .error (.missing field)
  | some .null => .error (.missing field)
  | some member => .ok member

/-- A template from the values of its label size and its elements and the value of the whole. -/
def ofParts? (v labelSize elements : Json α) : Option (Template α) := do
  let labelSize ← LabelSize.ofTree? (Json.Tree.ofValue labelSize)
  let elements ← readElements? elements
  let version ← lenient? v "version" readVersion
  let timestamp ← lenient? v "timestamp" readTimestamp
  return { labelSize, elements, version, timestamp }

/-- A template from a value. -/
def ofValue (v : Json α) : Except TemplateFault (Template α) :=
  match v with
  | .object _ => do
    let labelSize ← require v "labelSize"
    let elements ← require v "elements"
    match ofParts? v labelSize elements with
    | some template => return template
    | none => throw .unreadable
  | _ => .error .notObject

/-- A template from its text. -/
def parse (text : String) : Except Error (Template α) :=
  match Json.parse? text with
  | none => .error (.invalidTemplate .notJson)
  | some v => (ofValue v).mapError .invalidTemplate

/-- The document of a template put in order, and the supply after. -/
def toDocument (t : Template α) (supply : IdSupply) : Document α × IdSupply :=
  (Document.mk t.labelSize t.elements).normalize supply

/-! ### Writing -/

/-- A template written down. -/
def toTree (t : Template α) : Json.Tree α :=
  .object [("labelSize", t.labelSize.toTree), ("elements", Document.elementsTree t.elements),
    ("version", .string t.version),
    ("timestamp", t.timestamp.elim .null fun time => .string time.text)]

/-- The text of a template, spread over lines. -/
def text (t : Template α) : String := t.toTree.pretty 0

end Template

end ThermalLabel
