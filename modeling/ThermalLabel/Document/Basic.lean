import ThermalLabel.Element.Sequence
import ThermalLabel.Element.Tree
import ThermalLabel.LabelSize

/-! # Documents

A document is a label size and a sequence of elements. Its operations are total: ids that no element
has are passed over, and a label size that is not positive is refused. Operations that need new ids
take them from a supply and return what is left of it. -/

namespace ThermalLabel

/-- A label layout. -/
structure Document (α : Type) where
  labelSize : LabelSize α
  elements : List (Element α)
deriving BEq

namespace Document

variable {α : Type} [Scalar α]

/-- A document without elements. -/
def empty (labelSize : LabelSize α) : Document α := ⟨labelSize, []⟩

/-- The first element with an id. -/
def find? (d : Document α) (id : ElementId) : Option (Element α) := Sequence.find? d.elements id

/-- Whether an element has an id. -/
def contains (d : Document α) (id : ElementId) : Bool := (d.find? id).isSome

/-- The ids in drawing order. -/
def ids (d : Document α) : List ElementId := Sequence.ids d.elements

/-- A new element of a kind on top, changed by a patch. -/
def add (d : Document α) (id : ElementId) (kind : Kind) (patch : Patch α) : Document α :=
  { d with elements := Sequence.append d.elements (patch.apply ((Element.sample kind).withId id)) }

/-- The first element with an id changed by a patch. -/
def update (d : Document α) (id : ElementId) (patch : Patch α) : Document α :=
  { d with elements := Sequence.modify patch.apply id d.elements }

/-- The elements of a set taken away. -/
def remove (d : Document α) (ids : IdSet) : Document α :=
  { d with elements := Sequence.without d.elements ids }

/-- An element moved through the drawing order. -/
def reorder (d : Document α) (id : ElementId) (how : Reorder) : Document α :=
  { d with elements := Sequence.reorder d.elements id how }

/-- How far a copy lies from what it is copied from on each axis, in millimetres. -/
def copyOffset : α := Scalar.ofNat 5

/-- Copies of the elements of a set put on top, with their ids in order and the supply after. -/
def duplicate (d : Document α) (ids : IdSet) (supply : IdSupply) :
    Document α × List ElementId × IdSupply :=
  let (copies, after) := Sequence.copies ids copyOffset copyOffset d.elements supply
  ({ d with elements := d.elements ++ copies }, Sequence.ids copies, after)

/-- The label size replaced, if the new one is positive. -/
def setLabelSize? (d : Document α) (size : LabelSize α) : Option (Document α) :=
  if size.isValid then some { d with labelSize := size } else none

/-- A document from outside put in order: a label size that is not positive becomes the standard
one, and empty and repeated ids become new ones; the first element with an id keeps it. -/
def normalize (d : Document α) (supply : IdSupply) : Document α × IdSupply :=
  let labelSize := if d.labelSize.isValid then d.labelSize else LabelSize.standard
  let (elements, after) := Sequence.repairIds StringMap.empty d.elements supply
  (⟨labelSize, elements⟩, after)

/-! ### The starter layout -/

/-- The elements of the starter layout: a company line, a product line, a barcode and a QR code. -/
def starterParts : List (Kind × Patch α) :=
  let showing (x y : Nat) (content : String) : Patch α :=
    { x := some (Scalar.ofNat x), y := some (Scalar.ofNat y), content := some content }
  [(.text, { showing 2 2 "\x7bcompany\x7d" with
      fontSize := some (Scalar.ofNat 14), fontWeight := some .bold }),
    (.text, showing 2 8 "\x7bproduct\x7d \x7bprice\x7d"),
    (.barcode, { showing 2 15 "\x7bsku\x7d" with
      width := some (Scalar.ofNat 28), height := some (Scalar.ofNat 10) }),
    (.qrcode, showing 33 13 "\x7bsku\x7d")]

/-- The starter layout on standard stock, and the supply after. -/
def starter (supply : IdSupply) : Document α × IdSupply :=
  starterParts.foldl (fun (d, supply) (kind, patch) => (d.add supply.next kind patch, supply.rest))
    (empty LabelSize.standard, supply)

/-! ### JSON -/

/-- A document as a record. -/
def ofTree? [NumberText α] (t : Json.Tree α) : Option (Document α) := do
  let fields ← t.fields? ["labelSize", "elements"]
  let labelSize ← fields.require? "labelSize" LabelSize.ofTree?
  let elements ← fields.require? "elements" (Json.Tree.list? Element.ofTree?)
  return ⟨labelSize, elements⟩

/-- Elements written down. -/
def elementsTree (elements : List (Element α)) : Json.Tree α := .array (elements.map Element.toTree)

/-- A document written down. -/
def toTree (d : Document α) : Json.Tree α :=
  .object [("labelSize", d.labelSize.toTree), ("elements", elementsTree d.elements)]

end Document

end ThermalLabel
