import ThermalLabel.Element.Patch
import ThermalLabel.Geometry.Tree
import ThermalLabel.Json.Embedded

/-! # Elements in JSON

An element is an object with a `type` and the fields of that type. Fields that are left out have
their defaults, and members that the type does not know are kept. A known member may not repeat; of
a repeated unknown member the last counts.

An element is written with its type first, then its fields, then the unknown members in key order.
-/

namespace ThermalLabel

variable {α : Type}

/-- The names of the font weights. -/
def FontWeight.choices : List (String × FontWeight) := [("normal", .normal), ("bold", .bold)]

/-- The name of a font weight. -/
def FontWeight.name : FontWeight → String
  | .normal => "normal"
  | .bold => "bold"

namespace Kind

/-- The names of the fields of a kind, in the order they are written. -/
def fieldNames : Kind → List String
  | .text => ["id", "x", "y", "content", "fontSize", "fontWeight", "fontFamily"]
  | .qrcode => ["id", "x", "y", "content", "width", "height", "showBorder", "padding"]
  | .barcode => ["id", "x", "y", "content", "width", "height"]
  | .box => ["id", "x", "y", "width", "height", "strokeWidth"]

end Kind

namespace Element

/-- Nothing, as it may stand beside a choice inside of an element: `null` or an empty object. -/
def isUnit : Json.Tree α → Bool
  | .null => true
  | .object [] => true
  | _ => false

variable [Scalar α]

/-- A scalar field with its default. -/
def scalarField? (fields : Json.Tree.Fields α) (name : String) (default : α) : Option α :=
  Json.Tree.orDefault? default Json.Tree.scalar? (fields.get? name)

/-- A text field with its default. -/
def stringField? (fields : Json.Tree.Fields α) (name default : String) : Option String :=
  Json.Tree.orDefault? default Json.Tree.string? (fields.get? name)

/-- The body read from the fields of an element, over the body that has the defaults. -/
def bodyOfFields? (fields : Json.Tree.Fields α) : Body α → Option (Body α)
  | .text t => do
    let content ← stringField? fields "content" t.content
    let fontSize ← scalarField? fields "fontSize" t.fontSize
    let fontWeight ← Json.Tree.orDefault? t.fontWeight (Json.Tree.choice? isUnit FontWeight.choices)
      (fields.get? "fontWeight")
    let fontFamily ← stringField? fields "fontFamily" t.fontFamily
    return .text { content, fontSize, fontWeight, fontFamily }
  | .qrcode q => do
    let content ← stringField? fields "content" q.content
    let width ← scalarField? fields "width" q.width
    let height ← scalarField? fields "height" q.height
    let showBorder ← Json.Tree.orDefault? q.showBorder Json.Tree.bool? (fields.get? "showBorder")
    let padding ← scalarField? fields "padding" q.padding
    return .qrcode { content, width, height, showBorder, padding }
  | .barcode b => do
    let content ← stringField? fields "content" b.content
    let width ← scalarField? fields "width" b.width
    let height ← scalarField? fields "height" b.height
    return .barcode { content, width, height }
  | .box b => do
    let width ← scalarField? fields "width" b.width
    let height ← scalarField? fields "height" b.height
    let strokeWidth ← scalarField? fields "strokeWidth" b.strokeWidth
    return .box { width, height, strokeWidth }

/-- The values of the members that are not fields of a kind. -/
def extraOfMembers? [NumberText α] (kind : Kind) (members : List (String × Json.Tree α)) :
    Option (StringMap (Json α)) :=
  let unknown := members.filter fun e => !("type" :: kind.fieldNames).contains e.1
  let values := unknown.mapM fun (e : String × Json.Tree α) => e.2.value?.map fun v => (e.1, v)
  values.map StringMap.ofList

/-- An element of a known kind from the members of its object. -/
def ofMembers? [NumberText α] (kind : Kind) (members : List (String × Json.Tree α)) :
    Option (Element α) := do
  let fields ← (Json.Tree.object members).fields? ("type" :: kind.fieldNames)
  let id ← stringField? fields "id" ""
  let x ← scalarField? fields "x" Scalar.zero
  let y ← scalarField? fields "y" Scalar.zero
  let body ← bodyOfFields? fields (Body.default kind)
  let extra ← extraOfMembers? kind members
  return { id, x, y, body, extra }

/-- An element from its object. -/
def ofTree? [NumberText α] : Json.Tree α → Option (Element α)
  | .object members => do
    let name ← (members.lookup "type").bind Json.Tree.string?
    let kind ← Kind.choices.lookup name
    ofMembers? kind members
  | _ => none

/-- The fields of a body after id and position, in the order they are written. -/
def bodyMembers : Body α → List (String × Json.Tree α)
  | .text t => [("content", .string t.content), ("fontSize", scalarTree t.fontSize),
      ("fontWeight", .string t.fontWeight.name), ("fontFamily", .string t.fontFamily)]
  | .qrcode q => [("content", .string q.content), ("width", scalarTree q.width),
      ("height", scalarTree q.height), ("showBorder", .bool q.showBorder),
      ("padding", scalarTree q.padding)]
  | .barcode b => [("content", .string b.content), ("width", scalarTree b.width),
      ("height", scalarTree b.height)]
  | .box b => [("width", scalarTree b.width), ("height", scalarTree b.height),
      ("strokeWidth", scalarTree b.strokeWidth)]

/-- The members of an element's object. -/
def members (e : Element α) : List (String × Json.Tree α) :=
  ("type", .string e.kind.name) :: ("id", .string e.id) :: ("x", scalarTree e.x) ::
    ("y", scalarTree e.y) :: bodyMembers e.body ++ Json.Tree.ofValue.ofMemberValues e.extra.toList

/-- An element written down. -/
def toTree (e : Element α) : Json.Tree α := .object e.members

end Element

namespace Patch

/-- A patch as a record, every field of which may be left out or `null`. -/
def ofTree? [Scalar α] (t : Json.Tree α) : Option (Patch α) := do
  let fields ← t.fields? ["x", "y", "content", "fontSize", "fontWeight", "fontFamily", "width",
    "height", "showBorder", "padding", "strokeWidth"]
  let scalarAt name := Json.Tree.optional? Json.Tree.scalar? (fields.get? name)
  let stringAt name := Json.Tree.optional? Json.Tree.string? (fields.get? name)
  let x ← scalarAt "x"
  let y ← scalarAt "y"
  let content ← stringAt "content"
  let fontSize ← scalarAt "fontSize"
  let fontWeight ← Json.Tree.optional? (Json.Tree.choice? Json.Tree.isNull FontWeight.choices)
    (fields.get? "fontWeight")
  let fontFamily ← stringAt "fontFamily"
  let width ← scalarAt "width"
  let height ← scalarAt "height"
  let showBorder ← Json.Tree.optional? Json.Tree.bool? (fields.get? "showBorder")
  let padding ← scalarAt "padding"
  let strokeWidth ← scalarAt "strokeWidth"
  return ⟨x, y, content, fontSize, fontWeight, fontFamily, width, height, showBorder, padding,
    strokeWidth⟩

/-- A patch written down: the fields that it names, in order. -/
def toTree (p : Patch α) : Json.Tree α :=
  let scalarAt (name : String) (x : Option α) := x.map fun x => (name, scalarTree x)
  let stringAt (name : String) (s : Option String) := s.map fun s => (name, Json.Tree.string s)
  .object ([scalarAt "x" p.x, scalarAt "y" p.y, stringAt "content" p.content,
    scalarAt "fontSize" p.fontSize, stringAt "fontWeight" (p.fontWeight.map FontWeight.name),
    stringAt "fontFamily" p.fontFamily, scalarAt "width" p.width, scalarAt "height" p.height,
    p.showBorder.map fun b => ("showBorder", Json.Tree.bool b), scalarAt "padding" p.padding,
    scalarAt "strokeWidth" p.strokeWidth].filterMap id)

end Patch

end ThermalLabel
