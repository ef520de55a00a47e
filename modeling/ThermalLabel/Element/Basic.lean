import ThermalLabel.Error
import ThermalLabel.Geometry
import ThermalLabel.Json.Basic
import ThermalLabel.Printer.Font
import ThermalLabel.Text.Lowercase

/-! # Elements

A label shows texts, QR codes, barcodes and boxes. Every element has an id, the position of its top
left corner and the members of its JSON form that nobody knows; the rest depends on its kind.

Positions set by the operator are never negative and sides never below one millimetre. Elements that
come from outside are taken as they are. -/

namespace ThermalLabel

/-- The name of an element within a document. -/
abbrev ElementId := String

/-- Text weight. -/
inductive FontWeight where
  | normal
  | bold
deriving DecidableEq

/-- A text. Its extent is known only once it is rendered. -/
structure TextBody (α : Type) where
  /-- May hold variable tokens. -/
  content : String
  /-- In points. -/
  fontSize : α
  fontWeight : FontWeight
  fontFamily : String
deriving BEq

/-- A QR code; `padding` is the clearance inside the border. -/
structure QrBody (α : Type) where
  content : String
  width : α
  height : α
  showBorder : Bool
  padding : α
deriving BEq

/-- A Code 128 barcode. -/
structure BarcodeBody (α : Type) where
  content : String
  width : α
  height : α
deriving BEq

/-- The outline of a rectangle. -/
structure BoxBody (α : Type) where
  width : α
  height : α
  strokeWidth : α
deriving BEq

/-- What an element shows. -/
inductive Body (α : Type) where
  | text (t : TextBody α)
  | qrcode (q : QrBody α)
  | barcode (b : BarcodeBody α)
  | box (b : BoxBody α)
deriving BEq

/-- The kinds of elements. -/
inductive Kind where
  | text
  | qrcode
  | barcode
  | box
deriving DecidableEq

/-- An element on the label. -/
structure Element (α : Type) where
  id : ElementId
  x : α
  y : α
  body : Body α
  /-- Unknown members of the JSON form, kept as they are. -/
  extra : StringMap (Json α)
deriving BEq

namespace Kind

/-- The kinds in the order they are listed in. -/
def all : List Kind := [.text, .qrcode, .barcode, .box]

/-- The name of a kind. -/
def name : Kind → String
  | .text => "text"
  | .qrcode => "qrcode"
  | .barcode => "barcode"
  | .box => "box"

/-- The name shown to the operator. -/
def label : Kind → String
  | .text => "Text"
  | .qrcode => "QR Code"
  | .barcode => "Barcode"
  | .box => "Rectangle"

/-- The names of kinds in JSON. -/
def choices : List (String × Kind) := all.map fun k => (k.name, k)

/-- Further names of kinds. -/
def aliases : List (String × Kind) := [
  ("qr", .qrcode), ("qr_code", .qrcode), ("rect", .box), ("rectangle", .box)]

/-- The kind for a name in any case. -/
def parse (s : String) : Except Error Kind :=
  let name := Text.lowercase s
  match (choices ++ aliases).lookup name with
  | some kind => .ok kind
  | none => .error (.invalidArgument (.unknownKind name))

end Kind

variable {α : Type} [Scalar α]

/-- The body of an element that says nothing about itself. -/
def Body.default : Kind → Body α
  | .text => .text ⟨"", Scalar.ofNat 12, .normal, Font.defaultFamily⟩
  | .qrcode => .qrcode ⟨"", Scalar.ofNat 15, Scalar.ofNat 15, true, Scalar.one⟩
  | .barcode => .barcode ⟨"", Scalar.ofNat 40, Scalar.ofNat 10⟩
  | .box => .box ⟨Scalar.ofNat 20, Scalar.ofNat 10, Scalar.half Scalar.one⟩

namespace Body

/-- The kind of a body. -/
def kind : Body α → Kind
  | .text _ => .text
  | .qrcode _ => .qrcode
  | .barcode _ => .barcode
  | .box _ => .box

/-- The content, for the kinds that have one. -/
def content? : Body α → Option String
  | .text t => some t.content
  | .qrcode q => some q.content
  | .barcode b => some b.content
  | .box _ => none

/-- The content replaced, for the kinds that have one. -/
def withContent (content : String) : Body α → Body α
  | .text t => .text { t with content }
  | .qrcode q => .qrcode { q with content }
  | .barcode b => .barcode { b with content }
  | .box b => .box b

/-- The stored size, for the kinds that have one. -/
def size? : Body α → Option (Size α)
  | .text _ => none
  | .qrcode q => some ⟨q.width, q.height⟩
  | .barcode b => some ⟨b.width, b.height⟩
  | .box b => some ⟨b.width, b.height⟩

/-- The size replaced, for the kinds that have one. -/
def withSize (size : Size α) : Body α → Body α
  | .text t => .text t
  | .qrcode q => .qrcode { q with width := size.width, height := size.height }
  | .barcode b => .barcode { b with width := size.width, height := size.height }
  | .box b => .box { b with width := size.width, height := size.height }

end Body

namespace Element

/-- An element without an id at the origin. -/
def default (kind : Kind) : Element α :=
  ⟨"", Scalar.zero, Scalar.zero, Body.default kind, StringMap.empty⟩

/-- What a new element of each kind shows, so that it can be seen at once. -/
def sample (kind : Kind) : Element α :=
  let content := match kind with
    | .text => "Text"
    | .qrcode => "https://example.com"
    | .barcode => "123456789"
    | .box => ""
  { default kind with
    x := Scalar.ofNat 5, y := Scalar.ofNat 5, body := (Body.default kind).withContent content }

/-- A text element with a content. -/
def text (content : String) : Element α :=
  { default .text with body := (Body.default .text).withContent content }

/-- The kind of an element. -/
def kind (e : Element α) : Kind := e.body.kind

/-- The position of the top left corner. -/
def position (e : Element α) : Point α := ⟨e.x, e.y⟩

/-- The stored size; a text has none. -/
def size? (e : Element α) : Option (Size α) := e.body.size?

/-- Only elements with a stored size can be resized. -/
def isResizable (e : Element α) : Bool := e.size?.isSome

/-- The content, if the element has one. -/
def content? (e : Element α) : Option String := e.body.content?

/-- The element moved; negative coordinates become zero. -/
def moveTo (e : Element α) (p : Point α) : Element α :=
  { e with x := Scalar.max p.x Scalar.zero, y := Scalar.max p.y Scalar.zero }

/-- The element moved by a displacement; negative coordinates become zero. -/
def moveBy (e : Element α) (dx dy : α) : Element α := e.moveTo ⟨e.x + dx, e.y + dy⟩

/-- The element resized; sides below one millimetre become one. -/
def resize (e : Element α) (size : Size α) : Element α :=
  let size := ⟨Scalar.max size.width Scalar.one, Scalar.max size.height Scalar.one⟩
  { e with body := e.body.withSize size }

/-- The element under another id. -/
def withId (e : Element α) (id : ElementId) : Element α := { e with id }

end Element

/-- Rendered sizes of elements, as the display reports them. -/
abbrev MeasuredSizes (α : Type) := StringMap (Size α)

namespace Element

/-- The extent of an element: its rendered size if known, else its stored size, else nothing. -/
def footprint (measured : MeasuredSizes α) (e : Element α) : Size α :=
  match measured.get? e.id with
  | some size => size
  | none => e.size?.getD Size.zero

/-- The rectangle that an element covers. -/
def bounds (measured : MeasuredSizes α) (e : Element α) : Rect α :=
  let size := e.footprint measured
  ⟨e.x, e.y, size.width, size.height⟩

end Element

end ThermalLabel
