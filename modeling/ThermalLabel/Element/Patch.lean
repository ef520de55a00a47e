import ThermalLabel.Element.Basic
import ThermalLabel.Json.Decode

/-! # Partial changes of an element

A patch names new values for some fields. Fields that the element's kind does not have are passed
over. -/

namespace ThermalLabel

/-- New values for some fields of an element. -/
structure Patch (α : Type) where
  x : Option α := none
  y : Option α := none
  content : Option String := none
  fontSize : Option α := none
  fontWeight : Option FontWeight := none
  fontFamily : Option String := none
  width : Option α := none
  height : Option α := none
  showBorder : Option Bool := none
  padding : Option α := none
  strokeWidth : Option α := none

namespace Patch

variable {α : Type}

/-- The patch that changes nothing. -/
def empty : Patch α := {}

/-- A patch that only moves. -/
def move (p : Point α) : Patch α := { x := some p.x, y := some p.y }

/-- A patch that only replaces the content. -/
def setContent (content : String) : Patch α := { content := some content }

/-- Whether no field is named. -/
def isEmpty (p : Patch α) : Bool :=
  p.x.isNone && p.y.isNone && p.content.isNone && p.fontSize.isNone && p.fontWeight.isNone &&
    p.fontFamily.isNone && p.width.isNone && p.height.isNone && p.showBorder.isNone &&
    p.padding.isNone && p.strokeWidth.isNone

/-- The position named by a patch, coordinates that it does not name taken from the element. -/
def applyPosition [Scalar α] (p : Patch α) (e : Element α) : Element α :=
  if p.x.isSome || p.y.isSome then e.moveTo ⟨p.x.getD e.x, p.y.getD e.y⟩ else e

/-- The size named by a patch, sides that it does not name taken from the element. -/
def applySize [Scalar α] (p : Patch α) (e : Element α) : Element α :=
  match e.size? with
  | some size =>
    if p.width.isSome || p.height.isSome then
      e.resize ⟨p.width.getD size.width, p.height.getD size.height⟩
    else e
  | none => e

/-- The other fields named by a patch. A font size is at least one point, and padding and stroke
width are not negative. -/
def applyBody [Scalar α] (p : Patch α) : Body α → Body α
  | .text t => .text {
      content := p.content.getD t.content
      fontSize := (p.fontSize.map fun size => Scalar.max size Scalar.one).getD t.fontSize
      fontWeight := p.fontWeight.getD t.fontWeight
      fontFamily := p.fontFamily.getD t.fontFamily }
  | .qrcode q => .qrcode { q with
      content := p.content.getD q.content
      showBorder := p.showBorder.getD q.showBorder
      padding := (p.padding.map fun padding => Scalar.max padding Scalar.zero).getD q.padding }
  | .barcode b => .barcode { b with content := p.content.getD b.content }
  | .box b => .box { b with
      strokeWidth := (p.strokeWidth.map fun stroke => Scalar.max stroke Scalar.zero).getD
        b.strokeWidth }

/-- An element changed by a patch. -/
def apply [Scalar α] (p : Patch α) (e : Element α) : Element α :=
  let e := p.applySize (p.applyPosition e)
  { e with body := p.applyBody e.body }

end Patch

end ThermalLabel
