import ThermalLabel.Element.Basic
import ThermalLabel.Printer.Dots

/-! # QR symbol layout

No printer tells how large a QR symbol it will draw, so its version is estimated from the length of
the content. From the version follow the number of modules, the largest cell that lets the symbol
fit its box, and the offset that centres it. A content that is too long for its box is not an error:
the cell stays at one dot and the symbol runs over.

Dots are 64-bit integers, and arithmetic on them wraps. -/

namespace ThermalLabel

/-- Cell size and placement of a QR symbol, in dots. -/
structure QrLayout where
  version : Nat
  /-- Modules on a side. -/
  modules : Int64
  /-- The width of the box without the padding on both sides. -/
  usable : Int64
  /-- The side of a module. -/
  cell : Int64
  /-- From the padded corner to the symbol, on both axes. -/
  offset : Int64
  /-- The padded top left corner. -/
  originX : Int64
  originY : Int64
deriving DecidableEq

namespace QrLayout

/-- The greatest lengths of content for the versions from one on. -/
def capacities : List Nat := [25, 47, 77, 114, 154, 195, 224, 279, 335]

/-- The estimated version for a number of characters; nothing larger than version 10 is estimated.
-/
def estimatedVersion (length : Nat) : Nat :=
  (capacities.takeWhile fun capacity => capacity < length).length + 1

/-- Modules on a side of a symbol. -/
def moduleCount (version : Nat) : Int64 := 21 + (Int64.ofNat version - 1) * 4

/-- The quotient rounded down. -/
def floorDiv (a b : Int64) : Int64 := Int64.ofInt (a.toInt / b.toInt)

/-- The layout for a number of characters in a box, the cell held at `maxCell` if a printer has such
a limit. -/
def ofLength (length : Nat) (usable originX originY : Int64) (maxCell : Option Int64) : QrLayout :=
  let version := estimatedVersion length
  let modules := moduleCount version
  let fitting := max (floorDiv usable modules) 1
  let cell := (maxCell.map (min fitting)).getD fitting
  { version, modules, usable, cell, originX, originY
    offset := floorDiv (usable - modules * cell) 2 }

variable {α : Type} [Scalar α]

/-- The layout of a QR code at a position. -/
def of (position : Point α) (q : QrBody α) (content : String) (maxCell : Option Int64) : QrLayout :=
  ofLength content.length (dots (q.width - Scalar.ofNat 2 * q.padding))
    (dots (position.x + q.padding)) (dots (position.y + q.padding)) maxCell

/-- The left edge of the symbol. -/
def x (l : QrLayout) : Int64 := l.originX + l.offset

/-- The top edge of the symbol. -/
def y (l : QrLayout) : Int64 := l.originY + l.offset

/-- The thickness of the border around a QR code, in dots. -/
def borderDots : Int64 := 2

end QrLayout

end ThermalLabel
