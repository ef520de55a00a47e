import ThermalLabel.Document.Basic
import ThermalLabel.Job.QrLayout
import ThermalLabel.Variables

/-! # Page mode commands

A job for a receipt printer in page mode: a print area, every element at an absolute position, the
page and a cut. Page mode draws no lines, so boxes and borders are left out; a box leaves a note.

A command is bytes and a label that describes it. Lengths are little-endian, and data that a length
field cannot count is cut off, so that the length always fits the data that follows. -/

namespace ThermalLabel.EscPos

/-- Escape, the first byte of a command. -/
def esc : UInt8 := 0x1B

/-- Group separator, the first byte of a command. -/
def gs : UInt8 := 0x1D

/-- The low and the high byte of a word. -/
def word (n : UInt16) : List UInt8 := [n.toUInt8, (n >>> 8).toUInt8]

/-- The longest barcode data: its length byte counts two bytes more. -/
def maxBarcodeData : Nat := 253

/-- The longest QR data: its length field counts three bytes more. -/
def maxQrData : Nat := 65532

/-- The width of a barcode module in dots. -/
def moduleWidth : UInt8 := 2

/-- Text as printable ASCII; every other character is a question mark. -/
def ascii (text : String) : List UInt8 :=
  text.toList.map fun c => if 0x20 ≤ c.toNat && c.toNat ≤ 0x7E then c.toUInt8 else '?'.toUInt8

/-! ### Bytes -/

/-- The print area from the origin. -/
def printAreaBytes (width height : UInt16) : List UInt8 :=
  [esc, 0x57, 0, 0, 0, 0] ++ word width ++ word height

/-- A truth value as a byte. -/
def flag (b : Bool) : UInt8 := if b then 1 else 0

/-- A QR function: the length of what follows, the symbol type, the function and its parameters. -/
def qrFunction (code : UInt8) (parameters : List UInt8) : List UInt8 :=
  [gs, 0x28, 0x6B] ++ word (min (parameters.length + 2) 65535).toUInt16 ++ [0x31, code] ++
    parameters

/-- QR data to be stored, as much as the length field can count. -/
def qrStoreBytes (data : List UInt8) : List UInt8 := qrFunction 0x50 (0x30 :: data.take maxQrData)

/-- Barcode height; a height of nothing is one dot. -/
def barcodeHeightBytes (dots : UInt8) : List UInt8 := [gs, 0x68, max dots 1]

/-- A Code 128 barcode in code set B, with as much data as the length byte can count. -/
def code128Bytes (data : List UInt8) : List UInt8 :=
  let data := data.take maxBarcodeData
  [gs, 0x6B, 0x49, (data.length + 2).toUInt8, 0x7B, 0x42] ++ data

/-! ### Commands -/

/-- The commands of a job. -/
inductive Command where
  | reset
  | pageMode
  | printArea (width height : UInt16)
  | verticalPosition (y : UInt16)
  | horizontalPosition (x : UInt16)
  | selectFont (small : Bool)
  | emphasis (on : Bool)
  | text (content : String)
  | lineFeed
  | qrModel
  | qrCell (dots : UInt8)
  | qrCorrection
  | qrStore (content : String)
  | qrPrint
  | barcodeHeight (dots : UInt8)
  | barcodeModule (dots : UInt8)
  | code128 (content : String)
  | formFeed
  | cut
  /-- A description without bytes. -/
  | note (label : String)
deriving DecidableEq

namespace Command

/-- The bytes of a command. -/
def bytes : Command → List UInt8
  | .reset => [esc, 0x40]
  | .pageMode => [esc, 0x4C]
  | .printArea width height => printAreaBytes width height
  | .verticalPosition y => [gs, 0x24] ++ word y
  | .horizontalPosition x => [esc, 0x24] ++ word x
  | .selectFont small => [esc, 0x4D, flag small]
  | .emphasis on => [esc, 0x45, flag on]
  | .text content => ascii content
  | .lineFeed => [0x0A]
  | .qrModel => qrFunction 0x41 [0x32, 0x00]
  | .qrCell dots => qrFunction 0x43 [dots]
  | .qrCorrection => qrFunction 0x45 [0x30]
  | .qrStore content => qrStoreBytes (Text.utf8 content)
  | .qrPrint => qrFunction 0x51 [0x30]
  | .barcodeHeight dots => barcodeHeightBytes dots
  | .barcodeModule dots => [gs, 0x77, dots]
  | .code128 content => code128Bytes (ascii content)
  | .formFeed => [0x0C]
  | .cut => [gs, 0x56, 0x00]
  | .note _ => []

/-- What a command does. -/
def label : Command → String
  | .reset => "Initialize printer"
  | .pageMode => "Select page mode"
  | .printArea width height =>
    "Print area " ++ toString width.toNat ++ "x" ++ toString height.toNat ++ " dots"
  | .verticalPosition y => "Set Y position " ++ toString y.toNat
  | .horizontalPosition x => "Set X position " ++ toString x.toNat
  | .selectFont small => if small then "Font B" else "Font A"
  | .emphasis on => if on then "Bold on" else "Bold off"
  | .text content => "Text \"" ++ content ++ "\""
  | .lineFeed => "Line feed"
  | .qrModel => "QR model 2"
  | .qrCell dots => "QR cell size " ++ toString dots.toNat
  | .qrCorrection => "QR error correction L"
  | .qrStore content => "QR store " ++ toString (min content.utf8ByteSize maxQrData) ++ " bytes"
  | .qrPrint => "QR print"
  | .barcodeHeight dots => "Barcode height " ++ toString dots.toNat
  | .barcodeModule dots => "Barcode module width " ++ toString dots.toNat
  | .code128 content => "Code 128 \"" ++ content ++ "\""
  | .formFeed => "Print page"
  | .cut => "Full cut"
  | .note label => label

end Command

/-! ### Elements -/

/-- A number of dots held within `0 … 65535`. -/
def clampWord (n : Int64) : UInt16 := (min (max n 0) 65535).toInt.toNat.toUInt16

/-- A number of dots held within `1 … 255`. -/
def clampByte (n : Int64) : UInt8 := (min (max n 1) 255).toInt.toNat.toUInt8

/-- The commands that set a position. -/
def moveTo (x y : UInt16) : List Command := [.verticalPosition y, .horizontalPosition x]

variable {α : Type} [Scalar α]

/-- A length as a word of dots. -/
def dotsWord (millimetres : α) : UInt16 := clampWord (dots millimetres)

/-- Text below ten points is set in the smaller font. -/
def isSmall (t : TextBody α) : Bool := Scalar.lt t.fontSize (Scalar.ofNat 10)

/-- The commands of a QR code at a position. -/
def qrCommands (position : Point α) (q : QrBody α) (content : String) : List Command :=
  let layout := QrLayout.of position q content none
  moveTo (clampWord layout.x) (clampWord layout.y) ++
    [.qrModel, .qrCell (clampByte layout.cell), .qrCorrection, .qrStore content, .qrPrint]

/-- The commands of a body at a position. -/
def bodyCommands (position : Point α) (vars : Variables) : Body α → List Command
  | .text t =>
    moveTo (dotsWord position.x) (dotsWord position.y) ++
      [.selectFont (isSmall t), .emphasis (t.fontWeight == .bold), .text (vars.resolve t.content),
        .lineFeed]
  | .qrcode q => qrCommands position q (vars.resolve q.content)
  | .barcode b =>
    moveTo (dotsWord position.x) (dotsWord position.y) ++
      [.barcodeHeight (clampByte (dots b.height)), .barcodeModule moduleWidth,
        .code128 (vars.resolve b.content)]
  | .box _ => [.note "Box skipped (no page-mode rule command)"]

/-- The commands of an element. -/
def elementCommands (vars : Variables) (e : Element α) : List Command :=
  bodyCommands e.position vars e.body

/-- The commands of a job. -/
def commands (d : Document α) (vars : Variables) : List Command :=
  [.reset, .pageMode, .printArea (dotsWord d.labelSize.width) (dotsWord d.labelSize.height)] ++
    d.elements.flatMap (elementCommands vars) ++ [.formFeed, .cut]

/-! ### Renderings -/

/-- The bytes of a job. -/
def compileBytes (d : Document α) (vars : Variables) : List UInt8 :=
  (commands d vars).flatMap Command.bytes

/-- A command with its description. -/
def Command.line (c : Command) : String :=
  if c.bytes.isEmpty then "// " ++ c.label else Text.hexBytes c.bytes ++ " // " ++ c.label

/-- A job in hexadecimal: all bytes on one line, or one line per command with its description. -/
def compile (d : Document α) (vars : Variables) (comments : Bool) : String :=
  if comments then "\n".intercalate ((commands d vars).map Command.line)
  else Text.hexBytes (compileBytes d vars)

end ThermalLabel.EscPos
