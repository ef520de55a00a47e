import ThermalLabel.Document.Basic
import ThermalLabel.Job.QrLayout
import ThermalLabel.Variables

/-! # Caret commands

A job for a printer with caret commands. Every element is a field: its origin, the command that
draws it, its data and a separator. Data with a caret, a tilde or an underscore is announced by
`^FH` and has these characters as `_` and two hexadecimal digits, so that content cannot end a
field. Bold text is struck twice, one dot apart. -/

namespace ThermalLabel.Zpl

/-- The commands of a job. Positions and lengths are in dots. -/
inductive Command where
  | startFormat
  | printWidth (width : Int64)
  | tearOff
  | fieldOrigin (x y : Int64)
  | scalableFont (height : Int64)
  | barcodeDefaults
  | code128 (height : Int64)
  | graphicBox (width height thickness : Int64)
  | qrcode (magnification : Int64)
  | hexIndicator
  /-- Data as it stands in the job. -/
  | fieldData (written : String)
  | fieldSeparator
  | endFormat
deriving DecidableEq

/-- A whole number as text. -/
def int (n : Int64) : String := toString n.toInt

/-- The text of a command. -/
def Command.text : Command → String
  | .startFormat => "^XA"
  | .printWidth width => "^PW" ++ int width
  | .tearOff => "^MMT"
  | .fieldOrigin x y => "^FO" ++ int x ++ "," ++ int y
  | .scalableFont height => "^A0N," ++ int height ++ "," ++ int height
  | .barcodeDefaults => "^BY2"
  | .code128 height => "^BCN," ++ int height ++ ",Y,N,N"
  | .graphicBox width height thickness =>
    "^GB" ++ int width ++ "," ++ int height ++ "," ++ int thickness
  | .qrcode magnification => "^BQN,2," ++ int magnification
  | .hexIndicator => "^FH"
  | .fieldData written => "^FD" ++ written
  | .fieldSeparator => "^FS"
  | .endFormat => "^XZ"

/-- The characters that may not stand in data as they are. -/
def isSpecial (c : Char) : Bool := c == '^' || c == '~' || c == '_'

/-- A character of data. -/
def escape (c : Char) : List Char :=
  if isSpecial c then ['_', Text.hexDigit (c.toNat / 16), Text.hexDigit (c.toNat % 16)] else [c]

/-- The commands that carry data. -/
def dataCommands (data : String) : List Command :=
  if data.toList.any isSpecial then
    [.hexIndicator, .fieldData (String.ofList (data.toList.flatMap escape))]
  else [.fieldData data]

/-- The commands on one line. -/
abbrev Line := List Command

/-- The text of a line. -/
def lineText (l : Line) : String := String.join (l.map Command.text)

/-- The largest magnification that a printer takes. -/
def maxMagnification : Int64 := 10

variable {α : Type} [Scalar α]

/-- The outline of a rectangle, corner and sides rounded to dots. -/
def outline (position : Point α) (width height : α) (thickness : Int64) : Line :=
  [.fieldOrigin (dots position.x) (dots position.y),
    .graphicBox (dots width) (dots height) thickness, .fieldSeparator]

/-- The lines of a body at a position. -/
def bodyLines (position : Point α) (vars : Variables) : Body α → List Line
  | .text t =>
    let x := dots position.x
    let strike (x : Int64) : Line :=
      .fieldOrigin x (dots position.y) :: .scalableFont (pointDots t.fontSize) ::
        dataCommands (vars.resolve t.content) ++ [.fieldSeparator]
    match t.fontWeight with
    | .normal => [strike x]
    | .bold => [strike x, strike (x + 1)]
  | .barcode b =>
    [.fieldOrigin (dots position.x) (dots position.y) :: .barcodeDefaults ::
      .code128 (dots b.height) :: dataCommands (vars.resolve b.content) ++ [.fieldSeparator]]
  | .qrcode q =>
    let content := vars.resolve q.content
    let layout := QrLayout.of position q content (some maxMagnification)
    let symbol : Line := .fieldOrigin layout.x layout.y :: .qrcode layout.cell ::
      dataCommands ("LA," ++ content) ++ [.fieldSeparator]
    if q.showBorder then [outline position q.width q.height QrLayout.borderDots, symbol]
    else [symbol]
  | .box b => [outline position b.width b.height (max (dots b.strokeWidth) 1)]

/-- The lines of an element. -/
def elementLines (vars : Variables) (e : Element α) : List Line := bodyLines e.position vars e.body

/-- The lines of a job. -/
def lines (d : Document α) (vars : Variables) : List Line :=
  [[.startFormat], [.printWidth (dots d.labelSize.width)], [.tearOff]] ++
    d.elements.flatMap (elementLines vars) ++ [[.endFormat]]

/-- The text of a job, every line ended. -/
def compile (d : Document α) (vars : Variables) : String :=
  String.join ((lines d vars).map fun l => lineText l ++ "\n")

end ThermalLabel.Zpl
