import ThermalLabel.Decimal.Text
import ThermalLabel.Document.Basic
import ThermalLabel.Job.QrLayout
import ThermalLabel.Variables

/-! # Line commands

A job for a printer with line commands: the label, the elements in drawing order, and the end, one
command to a line. Strings stand between quotes, and a quote inside of one is written as `\["]`.
Bold text is struck twice, one dot apart. -/

namespace ThermalLabel.Tspl

/-- The commands of a job. Positions and lengths are in dots but for the label size. -/
inductive Command (α : Type) where
  | size (width height : α)
  | gap
  | direction
  | clear
  | text (x y : Int64) (font : String) (scale : Nat) (content : String)
  | barcode (x y height : Int64) (content : String)
  | qrcode (x y cell : Int64) (content : String)
  | box (left top right bottom thickness : Int64)
  | print
  | endOfProgram

/-- A string argument. -/
def quote (s : String) : String := "\"" ++ Text.replace "\"" "\\[\"]" s ++ "\""

/-- A whole number as text. -/
def int (n : Int64) : String := toString n.toInt

/-- The arguments of a command, with commas between them. -/
def arguments (args : List String) : String := ",".intercalate args

/-- The line of a command. -/
def Command.line {α : Type} [NumberText α] : Command α → String
  | .size width height =>
    "SIZE " ++ NumberText.plain width ++ " mm," ++ NumberText.plain height ++ " mm"
  | .gap => "GAP 2 mm,0 mm"
  | .direction => "DIRECTION 1"
  | .clear => "CLS"
  | .text x y font scale content =>
    "TEXT " ++ arguments
      [int x, int y, quote font, "0", toString scale, toString scale, quote content]
  | .barcode x y height content =>
    "BARCODE " ++ arguments
      [int x, int y, quote "128", int height, "1", "0", "2", "2", quote content]
  | .qrcode x y cell content =>
    "QRCODE " ++ arguments [int x, int y, "L", int cell, "A", "0", quote content]
  | .box left top right bottom thickness =>
    "BOX " ++ arguments [int left, int top, int right, int bottom, int thickness]
  | .print => "PRINT 1,1"
  | .endOfProgram => "EOP"

variable {α : Type} [Scalar α]

/-- The outline of a rectangle, each corner rounded to dots. -/
def outline (position : Point α) (width height : α) (thickness : Int64) : Command α :=
  .box (dots position.x) (dots position.y) (dots (position.x + width)) (dots (position.y + height))
    thickness

/-- The commands of a body at a position. -/
def bodyCommands (position : Point α) (vars : Variables) : Body α → List (Command α)
  | .text t =>
    let x := dots position.x
    let strike (x : Int64) : Command α :=
      .text x (dots position.y) (Font.code t.fontFamily) (Font.magnification t.fontSize)
        (vars.resolve t.content)
    match t.fontWeight with
    | .normal => [strike x]
    | .bold => [strike x, strike (x + 1)]
  | .barcode b =>
    [.barcode (dots position.x) (dots position.y) (dots b.height) (vars.resolve b.content)]
  | .qrcode q =>
    let content := vars.resolve q.content
    let layout := QrLayout.of position q content none
    let symbol : Command α := .qrcode layout.x layout.y layout.cell content
    if q.showBorder then [outline position q.width q.height QrLayout.borderDots, symbol]
    else [symbol]
  | .box b => [outline position b.width b.height (max (dots b.strokeWidth) 1)]

/-- The commands of an element. -/
def elementCommands (vars : Variables) (e : Element α) : List (Command α) :=
  bodyCommands e.position vars e.body

/-- The commands of a job. -/
def commands (d : Document α) (vars : Variables) : List (Command α) :=
  [.size d.labelSize.width d.labelSize.height, .gap, .direction, .clear] ++
    d.elements.flatMap (elementCommands vars) ++ [.print, .endOfProgram]

/-- The text of a job, every line ended. -/
def compile [NumberText α] (d : Document α) (vars : Variables) : String :=
  String.join ((commands d vars).map fun c => c.line ++ "\n")

end ThermalLabel.Tspl
