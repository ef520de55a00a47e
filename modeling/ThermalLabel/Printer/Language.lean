import ThermalLabel.Error
import ThermalLabel.Text.Blank
import ThermalLabel.Text.Lowercase

/-! # Printer languages -/

namespace ThermalLabel

/-- The command languages of the printers. -/
inductive Language where
  /-- Label printers with line commands. -/
  | tspl
  /-- Label printers with caret commands. -/
  | zpl
  /-- Receipt printers in page mode. -/
  | escpos
deriving DecidableEq

namespace Language

instance : Inhabited Language := ⟨.tspl⟩

/-- The languages in the order they are listed in. -/
def all : List Language := [.tspl, .zpl, .escpos]

/-- The name of a language. -/
def name : Language → String
  | .tspl => "tspl"
  | .zpl => "zpl"
  | .escpos => "escpos"

/-- The names that are read, with two older spellings. -/
def choices : List (String × Language) := [
  ("tspl", .tspl), ("zpl", .zpl), ("escpos", .escpos), ("esc-pos", .escpos), ("esc/pos", .escpos)]

/-- Whether a job in the language is a row of bytes and not a text. -/
def isBinary : Language → Bool
  | .escpos => true
  | _ => false

/-- The language for a name in any case with blanks around it. -/
def parse (s : String) : Except Error Language :=
  match choices.lookup (Text.lowercase (Text.trim s)) with
  | some lang => .ok lang
  | none => .error (.unsupportedLanguage (Text.trim s))

end Language

end ThermalLabel
