import ThermalLabel.Job.EscPos
import ThermalLabel.Job.Tspl
import ThermalLabel.Job.Zpl
import ThermalLabel.Printer.Language

/-! # Print jobs

A document with its variables becomes a job in one of the printer languages: a text to look at, and
bytes for the printer. -/

namespace ThermalLabel.Job

variable {α : Type} [Scalar α] [NumberText α]

/-- A job as text. Comments describe the commands of a binary language. -/
def compile (lang : Language) (d : Document α) (vars : Variables) (comments : Bool) : String :=
  match lang with
  | .tspl => Tspl.compile d vars
  | .zpl => Zpl.compile d vars
  | .escpos => EscPos.compile d vars comments

/-- A job in the language of a name; for an unknown name, a text that says so. -/
def compileNamed (name : String) (d : Document α) (vars : Variables) (comments : Bool) : String :=
  match Language.parse name with
  | .ok lang => compile lang d vars comments
  | .error e => "ERROR: " ++ e.message

/-- The bytes for the printer. -/
def payload (lang : Language) (d : Document α) (vars : Variables) : List UInt8 :=
  match lang with
  | .tspl => Text.utf8 (Tspl.compile d vars)
  | .zpl => Text.utf8 (Zpl.compile d vars)
  | .escpos => EscPos.compileBytes d vars

end ThermalLabel.Job
