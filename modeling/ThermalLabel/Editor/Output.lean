import ThermalLabel.Editor.State
import ThermalLabel.Document.Template
import ThermalLabel.Job.Basic

/-! # Output of an editor

The jobs and the template of the current document. -/

namespace ThermalLabel.Editor

variable {α : Type} [Scalar α] [NumberText α]

/-- The variables of a job. -/
def jobVariables (e : Editor α) (now : Clock) : Variables :=
  Variables.withDefaults now.date now.time e.settings.custom

/-- The job as text. -/
def compile (e : Editor α) (now : Clock) (comments : Bool) : String :=
  Job.compile e.settings.language e.document (e.jobVariables now) comments

/-- The bytes for the printer. -/
def payload (e : Editor α) (now : Clock) : List UInt8 :=
  Job.payload e.settings.language e.document (e.jobVariables now)

/-- The text of the template. -/
def exportTemplate (e : Editor α) (now : Clock) : String :=
  (Template.ofDocument e.document now.timestamp).text

end ThermalLabel.Editor
