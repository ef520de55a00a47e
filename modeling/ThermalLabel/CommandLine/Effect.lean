import ThermalLabel.CommandLine.Command
import ThermalLabel.Editor.Output
import ThermalLabel.Session.Store

/-! # Effects of commands

A command reads one file at most, and ends by showing a text, writing a file or sending a job, or in
an error. What it does in between is a function of what it read. -/

namespace ThermalLabel.CommandLine

/-- What the command line answers. -/
structure Output where
  code : Nat
  stdout : String
  stderr : String
deriving DecidableEq

/-- What is left to do for a command. -/
inductive Effect where
  | display (text : String)
  | write (path text : String)
  | send (device : String) (language : Language) (job : List UInt8)
deriving DecidableEq

/-- The file that a command reads. -/
def Command.input? : Command → Option String
  | .compile source _ _ => source.session.or source.template
  | .print source _ => source.session.or source.template
  | _ => none

/-- A label that is ready for its job. -/
structure Label (α : Type) where
  language : Language
  document : Document α
  vars : Variables

variable {α : Type} [Scalar α] [NumberText α]

/-- The label of a template. -/
def ofTemplate (input : Except FileFault String) (supply : IdSupply) :
    Except Error (Document α) := do
  let template ← Template.parse (← input.mapError .io)
  return (template.toDocument supply).1

/-- The label of a source, given what its file holds. A session that is missing or cannot be read is
that of a new operator; a template must be there. -/
def Source.label (source : Source) (input : Except FileFault String) (now : Clock)
    (supply : IdSupply) : Except Error (Label α) := do
  let overrides ← assignedVariables source.assignments
  let chosen ← source.language.mapM Language.parse
  if source.session.isSome then
    let stored : Store α := .file (input.toOption)
    let editor := Editor.openStored stored.load supply
    return ⟨chosen.getD editor.settings.language, editor.document,
      (editor.jobVariables now).union overrides⟩
  else
    let document ←
      if source.template.isSome then ofTemplate input supply else .ok (Document.starter supply).1
    return ⟨chosen.getD .tspl, document, Variables.withDefaults now.date now.time overrides⟩

/-- A text written to a file, or displayed if none is named. -/
def deliver (output : Option String) (text : String) : Effect :=
  match output with
  | some path => .write path text
  | none => .display text

/-- The starter layout on a stock, as a template. -/
def starterTemplate (size : LabelSize α) (now : Clock) (supply : IdSupply) : String :=
  let document := (Document.starter supply).1
  (Template.ofDocument ((document.setLabelSize? size).getD document) now.timestamp).text

/-- A name with blanks behind it up to a width. -/
def paddedRight (width : Nat) (name : String) : String :=
  name ++ String.ofList (List.replicate (width - name.length) ' ')

/-- A line of the list of stock sizes. -/
def presetLine (size : LabelSize α) : String :=
  "  " ++ paddedRight 14 size.name ++ " " ++ NumberText.plain size.width ++ " x " ++
    NumberText.plain size.height ++ " mm"

/-- The list of what is on offer. -/
def listing : String :=
  "\n".intercalate (["Label presets:"] ++ (LabelSize.presets (α := α)).map presetLine ++
    ["", "Font families:"] ++ Font.families.map ("  " ++ ·) ++
    ["", "Printer languages:"] ++ Language.all.map fun lang => "  " ++ lang.name)

/-- What is left to do for a command, given what its file holds. -/
def Command.effect (c : Command) (input : Except FileFault String) (now : Clock)
    (supply : IdSupply) : Except Error Effect :=
  match c with
  | .compile source comments output => do
    let label : Label α ← source.label input now supply
    return deliver output (Job.compile label.language label.document label.vars comments)
  | .print source device => do
    let label : Label α ← source.label input now supply
    return .send device label.language (Job.payload label.language label.document label.vars)
  | .new name output =>
    match LabelSize.preset? name with
    | some (size : LabelSize α) => .ok (deliver output (starterTemplate size now supply))
    | none => .error (.invalidArgument (.unknownPreset name))
  | .presets => .ok (.display (listing (α := α)))

/-! ### Answers -/

/-- The answer to a command that failed. -/
def failure (error : Error) : Output := ⟨1, "", "Error: " ++ error.message ++ "\n"⟩

/-- The answer to arguments that make no command. -/
def misuse : Output := ⟨2, "", "usage: compile | print | new | presets, with options\n"⟩

/-- The answer once an effect has come about. -/
def Effect.report : Effect → Output
  | .display text => ⟨0, text ++ "\n", ""⟩
  | .write path _ => ⟨0, "", "Wrote " ++ path ++ "\n"⟩
  | .send device language job =>
    let size := toString job.length
    ⟨0, "Printed " ++ size ++ " bytes of " ++ language.name ++ " to " ++ device ++ "\n", ""⟩

end ThermalLabel.CommandLine
