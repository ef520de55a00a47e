import ThermalLabel.CommandLine.Options
import ThermalLabel.Printer.Language
import ThermalLabel.LabelSize
import ThermalLabel.Transport.Device
import ThermalLabel.Variables

/-! # Commands

What the command line can ask for: to compile a label, to print one, to write the starter layout as
a template, and to list what is on offer. -/

namespace ThermalLabel.CommandLine

/-- Where a label comes from, and how it is made. -/
structure Source where
  /-- A template file. -/
  template : Option String
  /-- A session file; a command names one of the two at most. -/
  session : Option String
  language : Option String
  /-- Assignments of variables, as they were typed. -/
  assignments : List String
deriving DecidableEq

/-- What the command line asks for. -/
inductive Command where
  | compile (source : Source) (comments : Bool) (output : Option String)
  | print (source : Source) (device : String)
  | new (preset : String) (output : Option String)
  | presets
deriving DecidableEq

/-! ### Parsing -/

/-- The options of a source. -/
def sourceOptions : List OptionSpec :=
  [{ name := "session" }, { name := "lang" }, { name := "var", repeats := true }]

/-- The option that names a file to write. -/
def outputOption : OptionSpec := { name := "output", letter := some 'o' }

/-- A path, which is not empty. -/
def isPath (path : String) : Bool := !path.isEmpty

/-- The source among the parts of a command line. It does not name both a template and a session. -/
def source? (items : List Item) : Option Source :=
  let source : Source := {
    template := (operands items).head?
    session := value? "session" items
    language := value? "lang" items
    assignments := values "var" items }
  if source.template.isSome && source.session.isSome then none
  else if source.template.all isPath && source.session.all isPath then some source
  else none

/-- The file to write among the parts of a command line, if one is named. -/
def output? (items : List Item) : Option (Option String) :=
  let output := value? "output" items
  if output.all isPath then some output else none

/-- The command of a list of arguments; nothing if they do not make one. -/
def Command.parse? : List String → Option Command
  | "compile" :: args => do
    let flag : OptionSpec := { name := "comments", takesValue := false }
    let items ← CommandLine.parse? (sourceOptions ++ [flag, outputOption]) 1 args
    return .compile (← source? items) (hasFlag "comments" items) (← output? items)
  | "print" :: args => do
    let items ← CommandLine.parse? (sourceOptions ++ [{ name := "device" }]) 1 args
    return .print (← source? items) ((value? "device" items).getD Device.defaultPath)
  | "new" :: args => do
    let items ← CommandLine.parse? [{ name := "preset" }, outputOption] 0 args
    return .new ((value? "preset" items).getD LabelSize.defaultName) (← output? items)
  | "presets" :: args => do
    let _ ← CommandLine.parse? [] 0 args
    return .presets
  | _ => none

/-! ### Assignments -/

/-- A name of a variable as a token: it gets braces, unless it has them. -/
def tokenOf (name : String) : String :=
  let cs := name.toList
  if cs.head? == some '\x7b' && cs.getLast? == some '\x7d' then name else Variables.token name

/-- The token and the value of an assignment. The name ends at the first equals sign, and blanks
around it do not count. -/
def assignment (text : String) : Except Error (String × String) :=
  match splitAtEquals text.toList with
  | (_, none) => .error (.invalidArgument (.notAssignment text))
  | (name, some value) =>
    let name := Text.trim (String.ofList name)
    if name.isEmpty then .error (.invalidArgument (.emptyVariableName text))
    else .ok (tokenOf name, String.ofList value)

/-- The variables of a list of assignments, the last one for each name. -/
def assignedVariables (texts : List String) : Except Error Variables :=
  (texts.mapM assignment).map StringMap.ofList

end ThermalLabel.CommandLine
