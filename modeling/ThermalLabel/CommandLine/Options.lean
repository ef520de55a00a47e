/-! # Options on a command line

Arguments are read from left to right. An option begins with two dashes, or with one dash and a
letter; its value is what follows an equals sign or is joined to the letter, else the next argument,
which must not look like an option. Everything behind two bare dashes is an operand. -/

namespace ThermalLabel.CommandLine

/-- An option that a command knows. -/
structure OptionSpec where
  name : String
  letter : Option Char := none
  takesValue : Bool := true
  /-- Whether it may be given more than once. -/
  repeats : Bool := false

/-- A part of a command line. -/
inductive Item where
  | option (name value : String)
  | flag (name : String)
  | operand (text : String)
deriving DecidableEq

/-- Whether an argument can be the value of the option before it: it does not begin with a dash, or
is only a dash. -/
def isValue (arg : String) : Bool :=
  match arg.toList with
  | '-' :: _ :: _ => false
  | _ => true

/-- An argument that names an option: the specification, and the value joined to it. -/
structure Named where
  spec : OptionSpec
  joined : Option String

/-- A text split at its first equals sign. -/
def splitAtEquals (cs : List Char) : List Char × Option (List Char) :=
  match cs.dropWhile (· != '=') with
  | [] => (cs, none)
  | _ :: value => (cs.takeWhile (· != '='), some value)

/-- An option written in full, after its two dashes. -/
def longOption? (specs : List OptionSpec) (cs : List Char) : Option Named :=
  let (name, joined) := splitAtEquals cs
  (specs.find? fun spec => spec.name.toList == name).map fun spec =>
    ⟨spec, joined.map String.ofList⟩

/-- The value joined to a letter, with or without an equals sign; nothing if there is none. -/
def joinedToLetter : List Char → Option String
  | [] => none
  | '=' :: value => some (String.ofList value)
  | value => some (String.ofList value)

/-- An option written as a letter, after its dash. -/
def letterOption? (specs : List OptionSpec) (letter : Char) (rest : List Char) : Option Named :=
  (specs.find? fun spec => spec.letter == some letter).map fun spec => ⟨spec, joinedToLetter rest⟩

/-- What an argument is: an operand, an option, or nothing that is known. -/
def classify (specs : List OptionSpec) (arg : String) : Option (Option Named) :=
  match arg.toList with
  | '-' :: '-' :: cs => (longOption? specs cs).map some
  | '-' :: letter :: rest => (letterOption? specs letter rest).map some
  | _ => some none

/-- The parts of a command line, the first argument being the value of the option `waiting` if there
is one. Nothing if an option is unknown, lacks its value or has one too many. -/
def items? (specs : List OptionSpec) : Option String → List String → Option (List Item)
  | none, [] => some []
  | some _, [] => none
  | some name, value :: rest =>
    if isValue value then (items? specs none rest).map (.option name value :: ·) else none
  | none, arg :: rest =>
    if arg == "--" then some (rest.map .operand)
    else
      match classify specs arg with
      | none => none
      | some none => (items? specs none rest).map (.operand arg :: ·)
      | some (some ⟨spec, joined⟩) =>
        match spec.takesValue, joined with
        | true, none => items? specs (some spec.name) rest
        | true, some value => (items? specs none rest).map (.option spec.name value :: ·)
        | false, none => (items? specs none rest).map (.flag spec.name :: ·)
        | false, some _ => none

/-! ### Items by name -/

/-- The values of an option in order. -/
def values (name : String) (items : List Item) : List String :=
  items.filterMap fun item =>
    match item with
    | .option n value => if n == name then some value else none
    | _ => none

/-- The value of an option. -/
def value? (name : String) (items : List Item) : Option String := (values name items).head?

/-- Whether a flag is given. -/
def hasFlag (name : String) (items : List Item) : Bool := items.contains (.flag name)

/-- The operands in order. -/
def operands (items : List Item) : List String :=
  items.filterMap fun item =>
    match item with
    | .operand text => some text
    | _ => none

/-- How often an option or a flag is given. -/
def count (name : String) (items : List Item) : Nat :=
  (items.filter fun item =>
    match item with
    | .option n _ => n == name
    | .flag n => n == name
    | .operand _ => false).length

/-- The parts of a command line in which only what may be repeated is, with at most as many operands
as are allowed. -/
def parse? (specs : List OptionSpec) (maxOperands : Nat) (args : List String) :
    Option (List Item) :=
  (items? specs none args).filter fun items =>
    (specs.all fun spec => spec.repeats || count spec.name items ≤ 1) &&
      (operands items).length ≤ maxOperands

end ThermalLabel.CommandLine
