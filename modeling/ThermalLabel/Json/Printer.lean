import ThermalLabel.Decimal.Text
import ThermalLabel.Json.Quoted
import ThermalLabel.Json.Tree

/-! # Writing JSON text

A tree is written on one line without blanks, or spread over lines with two blanks per level; empty
containers stay closed in both forms. Numbers without a decimal text are written as `null`. -/

namespace ThermalLabel.Json

variable {α : Type} [NumberText α]

/-- A number as text. -/
def Number.text : Number α → String
  | .integer n => toString n
  | .float x => (NumberText.json x).getD "null"

namespace Tree

/-- A tree on one line. -/
def compact : Tree α → String
  | .illegible => "null"
  | .null => "null"
  | .bool b => if b then "true" else "false"
  | .number n => n.text
  | .string s => Quoted.write s
  | .array items => "[" ++ ",".intercalate (compactItems items) ++ "]"
  | .object members => "\x7b" ++ ",".intercalate (compactMembers members) ++ "\x7d"
where
  /-- The items of an array, each on one line. -/
  compactItems : List (Tree α) → List String
    | [] => []
    | t :: rest => compact t :: compactItems rest
  /-- The members of an object, each on one line. -/
  compactMembers : List (String × Tree α) → List String
    | [] => []
    | (k, t) :: rest => (Quoted.write k ++ ":" ++ compact t) :: compactMembers rest

/-- A line break and the blanks of a level. -/
def newline (level : Nat) : String := "\n" ++ String.ofList (List.replicate (2 * level) ' ')

/-- A container spread over lines: its parts one level deeper, the closing bracket at its own level.
-/
def spread (level : Nat) (opening closing : String) : List String → String
  | [] => opening ++ closing
  | parts =>
    opening ++ newline (level + 1) ++ ("," ++ newline (level + 1)).intercalate parts ++
      newline level ++ closing

/-- A tree spread over lines, its containers closed at `level`. -/
def pretty (level : Nat) : Tree α → String
  | .array items => spread level "[" "]" (prettyItems (level + 1) items)
  | .object members => spread level "\x7b" "\x7d" (prettyMembers (level + 1) members)
  | t => compact t
where
  /-- The items of an array, each spread over lines. -/
  prettyItems (level : Nat) : List (Tree α) → List String
    | [] => []
    | t :: rest => pretty level t :: prettyItems level rest
  /-- The members of an object, each spread over lines. -/
  prettyMembers (level : Nat) : List (String × Tree α) → List String
    | [] => []
    | (k, t) :: rest => (Quoted.write k ++ ": " ++ pretty level t) :: prettyMembers level rest

end Tree

/-- A value on one line. -/
def compact (v : Json α) : String := (Tree.ofValue v).compact

end ThermalLabel.Json
