import ThermalLabel.Json.Numeral
import ThermalLabel.Json.Quoted
import ThermalLabel.Json.Tree

/-! # Reading JSON text

A text is read by recursive descent on its characters. The grammar is strict: one value with blanks
around it, no comma before a closing bracket, no bare words. A container inside 127 others is
illegible.

Every step takes at least one character, so the length of the text bounds the number of steps. -/

namespace ThermalLabel.Json

variable {α : Type}

/-- The characters that may stand between the parts of a text. -/
def isBlank (c : Char) : Bool := c == ' ' || c == '\n' || c == '\t' || c == '\r'

/-- A text without the blanks at its front. -/
def skipBlanks (cs : List Char) : List Char := cs.dropWhile isBlank

/-- How many containers a container may be inside of, counted with itself. -/
def maxDepth : Nat := 127

/-- A container at a depth; beyond the greatest depth it is illegible. -/
def atDepth (depth : Nat) (t : Tree α) : Tree α := if depth ≤ maxDepth then t else .illegible

/-- An object from its members, last one first; a name that is illegible makes it illegible. -/
def closeObject (members : List (Option String × Tree α)) : Tree α :=
  match members.mapM fun (name, t) => name.map fun k => (k, t) with
  | some members => .object members.reverse
  | none => .illegible

mutual

/-- The value at the front of a text inside of `depth` containers, and what follows it. -/
def readValue [NumberText α] : Nat → Nat → List Char → Option (Tree α × List Char)
  | 0, _, _ => none
  | fuel + 1, depth, cs =>
    match skipBlanks cs with
    | 'n' :: 'u' :: 'l' :: 'l' :: rest => some (.null, rest)
    | 't' :: 'r' :: 'u' :: 'e' :: rest => some (.bool true, rest)
    | 'f' :: 'a' :: 'l' :: 's' :: 'e' :: rest => some (.bool false, rest)
    | '"' :: rest =>
      (Quoted.read rest).map fun (s, rest) => (s.elim .illegible .string, rest)
    | '[' :: rest =>
      match skipBlanks rest with
      | ']' :: rest => some (atDepth (depth + 1) (.array []), rest)
      | rest =>
        (readItems fuel (depth + 1) [] rest).map fun (items, rest) =>
          (atDepth (depth + 1) (.array items), rest)
    | '{' :: rest =>
      match skipBlanks rest with
      | '}' :: rest => some (atDepth (depth + 1) (.object []), rest)
      | rest =>
        (readMembers fuel (depth + 1) [] rest).map fun (members, rest) =>
          (atDepth (depth + 1) (closeObject members), rest)
    | cs =>
      (Numeral.scan cs).map fun (n, rest) => (n.value.elim .illegible .number, rest)

/-- The items of an array up to its closing bracket, after those read so far in reverse. -/
def readItems [NumberText α] :
    Nat → Nat → List (Tree α) → List Char → Option (List (Tree α) × List Char)
  | 0, _, _, _ => none
  | fuel + 1, depth, read, cs =>
    match readValue fuel depth cs with
    | none => none
    | some (t, rest) =>
      match skipBlanks rest with
      | ',' :: rest => readItems fuel depth (t :: read) rest
      | ']' :: rest => some ((t :: read).reverse, rest)
      | _ => none

/-- The members of an object up to its closing brace, last one first, before those read so far. -/
def readMembers [NumberText α] :
    Nat → Nat → List (Option String × Tree α) → List Char →
      Option (List (Option String × Tree α) × List Char)
  | 0, _, _, _ => none
  | fuel + 1, depth, read, cs =>
    match skipBlanks cs with
    | '"' :: rest =>
      match Quoted.read rest with
      | none => none
      | some (name, rest) =>
        match skipBlanks rest with
        | ':' :: rest =>
          match readValue fuel depth rest with
          | none => none
          | some (t, rest) =>
            match skipBlanks rest with
            | ',' :: rest => readMembers fuel depth ((name, t) :: read) rest
            | '}' :: rest => some ((name, t) :: read, rest)
            | _ => none
        | _ => none
    | _ => none

end

section
variable [NumberText α]

@[simp]
theorem readValue_zero (depth : Nat) (cs : List Char) : readValue (α := α) 0 depth cs = none := by
  rw [readValue]

@[simp]
theorem readItems_zero (depth : Nat) (read : List (Tree α)) (cs : List Char) :
    readItems 0 depth read cs = none := by
  rw [readItems]

@[simp]
theorem readMembers_zero (depth : Nat) (read : List (Option String × Tree α)) (cs : List Char) :
    readMembers 0 depth read cs = none := by
  rw [readMembers]

end

/-- The tree of a text: one value and nothing but blanks around it. -/
def Tree.parse? [NumberText α] (text : String) : Option (Tree α) :=
  let cs := text.toList
  match readValue (cs.length + 1) 0 cs with
  | some (t, rest) => if (skipBlanks rest).isEmpty then some t else none
  | none => none

end ThermalLabel.Json
