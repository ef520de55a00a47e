import ThermalLabel.Json.Tree

/-! # Reading records from JSON

Small readers for the shapes that records are made of. A record is an object, whose unknown members
are passed over and whose known members may not repeat, or an array of the fields in their order,
which may stop early but not run over; a field that is left out is `none`. A choice is one of a list
of names, or an object with that name as its only key and nothing as its value. -/

namespace ThermalLabel.Json.Tree

variable {α β : Type}

/-- A number. -/
def scalar? [Scalar α] : Tree α → Option α
  | .number n => some n.toScalar
  | _ => none

/-- A truth value. -/
def bool? : Tree α → Option Bool
  | .bool b => some b
  | _ => none

/-- A string. -/
def string? : Tree α → Option String
  | .string s => some s
  | _ => none

/-- An array, every item read. -/
def list? (item : Tree α → Option β) : Tree α → Option (List β)
  | .array items => items.mapM item
  | _ => none

/-- An object from strings to strings; of repeated keys the last counts. -/
def stringMap? : Tree α → Option (StringMap String)
  | .object members =>
    (members.mapM fun (e : String × Tree α) => (string? e.2).map fun s => (e.1, s)).map
      StringMap.ofList
  | _ => none

/-- `null`, the only value of a choice without contents. -/
def isNull : Tree α → Bool
  | .null => true
  | _ => false

/-- One of the named choices. `isUnit` says which values may stand beside the name when it is
written as a key. -/
def choice? (isUnit : Tree α → Bool) (names : List (String × β)) : Tree α → Option β
  | .string s => names.lookup s
  | .object [(k, t)] => if isUnit t then names.lookup k else none
  | _ => none

/-- A field that may be left out or `null`. -/
def optional? (read : Tree α → Option β) : Option (Tree α) → Option (Option β)
  | none => some none
  | some .null => some none
  | some t => (read t).map some

/-- A field that has a default when it is left out. -/
def orDefault? (default : β) (read : Tree α → Option β) : Option (Tree α) → Option β
  | none => some default
  | some t => read t

/-- Whether a key occurs more than once. -/
def repeats (members : List (String × Tree α)) (k : String) : Bool :=
  1 < (members.filter fun e => e.1 == k).length

/-- The fields of a record, by name. -/
structure Fields (α : Type) where
  members : List (String × Tree α)

/-- A field of a record. -/
def Fields.get? (f : Fields α) (k : String) : Option (Tree α) := f.members.lookup k

/-- A field that must be there. -/
def Fields.require? (f : Fields α) (k : String) (read : Tree α → Option β) : Option β :=
  (f.get? k).bind read

/-- The fields of a record with these names. -/
def fields? (names : List String) : Tree α → Option (Fields α)
  | .object members => if names.any (repeats members) then none else some ⟨members⟩
  | .array items => if items.length ≤ names.length then some ⟨names.zip items⟩ else none
  | _ => none

end ThermalLabel.Json.Tree
