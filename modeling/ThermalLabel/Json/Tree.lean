import ThermalLabel.Json.Basic

/-! # JSON as written

A tree keeps what a text says before anything is made of it: the members of an object stand in their
written order and a key may repeat. A part that is well formed but stands for no value (a number out
of range, a string with half a surrogate pair, a container nested too deep) is `illegible`; it does
no harm where nobody reads it. -/

namespace ThermalLabel.Json

/-- A JSON text as written. -/
inductive Tree (α : Type) where
  | illegible
  | null
  | bool (b : Bool)
  | number (n : Number α)
  | string (s : String)
  | array (items : List (Tree α))
  | object (members : List (String × Tree α))

namespace Tree

variable {α : Type}

instance : Inhabited (Tree α) := ⟨.null⟩

/-- A value written down. -/
def ofValue : Json α → Tree α
  | .null => .null
  | .bool b => .bool b
  | .number n => .number n
  | .string s => .string s
  | .array items => .array (ofValues items)
  | .object members => .object (ofMemberValues members)
where
  /-- The items of an array written down. -/
  ofValues : List (Json α) → List (Tree α)
    | [] => []
    | v :: rest => ofValue v :: ofValues rest
  /-- The members of an object written down. -/
  ofMemberValues : List (String × Json α) → List (String × Tree α)
    | [] => []
    | (k, v) :: rest => (k, ofValue v) :: ofMemberValues rest

end Tree

end ThermalLabel.Json
