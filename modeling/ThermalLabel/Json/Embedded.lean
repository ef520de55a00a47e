import ThermalLabel.Json.Reader

/-! # Values of trees and texts

A tree stands for a value: of repeated members the last counts, and one illegible part makes the
whole illegible.

A text may be embedded in another one. An object whose first member has the reserved name is such an
embedded text: that member is its only one and holds a string, and the object stands for what the
string stands for when it is read as a text of its own. Behind another member the reserved name is a
name like any other. -/

namespace ThermalLabel.Json

variable {α : Type}

/-- The name of the member that holds an embedded text. -/
def embeddedName : String := "$serde_json::private::RawValue"

namespace Tree

/-- Whether the members of an object begin with the reserved name. -/
def beginsEmbedded : List (String × Tree α) → Bool
  | (k, _) :: _ => k == embeddedName
  | [] => false

/-- The text that is embedded: nothing may stand beside it. -/
def embeddedText? : List (String × Tree α) → Option String
  | [(_, .string s)] => some s
  | _ => none

/-- The value that a tree stands for, given what the embedded texts stand for. -/
def valueWith? (embedded? : String → Option (Json α)) : Tree α → Option (Json α)
  | .illegible => none
  | .null => some .null
  | .bool b => some (.bool b)
  | .number n => some (.number n)
  | .string s => some (.string s)
  | .array items => (values? items).map .array
  | .object members =>
    if beginsEmbedded members then (embeddedText? members).bind embedded?
    else (memberValues? members).map ofMembers
where
  /-- The values of the items of an array. -/
  values? : List (Tree α) → Option (List (Json α))
    | [] => some []
    | t :: rest => (valueWith? embedded? t).bind fun v => (values? rest).map (v :: ·)
  /-- The values of the members of an object. -/
  memberValues? : List (String × Tree α) → Option (List (String × Json α))
    | [] => some []
    | (k, t) :: rest =>
      (valueWith? embedded? t).bind fun v => (memberValues? rest).map ((k, v) :: ·)

end Tree

variable [NumberText α]

/-- The value of a text in which texts are embedded to less than a depth. -/
def valueWithin? : Nat → String → Option (Json α)
  | 0, _ => none
  | depth + 1, text => (Tree.parse? text).bind (Tree.valueWith? (valueWithin? depth))

/-- The value of a text. An embedded text is shorter than the text around it, so that the length
bounds the depth. -/
def parse? (text : String) : Option (Json α) := valueWithin? (text.length + 1) text

/-- The value that a tree stands for. -/
def Tree.value? (t : Tree α) : Option (Json α) := t.valueWith? Json.parse?

/-- A value read once more. Its members are in key order now, so that the reserved name may have
come to the front. -/
def reread? (v : Json α) : Option (Json α) := (Tree.ofValue v).value?

end ThermalLabel.Json
