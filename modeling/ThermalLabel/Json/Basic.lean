import ThermalLabel.StringMap
import ThermalLabel.Scalar

/-! # JSON values

A value is what a JSON text stands for once it is read: the members of an object are in key order
and no key repeats. Integers that fit 64 bits stay integers; every other number is a scalar. -/

namespace ThermalLabel

namespace Json

/-- A number, with the kind it was written in. -/
inductive Number (α : Type) where
  | integer (n : Int)
  | float (x : α)
deriving DecidableEq

/-- Equality of numbers; the kinds are kept apart. -/
def Number.beq {α : Type} [BEq α] : Number α → Number α → Bool
  | .integer m, .integer n => m == n
  | .float x, .float y => x == y
  | _, _ => false

/-- A number as a scalar. -/
def Number.toScalar {α : Type} [Scalar α] : Number α → α
  | .integer n => Scalar.ofInt n
  | .float x => x

end Json

/-- A JSON value. -/
inductive Json (α : Type) where
  | null
  | bool (b : Bool)
  | number (n : Json.Number α)
  | string (s : String)
  | array (items : List (Json α))
  | object (members : List (String × Json α))

namespace Json

variable {α : Type}

instance : Inhabited (Json α) := ⟨.null⟩

/-- An integer value. -/
def int (n : Int) : Json α := .number (.integer n)

/-- A scalar value. -/
def scalar (x : α) : Json α := .number (.float x)

/-- Equality of values, numbers compared by the scalar's own test. -/
def beq [BEq α] : Json α → Json α → Bool
  | .null, .null => true
  | .bool a, .bool b => a == b
  | .number a, .number b => a.beq b
  | .string a, .string b => a == b
  | .array a, .array b => beqItems a b
  | .object a, .object b => beqMembers a b
  | _, _ => false
where
  /-- Equality of arrays, item by item. -/
  beqItems : List (Json α) → List (Json α) → Bool
    | [], [] => true
    | a :: as, b :: bs => beq a b && beqItems as bs
    | _, _ => false
  /-- Equality of objects, member by member. -/
  beqMembers : List (String × Json α) → List (String × Json α) → Bool
    | [], [] => true
    | (k, a) :: as, (l, b) :: bs => k == l && beq a b && beqMembers as bs
    | _, _ => false

instance [BEq α] : BEq (Json α) := ⟨beq⟩

/-- The value of a member. -/
def member? (k : String) : Json α → Option (Json α)
  | .object members => (members.find? fun e => e.1 == k).map Prod.snd
  | _ => none

/-- Whether a value is `null`. -/
def isNull : Json α → Bool
  | .null => true
  | _ => false

/-- An object with the members of a list, the last one for each key. -/
def ofMembers (members : List (String × Json α)) : Json α :=
  .object (members.foldl (fun acc e => insertEntry e.1 e.2 acc) [])

end Json

end ThermalLabel
