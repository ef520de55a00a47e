import ThermalLabel.Element.Ids
import ThermalLabel.Element.Patch

/-! # Sequences of elements

The elements of a label in drawing order: the first one is drawn first and lies at the back. An id
that no element has changes nothing. -/

namespace ThermalLabel

/-- Ways to move an element through the drawing order. -/
inductive Reorder where
  /-- To the end, on top of all others. -/
  | front
  /-- To the start, behind all others. -/
  | back
  /-- Past the next one. -/
  | up
  /-- Before the previous one. -/
  | down
deriving DecidableEq

namespace Reorder

/-- The name of a way. -/
def name : Reorder → String
  | .front => "front"
  | .back => "back"
  | .up => "up"
  | .down => "down"

/-- The names of the ways in JSON. -/
def choices : List (String × Reorder) := [
  ("front", .front), ("back", .back), ("up", .up), ("down", .down)]

/-- Further names of the ways. -/
def aliases : List (String × Reorder) := [("forward", .up), ("backward", .down)]

/-- The way for a name in any case. -/
def parse (s : String) : Except Error Reorder :=
  let name := Text.lowercase s
  match (choices ++ aliases).lookup name with
  | some how => .ok how
  | none => .error (.invalidArgument (.unknownReorder name))

end Reorder

namespace Sequence

variable {α : Type} [Scalar α]

/-- The ids in drawing order. -/
def ids (els : List (Element α)) : List ElementId := els.map Element.id

/-- The first element with an id. -/
def find? (els : List (Element α)) (id : ElementId) : Option (Element α) :=
  els.find? fun e => e.id == id

/-- The place of the first element with an id. -/
def indexOf? (els : List (Element α)) (id : ElementId) : Option Nat :=
  els.findIdx? fun e => e.id == id

/-- The sequence with an element on top. -/
def append (els : List (Element α)) (e : Element α) : List (Element α) := els ++ [e]

/-- The sequence without the elements of a set. -/
def without (els : List (Element α)) (ids : IdSet) : List (Element α) :=
  els.filter fun e => !ids.contains e.id

/-- The elements of a set in drawing order. -/
def selected (els : List (Element α)) (ids : IdSet) : List (Element α) :=
  els.filter fun e => ids.contains e.id

/-- The first element with an id changed. -/
def modify (f : Element α → Element α) (id : ElementId) : List (Element α) → List (Element α)
  | [] => []
  | e :: rest => if e.id == id then f e :: rest else e :: modify f id rest

/-- A list with the item at a place and the next one exchanged. -/
def swapNext {β : Type} : Nat → List β → List β
  | 0, a :: b :: rest => b :: a :: rest
  | n + 1, a :: rest => a :: swapNext n rest
  | _, l => l

/-- The sequence with the first element of an id moved. -/
def reorder (els : List (Element α)) (id : ElementId) (how : Reorder) : List (Element α) :=
  match indexOf? els id with
  | none => els
  | some i =>
    match how with
    | .front => els.eraseIdx i ++ (els[i]?).toList
    | .back => (els[i]?).toList ++ els.eraseIdx i
    | .up => swapNext i els
    | .down => if i = 0 then els else swapNext (i - 1) els

/-- Copies of the elements of a set under new ids, moved by a displacement, and the supply after. -/
def copies (ids : IdSet) (dx dy : α) :
    List (Element α) → IdSupply → List (Element α) × IdSupply
  | [], supply => ([], supply)
  | e :: rest, supply =>
    if ids.contains e.id then
      let (more, after) := copies ids dx dy rest supply.rest
      ((e.moveBy dx dy).withId supply.next :: more, after)
    else copies ids dx dy rest supply

/-- The elements with new ids where an id is empty or seen before, and the supply after. -/
def repairIds (seen : IdSet) : List (Element α) → IdSupply → List (Element α) × IdSupply
  | [], supply => ([], supply)
  | e :: rest, supply =>
    if e.id.isEmpty || seen.contains e.id then
      let (more, after) := repairIds (seen.add supply.next) rest supply.rest
      (e.withId supply.next :: more, after)
    else
      let (more, after) := repairIds (seen.add e.id) rest supply
      (e :: more, after)

/-- The elements of a set moved to the points of a map. -/
def moveAll (targets : StringMap (Point α)) (els : List (Element α)) : List (Element α) :=
  els.map fun e =>
    match targets.get? e.id with
    | some p => e.moveTo p
    | none => e

end Sequence

end ThermalLabel
