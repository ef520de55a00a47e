import ThermalLabel.Element.Basic

/-! # Element ids

Sets of ids, and the supply that new ids come from. -/

namespace ThermalLabel

/-- A set of element ids, in order. -/
abbrev IdSet := StringMap Unit

namespace IdSet

/-- The ids of a list. -/
def ofIds (ids : List ElementId) : IdSet := StringMap.ofList (ids.map fun id => (id, ()))

/-- The set with an id added. -/
def add (s : IdSet) (id : ElementId) : IdSet := s.insert id ()

end IdSet

/-- Where new ids come from: an endless row of ids, and how many of them are used up. -/
structure IdSupply where
  name : Nat → ElementId
  used : Nat

namespace IdSupply

/-- The next id. -/
def next (s : IdSupply) : ElementId := s.name s.used

/-- The supply after the next id is taken. -/
def rest (s : IdSupply) : IdSupply := { s with used := s.used + 1 }

/-- A number as a row of lower-case hexadecimal digits of a width. -/
def hexDigits (width n : Nat) : List Char :=
  let digits := Nat.toDigits 16 n
  List.replicate (width - digits.length) '0' ++ digits

/-- Ids with a running number of 128 bits that starts at a seed. -/
def numbered (seed : Nat) : IdSupply where
  name n := "el-" ++ String.ofList (hexDigits 32 ((seed + n) % Nat.pow 2 128))
  used := 0

end IdSupply

end ThermalLabel
