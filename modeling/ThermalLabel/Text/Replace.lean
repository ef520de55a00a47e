/-! # Literal replacement

A text is read from left to right, and every occurrence of a pattern that does not overlap an
earlier one is replaced. -/

namespace ThermalLabel.Text

/-- The text with each occurrence of a pattern that is not empty replaced, after what is done
already, in reverse. The first `skip` characters belong to an occurrence that is replaced already.
-/
def replaceFrom (pattern replacement done : List Char) (skip : Nat) : List Char → List Char
  | [] => done.reverse
  | c :: cs =>
    match skip with
    | skip + 1 => replaceFrom pattern replacement done skip cs
    | 0 =>
      if pattern.isPrefixOf (c :: cs) then
        replaceFrom pattern replacement (replacement.reverse ++ done) (pattern.length - 1) cs
      else replaceFrom pattern replacement (c :: done) 0 cs

/-- The characters with each occurrence of a pattern replaced; the empty pattern occurs nowhere. -/
def replaceChars (pattern replacement cs : List Char) : List Char :=
  if pattern.isEmpty then cs else replaceFrom pattern replacement [] 0 cs

/-- A text with each occurrence of a pattern replaced. -/
def replace (pattern replacement s : String) : String :=
  String.ofList (replaceChars pattern.toList replacement.toList s.toList)

end ThermalLabel.Text
