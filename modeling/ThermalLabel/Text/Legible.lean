import ThermalLabel.Text.Hex

/-! # Bytes made legible

Bytes are read as a text in UTF-8. Where they are none, a replacement character stands for as many
of them as could have begun a character. -/

namespace ThermalLabel.Text

/-- What must follow a byte that begins a character of several bytes: how many bytes, and between
which bounds the first of them lies. -/
def followers? (lead : UInt8) : Option (Nat × UInt8 × UInt8) :=
  if lead < 0xC2 then none
  else if lead < 0xE0 then some (1, 0x80, 0xBF)
  else if lead == 0xE0 then some (2, 0xA0, 0xBF)
  else if lead == 0xED then some (2, 0x80, 0x9F)
  else if lead < 0xF0 then some (2, 0x80, 0xBF)
  else if lead == 0xF0 then some (3, 0x90, 0xBF)
  else if lead < 0xF4 then some (3, 0x80, 0xBF)
  else if lead == 0xF4 then some (3, 0x80, 0x8F)
  else none

/-- The bytes at the front that can follow, at most `n`: the first between the bounds, the others
any that may stand inside of a character. -/
def takeFollowers : Nat → UInt8 → UInt8 → List UInt8 → List UInt8
  | n + 1, low, high, b :: rest =>
    if low ≤ b && b ≤ high then b :: takeFollowers n 0x80 0xBF rest else []
  | _, _, _, _ => []

/-- The character of a lead byte and the bytes after it: each of these holds six bits, and the lead
byte one bit less for each byte of the character, after the first. -/
def assembled (lead : UInt8) (tail : List UInt8) : Char :=
  let first := lead.toNat % Nat.pow 2 (6 - tail.length)
  Char.ofNat (tail.foldl (fun n b => n * 64 + b.toNat % 64) first)

/-- The character that stands for bytes that are none. -/
def replacement : Char := Char.ofNat 0xFFFD

/-- The first character of some bytes, and how many bytes after the first one belong to it. -/
def legibleChar (b : UInt8) (rest : List UInt8) : Char × Nat :=
  if b < 0x80 then (Char.ofNat b.toNat, 0)
  else
    match followers? b with
    | none => (replacement, 0)
    | some (n, low, high) =>
      let tail := takeFollowers n low high rest
      (if tail.length == n then assembled b tail else replacement, tail.length)

/-- The characters of some bytes. -/
def legibleChars : List UInt8 → List Char
  | [] => []
  | b :: rest =>
    let (c, used) := legibleChar b rest
    c :: legibleChars (rest.drop used)
termination_by bytes => bytes.length
decreasing_by simp only [List.length_drop, List.length_cons]; omega

/-- The text that some bytes show. -/
def legible (bytes : List UInt8) : String := String.ofList (legibleChars bytes)

end ThermalLabel.Text
