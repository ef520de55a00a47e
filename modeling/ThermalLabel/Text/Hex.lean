/-! # Hexadecimal bytes -/

namespace ThermalLabel.Text

/-- A hexadecimal digit in upper case. -/
def hexDigit (n : Nat) : Char := if n < 10 then Char.ofNat (48 + n) else Char.ofNat (55 + n)

/-- The two hexadecimal digits of a byte. -/
def hexPair (b : UInt8) : String :=
  String.ofList [hexDigit (b.toNat / 16), hexDigit (b.toNat % 16)]

/-- Bytes as pairs of digits with blanks between them. -/
def hexBytes (bytes : List UInt8) : String := " ".intercalate (bytes.map hexPair)

/-- A number as decimal digits, with zeros in front up to a width. -/
def padded (width n : Nat) : String :=
  let digits := Nat.toDigits 10 n
  String.ofList (List.replicate (width - digits.length) '0' ++ digits)

/-- The bytes of a text in UTF-8. -/
def utf8 (s : String) : List UInt8 := s.toUTF8.toList

end ThermalLabel.Text
