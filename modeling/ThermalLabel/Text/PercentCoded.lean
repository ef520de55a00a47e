import ThermalLabel.Text.Hex

/-! # Percent coding

In the path of a request a byte may stand as a percent sign with two hexadecimal digits. A percent
sign without them stands for itself. -/

namespace ThermalLabel.Text

/-- The value of a hexadecimal digit in either case. -/
def hexValue? (b : UInt8) : Option UInt8 :=
  if 48 ≤ b && b ≤ 57 then some (b - 48)
  else if 65 ≤ b && b ≤ 70 then some (b - 55)
  else if 97 ≤ b && b ≤ 102 then some (b - 87)
  else none

/-- The bytes that percent-coded bytes stand for. -/
def percentDecodeBytes : List UInt8 → List UInt8
  | 0x25 :: high :: low :: rest =>
    match hexValue? high, hexValue? low with
    | some h, some l => (16 * h + l) :: percentDecodeBytes rest
    | _, _ => 0x25 :: percentDecodeBytes (high :: low :: rest)
  | b :: rest => b :: percentDecodeBytes rest
  | [] => []

/-- The text that a percent-coded text stands for; nothing if its bytes are not a text in UTF-8. -/
def percentDecode? (s : String) : Option String :=
  String.fromUTF8? ⟨(percentDecodeBytes (utf8 s)).toArray⟩

end ThermalLabel.Text
