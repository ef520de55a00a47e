import ThermalLabel.Decimal.Shortest

/-! # Styles of decimal text

A style says where positional text ends and powers of ten begin, whether whole numbers keep a point,
and which of two equally near shortest decimals is written. -/

namespace ThermalLabel.Decimal

/-- How a decimal is written. -/
structure Style where
  /-- The decimal exponents that are written without a power of ten; `none` for all of them. -/
  positional : Option (Int × Int)
  /-- Whole numbers end in `.0`. -/
  keepPoint : Bool
  tie : Tie

/-- A row of zeros. -/
def zeros (n : Nat) : String := String.ofList (List.replicate n '0')

namespace Digits

/-- The digits of the significand. -/
def text (d : Digits) : List Char := Nat.toDigits 10 d.significand

/-- The exponent of the first digit. -/
def leading (d : Digits) : Int := d.exponent + d.text.length - 1

/-- Without a power of ten: zeros fill the places between the digits and the point. -/
def positional (keepPoint : Bool) (d : Digits) : String :=
  let digits := d.text
  match d.exponent with
  | .ofNat e => String.ofList digits ++ zeros e ++ (if keepPoint then ".0" else "")
  | .negSucc e =>
    let places := e + 1
    if places < digits.length then
      String.ofList (digits.take (digits.length - places)) ++ "." ++
        String.ofList (digits.drop (digits.length - places))
    else "0." ++ zeros (places - digits.length) ++ String.ofList digits

/-- With a power of ten: one digit before the point, and the exponent with its sign. -/
def scientific (d : Digits) : String :=
  let digits := d.text
  let fraction := if digits.length ≤ 1 then "" else "." ++ String.ofList (digits.drop 1)
  let sign := if d.leading < 0 then "-" else "+"
  String.ofList (digits.take 1) ++ fraction ++ "e" ++ sign ++ toString d.leading.natAbs

end Digits

/-- A positive decimal in a style. -/
def Style.write (s : Style) (d : Digits) : String :=
  match s.positional with
  | none => d.positional s.keepPoint
  | some (least, greatest) =>
    if least ≤ d.leading ∧ d.leading ≤ greatest then d.positional s.keepPoint else d.scientific

/-- Zero in a style. -/
def Style.zero (s : Style) : String := if s.keepPoint then "0.0" else "0"

end ThermalLabel.Decimal
