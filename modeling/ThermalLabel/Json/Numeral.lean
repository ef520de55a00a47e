import ThermalLabel.Decimal.Text
import ThermalLabel.Json.Basic

/-! # JSON numerals

A numeral is a whole part, an optional fraction and an optional exponent. Its significand is
collected digit by digit while it fits 64 bits: from the first digit of the whole part that does not
fit on, whole digits only raise the exponent, and from the first such digit of the fraction on, the
rest of the fraction is left out. -/

namespace ThermalLabel.Json

/-- A numeral as written; the digits are kept as characters. -/
structure Numeral where
  negative : Bool
  whole : List Char
  fraction : Option (List Char)
  /-- The sign and the digits of the exponent. -/
  exponent : Option (Bool × List Char)
deriving DecidableEq

namespace Numeral

/-- The value of a decimal digit. -/
def digit (c : Char) : Nat := c.toNat - '0'.toNat

/-- A digit appended to a significand, if the result fits 64 bits. -/
def append? (significand : Nat) (c : Char) : Option Nat :=
  let longer := significand * 10 + digit c
  if longer < Nat.pow 2 64 then some longer else none

/-- The significand of the whole digits that fit, and how many do not. -/
def takeWhole (significand : Nat) : List Char → Nat × Nat
  | [] => (significand, 0)
  | c :: rest =>
    match append? significand c with
    | some longer => takeWhole longer rest
    | none => (significand, rest.length + 1)

/-- The significand with the fraction digits that fit, and how many these are. -/
def takeFraction (significand used : Nat) : List Char → Nat × Nat
  | [] => (significand, used)
  | c :: rest =>
    match append? significand c with
    | some longer => takeFraction longer (used + 1) rest
    | none => (significand, used)

/-- The number that a row of digits stands for. -/
def ofDigits (digits : List Char) : Nat := digits.foldl (fun n c => n * 10 + digit c) 0

/-- The power of ten written at the end. -/
def power (n : Numeral) : Int :=
  match n.exponent with
  | none => 0
  | some (true, digits) => -(ofDigits digits : Int)
  | some (false, digits) => ofDigits digits

/-- The number that a numeral stands for, unless it is out of range. Without fraction and exponent
it is an integer if it fits 64 bits; minus zero is not an integer. -/
def value {α : Type} [NumberText α] (n : Numeral) : Option (Number α) :=
  let (whole, dropped) := takeWhole 0 n.whole
  match n.fraction, n.exponent, dropped with
  | none, none, 0 =>
    if !n.negative then some (.integer whole)
    else if 0 < whole && whole ≤ Nat.pow 2 63 then some (.integer (-(whole : Int)))
    else (NumberText.ofDecimal true whole 0).map .float
  | _, _, _ =>
    let (significand, used) := takeFraction whole 0 (n.fraction.getD [])
    (NumberText.ofDecimal n.negative significand (dropped - used + n.power)).map .float

/-! ### Reading a numeral -/

/-- A row of at least one digit, and what follows it. -/
def scanDigits (cs : List Char) : Option (List Char × List Char) :=
  match cs.span Char.isDigit with
  | ([], _) => none
  | (digits, rest) => some (digits, rest)

/-- The whole part: a single zero or digits that do not begin with zero. -/
def scanWhole : List Char → Option (List Char × List Char)
  | '0' :: rest => some (['0'], rest)
  | cs => scanDigits cs

/-- The fraction, if a point begins one. -/
def scanFraction : List Char → Option (Option (List Char) × List Char)
  | '.' :: rest => (scanDigits rest).map fun (digits, rest) => (some digits, rest)
  | cs => some (none, cs)

/-- The sign of an exponent, and what follows it. -/
def scanSign : List Char → Bool × List Char
  | '-' :: rest => (true, rest)
  | '+' :: rest => (false, rest)
  | cs => (false, cs)

/-- The exponent, if an `e` begins one. -/
def scanExponent : List Char → Option (Option (Bool × List Char) × List Char)
  | c :: rest =>
    if c == 'e' || c == 'E' then
      let (negative, rest) := scanSign rest
      (scanDigits rest).map fun (digits, rest) => (some (negative, digits), rest)
    else some (none, c :: rest)
  | [] => some (none, [])

/-- The numeral at the front of a text, and what follows it. -/
def scan (cs : List Char) : Option (Numeral × List Char) :=
  let (negative, cs) := match cs with
    | '-' :: rest => (true, rest)
    | cs => (false, cs)
  (scanWhole cs).bind fun (whole, cs) =>
    (scanFraction cs).bind fun (fraction, cs) =>
      (scanExponent cs).map fun (exponent, cs) => (⟨negative, whole, fraction, exponent⟩, cs)

end Numeral

end ThermalLabel.Json
