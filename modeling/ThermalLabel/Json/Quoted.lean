/-! # JSON strings

Between its quotes a string is a row of plain characters and escapes. A `\u` escape gives a UTF-16
unit, so that two of them may stand for one character; half of such a pair stands for nothing and
makes the string illegible.

In writing only quotes, backslashes and the control characters below U+0020 are escaped. -/

namespace ThermalLabel.Json.Quoted

/-- One piece of a string as written. -/
inductive Piece where
  /-- A character that stands for itself or is named by a short escape. -/
  | plain (c : Char)
  /-- A UTF-16 unit. -/
  | unit (n : Nat)
deriving DecidableEq

/-- The value of a hexadecimal digit. -/
def hexDigit? (c : Char) : Option Nat :=
  if c.isDigit then some (c.toNat - '0'.toNat)
  else if 'a' ≤ c ∧ c ≤ 'f' then some (c.toNat - 'a'.toNat + 10)
  else if 'A' ≤ c ∧ c ≤ 'F' then some (c.toNat - 'A'.toNat + 10)
  else none

/-- The unit for four hexadecimal digits. -/
def unit? (a b c d : Char) : Option Nat :=
  match hexDigit? a, hexDigit? b, hexDigit? c, hexDigit? d with
  | some a, some b, some c, some d => some (((a * 16 + b) * 16 + c) * 16 + d)
  | _, _, _, _ => none

/-- The character named by a short escape. -/
def shortEscape? : Char → Option Char
  | '"' => some '"'
  | '\\' => some '\\'
  | '/' => some '/'
  | 'b' => some '\x08'
  | 'f' => some '\x0c'
  | 'n' => some '\n'
  | 'r' => some '\r'
  | 't' => some '\t'
  | _ => none

/-- The pieces up to the closing quote, and what follows it. The pieces read so far are held in
reverse. Control characters may not stand for themselves. -/
def scan (read : List Piece) : List Char → Option (List Piece × List Char)
  | [] => none
  | '"' :: rest => some (read.reverse, rest)
  | '\\' :: 'u' :: a :: b :: c :: d :: rest =>
    match unit? a b c d with
    | some n => scan (.unit n :: read) rest
    | none => none
  | '\\' :: e :: rest =>
    match shortEscape? e with
    | some c => scan (.plain c :: read) rest
    | none => none
  | c :: rest => if c.toNat < 0x20 || c == '\\' then none else scan (.plain c :: read) rest

/-- A unit that opens a pair. -/
def isLeading (n : Nat) : Bool := 0xD800 ≤ n && n ≤ 0xDBFF

/-- A unit that closes a pair. -/
def isTrailing (n : Nat) : Bool := 0xDC00 ≤ n && n ≤ 0xDFFF

/-- The characters that pieces stand for, after those read so far in reverse, unless a half of a
pair stands alone. -/
def characters (read : List Char) : List Piece → Option (List Char)
  | [] => some read.reverse
  | .plain c :: rest => characters (c :: read) rest
  | .unit m :: .unit n :: rest =>
    if isLeading m then
      if isTrailing n then
        characters (Char.ofNat (0x10000 + (m - 0xD800) * 0x400 + (n - 0xDC00)) :: read) rest
      else none
    else if isTrailing m then none
    else characters (Char.ofNat m :: read) (.unit n :: rest)
  | .unit m :: rest =>
    if isLeading m || isTrailing m then none else characters (Char.ofNat m :: read) rest

/-- The string after an opening quote, `none` if it is illegible, and what follows the closing
quote. -/
def read (cs : List Char) : Option (Option String × List Char) :=
  (scan [] cs).map fun (pieces, rest) => ((characters [] pieces).map String.ofList, rest)

/-! ### Writing -/

/-- A hexadecimal digit in lower case. -/
def hexChar (n : Nat) : Char := if n < 10 then Char.ofNat (48 + n) else Char.ofNat (87 + n)

/-- A character as it stands in a string. -/
def escape (c : Char) : List Char :=
  match c with
  | '"' => ['\\', '"']
  | '\\' => ['\\', '\\']
  | '\x08' => ['\\', 'b']
  | '\x0c' => ['\\', 'f']
  | '\n' => ['\\', 'n']
  | '\r' => ['\\', 'r']
  | '\t' => ['\\', 't']
  | c =>
    if c.toNat < 0x20 then ['\\', 'u', '0', '0', hexChar (c.toNat / 16), hexChar (c.toNat % 16)]
    else [c]

/-- A string between quotes. -/
def write (s : String) : String :=
  String.ofList ('"' :: s.toList.flatMap escape ++ ['"'])

end ThermalLabel.Json.Quoted
