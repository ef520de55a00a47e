import ThermalLabel.Text.Hex

/-! # Calendar and timestamps

Dates of the Gregorian calendar carried back without end, days counted from 1 January 1970, and
points in time with nanoseconds. -/

namespace ThermalLabel

/-- A date. -/
structure Date where
  year : Int
  month : Nat
  day : Nat
deriving DecidableEq

/-- The time on a clock. -/
structure ClockTime where
  hour : Nat
  minute : Nat
  second : Nat
deriving DecidableEq

namespace Date

/-- Whether a year has a leap day. -/
def isLeapYear (year : Int) : Bool := year % 4 == 0 && (year % 100 != 0 || year % 400 == 0)

/-- The days of a month. -/
def daysInMonth (year : Int) (month : Nat) : Nat :=
  if month == 2 then (if isLeapYear year then 29 else 28)
  else if month == 4 || month == 6 || month == 9 || month == 11 then 30
  else 31

/-- Whether a date is in the calendar. -/
def isValid (d : Date) : Bool :=
  1 ≤ d.month && d.month ≤ 12 && 1 ≤ d.day && d.day ≤ daysInMonth d.year d.month

/-- The days from 1 January 1970 to a date. Years are counted from March, so that a leap day comes
last. -/
def toDays (d : Date) : Int :=
  let year := if d.month ≤ 2 then d.year - 1 else d.year
  let month : Int := if d.month ≤ 2 then d.month + 9 else (d.month : Int) - 3
  year * 365 + year / 4 - year / 100 + year / 400 + (153 * month + 2) / 5 + d.day - 719469

/-- The date a number of days after 1 January 1970. -/
def ofDays (days : Int) : Date :=
  let shifted := days + 719468
  let era := shifted / 146097
  let dayOfEra := shifted % 146097
  let yearOfEra := (dayOfEra - dayOfEra / 1460 + dayOfEra / 36524 - dayOfEra / 146096) / 365
  let dayOfYear := dayOfEra - (365 * yearOfEra + yearOfEra / 4 - yearOfEra / 100)
  let monthFromMarch := (5 * dayOfYear + 2) / 153
  let month := if monthFromMarch < 10 then monthFromMarch + 3 else monthFromMarch - 9
  let year := yearOfEra + era * 400 + (if month ≤ 2 then 1 else 0)
  ⟨year, month.toNat, (dayOfYear - (153 * monthFromMarch + 2) / 5 + 1).toNat⟩

/-- A year in at least four digits, with a sign if it needs more or is below zero. -/
def yearText (year : Int) : String :=
  if 0 ≤ year ∧ year ≤ 9999 then Text.padded 4 year.toNat
  else (if year < 0 then "-" else "+") ++ Text.padded 4 year.natAbs

/-- A date as year, month and day. -/
def text (d : Date) : String :=
  yearText d.year ++ "-" ++ Text.padded 2 d.month ++ "-" ++ Text.padded 2 d.day

end Date

/-- A point in time. During a leap second the nanoseconds run on past a billion. -/
structure Timestamp where
  /-- Seconds from the start of 1970 at Greenwich. -/
  seconds : Int
  nanoseconds : Nat
deriving DecidableEq

namespace Timestamp

/-- A second has a billion nanoseconds. -/
def billion : Nat := 1000000000

/-- The point in time a number of milliseconds after the start of 1970, within the years that are
supported. -/
def ofMilliseconds? (ms : Int) : Option Timestamp :=
  let seconds := ms / 1000
  let year := (Date.ofDays (seconds / 86400)).year
  if -262143 ≤ year ∧ year ≤ 262142 then some ⟨seconds, (ms % 1000).toNat * 1000000⟩ else none

/-- The fraction of a second in three, six or nine digits, as few as are exact. -/
def fractionText (nanoseconds : Nat) : String :=
  if nanoseconds == 0 then ""
  else if nanoseconds % 1000000 == 0 then "." ++ Text.padded 3 (nanoseconds / 1000000)
  else if nanoseconds % 1000 == 0 then "." ++ Text.padded 6 (nanoseconds / 1000)
  else "." ++ Text.padded 9 nanoseconds

/-- A point in time as text, at Greenwich. -/
def text (t : Timestamp) : String :=
  let secondOfDay := (t.seconds % 86400).toNat
  let second := secondOfDay % 60 + t.nanoseconds / billion
  (Date.ofDays (t.seconds / 86400)).text ++ "T" ++ Text.padded 2 (secondOfDay / 3600) ++ ":" ++
    Text.padded 2 (secondOfDay / 60 % 60) ++ ":" ++ Text.padded 2 second ++
    fractionText (t.nanoseconds % billion) ++ "Z"

/-! ### Reading -/

/-- The number of a row of exactly `n` digits at the front of a text, and what follows it. -/
def takeDigits? (n : Nat) (cs : List Char) : Option (Nat × List Char) :=
  let digits := cs.take n
  if digits.length == n && digits.all Char.isDigit then
    some (digits.foldl (fun v c => v * 10 + (c.toNat - 48)) 0, cs.drop n)
  else none

/-- A character at the front of a text taken away. -/
def expect? (c : Char) : List Char → Option (List Char)
  | d :: rest => if c == d then some rest else none
  | [] => none

/-- The nanoseconds of a fraction, of which nine digits count. -/
def takeFraction? : List Char → Option (Nat × List Char)
  | '.' :: rest =>
    let digits := rest.takeWhile Char.isDigit
    if digits.isEmpty then none
    else
      let counted := digits.take 9
      let value := counted.foldl (fun v c => v * 10 + (c.toNat - 48)) 0
      some (value * Nat.pow 10 (9 - counted.length), rest.dropWhile Char.isDigit)
  | cs => some (0, cs)

/-- The seconds that a clock is ahead of Greenwich. -/
def takeOffset? : List Char → Option (Int × List Char)
  | [] => none
  | c :: rest => do
    if c == 'Z' || c == 'z' then return (0, rest)
    let sign ← if c == '+' then some (1 : Int) else if c == '-' || c == '−' then some (-1) else none
    let (hours, rest) ← takeDigits? 2 rest
    let rest ← expect? ':' rest
    let (minutes, rest) ← takeDigits? 2 rest
    if hours < 24 ∧ minutes < 60 then return (sign * ((hours * 60 + minutes) * 60 : Nat), rest)
    else none

/-- A point in time from a text with date, time and offset. The sixtieth second is a leap second. -/
def parse? (s : String) : Option Timestamp := do
  let (year, cs) ← takeDigits? 4 s.toList
  let cs ← expect? '-' cs
  let (month, cs) ← takeDigits? 2 cs
  let cs ← expect? '-' cs
  let (day, cs) ← takeDigits? 2 cs
  let cs ← match cs with
    | c :: cs => if c == 'T' || c == 't' || c == ' ' then some cs else none
    | [] => none
  let (hour, cs) ← takeDigits? 2 cs
  let cs ← expect? ':' cs
  let (minute, cs) ← takeDigits? 2 cs
  let cs ← expect? ':' cs
  let (second, cs) ← takeDigits? 2 cs
  let (nanoseconds, cs) ← takeFraction? cs
  let (offset, cs) ← takeOffset? cs
  let date : Date := ⟨year, month, day⟩
  if !cs.isEmpty || !date.isValid || hour > 23 || minute > 59 || second > 60 then none
  else
    let leap := second / 60
    let secondOfDay : Int := (hour * 60 + minute) * 60 + (second - leap)
    return ⟨date.toDays * 86400 + secondOfDay - offset, nanoseconds + leap * billion⟩

end Timestamp

/-- What the clocks show: a point in time, and date and time of day where the operator is. -/
structure Clock where
  timestamp : Timestamp
  date : Date
  time : ClockTime
deriving DecidableEq

end ThermalLabel
