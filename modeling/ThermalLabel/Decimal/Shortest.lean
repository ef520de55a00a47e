/-! # Shortest decimals

A positive binary number `m · 2 ^ q` stands for every real number that rounds to it. Its shortest
decimal is the one with the fewest digits among these reals and, of several, the nearest one.

The search walks down the decimal grids `10 ^ p`. On each grid only the two neighbours of the number
are tried, for if any point of the grid rounds to the number then so does one of them. All tests are
made in exact arithmetic on natural numbers. -/

namespace ThermalLabel.Decimal

/-- A decimal number `significand · 10 ^ exponent`. -/
structure Digits where
  significand : Nat
  exponent : Int
deriving DecidableEq

/-- Which of two equally near neighbours is taken. -/
inductive Tie where
  /-- The one with the even last digit. -/
  | even
  /-- The larger one. -/
  | up
deriving DecidableEq

/-- A binary number between its neighbours, all in units of a quarter of its last place: the number
is `4 · significand` units, the reals that round to it reach `below` units down and two units up,
and both ends belong to them if the significand is even. -/
structure Interval where
  significand : Nat
  exponent : Int
  below : Nat

/-- The reals that round to `m · 2 ^ q`, where `least` is the least exponent of the format and
`full` the least significand of a normal number: below such a number the neighbours are twice as
close. -/
def Interval.of (full : Nat) (least : Int) (m : Nat) (q : Int) : Interval where
  significand := m
  exponent := q
  below := if m == full && least < q then 1 else 2

namespace Interval

/-- The first natural power of `b`, if the exponent is not below zero. -/
def powUp (b : Nat) : Int → Nat
  | .ofNat e => b.pow e
  | .negSucc _ => 1

/-- The power of `b` to divide by, if the exponent is below zero. -/
def powDown (b : Nat) : Int → Nat
  | .ofNat _ => 1
  | .negSucc e => b.pow (e + 1)

/-- The neighbour of the number on the grid `10 ^ p` that rounds to it, if there is one. A quarter
of the last place is `unit / step` grid steps. -/
def onGrid (t : Tie) (i : Interval) (p : Int) : Option Nat :=
  let unit := powUp 2 (i.exponent - 2) * powDown 10 p
  let step := powDown 2 (i.exponent - 2) * powUp 10 p
  let value := 4 * i.significand * unit
  let lower := value / step
  let rest := value % step
  let closed := i.significand % 2 == 0
  let within (distance reach : Nat) : Bool := distance < reach || (closed && distance == reach)
  let lowerFits := within rest (i.below * unit)
  let upperFits := within (step - rest) (2 * unit)
  if lowerFits && upperFits then
    if 2 * rest < step then some lower
    else if step < 2 * rest then some (lower + 1)
    else match t with
      | .even => some (if lower % 2 == 0 then lower else lower + 1)
      | .up => some (lower + 1)
  else if lowerFits then some lower
  else if upperFits then some (lower + 1)
  else none

/-- The first of `fuel` grids downwards from `10 ^ p` on which a neighbour rounds to the number. -/
def search (t : Tie) (i : Interval) : Nat → Int → Option Digits
  | 0, _ => none
  | fuel + 1, p =>
    match i.onGrid t p with
    | some d => some ⟨d, p⟩
    | none => i.search t fuel (p - 1)

/-- A decimal exponent that is not below the number: `2 ^ b` is at most `10 ^ (0.30103 · b + 1)`. -/
def start (i : Interval) : Int :=
  ((i.significand.log2 : Int) + 1 + i.exponent) * 30103 / 100000 + 1

/-- The shortest decimal. Eighteen digits below the starting grid are finer than any binary64
number needs. -/
def shortest (t : Tie) (i : Interval) : Digits :=
  (i.search t 20 i.start).getD ⟨0, 0⟩

end Interval

end ThermalLabel.Decimal
