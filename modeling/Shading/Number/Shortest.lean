/-
The shortest decimal that reads back as a given single-precision number, and
the layouts in which it is written. Choosing the digits is arithmetic: a
decimal reads back as the number if it lies in the interval of reals that
round to it, so for one digit, two digits, and so on the two neighbours of the
number on that decimal grid are tried, and the first grid with a hit wins. Of
two hits the nearer is taken, and a `Tie` says which one when both are equally
near. Where the point and the exponent go is a separate matter, decided by a
`Layout`, which turns the digits into a literal.
-/

import Shading.Number.Decimal

namespace Shading

/-- Decimal digits without trailing zeros, read with the point after the first
one and scaled by `10 ^ exponent`. -/
structure Digits where
  digits : List Digit
  exponent : Int
deriving DecidableEq, Inhabited

/-- The choice between two grid points that are equally near. -/
inductive Tie where
  | toEven
  | up
deriving DecidableEq, Inhabited

/-- Whether the upper point is taken when the lower one is the multiple `count`
of the grid's step. -/
def Tie.takesUpper (tie : Tie) (count : Nat) : Bool :=
  match tie with
  | .toEven => count % 2 = 1
  | .up => true

namespace Digits

def zero : Digits := ⟨[Digit.zero], 0⟩

def dropTrailingZeros (digits : List Digit) : List Digit :=
  (digits.reverse.dropWhile (·.val = 0)).reverse

/-- `count * 10 ^ grid` in normal form. -/
def ofGrid (count : Nat) (grid : Int) : Digits :=
  let written := Literal.digits count
  ⟨dropTrailingZeros written, grid + written.length - 1⟩

/-- Four times the number and the two ends of the interval that rounds to it,
over one denominator. The interval below a power of two is half as wide. -/
structure Interval where
  low : Nat
  middle : Nat
  high : Nat
  denominator : Nat
  closed : Bool

def interval (number : Scaled) : Interval :=
  let below := if number.significand = Binary32.leadingBit ∧ -149 < number.exponent then 1 else 2
  let quarters (count : Nat) : Nat :=
    if 2 ≤ number.exponent then count * Nat.pow 2 (number.exponent - 2).toNat else count
  let denominator := if 2 ≤ number.exponent then 1 else Nat.pow 2 (2 - number.exponent).toNat
  ⟨quarters (4 * number.significand - below), quarters (4 * number.significand),
    quarters (4 * number.significand + 2), denominator, number.significand % 2 = 0⟩

/-- Puts the numerator `value` over the interval's denominator and the multiple
`count` of `10 ^ grid` on one scale. -/
def compareScale (interval : Interval) (value count : Nat) (grid : Int) : Nat × Nat :=
  if 0 ≤ grid then (value, count * Nat.pow 10 grid.toNat * interval.denominator)
  else (value * Nat.pow 10 (-grid).toNat, count * interval.denominator)

def contains (interval : Interval) (count : Nat) (grid : Int) : Bool :=
  let (low, atLow) := compareScale interval interval.low count grid
  let (high, atHigh) := compareScale interval interval.high count grid
  if interval.closed then low ≤ atLow && atHigh ≤ high else low < atLow && atHigh < high

/-- The number rounded down to the grid. -/
def floorOn (interval : Interval) (grid : Int) : Nat :=
  let (value, one) := compareScale interval interval.middle 1 grid
  value / one

/-- Whether the upper of two neighbouring grid points is taken: it is the nearer
one, or the tie goes to it. -/
def takesUpper (tie : Tie) (interval : Interval) (count : Nat) (grid : Int) : Bool :=
  let (value, below) := compareScale interval interval.middle count grid
  let (_, above) := compareScale interval interval.middle (count + 1) grid
  let down := value - below
  let up := above - value
  up < down || (up = down && tie.takesUpper count)

def onGrid? (tie : Tie) (interval : Interval) (grid : Int) : Option Nat :=
  let lower := floorOn interval grid
  let lowerFits := contains interval lower grid
  let upperFits := contains interval (lower + 1) grid
  if lowerFits && upperFits then
    some (if takesUpper tie interval lower grid then lower + 1 else lower)
  else if lowerFits then some lower
  else if upperFits then some (lower + 1)
  else none

/-- The exponent of the leading decimal digit of a number above `10 ^ (-46)`. -/
def leadingExponent (interval : Interval) : Int :=
  ((Literal.digits (floorOn interval (-46))).length : Int) - 47

/-- Tries grids from coarse to fine; nine digits always suffice. -/
def search (tie : Tie) (interval : Interval) (leading : Int) : Nat → Nat → Digits
  | 0, count => ofGrid (floorOn interval (leading - count)) (leading - count)
  | fuel + 1, count =>
    match onGrid? tie interval (leading - count) with
    | some hit => ofGrid hit (leading - count)
    | none => search tie interval leading fuel (count + 1)

/-- The shortest digits of the magnitude of a finite number. -/
def ofMagnitude (tie : Tie) (number : Binary32) : Digits :=
  if number.magnitude = 0 then zero
  else
    let interval := interval number.scaled
    search tie interval (leadingExponent interval) 9 0

end Digits

/-! ### Layouts -/

/-- How a number is written: the exponents of the leading digit written in
positional notation (no bound means all), whether an integer keeps a point and
a zero, and where a tie between two shortest forms goes. -/
structure Layout where
  lowest : Option Int
  highest : Option Int
  keepsPoint : Bool
  tie : Tie

namespace Layout

def isPositional (layout : Layout) (exponent : Int) : Bool :=
  layout.lowest.all (fun bound => bound ≤ exponent) &&
    layout.highest.all (fun bound => exponent ≤ bound)

def zeros (count : Nat) : List Digit := List.replicate count Digit.zero

/-- All digits around the point, with zeros in the places they do not reach. -/
def positional (layout : Layout) (negative : Bool) (digits : Digits) : Literal :=
  if digits.exponent < 0 then
    ⟨negative, [Digit.zero], zeros (-digits.exponent - 1).toNat ++ digits.digits, none⟩
  else
    let places := digits.exponent.toNat + 1
    if digits.digits.length ≤ places then
      ⟨negative, digits.digits ++ zeros (places - digits.digits.length),
        if layout.keepsPoint then [Digit.zero] else [], none⟩
    else ⟨negative, digits.digits.take places, digits.digits.drop places, none⟩

/-- One digit, the rest after the point, and an exponent. -/
def scientific (negative : Bool) (digits : Digits) : Literal :=
  ⟨negative, digits.digits.take 1, digits.digits.drop 1, some digits.exponent⟩

/-- A finite number in the given layout; a zero keeps its sign. -/
def literal (layout : Layout) (number : Binary32) : Literal :=
  let digits := Digits.ofMagnitude layout.tie number
  if layout.isPositional digits.exponent then layout.positional number.isNegative digits
  else scientific number.isNegative digits

end Layout

end Shading
