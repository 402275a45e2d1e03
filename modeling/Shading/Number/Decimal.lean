/-
Decimal literals and the numbers they stand for. A literal is kept as its
digits, because what it means depends on who reads it: an integer field takes
only a literal without point and exponent, while a field of single precision
takes any literal.

A literal that is not an integer of 64 bits is read in double precision first,
in two roundings. Its digits are gathered into a 64-bit significand, later
digits only moving the decimal point; the significand is rounded to double
precision and then multiplied or divided by a power of ten that is itself
rounded. Single precision is reached by rounding that result once more.
-/

import Shading.Number.Binary32

namespace Shading

abbrev Digit := Fin 10

namespace Digit

/-- The last digit of a number. -/
def ofNat (number : Nat) : Digit := Fin.ofNat 10 number

def zero : Digit := ofNat 0

end Digit

/-- A decimal literal: digits before and after the point, and the exponent if
one is written. -/
structure Literal where
  negative : Bool
  whole : List Digit
  fraction : List Digit
  exponent : Option Int
deriving DecidableEq, Inhabited

namespace Literal

def ofDigits (digits : List Digit) : Nat :=
  digits.foldl (fun total digit => 10 * total + digit.val) 0

/-- The decimal digits of a number, without leading zeros. -/
def digits (number : Nat) : List Digit :=
  (Nat.toDigits 10 number).map fun char => Digit.ofNat (char.toNat - 48)

/-- A non-negative integer written in decimal. -/
def ofNat (number : Nat) : Literal := ⟨false, digits number, [], none⟩

/-! ### Text -/

def digitText (digits : List Digit) : List Char := digits.map fun digit => digit.val.digitChar

/-- An exponent is written with its sign. -/
def exponentText : Option Int → List Char
  | none => []
  | some exponent =>
    'e' :: (if exponent < 0 then '-' else '+') :: digitText (digits exponent.natAbs)

def text (literal : Literal) : List Char :=
  (if literal.negative then ['-'] else []) ++ digitText literal.whole ++
    (if literal.fraction = [] then [] else '.' :: digitText literal.fraction) ++
    exponentText literal.exponent

/-! ### Integers -/

/-- The integer a literal denotes, if it is written as one and fits a 64-bit
word; negative integers fit a signed word, and negative zero is not one. -/
def integer? (literal : Literal) : Option Int :=
  if literal.fraction = [] ∧ literal.exponent = none then
    let size := ofDigits literal.whole
    if literal.negative then
      if 0 < size ∧ size ≤ UInt64.size / 2 then some (-(size : Int)) else none
    else if size < UInt64.size then some size else none
  else none

/-- A literal as a natural number below `bound`. -/
def natural? (literal : Literal) (bound : Nat) : Option Nat :=
  match literal.integer? with
  | some (.ofNat number) => if number < bound then some number else none
  | _ => none

/-! ### Double precision -/

/-- Takes digits while the significand stays below `2 ^ 64`; the second result
counts the digits that no longer fit. -/
def gather (significand : Nat) : List Digit → Nat × Nat
  | [] => (significand, 0)
  | digit :: rest =>
    let next := 10 * significand + digit.val
    if next < UInt64.size then gather next rest else (significand, rest.length + 1)

/-- The significand and the power of ten that scales it. Digits after the point
are gathered onto the same significand, each one lowering the power. -/
def significand (literal : Literal) : Nat × Int :=
  let (whole, dropped) := gather 0 literal.whole
  let (all, unused) := gather whole literal.fraction
  (all, (dropped : Int) - (literal.fraction.length - unused : Nat))

/-- An exponent counts up to the largest 31-bit number. -/
def exponentLimit : Int := 0x7FFFFFFF

def roundDouble (fraction : Nat × Nat) : Scaled :=
  Precision.double.round fraction.1 fraction.2

/-- A power of ten in double precision. -/
def powerOfTen (exponent : Nat) : Scaled := roundDouble (Nat.pow 10 exponent, 1)

def timesPower (number : Scaled) (exponent : Nat) : Scaled :=
  let (top, bottom) := number.fraction
  let (powerTop, powerBottom) := (powerOfTen exponent).fraction
  roundDouble (top * powerTop, bottom * powerBottom)

def overPower (number : Scaled) (exponent : Nat) : Scaled :=
  let (top, bottom) := number.fraction
  let (powerTop, powerBottom) := (powerOfTen exponent).fraction
  roundDouble (top * powerBottom, bottom * powerTop)

/-- Scales a significand by a power of ten, in steps of at most `10 ^ 308`.
Two such steps down leave nothing of a 64-bit significand. -/
def scaleDouble (significand : Nat) (exponent : Int) : Option Scaled :=
  let start := roundDouble (significand, 1)
  if 308 < exponent then if significand = 0 then some start else none
  else if 0 ≤ exponent then
    let scaled := timesPower start exponent.toNat
    if scaled.overflows 1024 then none else some scaled
  else if -308 ≤ exponent then some (overPower start (-exponent).toNat)
  else if -616 ≤ exponent then
    some (overPower (overPower start 308) (-exponent - 308).toNat)
  else some (roundDouble (0, 1))

/-- The magnitude of a literal in double precision, or nothing if it is too large. -/
def double? (literal : Literal) : Option Scaled :=
  let (significand, shift) := literal.significand
  let written := literal.exponent.getD 0
  if exponentLimit < written then
    if significand = 0 then some (roundDouble (0, 1)) else none
  else if written < -exponentLimit then some (roundDouble (0, 1))
  else scaleDouble significand (shift + written)

/-! ### Single precision -/

def narrow (negative : Bool) (number : Scaled) : Binary32 :=
  let (top, bottom) := number.fraction
  Binary32.ofQuotient negative top bottom

/-- A literal read for a field of single precision. An integer of 64 bits is
rounded once, anything else goes through double precision. -/
def single? (literal : Literal) : Option Binary32 :=
  match literal.integer? with
  | some number => some (Binary32.ofQuotient (number < 0) number.natAbs 1)
  | none => literal.double?.map (narrow literal.negative)

/-- A literal read in double precision throughout, and narrowed at the end. -/
def narrowed? (literal : Literal) : Option Binary32 :=
  match literal.integer? with
  | some number => some (narrow (number < 0) (roundDouble (number.natAbs, 1)))
  | none => literal.double?.map (narrow literal.negative)

end Literal

end Shading
