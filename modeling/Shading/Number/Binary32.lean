/-
Single-precision numbers, kept as their bit patterns. The bits are what gets
hashed and what a uniform buffer holds, so two patterns of the same number are
different values here; comparison as numbers is a function of its own,
`Binary32.equal`, for which no pattern of "not a number" equals anything and
the two zeros are equal. Sums and products are computed exactly and rounded
once.

Everything about binary fractions in this library -- reading decimals, adding
and multiplying, narrowing from double to single precision -- is exact
arithmetic on natural numbers followed by one call of `Precision.round`, which
rounds a quotient of natural numbers to a binary format. So there is one place
where a result is rounded, and the kernel can evaluate it.
-/

namespace Shading

/-- A binary format: how many bits a significand has, and the exponent below
which no result goes, where precision is lost instead. -/
structure Precision where
  digits : Nat
  lowest : Int

/-- The number `significand * 2 ^ exponent`. -/
structure Scaled where
  significand : Nat
  exponent : Int
deriving DecidableEq, Inhabited

namespace Precision

def single : Precision := ⟨24, -149⟩

def double : Precision := ⟨53, -1074⟩

/-- The quotient divided by a power of two, as numerator and denominator. -/
def shifted (numerator denominator : Nat) (exponent : Int) : Nat × Nat :=
  if 0 ≤ exponent then (numerator, denominator * Nat.pow 2 exponent.toNat)
  else (numerator * Nat.pow 2 (-exponent).toNat, denominator)

/-- The natural number nearest to a quotient; a tie goes to the even one. -/
def nearestEven (numerator denominator : Nat) : Nat :=
  let quotient := numerator / denominator
  let twice := 2 * (numerator % denominator)
  if twice < denominator then quotient
  else if denominator < twice then quotient + 1
  else quotient + quotient % 2

/-- Rounds `numerator / denominator`. The exponent is the one that leaves a
significand of exactly `digits` bits before rounding, or the lowest one. The
rounded significand may then reach `2 ^ digits`. -/
def round (precision : Precision) (numerator denominator : Nat) : Scaled :=
  if numerator = 0 then ⟨0, precision.lowest⟩
  else
    let guess : Int := numerator.log2 - denominator.log2 - precision.digits
    let (top, bottom) := shifted numerator denominator guess
    let exponent := if top / bottom < Nat.pow 2 precision.digits then guess else guess + 1
    let exponent := max exponent precision.lowest
    let (top, bottom) := shifted numerator denominator exponent
    ⟨nearestEven top bottom, exponent⟩

end Precision

namespace Scaled

/-- The number as a quotient. -/
def fraction (number : Scaled) : Nat × Nat :=
  if 0 ≤ number.exponent then (number.significand * Nat.pow 2 number.exponent.toNat, 1)
  else (number.significand, Nat.pow 2 (-number.exponent).toNat)

/-- Beyond the largest finite number of a format whose exponents end at `limit`. -/
def overflows (number : Scaled) (limit : Int) : Bool :=
  number.significand ≠ 0 && decide (limit ≤ number.significand.log2 + number.exponent)

end Scaled

/-- A single-precision number as its 32 bits. -/
structure Binary32 where
  bits : UInt32
deriving DecidableEq, Inhabited

namespace Binary32

def zero : Binary32 := ⟨0⟩

def one : Binary32 := ⟨0x3F800000⟩

def notANumber : Binary32 := ⟨0x7FC00000⟩

/-! ### Reading the fields -/

/-- The weight of the sign. -/
def signBit : Nat := 0x80000000

/-- The weight of the leading bit of a significand. It is not stored; what
stands above the stored bits is the exponent. -/
def leadingBit : Nat := 0x800000

def isNegative (number : Binary32) : Bool := signBit ≤ number.bits.toNat

/-- The bits without the sign; it orders the magnitudes. -/
def magnitude (number : Binary32) : Nat := number.bits.toNat % signBit

def infiniteMagnitude : Nat := 0x7F800000

def isNaN (number : Binary32) : Bool := infiniteMagnitude < number.magnitude

def isInfinite (number : Binary32) : Bool := number.magnitude = infiniteMagnitude

def isFinite (number : Binary32) : Bool := number.magnitude < infiniteMagnitude

/-- The magnitude of a finite number, its significand without trailing shifts. -/
def scaled (number : Binary32) : Scaled :=
  let biased : Nat := number.magnitude / leadingBit
  let trailing : Nat := number.magnitude % leadingBit
  if biased = 0 then ⟨trailing, -149⟩ else ⟨leadingBit + trailing, (biased : Int) - 150⟩

/-! ### Building a number -/

def withSign (negative : Bool) (magnitude : Nat) : Binary32 :=
  ⟨UInt32.ofNat (if negative then signBit + magnitude else magnitude)⟩

def infinity (negative : Bool) : Binary32 := withSign negative infiniteMagnitude

/-- Encodes a number already rounded to single precision. A significand of
`2 ^ 24` is the first one of the next exponent, which the carry into the
exponent field expresses by itself. -/
def ofScaled (negative : Bool) (number : Scaled) : Binary32 :=
  if number.overflows 128 then infinity negative
  else withSign negative ((number.exponent + 149).toNat * leadingBit + number.significand)

/-- The number nearest to a quotient. -/
def ofQuotient (negative : Bool) (numerator denominator : Nat) : Binary32 :=
  ofScaled negative (Precision.single.round numerator denominator)

/-! ### Comparison as numbers -/

/-- Orders the finite numbers and the infinities; both zeros are at zero. -/
def position (number : Binary32) : Int :=
  if number.isNegative then -(number.magnitude : Int) else number.magnitude

def equal (left right : Binary32) : Bool :=
  !left.isNaN && !right.isNaN && left.position = right.position

def less (left right : Binary32) : Bool :=
  !left.isNaN && !right.isNaN && left.position < right.position

/-! ### Arithmetic -/

/-- A finite number in units of the smallest one. -/
def units (number : Binary32) : Int :=
  let size : Nat := number.scaled.significand * Nat.pow 2 (number.scaled.exponent + 149).toNat
  if number.isNegative then -(size : Int) else size

def add (left right : Binary32) : Binary32 :=
  if left.isNaN || right.isNaN then notANumber
  else if left.isInfinite then
    if right.isInfinite && left.isNegative != right.isNegative then notANumber else left
  else if right.isInfinite then right
  else
    let sum := left.units + right.units
    if sum = 0 then withSign (left.isNegative && right.isNegative) 0
    else ofQuotient (sum < 0) sum.natAbs (Nat.pow 2 149)

def multiply (left right : Binary32) : Binary32 :=
  let negative := left.isNegative != right.isNegative
  if left.isNaN || right.isNaN then notANumber
  else if left.isInfinite || right.isInfinite then
    if left.magnitude = 0 || right.magnitude = 0 then notANumber else infinity negative
  else ofQuotient negative (left.units.natAbs * right.units.natAbs) (Nat.pow 2 298)

/-- Limits a number to the unit interval. Whatever does not exceed zero, "not a
number" included, becomes positive zero. -/
def saturate (number : Binary32) : Binary32 :=
  let raised := if less zero number then number else zero
  if less raised one then raised else one

/-- The four bytes of the pattern, least significant first. -/
def toBytes (number : Binary32) : List UInt8 :=
  [number.bits.toUInt8, (number.bits >>> 8).toUInt8, (number.bits >>> 16).toUInt8,
    (number.bits >>> 24).toUInt8]

end Binary32

end Shading
