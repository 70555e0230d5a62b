/-!
# Binary64 numbers in exact arithmetic

A number is its 64 bits. Every finite number is an integer multiple of the least
positive one, `2 ^ (-1074)`; `units` is that integer, and rounding a rational number of
units back to bits is one function, `ofUnits`. Comparison, conversion and the four
operations are integer arithmetic around the two.
-/

namespace QueryPushdown

-- Powers of numbers are the core library's, also where an import makes the numbers a monoid.
attribute [scoped instance (high), default_instance (high + 1)] instPowNat

/-- A binary floating point number of 64 bits: sign, eleven exponent bits, 52 fraction bits. -/
structure Binary64 where
  bits : UInt64
  deriving DecidableEq, Inhabited

namespace Binary64

/-- Weight of the sign bit. -/
def signBit : Nat := 2 ^ 63

/-- Number of fraction bits, as a factor: one step of the exponent field. -/
def exponentStep : Nat := 2 ^ 52

/-- Magnitude bits of infinity; every larger magnitude is not a number. -/
def infiniteMagnitude : Nat := 2047 * exponentStep

/-- Units in the number one. -/
def unitsPerOne : Nat := 2 ^ 1074

def isNegative (x : Binary64) : Bool := signBit ≤ x.bits.toNat

/-- The bits below the sign. -/
def magnitude (x : Binary64) : Nat := x.bits.toNat % signBit

def isNaN (x : Binary64) : Bool := infiniteMagnitude < x.magnitude

def isInfinite (x : Binary64) : Bool := x.magnitude == infiniteMagnitude

def isFinite (x : Binary64) : Bool := x.magnitude < infiniteMagnitude

def isZero (x : Binary64) : Bool := x.magnitude == 0

/-- The number with this sign and these magnitude bits. -/
def ofParts (negative : Bool) (magnitude : Nat) : Binary64 :=
  ⟨UInt64.ofNat (magnitude + if negative then signBit else 0)⟩

/-- The quiet value that an operation without a numeric result produces. -/
def invalid : Binary64 := ofParts true (infiniteMagnitude + exponentStep / 2)

/-- The quiet value written `NaN` in data. -/
def nan : Binary64 := ofParts false (infiniteMagnitude + exponentStep / 2)

def infinity (negative : Bool) : Binary64 := ofParts negative infiniteMagnitude

def zero (negative : Bool) : Binary64 := ofParts negative 0

/-- Units in the number with the given magnitude bits: subnormal numbers count units one by
one, and each step of the exponent doubles the distance between neighbours. -/
def unitsOfMagnitude (magnitude : Nat) : Nat :=
  let exponent := magnitude / exponentStep
  let fraction := magnitude % exponentStep
  if exponent = 0 then fraction else (exponentStep + fraction) * 2 ^ (exponent - 1)

/-- The exact value of a finite number, in units. -/
def units (x : Binary64) : Int :=
  if x.isNegative then -(unitsOfMagnitude x.magnitude : Int) else unitsOfMagnitude x.magnitude

/-- `num / den` rounded to the nearest integer, a half going to the even neighbour. -/
def divToEven (num den : Nat) : Nat :=
  let q := num / den
  let r := num % den
  if den < 2 * r ∨ (den = 2 * r ∧ q % 2 = 1) then q + 1 else q

/-- Magnitude bits of the number nearest to `num / den` units. Numbers with more than 53
significant bits lose the low ones; a carry out of the significand moves on to the exponent,
and past the last finite number the result is infinite. -/
def magnitudeOfUnits (num den : Nat) : Nat :=
  let shift := (num / den).log2 + 1 - 53
  min (shift * exponentStep + divToEven num (den * 2 ^ shift)) infiniteMagnitude

/-- The number nearest to `num / den` units, with the given sign. -/
def ofUnits (negative : Bool) (num den : Nat) : Binary64 :=
  ofParts negative (magnitudeOfUnits num den)

/-- The number nearest to an integer. -/
def ofInt (i : Int) : Binary64 :=
  ofUnits (i < 0) (i.natAbs * unitsPerOne) 1

/-- The number nearest to `digits * 10 ^ exponent`. Exponents that leave the range of finite
numbers on either side are cut short, whatever their size. -/
def ofDecimal (negative : Bool) (digits : Nat) (exponent : Int) : Binary64 :=
  if digits = 0 then zero negative
  else
    let leading : Int := exponent + (digits.log2 * 3 / 10 : Nat)
    if 400 < leading then infinity negative
    else if exponent + (digits.log2 / 3 + 1 : Nat) < -400 then zero negative
    else if 0 ≤ exponent then ofUnits negative (digits * 10 ^ exponent.toNat * unitsPerOne) 1
    else ofUnits negative (digits * unitsPerOne) (10 ^ (-exponent).toNat)

/-- The integer that a number stands for exactly, if it is integral. -/
def toInt? (x : Binary64) : Option Int :=
  if x.isFinite ∧ x.units % unitsPerOne = 0 then some (x.units / unitsPerOne) else none

/-- Position of a number that is not `NaN` on the number line; both zeros have one position. -/
def position (x : Binary64) : Int :=
  if x.isNegative then -(x.magnitude : Int) else x.magnitude

/-- Numeric comparison, undefined when a side is not a number. -/
def compare? (x y : Binary64) : Option Ordering :=
  if x.isNaN || y.isNaN then none else some (compare x.position y.position)

/-- Numeric equality: both zeros are equal and `NaN` equals nothing. -/
def same (x y : Binary64) : Bool := x.compare? y == some .eq

/-- Rank in the total order of all bit patterns: negative `NaN`, negative numbers from
infinity to zero, positive numbers from zero to infinity, positive `NaN`. -/
def rank (x : Binary64) : Int :=
  if x.isNegative then -(x.magnitude : Int) - 1 else x.magnitude

def totalCompare (x y : Binary64) : Ordering := compare x.rank y.rank

def neg (x : Binary64) : Binary64 := ofParts (!x.isNegative) x.magnitude

/-- `x` with its quiet bit set, as an operation hands on an operand that is not a number. -/
def quiet (x : Binary64) : Binary64 := ⟨x.bits ||| UInt64.ofNat (exponentStep / 2)⟩

/-- The exact sum rounded once. A sum of zero is positive unless both operands are negative. -/
def add (x y : Binary64) : Binary64 :=
  if x.isNaN then x.quiet
  else if y.isNaN then y.quiet
  else if x.isInfinite then
    if y.isInfinite && x.isNegative != y.isNegative then invalid else x
  else if y.isInfinite then y
  else
    let sum := x.units + y.units
    if sum = 0 then zero (x.isNegative && y.isNegative)
    else ofUnits (sum < 0) sum.natAbs 1

def sub (x y : Binary64) : Binary64 :=
  if x.isNaN then x.quiet
  else if y.isNaN then y.quiet
  else x.add y.neg

/-- The exact product rounded once. -/
def mul (x y : Binary64) : Binary64 :=
  let negative := x.isNegative != y.isNegative
  if x.isNaN then x.quiet
  else if y.isNaN then y.quiet
  else if x.isInfinite || y.isInfinite then
    if x.isZero || y.isZero then invalid else infinity negative
  else ofUnits negative (x.units.natAbs * y.units.natAbs) unitsPerOne

/-- The exact quotient rounded once. -/
def div (x y : Binary64) : Binary64 :=
  let negative := x.isNegative != y.isNegative
  if x.isNaN then x.quiet
  else if y.isNaN then y.quiet
  else if x.isInfinite then
    if y.isInfinite then invalid else infinity negative
  else if y.isInfinite then zero negative
  else if y.isZero then
    if x.isZero then invalid else infinity negative
  else ofUnits negative (x.units.natAbs * unitsPerOne) y.units.natAbs

instance : Neg Binary64 := ⟨neg⟩
instance : Add Binary64 := ⟨add⟩
instance : Sub Binary64 := ⟨sub⟩
instance : Mul Binary64 := ⟨mul⟩
instance : Div Binary64 := ⟨div⟩

end Binary64

end QueryPushdown
