import QueryPushdown.Binary64

/-!
# Decimal literals by one scaling

A decimal literal is read as a significand of 64 bits, rounded to a float and then scaled by a power
of ten. Digits that no longer fit into the significand are cut off. The result is the nearest float
as long as significand and power are exact, and may be a neighbour of it otherwise.
-/

namespace QueryPushdown.Decimal

/-- A significand that fits into 64 bits, and the power of ten that goes with it. -/
structure Significand where
  digits : Nat := 0
  exponent : Int := 0
  /-- Set once a digit did not fit. -/
  full : Bool := false

namespace Significand

def push (s : Significand) (digit : Nat) : Option Significand :=
  let digits := s.digits * 10 + digit
  if !s.full && digits < 2 ^ 64 then some { s with digits := digits } else none

/-- One more digit before the point. -/
def whole (s : Significand) (digit : Nat) : Significand :=
  (s.push digit).getD { s with exponent := s.exponent + 1, full := true }

/-- One more digit after the point. -/
def fraction (s : Significand) (digit : Nat) : Significand :=
  match s.push digit with
  | some s => { s with exponent := s.exponent - 1 }
  | none => { s with full := true }

/-- The significand divided by `10 ^ 308` a number of times, then by a smaller power. -/
def divided : Nat → Binary64 → Nat → Binary64
  | 0, x, _ => x
  | fuel + 1, x, power =>
    if power ≤ 308 then x / Binary64.ofDecimal false 1 power
    else if x.isZero then x
    else divided fuel (x / Binary64.ofDecimal false 1 308) (power - 308)

/-- The float a significand stands for, nothing when it is too large. -/
def toFloat? (s : Significand) : Option Binary64 :=
  let x := Binary64.ofInt s.digits
  if s.exponent < 0 then
    let power := s.exponent.natAbs
    some (divided (min power 1000) x power)
  else if s.exponent ≤ 308 then
    let y := x * Binary64.ofDecimal false 1 s.exponent
    if y.isInfinite then none else some y
  else if x.isZero then some x
  else none

end Significand

end QueryPushdown.Decimal
