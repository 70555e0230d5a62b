import QueryPushdown.Binary64

/-!
# The fewest digits that read back

A decimal is a natural number of `digits` scaled by a power of ten. `Decimal.shortest`
finds, for a finite positive number, the grid with the fewest digits that holds a decimal
rounding to it, and of that grid the nearest decimal. All tests are exact: both sides are
scaled to integers, in half units of the binary number.
-/

namespace QueryPushdown

/-- The decimal `digits * 10 ^ exponent`. -/
structure Decimal where
  digits : Nat
  exponent : Int
  deriving DecidableEq, Repr, Inhabited

/-- Which of two equally near decimals is taken. -/
inductive Tie where
  | up | toEven
  deriving DecidableEq, Repr

namespace Decimal

/-- The decimals that round to a number, as bounds in half units. The bounds themselves round
to the number exactly when its fraction is even. -/
structure Interval where
  low : Nat
  high : Nat
  closed : Bool

/-- Halfway to the neighbours on either side. -/
def Interval.ofMagnitude (magnitude : Nat) : Interval where
  low := Binary64.unitsOfMagnitude magnitude + Binary64.unitsOfMagnitude (magnitude - 1)
  high := Binary64.unitsOfMagnitude magnitude + Binary64.unitsOfMagnitude (magnitude + 1)
  closed := magnitude % 2 == 0

/-- Half units in one step of the grid of multiples of `10 ^ exponent`, as a fraction. -/
def gridStep (exponent : Int) : Nat × Nat :=
  if 0 ≤ exponent then (2 * Binary64.unitsPerOne * 10 ^ exponent.toNat, 1)
  else (2 * Binary64.unitsPerOne, 10 ^ (-exponent).toNat)

/-- Whether `digits` steps of the grid lie in the interval. -/
def Interval.holds (i : Interval) (step : Nat × Nat) (digits : Nat) : Bool :=
  let mark := digits * step.1
  if i.closed then i.low * step.2 ≤ mark && mark ≤ i.high * step.2
  else i.low * step.2 < mark && mark < i.high * step.2

/-- The decimal of one grid that rounds to the number, if there is one: the grid point below or
the one above, whichever is nearer. -/
def onGrid? (tie : Tie) (magnitude : Nat) (exponent : Int) : Option Nat :=
  let interval := Interval.ofMagnitude magnitude
  let step := gridStep exponent
  let target := 2 * Binary64.unitsOfMagnitude magnitude * step.2
  let below := target / step.1
  let rest := target % step.1
  match interval.holds step below, interval.holds step (below + 1) with
  | true, false => some below
  | false, true => some (below + 1)
  | false, false => none
  | true, true =>
    match compare (2 * rest) step.1, tie with
    | .lt, _ => some below
    | .gt, _ => some (below + 1)
    | .eq, .up => some (below + 1)
    | .eq, .toEven => some (if below % 2 = 0 then below else below + 1)

/-- The exponent of the leading digit of a positive number of half units: the largest `e` with
`10 ^ e` at most the number, searched downwards from an upper bound. -/
def leadingExponent (halfUnits : Nat) : Nat → Int → Int
  | 0, e => e
  | fuel + 1, e =>
    let step := gridStep e
    if step.1 ≤ halfUnits * step.2 then e else leadingExponent halfUnits fuel (e - 1)

/-- An exponent at most two above that of the leading digit. -/
def leadingBound (halfUnits : Nat) : Int :=
  ((halfUnits.log2 : Int) - 1075) * 30103 / 100000 + 2

/-- The decimal without trailing zeros in its digits. -/
def trim : Nat → Decimal → Decimal
  | 0, d => d
  | fuel + 1, d =>
    if d.digits ≠ 0 ∧ d.digits % 10 = 0 then trim fuel ⟨d.digits / 10, d.exponent + 1⟩ else d

/-- The first of the grids `10 ^ leading`, `10 ^ (leading - 1)`, … with a decimal that rounds to
the number. Seventeen digits always suffice. -/
def search (tie : Tie) (magnitude : Nat) : Nat → Int → Decimal
  | 0, _ => ⟨0, 0⟩
  | fuel + 1, exponent =>
    match onGrid? tie magnitude exponent with
    | some digits => trim 20 ⟨digits, exponent⟩
    | none => search tie magnitude fuel (exponent - 1)

/-- The shortest decimal that reads back as the finite number with these magnitude bits. -/
def shortest (tie : Tie) (magnitude : Nat) : Decimal :=
  if magnitude = 0 then ⟨0, 0⟩
  else
    let halfUnits := 2 * Binary64.unitsOfMagnitude magnitude
    search tie magnitude 18 (leadingExponent halfUnits 6 (leadingBound halfUnits))

end Decimal

end QueryPushdown
