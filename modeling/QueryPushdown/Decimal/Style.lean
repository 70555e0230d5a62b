import QueryPushdown.Decimal.Shortest

/-!
# Written forms of floating point numbers

A `Style` holds the decisions of one written form: which magnitudes are positional, whether a
whole number keeps a fraction, how an exponent is signed, and which way a tie of two shortest
decimals goes. `Style.render` is the only printer. Three styles are in use: `literal` in
requests and messages, `plain` in documents, and `json` in JSON text.
-/

namespace QueryPushdown.Decimal

/-- The decisions of one written form. The point position of `0.5` is 0, that of `5` is 1. -/
structure Style where
  /-- Least and greatest point position written without an exponent; `none` for all. -/
  positional : Option (Int × Int)
  /-- Whole numbers end in `.0`. -/
  wholeFraction : Bool
  /-- Positive exponents carry a sign. -/
  signedExponent : Bool
  tie : Tie

/-- Numbers inside requests and messages: positional from `0.0001` to below `1e16`. -/
def Style.literal : Style := ⟨some (-3, 16), true, false, .up⟩

/-- Numbers in documents: always positional, whole numbers without a fraction. -/
def Style.plain : Style := ⟨none, false, false, .up⟩

/-- Numbers in JSON text: positional from `0.00001` to below `1e16`. -/
def Style.json : Style := ⟨some (-4, 16), true, true, .toEven⟩

/-- The decimal digits of a natural number, without leading zeros. -/
def digitChars (n : Nat) : List Char := Nat.toDigits 10 n

def zeros (n : Int) : List Char := List.replicate n.toNat '0'

/-- Digits with the point after `point` of them, padded with zeros on either side. -/
def positionalChars (wholeFraction : Bool) (digits : List Char) (point : Int) : List Char :=
  if point ≤ 0 then '0' :: '.' :: (zeros (-point) ++ digits)
  else if (digits.length : Int) ≤ point then
    digits ++ zeros (point - digits.length) ++ if wholeFraction then ['.', '0'] else []
  else digits.take point.toNat ++ '.' :: digits.drop point.toNat

/-- One digit, the others after a point, and the exponent. -/
def scientificChars (signedExponent : Bool) (digits : List Char) (point : Int) : List Char :=
  let exponent := point - 1
  let sign := if exponent < 0 then ['-'] else if signedExponent then ['+'] else []
  let fraction := match digits.drop 1 with
    | [] => []
    | rest => '.' :: rest
  digits.take 1 ++ fraction ++ 'e' :: (sign ++ digitChars exponent.natAbs)

/-- The written form of the magnitude of a finite number. -/
def Style.magnitudeChars (style : Style) (magnitude : Nat) : List Char :=
  if magnitude = 0 then if style.wholeFraction then ['0', '.', '0'] else ['0']
  else
    let d := shortest style.tie magnitude
    let digits := digitChars d.digits
    let point : Int := digits.length + d.exponent
    let isPositional := match style.positional with
      | none => true
      | some (least, greatest) => least ≤ point ∧ point ≤ greatest
    if isPositional then positionalChars style.wholeFraction digits point
    else scientificChars style.signedExponent digits point

/-- The written form of a number. -/
def Style.render (style : Style) (x : Binary64) : String :=
  if x.isNaN then "NaN"
  else
    let sign := if x.isNegative then "-" else ""
    sign ++ if x.isInfinite then "inf" else String.ofList (style.magnitudeChars x.magnitude)

end QueryPushdown.Decimal
