import QueryPushdown.Decimal.Scaled
import QueryPushdown.Value.Basic

/-!
# Values from JSON text

`Value.ofJson?` reads JSON text. Integers of 64 bits stay integers, all other numbers become
floats, and objects become mappings in their order, a repeated name keeping its first place and
last value.
-/

namespace QueryPushdown.Value

/-- A part that was read, and what is left of the text. -/
abbrev JsonRest (α : Type) := α × List Char

namespace Json

def isBlank (c : Char) : Bool := c == ' ' || c == '\n' || c == '\r' || c == '\t'

def blanks (cs : List Char) : List Char := cs.dropWhile isBlank

def digit? (c : Char) : Option Nat :=
  if '0' ≤ c ∧ c ≤ '9' then some (c.toNat - '0'.toNat) else none

def hex? (c : Char) : Option Nat :=
  if '0' ≤ c ∧ c ≤ '9' then some (c.toNat - '0'.toNat)
  else if 'a' ≤ c ∧ c ≤ 'f' then some (c.toNat - 'a'.toNat + 10)
  else if 'A' ≤ c ∧ c ≤ 'F' then some (c.toNat - 'A'.toNat + 10)
  else none

/-- Four hexadecimal digits. -/
def unit? : List Char → Option (JsonRest Nat)
  | a :: b :: c :: d :: rest => do
    pure ((((← hex? a) * 16 + (← hex? b)) * 16 + (← hex? c)) * 16 + (← hex? d), rest)
  | _ => none

def scalar? (n : Nat) : Option Char :=
  if h : n.isValidChar then some (Char.ofNatAux n h) else none

/-- A character written by number, a pair of surrogates where one number is not enough. -/
def numbered? (cs : List Char) : Option (JsonRest Char) := do
  let (high, rest) ← unit? cs
  if 0xD800 ≤ high ∧ high < 0xDC00 then
    match rest with
    | '\\' :: 'u' :: rest => do
      let (low, rest) ← unit? rest
      if 0xDC00 ≤ low ∧ low < 0xE000 then
        pure (← scalar? (0x10000 + (high - 0xD800) * 0x400 + (low - 0xDC00)), rest)
      else none
    | _ => none
  else pure (← scalar? high, rest)

def escaped? : List Char → Option (JsonRest Char)
  | '"' :: rest => some ('"', rest)
  | '\\' :: rest => some ('\\', rest)
  | '/' :: rest => some ('/', rest)
  | 'b' :: rest => some ('\x08', rest)
  | 'f' :: rest => some ('\x0c', rest)
  | 'n' :: rest => some ('\n', rest)
  | 'r' :: rest => some ('\r', rest)
  | 't' :: rest => some ('\t', rest)
  | 'u' :: rest => numbered? rest
  | _ => none

/-- The characters of a string after its opening quote. -/
def chars? : Nat → List Char → Option (JsonRest (List Char))
  | 0, _ => none
  | fuel + 1, cs =>
    match cs with
    | [] => none
    | '"' :: rest => some ([], rest)
    | '\\' :: rest => do
      let (c, rest) ← escaped? rest
      let (more, rest) ← chars? fuel rest
      pure (c :: more, rest)
    | c :: rest =>
      if c.toNat < 32 then none
      else do
        let (more, rest) ← chars? fuel rest
        pure (c :: more, rest)

def string? (cs : List Char) : Option (JsonRest String) := do
  let (s, rest) ← chars? (cs.length + 1) cs
  pure (String.ofList s, rest)

/-- The digits at the head of a text, at least one. -/
def digits? (cs : List Char) : Option (JsonRest (List Nat)) :=
  let (digits, rest) := cs.span fun c => (digit? c).isSome
  if digits.isEmpty then none else some (digits.filterMap digit?, rest)

/-- The exponent at the head of a text, zero when none is written. -/
def exponent? : List Char → Option (JsonRest Int)
  | c :: rest =>
    if c = 'e' ∨ c = 'E' then do
      let (negative, rest) := match rest with
        | '-' :: rest => (true, rest)
        | '+' :: rest => (false, rest)
        | rest => (false, rest)
      let (digits, rest) ← digits? rest
      let n : Nat := digits.foldl (fun n d => n * 10 + d) 0
      pure (if negative then -(n : Int) else n, rest)
    else some (0, c :: rest)
  | [] => some (0, [])

/-- An integer of 64 bits, or the nearest float. A negative zero is a float. -/
def ofInteger (negative : Bool) (n : Nat) : Value :=
  let i : Int := if negative then -(n : Int) else n
  if (negative && n == 0) || i < -(2 ^ 63) || 2 ^ 63 ≤ i then
    let x := Binary64.ofInt n
    .float (if negative then -x else x)
  else .int (Int64.ofInt i)

/-- A number after its sign. -/
def number? (negative : Bool) (cs : List Char) : Option (JsonRest Value) := do
  let (wholes, rest) ← digits? cs
  if wholes.length > 1 && wholes.head? == some 0 then none
  else
    let (fractions, rest') ← match rest with
      | '.' :: rest => digits? rest
      | rest => some ([], rest)
    let (power, rest'') ← exponent? rest'
    let s := wholes.foldl Decimal.Significand.whole {}
    if rest''.length = rest.length && !s.full then pure (ofInteger negative s.digits, rest)
    else
      let s := fractions.foldl Decimal.Significand.fraction s
      let x ← { s with exponent := s.exponent + power }.toFloat?
      pure (.float (if negative then -x else x), rest'')

mutual

/-- A value at the head of a text. -/
def value? : Nat → List Char → Option (JsonRest Value)
  | 0, _ => none
  | fuel + 1, cs =>
    match blanks cs with
    | 'n' :: 'u' :: 'l' :: 'l' :: rest => some (.null, rest)
    | 't' :: 'r' :: 'u' :: 'e' :: rest => some (.bool true, rest)
    | 'f' :: 'a' :: 'l' :: 's' :: 'e' :: rest => some (.bool false, rest)
    | '"' :: rest => do
      let (s, rest) ← string? rest
      pure (.text s, rest)
    | '[' :: rest =>
      match blanks rest with
      | ']' :: rest => some (.list [], rest)
      | rest => do
        let (items, rest) ← items? fuel rest
        pure (.list items, rest)
    | '\x7b' :: rest =>
      match blanks rest with
      | '\x7d' :: rest => some (.mapping [], rest)
      | rest => do
        let (fields, rest) ← fields? fuel rest
        pure (Value.ofEntries fields, rest)
    | '-' :: rest => number? true rest
    | rest => number? false rest

/-- Items up to the closing bracket, at least one. -/
def items? : Nat → List Char → Option (JsonRest (List Value))
  | 0, _ => none
  | fuel + 1, cs => do
    let (v, rest) ← value? fuel cs
    match blanks rest with
    | ',' :: rest => do
      let (more, rest) ← items? fuel rest
      pure (v :: more, rest)
    | ']' :: rest => pure ([v], rest)
    | _ => none

/-- Fields up to the closing brace, at least one. -/
def fields? : Nat → List Char → Option (JsonRest (List (String × Value)))
  | 0, _ => none
  | fuel + 1, cs => do
    match blanks cs with
    | '"' :: rest =>
      let (name, rest) ← string? rest
      match blanks rest with
      | ':' :: rest => do
        let (v, rest) ← value? fuel rest
        match blanks rest with
        | ',' :: rest => do
          let (more, rest) ← fields? fuel rest
          pure ((name, v) :: more, rest)
        | '\x7d' :: rest => pure ([(name, v)], rest)
        | _ => none
      | _ => none
    | _ => none

end

end Json

/-- The value that a JSON text writes. -/
def ofJson? (s : String) : Option Value := do
  let cs := s.toList
  let (v, rest) ← Json.value? (2 * cs.length + 2) cs
  if (Json.blanks rest).isEmpty then some v else none

end QueryPushdown.Value
