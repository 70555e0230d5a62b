import QueryPushdown.Value.Basic

/-!
# Equality and order of values

Four relations. `isEq` is the equality of requests, where `1` equals `1.0`. `strictEq` keeps
integers and floats apart. `compare?` is the order of requests and is undefined between kinds.
`totalCompare` orders all values and serves sorting; it ranks kinds and compares numbers of
mixed kinds as floats.
-/

namespace QueryPushdown.Value

/-- The integer of 64 bits that a float stands for exactly, if any. -/
def exactInt? (x : Binary64) : Option Int64 :=
  match x.toInt? with
  | some i => if -(2 ^ 63) ≤ i ∧ i < 2 ^ 63 then some (Int64.ofInt i) else none
  | none => none

mutual

/-- Equality that keeps integers and floats apart; fields are compared by name. -/
def strictEq : Value → Value → Bool
  | null, null => true
  | bool a, bool b => a == b
  | int a, int b => a == b
  | float a, float b => a.same b
  | text a, text b => a == b
  | list a, list b => strictEqItems a b
  | mapping a, mapping b => a.length == b.length && strictEqFields a b
  | _, _ => false

def strictEqItems : List Value → List Value → Bool
  | [], [] => true
  | a :: as, b :: bs => strictEq a b && strictEqItems as bs
  | _, _ => false

def strictEqFields : List (String × Value) → List (String × Value) → Bool
  | [], _ => true
  | (name, a) :: rest, other =>
    (match Fields.get? other name with
      | some b => strictEq a b
      | none => false) && strictEqFields rest other

end

instance : BEq Value := ⟨strictEq⟩

mutual

/-- Equality as requests see it: an integer equals the float that stands for it exactly. -/
def isEq : Value → Value → Bool
  | null, null => true
  | bool a, bool b => a == b
  | int a, int b => a == b
  | int a, float b => exactInt? b == some a
  | float a, int b => exactInt? a == some b
  | float a, float b => a.same b
  | text a, text b => a == b
  | list a, list b => isEqItems a b
  | mapping a, mapping b => a.length == b.length && isEqFields a b
  | _, _ => false

def isEqItems : List Value → List Value → Bool
  | [], [] => true
  | a :: as, b :: bs => isEq a b && isEqItems as bs
  | _, _ => false

def isEqFields : List (String × Value) → List (String × Value) → Bool
  | [], _ => true
  | (name, a) :: rest, other =>
    (match Fields.get? other name with
      | some b => isEq a b
      | none => false) && isEqFields rest other

end

/-- Order of two floats as requests see it. -/
def compareFloats (a b : Binary64) : Outcome Ordering :=
  match a.compare? b with
  | some o => .ok o
  | none => .error (.fault .notOrdered)

mutual

/-- Order as requests see it: numbers with numbers, texts with texts, truth values with truth
values, and lists from their first difference. -/
def compare? : Value → Value → Outcome Ordering
  | bool a, bool b => .ok (compare a b)
  | int a, int b => .ok (compare a b)
  | text a, text b => .ok (compare a b)
  | int a, float b => compareFloats (Binary64.ofInt a.toInt) b
  | float a, int b => compareFloats a (Binary64.ofInt b.toInt)
  | float a, float b => compareFloats a b
  | list a, list b => compareItems? a b
  | a, b => .error (.fault (.orderKinds a.kind b.kind))

def compareItems? : List Value → List Value → Outcome Ordering
  | [], [] => .ok .eq
  | [], _ :: _ => .ok .lt
  | _ :: _, [] => .ok .gt
  | a :: as, b :: bs => do
    match ← compare? a b with
    | .eq => compareItems? as bs
    | o => .ok o

end

mutual

/-- Order of all values. -/
def totalCompare : Value → Value → Ordering
  | bool a, bool b => compare a b
  | int a, int b => compare a b
  | text a, text b => compare a b
  | int a, float b => (Binary64.ofInt a.toInt).totalCompare b
  | float a, int b => a.totalCompare (Binary64.ofInt b.toInt)
  | float a, float b => a.totalCompare b
  | list a, list b => totalCompareItems a b
  | mapping a, mapping b => totalCompareFields a b
  | a, b => compare a.kind.rank b.kind.rank

def totalCompareItems : List Value → List Value → Ordering
  | [], [] => .eq
  | [], _ :: _ => .lt
  | _ :: _, [] => .gt
  | a :: as, b :: bs => (totalCompare a b).then (totalCompareItems as bs)

/-- Fields in order, each by name and then by value. -/
def totalCompareFields : List (String × Value) → List (String × Value) → Ordering
  | [], [] => .eq
  | [], _ :: _ => .lt
  | _ :: _, [] => .gt
  | (m, a) :: as, (n, b) :: bs =>
    ((compare m n).then (totalCompare a b)).then (totalCompareFields as bs)

end

end QueryPushdown.Value
