/-!
# Kinds of values

The kind of a value is what messages call it by. Kinds are ranked for sorting; integers and
floats share a rank.
-/

namespace QueryPushdown

inductive Kind where
  | null | bool | i64 | f64 | string | list | mapping
  deriving DecidableEq, Repr, Inhabited

namespace Kind

def text : Kind → String
  | null => "null"
  | bool => "bool"
  | i64 => "i64"
  | f64 => "f64"
  | string => "string"
  | list => "list"
  | mapping => "mapping"

def rank : Kind → Nat
  | null => 0
  | bool => 1
  | i64 | f64 => 2
  | string => 3
  | list => 4
  | mapping => 5

def isNumber : Kind → Bool
  | i64 | f64 => true
  | _ => false

end Kind

end QueryPushdown
