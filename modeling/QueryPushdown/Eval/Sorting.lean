import QueryPushdown.Value.Compare

/-!
# Sorting rows

Rows carry the values of their sort keys, the most significant first. Sorting is stable: each row
is inserted behind the rows before it that it does not precede. Keys of one direction are compared
together; keys of both directions are sorted one after the other, the least significant first.
-/

namespace QueryPushdown

/-- An element with the values of its sort keys. -/
structure Row where
  keys : List Value
  value : Value

namespace Sorting

variable {α : Type}

/-- Inserts into rows in reverse order, in front of those that `x` does not precede. -/
def insertBack (less : α → α → Bool) (x : α) : List α → List α
  | [] => [x]
  | y :: ys => if less x y then y :: insertBack less x ys else x :: y :: ys

/-- Stable sort. -/
def stable (less : α → α → Bool) (xs : List α) : List α :=
  (xs.foldl (fun sorted x => insertBack less x sorted) []).reverse

def directed (descending : Bool) (o : Ordering) : Ordering := if descending then o.swap else o

/-- First difference of two lists of keys, as far as both go. -/
def compareKeys : List Value → List Value → Ordering
  | a :: as, b :: bs => (a.totalCompare b).then (compareKeys as bs)
  | _, _ => .eq

/-- Whether all directions are the same. -/
def isUniform : List Bool → Bool
  | a :: b :: rest => a == b && isUniform (b :: rest)
  | _ => true

/-- Sorts by the key at place `i`. -/
def byKey (rows : List Row) (i : Nat) (descending : Bool) : List Row :=
  stable (fun a b => directed descending
    ((a.keys[i]?.getD .null).totalCompare (b.keys[i]?.getD .null)) == .lt) rows

/-- Sorts by the keys from place `i` on, one after the other, the last one first. -/
def byKeysFrom (rows : List Row) : Nat → List Bool → List Row
  | _, [] => rows
  | i, descending :: rest => byKey (byKeysFrom rows (i + 1) rest) i descending

/-- The elements of rows sorted by their keys, each key in its direction. -/
def rows (rs : List Row) (descending : List Bool) : List Value :=
  let sorted :=
    if isUniform descending then
      stable (fun a b =>
        directed (descending.headD false) (compareKeys a.keys b.keys) == .lt) rs
    else byKeysFrom rs 0 descending
  sorted.map Row.value

end Sorting

end QueryPushdown
