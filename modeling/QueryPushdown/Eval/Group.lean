import QueryPushdown.Eval.Pull
import QueryPushdown.Value.Key

/-!
# Distinct values and groups

Both remember values by key for as long as every value has one. The first value without a key
makes them compare with `Value.isEq` for the rest of the sequence.
-/

namespace QueryPushdown

/-- Values met so far, with their keys until one has none. -/
structure Seen where
  keys : Option (List Key) := some []
  values : List Value := []

namespace Seen

/-- Records a value and tells whether it is new. -/
def insert (seen : Seen) (v : Value) : Bool × Seen :=
  match seen.keys, v.key? with
  | some keys, some key =>
    if keys.contains key then (false, seen)
    else (true, ⟨some (key :: keys), seen.values ++ [v]⟩)
  | _, _ =>
    if seen.values.any (·.isEq v) then (false, { seen with keys := none })
    else (true, ⟨none, seen.values ++ [v]⟩)

end Seen

namespace Pulls

/-- Passes over the elements that were met before. -/
def distinct : Seen → Pulls → Pulls
  | _, [] => []
  | seen, p :: ps =>
    match p.item with
    | some (.ok v) =>
      let (isNew, seen) := seen.insert v
      (if isNew then p else p.passed) :: distinct seen ps
    | _ => p :: distinct seen ps

end Pulls

/-- Elements by the value they were grouped under, in order of the first member. -/
structure Groups where
  /-- The place of each key, until one value has none. -/
  places : Option (List (Key × Nat)) := some []
  groups : List (Value × List Value) := []

namespace Groups

/-- Adds an element to the group at a place, or opens a new group at the end. -/
def add : List (Value × List Value) → Nat → Value → Value → List (Value × List Value)
  | [], _, key, element => [(key, [element])]
  | (k, members) :: rest, 0, _, element => (k, members ++ [element]) :: rest
  | group :: rest, place + 1, key, element => group :: add rest place key element

/-- The place of the first group whose value is equal to `key`, or the place after the last. -/
def placeOf (groups : List (Value × List Value)) (key : Value) : Nat :=
  groups.findIdx (·.1.isEq key)

/-- Adds an element under a value. -/
def insert (g : Groups) (key element : Value) : Groups :=
  match g.places, key.key? with
  | some places, some k =>
    match places.lookup k with
    | some place => { g with groups := add g.groups place key element }
    | none => ⟨some ((k, g.groups.length) :: places), add g.groups g.groups.length key element⟩
  | _, _ => ⟨none, add g.groups (placeOf g.groups key) key element⟩

end Groups

end QueryPushdown
