import QueryPushdown.Request.Term

/-!
# Fields that a term reads

`Term.readSet` lists the fields of an enclosing element that a term reads. An element that is
used in any other way than through its fields counts as read whole.
-/

namespace QueryPushdown

/-- The fields of an element that are read. -/
inductive ReadSet where
  | whole
  /-- Only these, in the order they are first met. -/
  | only (fields : List String)
  deriving DecidableEq, Repr

namespace ReadSet

/-- Whether every field read is among these. -/
def within (r : ReadSet) (allowed : List String) : Bool :=
  match r with
  | whole => false
  | only fields => fields.all allowed.contains

/-- The fields read so far and one more. -/
def add (fields : List String) (name : String) : List String :=
  if fields.contains name then fields else fields ++ [name]

end ReadSet

namespace Term

mutual

/-- The fields read of the element `level` scopes outwards, added to those met before. -/
def collectReads (level : Nat) (met : List String) : Term → Option (List String)
  | step _ (context _ up) (.field name) =>
    some (if up = level then ReadSet.add met name else met)
  | context _ up => if up = level then none else some met
  | source _ _ => some met
  | literal _ _ => some met
  | record _ fields => collectFieldReads level met fields
  | step _ subject action => do
    let met ← collectReads level met subject
    collectStepReads level met action

def collectStepReads (level : Nat) (met : List String) : Step → Option (List String)
  | .binary _ rhs => collectReads level met rhs
  | .filter predicate => collectReads (level + 1) met predicate
  | .map transform => collectReads (level + 1) met transform
  | .sort keys => collectKeyReads (level + 1) met keys
  | .groupby key aggregates => do
    let met ← collectReads (level + 1) met key
    collectFieldReads (level + 1) met aggregates
  | .oneOr default => collectReads level met default
  | .field _ | .unary _ | .slice _ _ | .index _ | .distinct | .one | .aggregate _ => some met

def collectFieldReads (level : Nat) (met : List String) :
    List (String × Term) → Option (List String)
  | [] => some met
  | (_, t) :: rest => do
    let met ← collectReads level met t
    collectFieldReads level met rest

def collectKeyReads (level : Nat) (met : List String) :
    List (Term × Bool) → Option (List String)
  | [] => some met
  | (t, _) :: rest => do
    let met ← collectReads level met t
    collectKeyReads level met rest

end

/-- What a term reads of the element bound `level` scopes outwards. -/
def readSet (t : Term) (level : Nat) : ReadSet :=
  match t.collectReads level [] with
  | some fields => .only fields
  | none => .whole

end Term

end QueryPushdown
