import QueryPushdown.Value.Compare

/-!
# Keys of scalar values

A key stands for the class of scalars that `isEq` identifies: an integral float has the key of
its integer. Lists, mappings and `NaN` have none.
-/

namespace QueryPushdown

inductive Key where
  | null
  | bool (b : Bool)
  | int (i : Int64)
  | float (bits : UInt64)
  | text (s : String)
  deriving DecidableEq

namespace Value

def key? : Value → Option Key
  | null => some .null
  | bool b => some (.bool b)
  | int i => some (.int i)
  | float x =>
    if x.isNaN then none
    else match exactInt? x with
      | some i => some (.int i)
      | none => some (.float x.bits)
  | text s => some (.text s)
  | list _ | mapping _ => none

end Value

end QueryPushdown
