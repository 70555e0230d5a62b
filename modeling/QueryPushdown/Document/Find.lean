import QueryPushdown.Document.Conjunction

/-!
# Finds

A find reads one collection in fixed stages: filter, sort, skip, limit, projection, and then a
count or the choice of a single element.
-/

namespace QueryPushdown

/-- How a document becomes an element of the result. -/
inductive Projection where
  /-- The whole document. -/
  | element
  /-- What stands at a dotted path. -/
  | path (path : String)
  | record (fields : List (String × Projection))
  deriving Inhabited

/-- The choice of one element. -/
inductive Single where
  /-- The only element; `default` stands in for none, and `context` names the request in errors. -/
  | one (default : Option Value) (context : String)
  /-- The element at a position. -/
  | index (position : Nat)

structure Find where
  collection : String
  /-- The empty filter matches everything. -/
  filter : Filter := []
  /-- Paths, each with `1` to ascend or `-1` to descend, the most significant first. -/
  sort : Document := []
  skip : Nat := 0
  limit : Option Nat := none
  projection : Option Projection := none
  count : Bool := false
  single : Option Single := none

namespace Projection

mutual

def text : Projection → String
  | element => "$$ROOT"
  | path p => "$" ++ p
  | record fields =>
    if fields.isEmpty then "\x7b \x7d"
    else "\x7b " ++ ", ".intercalate (fieldTexts fields) ++ " \x7d"

def fieldTexts : List (String × Projection) → List String
  | [] => []
  | (name, p) :: rest => (name ++ ": " ++ p.text) :: fieldTexts rest

end

end Projection

def Single.text : Single → String
  | .one _ _ => ".one()"
  | .index position => s!".index({position})"

namespace Find

/-- Whether documents are skipped or limited, so that later filters and sorts change the result. -/
def isWindowed (q : Find) : Bool := q.skip > 0 || q.limit.isSome

/-- The greatest number of documents to skip. -/
def maxSkip : Nat := 2 ^ 64 - 1

/-- Narrows the documents to those from `start` up to `stop`, counted among those kept so far. -/
def slice (q : Find) (start stop : Option Int64) : Find :=
  let first := (start.getD 0).toInt.toNat
  let wanted := stop.map fun stop => stop.toInt.toNat - first
  let remaining := q.limit.map fun limit => limit - first
  { q with
    skip := min (q.skip + first) maxSkip
    limit := match remaining, wanted with
      | some remaining, some wanted => some (min remaining wanted)
      | some limit, none => some limit
      | none, limit => limit }

/-- The written form, stage by stage. -/
def text (q : Find) : String :=
  String.join [
    s!"{q.collection}.find({q.filter.written})",
    if q.sort.isEmpty then "" else s!".sort({q.sort.written})",
    if q.skip > 0 then s!".skip({q.skip})" else "",
    (q.limit.map fun limit => s!".limit({limit})").getD "",
    (q.projection.map fun p => s!".project({p.text})").getD "",
    if q.count then ".count()" else "",
    (q.single.map Single.text).getD ""]

end Find

end QueryPushdown
