import QueryPushdown.Document.Find
import QueryPushdown.Document.Matching
import QueryPushdown.Eval.Sorting

/-!
# Answers of finds

`Find.answer` runs a find over the documents of its collection, in storage order. All documents are
matched before any is projected, and only those inside the window are projected.
-/

namespace QueryPushdown

namespace Projection

/-- What stands at a path of fields, each of which must be there. -/
def read (v : Value) : List String → Outcome Value
  | [] => .ok v
  | name :: rest => do read (← v.field name) rest

mutual

/-- The projection of an element. -/
def apply (element : Value) : Projection → Outcome Value
  | .element => .ok element
  | .path p => read element (pathNames p)
  | .record fields => do pure (.mapping (← applyFields element fields))

def applyFields (element : Value) :
    List (String × Projection) → Outcome (List (String × Value))
  | [] => pure []
  | (name, p) :: rest => do
    let first ← p.apply element
    pure ((name, first) :: (← applyFields element rest))

end

end Projection

/-- The element that is chosen. -/
def Single.choose (elements : List Value) : Single → Outcome Value
  | .one default context =>
    match elements, default with
    | [v], _ => .ok v
    | [], some v => .ok v
    | [], none => .error (.ofCause (.emptyResult context))
    | _, _ => .error (.ofCause (.multipleResults context))
  | .index position =>
    match elements[position]? with
    | some v => .ok v
    | none =>
      .error (.ofCause (.indexOutOfRange (Int64.ofNat position).toInt elements.length))

namespace Find

/-- The elements of documents that pass a filter. -/
def matched (f : Filter) : List Document → Outcome (List Value)
  | [] => pure []
  | d :: rest => do
    let element ← d.toValue
    let accepted ← Filter.accepts element f
    let others ← matched f rest
    pure (if accepted then element :: others else others)

/-- Whether a sort direction descends. -/
def isDescending : Bson → Bool
  | .int32 i => i < 0
  | .int64 i => i < 0
  | .double x => x.isNegative && !x.isZero && !x.isNaN
  | _ => false

/-- The order of two elements by one path after the other. Absent fields count as null. -/
def compareBy (a b : Value) : Document → Ordering
  | [] => .eq
  | (path, direction) :: rest =>
    (Sorting.directed (isDescending direction)
      ((a.atPath path).totalCompare (b.atPath path))).then (compareBy a b rest)

/-- Elements in the order of the sort keys, stably. -/
def sorted (sort : Document) (elements : List Value) : List Value :=
  if sort.isEmpty then elements
  else Sorting.stable (fun a b => compareBy a b sort == .lt) elements

/-- The elements inside the window. -/
def window (q : Find) (elements : List Value) : List Value :=
  let rest := elements.drop q.skip
  match q.limit with
  | some limit => rest.take limit
  | none => rest

/-- The elements, projected. -/
def projected (projection : Option Projection) (elements : List Value) : Outcome (List Value) :=
  match projection with
  | some p => elements.mapM p.apply
  | none => .ok elements

/-- What a find gives on the documents of its collection. -/
def answer (q : Find) (documents : List Document) : Outcome Value := do
  let elements ← matched q.filter documents
  let elements ← projected q.projection (q.window (sorted q.sort elements))
  if q.count then pure (.int (Int64.ofNat elements.length))
  else match q.single with
    | none => pure (.list elements)
    | some s => s.choose elements

end Find

end QueryPushdown
