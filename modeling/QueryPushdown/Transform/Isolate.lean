import QueryPushdown.Request.Arena
import QueryPushdown.Value.Compare

/-!
# Isolating bindings

A binding is a conjunct that equates a field of the element with a literal, in either order.
`Request.isolate` takes the bindings out of a predicate and leaves the other conjuncts. Two
bindings of one field to different values leave nothing but the literal `false`.
-/

namespace QueryPushdown

/-- Field bindings and whatever else a predicate asks. -/
structure Isolated where
  bindings : Fields Value
  remainder : Request

namespace Isolated

/-- Whether the predicate can never hold. -/
def isUnsatisfiable (i : Isolated) : Bool := i.remainder.root.isLiteralBool false

/-- The values bound to these fields, if all of them are bound. -/
def pinned? (i : Isolated) (fields : List String) : Option (List Value) :=
  fields.mapM (Fields.get? i.bindings)

end Isolated

/-- Conjuncts met so far. -/
structure Isolating where
  bindings : Fields Value := []
  rest : List Term := []
  conflict : Bool := false

namespace Term

/-- The field and the value when a field of the element is equated with a literal. -/
def binding? : Term → Term → Option (String × Value)
  | step _ (context _ 0) (.field name), literal _ value => some (name, value)
  | _, _ => none

/-- Adds one conjunct to those met so far. -/
def isolateConjunct (met : Isolating) (t : Term) : Isolating :=
  match t with
  | step _ lhs (.binary .eq rhs) =>
    match (binding? lhs rhs).orElse fun _ => binding? rhs lhs with
    | none => { met with rest := met.rest ++ [t] }
    | some (name, value) =>
      match Fields.get? met.bindings name with
      | some bound => { met with conflict := met.conflict || !bound.isEq value }
      | none => { met with bindings := Fields.insert met.bindings name value }
  | t => { met with rest := met.rest ++ [t] }

/-- Adds the conjuncts of a predicate, left to right, to those met so far. -/
def collectBindings (met : Isolating) : Term → Isolating
  | step _ lhs (.binary .and rhs) => collectBindings (collectBindings met lhs) rhs
  | t => isolateConjunct met t

/-- The conjunction of a term with further ones, from left to right. -/
def conjoinAll (t : Term) : List Term → Alloc Term
  | [] => pure t
  | next :: rest => do
    let t ← alloc (step · t (.binary .and next))
    conjoinAll t rest

end Term

/-- Takes the bindings out of a predicate. -/
def Request.isolate (r : Request) : Isolated :=
  let met := r.root.collectBindings {}
  if met.conflict then ⟨[], .literal (.bool false)⟩
  else
    match met.rest with
    | [] => ⟨met.bindings, .literal (.bool true)⟩
    | first :: others => ⟨met.bindings, r.rebuild fun _ => first.conjoinAll others⟩

end QueryPushdown
