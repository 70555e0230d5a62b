import QueryPushdown.Error

/-!
# Refusals

A compiler that cannot express a node refuses it: it names the node and the obstacle, so that what
lies beneath the node can still run elsewhere.
-/

namespace QueryPushdown

/-- Why a node cannot be expressed in another language. -/
inductive Obstacle where
  /-- An error that the request has by itself. -/
  | error (e : Error)
  | operation
  | unknownSource (name : String)
  | defaultNotLiteral
  | negativeBound
  | negativeIndex
  | contextEscapes
  | listExpected
  | patternNotLiteral
  | patternNotAnchored
  | notRelation
  | orderedDistinct
  | bareGroups
  | groupOutsideAggregate
  | noField (name : String)
  | fieldOfColumn
  | mergeOfColumns
  | columnExpected
  | singleElement
  | expression
  | zeroDivisor
  | textAggregate
  | mappingAggregate
  | aggregateOfColumns
  | listInMapping
  | mappingsInMapping
  | listLiteral
  | unselectable (ty : Ty)
  | notFind
  | afterProjection (step : String)
  | afterWindow (step : String)
  | sortKey
  | projection
  | comparisonOperands
  | patternSubject
  | booleanField
  | booleanLiteral

namespace Obstacle

def message : Obstacle → String
  | error e => e.message
  | operation => "unsupported operation"
  | unknownSource name => s!"unknown source `{name}`"
  | defaultNotLiteral => "defaults must be literals"
  | negativeBound => "slices with negative bounds"
  | negativeIndex => "negative indices"
  | contextEscapes => "context escapes the request"
  | listExpected => "expected a list"
  | patternNotLiteral => "patterns must be literals"
  | patternNotAnchored => "only anchored literal patterns are supported"
  | notRelation => "not a relation"
  | orderedDistinct => "distinct over an ordered select"
  | bareGroups => "groups without aggregates are lists inside mappings"
  | groupOutsideAggregate => "group used outside of an aggregate"
  | noField name => s!"no field `{name}`"
  | fieldOfColumn => "field of a value stored in one column"
  | mergeOfColumns => "merge of values stored in one column"
  | columnExpected => "expected a single column"
  | singleElement => "single elements are only selected at the top level"
  | expression => "unsupported expression"
  | zeroDivisor => "division by a value that may be zero"
  | textAggregate => "aggregate over a string"
  | mappingAggregate => "aggregate over a mapping"
  | aggregateOfColumns => "aggregate over rows of several columns"
  | listInMapping => "lists inside mappings"
  | mappingsInMapping => "lists of mappings inside mappings"
  | listLiteral => "list literals"
  | unselectable ty => s!"values of type {ty.text} cannot be selected"
  | notFind => "not expressible as a find"
  | afterProjection step => s!"{step} over a projection"
  | afterWindow step => s!"{step} after skip or limit"
  | sortKey => "sort keys must be fields"
  | projection => "projections only read fields of the element"
  | comparisonOperands => "comparisons must be between a field and a literal"
  | patternSubject => "patterns must be matched against a field"
  | booleanField => "expected a boolean field"
  | booleanLiteral => "expected a boolean literal"

end Obstacle

/-- A node that cannot be expressed. -/
structure Refusal where
  node : Nat
  obstacle : Obstacle

namespace Refusal

def reason (r : Refusal) : String := r.obstacle.message

def message (r : Refusal) : String := s!"cannot push down #{r.node}: {r.reason}"

/-- The crash that made a compiler stop, which is no refusal. -/
def crash? (r : Refusal) : Option Error :=
  match r.obstacle with
  | .error e =>
    match e.cause with
    | .crashed _ => some e
    | _ => none
  | _ => none

/-- What is not refused, with whatever reason, is refused at no link of the chain. -/
theorem bind_eq_ok {ε α β : Type} {x : Except ε α} {f : α → Except ε β} {b : β}
    (h : x >>= f = .ok b) : ∃ a, x = .ok a ∧ f a = .ok b := by
  cases x with
  | error e => cases h
  | ok a => exact ⟨a, rfl, h⟩

end Refusal

end QueryPushdown
