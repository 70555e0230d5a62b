import QueryPushdown.Document.Conjunction
import QueryPushdown.Pattern.Anchored
import QueryPushdown.Refusal
import QueryPushdown.Request.NodeKind
import QueryPushdown.Request.Typing

/-!
# Predicates as filters

`filterOf` turns a predicate on an element into a filter document. It takes comparisons of a field
with a scalar literal, anchored patterns, boolean fields and literals, and `and`, `or` and `not`
of such predicates; it refuses everything else.
-/

namespace QueryPushdown

namespace Term

/-- Whether a field can be part of a dotted path. -/
def isPathName (name : String) : Bool :=
  !(name.isEmpty || name.toList.contains '.' || name.toList.head? == some '$')

/-- The dotted path of a field of the element, at any depth. -/
def path? : Term → Option String
  | step _ (context _ 0) (.field name) => if isPathName name then some name else none
  | step _ subject (.field name) =>
    if isPathName name then (path? subject).map fun path => path ++ "." ++ name else none
  | _ => none

/-- A literal that is neither a list nor a mapping. -/
def scalarLiteral? : Term → Option Value
  | literal _ v => if v.isScalar then some v else none
  | _ => none

end Term

namespace Filter

/-- What predicates are read against: a schema and the type of the element. -/
structure Element where
  schema : Schema
  item : Ty

namespace Element

/-- The type of a term of the element, if it has one. -/
def type? (e : Element) (t : Term) : Option Ty :=
  match t.infer e.schema [e.item] with
  | .ok ty => some ty
  | .error _ => none

/-- The path of a field of the element that holds scalars. -/
def scalarPath? (e : Element) (t : Term) : Option String := do
  let path ← t.path?
  let ty ← e.type? t
  if ty.isScalar then some path else none

end Element

/-- A condition that is an operator with an operand. -/
def operator (op : String) (operand : Bson) : Bson := .document (single op operand)

/-- The comparison with its operands exchanged. -/
def flip : BinaryOp → BinaryOp
  | .lt => .gt
  | .le => .ge
  | .gt => .lt
  | .ge => .le
  | op => op

/-- The condition that a comparison with a value puts on a field. -/
def condition? (op : BinaryOp) (operand : Bson) : Option Bson :=
  match op with
  | .eq => some operand
  | .ne => some (operator "$ne" operand)
  | .lt => some (operator "$lt" operand)
  | .le => some (operator "$lte" operand)
  | .gt => some (operator "$gt" operand)
  | .ge => some (operator "$gte" operand)
  | _ => none

/-- The path, the comparison and the literal when one operand is a field of scalars and the other a
scalar literal. -/
def comparison? (e : Element) (op : BinaryOp) (lhs rhs : Term) :
    Option (String × BinaryOp × Value) :=
  match e.scalarPath? lhs, rhs.scalarLiteral? with
  | some path, some v => some (path, op, v)
  | _, _ =>
    match e.scalarPath? rhs, lhs.scalarLiteral? with
    | some path, some v => some (path, flip op, v)
    | _, _ => none

/-- A comparison as a filter. -/
def comparison (e : Element) (node : Nat) (op : BinaryOp) (lhs rhs : Term) :
    Except Refusal Filter :=
  let filter? := do
    let (path, op, v) ← comparison? e op lhs rhs
    let condition ← condition? op (Bson.ofValue v)
    pure (single path condition)
  match filter? with
  | some f => .ok f
  | none => .error ⟨node, .comparisonOperands⟩

/-- A match of a field with an anchored pattern as a filter. -/
def matching (e : Element) (node : Nat) (subject pattern : Term) : Except Refusal Filter :=
  match e.scalarPath? subject with
  | none => .error ⟨node, .patternSubject⟩
  | some path =>
    match pattern with
    | .literal _ (.text pattern) =>
      match Pattern.Anchored.ofText? pattern with
      | some (.exact text) => .ok (single path (.text text))
      | some (.leading text) => .ok (single path (operator "$regex" (.text ("^" ++ text))))
      | none => .error ⟨node, .patternNotAnchored⟩
    | _ => .error ⟨node, .patternNotLiteral⟩

/-- A boolean field as a filter. -/
def flag (e : Element) (t : Term) : Except Refusal Filter :=
  match t.path?, e.type? t with
  | some path, some .bool => .ok (single path (.bool true))
  | _, _ => .error ⟨t.id, .booleanField⟩

/-- The filter that nothing passes. -/
def never : Filter := listed "$nor" [[]]

/-- The filter that asks the opposite. A condition on one field is turned round in place. -/
def negated (f : Filter) : Filter :=
  match f with
  | [(path, .document ops)] =>
    if !isOperator path && isOperators ops then
      match ops with
      | [("$ne", operand)] => single path operand
      | ops => single path (operator "$not" (.document ops))
    else listed "$nor" [f]
  | [(path, content)] =>
    if isOperator path then listed "$nor" [f] else single path (operator "$ne" content)
  | _ => listed "$nor" [f]

/-- A literal as a filter. -/
def constant (node : Nat) : Value → Except Refusal Filter
  | .bool true => .ok []
  | .bool false => .ok never
  | _ => .error ⟨node, .booleanLiteral⟩

/-- The refusal of a node that no filter expresses. -/
def unhandled (t : Term) : Refusal :=
  ⟨t.id, .error (.ofCause (.unhandledNode (NodeKind.ofTerm t).text))⟩

end Filter

/-- A predicate on an element as a filter. -/
def Term.filterOf (e : Filter.Element) : Term → Except Refusal Filter
  | .literal id v => Filter.constant id v
  | .step id subject (.field name) => Filter.flag e (.step id subject (.field name))
  | .step _ subject (.unary .not) => do pure (← subject.filterOf e).negated
  | .step id lhs (.binary op rhs) =>
    match op with
    | .eq | .ne | .lt | .le | .gt | .ge => Filter.comparison e id op lhs rhs
    | .and => do
      let lhs ← lhs.filterOf e
      let rhs ← rhs.filterOf e
      pure (lhs.and rhs)
    | .or => do
      let lhs ← lhs.filterOf e
      let rhs ← rhs.filterOf e
      pure (lhs.or rhs)
    | .matching => Filter.matching e id lhs rhs
    | op => .error (Filter.unhandled (.step id lhs (.binary op rhs)))
  | t => .error (Filter.unhandled t)

end QueryPushdown
