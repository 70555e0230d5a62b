import QueryPushdown.Request.Registry
import QueryPushdown.Sql.Lowering
import QueryPushdown.Sql.Written

/-!
# Compiled requests

`Sql.compile` turns a request into one select, together with the layout that reads its rows back.
Requests that have no type are refused, so that whoever interprets them reports the error.
-/

namespace QueryPushdown.Sql

/-- A compiled request: a statement, its parameters, and how its rows are read back. -/
structure Fragment where
  sql : String
  params : List Value
  layout : Layout
  cardinality : Cardinality

/-- The result that the rows of the statement make up. -/
def Fragment.decode (f : Fragment) (rows : List (List Value)) : Outcome Value := do
  f.cardinality.assemble (← rows.mapM f.layout.readRow)

/-- A select, and how its rows are read back. -/
structure Query where
  select : Select
  layout : Layout
  cardinality : Cardinality

namespace Query

/-- The query that selects the columns of a shape. -/
def project (node : Nat) (select : Select) (shape : Shape) (cardinality : Cardinality) :
    Lowering Query := do
  let layout ← orRefuse node shape.layout
  let columns ← orRefuse node shape.selected
  pure { select := { select with columns := columns }, layout, cardinality }

/-- The query for the only element of a list. Two rows tell whether there are several. -/
def single (node : Nat) (subject : Term) (default : Option Value)
    (relation : Lowering Relation) : Lowering Query := do
  let r ← relation
  project node (r.select.slice none (some 2)) r.shape (.one default subject.oneContext)

/-- The query for a whole request. -/
def ofTerm (target : Target) (t : Term) : Lowering Query := do
  match t with
  | .step id subject .one => single id subject none (relationOf target [] subject)
  | .step id subject (.oneOr default) =>
    match default with
    | .literal _ v => single id subject (some v) (relationOf target [] subject)
    | default => refuse default.id .defaultNotLiteral
  | t =>
    if (← typeOf target [] t).isList then
      let r ← relationOf target [] t
      project t.id r.select r.shape .list
    else project t.id {} (← shapeOf target [] t) .value

def fragment (d : Dialect) (q : Query) : Fragment :=
  { sql := (Statement.query q.select).text d
    params := (Statement.query q.select).params d
    layout := q.layout
    cardinality := q.cardinality }

end Query

namespace Dialect

def target (d : Dialect) (schema : Schema) : Target := ⟨schema, d = .postgresql⟩

end Dialect

/-- The query for a request. -/
def query (d : Dialect) (schema : Schema) (t : Term) : Except Refusal Query :=
  match t.infer schema [] with
  | .error e => .error ⟨t.id, .error e⟩
  | .ok _ => (Query.ofTerm (d.target schema) t).run' 0

/-- Compiles a request. -/
def compile (d : Dialect) (schema : Schema) (t : Term) : Except Refusal Fragment := do
  pure ((← query d schema t).fragment d)

/-- Node kinds that a select can express. -/
def expressible : Registry Unit :=
  Registry.ofList ([.source, .literal, .context, .attribute, .record, .unaryOp, .binaryOp, .filter,
    .map, .sort, .slice, .groupby, .distinct, .one, .aggregate].map (·, ()))

/-- Whether a node is refused wherever it stands: a pattern that is not anchored, or a divisor that
may be zero. -/
def isRefused : Term → Bool
  | .step _ _ (.binary .matching rhs) => (Pattern.Anchored.ofTerm? rhs).isNone
  | .step _ _ (.binary .div rhs) => !isDivisor rhs
  | _ => false

/-- Whether everything beneath a node can be expressed, as far as single nodes tell. -/
def supports (t : Term) : Bool := expressible.supports t && !t.nodes.any isRefused

end QueryPushdown.Sql
