import QueryPushdown.Document.Find
import QueryPushdown.Document.Predicate
import QueryPushdown.Request.Registry

/-!
# Requests as finds

`Find.compile` turns a request into a find. Filters and sorts are gathered into one stage each,
which needs all documents to be still there and whole: they are refused after a slice or a
projection. A later sort comes before the keys of earlier ones, which then only break ties.
-/

namespace QueryPushdown

namespace Find

/-- Refuses a step that needs all documents, whole. -/
def checkReorderable (node : Nat) (step : String) (q : Find) : Except Refusal Unit :=
  if q.projection.isSome then .error ⟨node, .afterProjection step⟩
  else if q.isWindowed then .error ⟨node, .afterWindow step⟩
  else .ok ()

/-- Keys put behind those that are there; a repeated path keeps its first direction. -/
def addSortKeys (sort keys : Document) : Document :=
  keys.foldl (fun sort (path, direction) =>
    if Fields.has sort path then sort else Fields.insert sort path direction) sort

/-- Sort keys as paths with directions. -/
def sortKeys : List (Term × Bool) → Except Refusal Document
  | [] => .ok []
  | (t, descending) :: rest =>
    match t.path? with
    | none => .error ⟨t.id, .sortKey⟩
    | some path => do
      pure ((path, .int32 (if descending then -1 else 1)) :: (← sortKeys rest))

end Find

mutual

/-- A transform of an element as a projection. -/
def Term.projectionOf : Term → Except Refusal Projection
  | .context id up => if up = 0 then .ok .element else .error ⟨id, .projection⟩
  | .step id subject (.field name) =>
    match (Term.step id subject (.field name)).path? with
    | some path => .ok (.path path)
    | none => .error ⟨id, .projection⟩
  | .record _ fields => do pure (.record (← projectionsOf fields))
  | t => .error ⟨t.id, .projection⟩

def projectionsOf : List (String × Term) → Except Refusal (List (String × Projection))
  | [] => .ok []
  | (name, t) :: rest => do
    let first ← t.projectionOf
    pure ((name, first) :: (← projectionsOf rest))

end

namespace Find

/-- The projection of a transform, none if it keeps the document. -/
def projection? (transform : Term) : Except Refusal (Option Projection) := do
  match ← transform.projectionOf with
  | .element => pure none
  | p => pure (some p)

/-- The type of the elements of a list. -/
def itemType (schema : Schema) (t : Term) : Except Refusal Ty :=
  match t.infer schema [] with
  | .error e => .error ⟨t.id, .error e⟩
  | .ok ty =>
    match ty.item? with
    | some item => .ok item
    | none => .error ⟨t.id, .listExpected⟩

/-- A list as a find. -/
def ofList (schema : Schema) : Term → Except Refusal Find
  | .source id name =>
    if (schema.find? name).isSome then .ok { collection := name }
    else .error ⟨id, .unknownSource name⟩
  | .step id subject (.filter predicate) => do
    let q ← ofList schema subject
    checkReorderable id "filter" q
    let item ← itemType schema subject
    let f ← predicate.filterOf ⟨schema, item⟩
    pure { q with filter := q.filter.and f }
  | .step id subject (.sort keys) => do
    let q ← ofList schema subject
    checkReorderable id "sort" q
    let keys ← sortKeys keys
    pure { q with sort := addSortKeys (addSortKeys [] keys) q.sort }
  | .step id subject (.slice start stop) =>
    if !Step.isForward start stop then .error ⟨id, .negativeBound⟩
    else do pure ((← ofList schema subject).slice start stop)
  | .step id subject (.map transform) => do
    let q ← ofList schema subject
    if q.projection.isSome then throw ⟨id, .afterProjection "map"⟩
    pure { q with projection := ← projection? transform }
  | t => .error ⟨t.id, .notFind⟩

/-- A whole request as a find. -/
def ofTerm (schema : Schema) (t : Term) : Except Refusal Find := do
  match t with
  | .step _ subject .one =>
    pure { ← ofList schema subject with single := some (.one none subject.oneContext) }
  | .step _ subject (.oneOr default) =>
    match default with
    | .literal _ v =>
      pure { ← ofList schema subject with single := some (.one (some v) subject.oneContext) }
    | default => throw ⟨default.id, .defaultNotLiteral⟩
  | .step id subject (.index position) =>
    if position < 0 then throw ⟨id, .negativeIndex⟩
    pure { ← ofList schema subject with single := some (.index position.toInt.toNat) }
  | .step id subject (.aggregate .len) =>
    match subject.infer schema [] with
    | .error e => throw ⟨subject.id, .error e⟩
    | .ok ty =>
      if ty.isList then pure { ← ofList schema subject with count := true }
      else throw ⟨id, .notFind⟩
  | t => ofList schema t

/-- Compiles a request. -/
def compile (schema : Schema) (t : Term) : Except Refusal Find :=
  match t.infer schema [] with
  | .error e => .error ⟨t.id, .error e⟩
  | .ok _ => ofTerm schema t

/-- Node kinds that a find can express. -/
def expressible : Registry Unit :=
  Registry.ofList ([.source, .literal, .context, .attribute, .record, .not, .comparison, .logical,
    .matching, .filter, .map, .sort, .slice, .index, .one, .len].map (·, ()))

/-- Whether a comparison is between a field and a scalar literal. -/
def isFieldComparison (lhs rhs : Term) : Bool :=
  (lhs.path?.isSome && rhs.scalarLiteral?.isSome) || (rhs.path?.isSome && lhs.scalarLiteral?.isSome)

/-- Whether a node is refused wherever it stands: a comparison or a pattern of other operands. -/
def isRefused : Term → Bool
  | .step _ lhs (.binary op rhs) =>
    match op with
    | .eq | .ne | .lt | .le | .gt | .ge => !isFieldComparison lhs rhs
    | .matching => !(lhs.path?.isSome && (Pattern.Anchored.ofTerm? rhs).isSome)
    | _ => false
  | _ => false

/-- Whether everything beneath a node can be expressed, as far as single nodes tell. -/
def supports (t : Term) : Bool := expressible.supports t && !t.nodes.any isRefused

end Find

end QueryPushdown
