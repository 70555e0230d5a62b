import QueryPushdown.Sql.Relation

/-!
# Lowering terms to selects

`relationOf` lowers a list into rows of a select, and `shapeOf` any other term into columns of
the current row. A list inside a row becomes an array where the target has arrays. An aggregate
over a group is a function of the grouped select itself, any other aggregate a sub-select.
-/

namespace QueryPushdown.Sql

/-- The lowered forms of the subject of a step, made when they are needed. -/
structure Subject where
  term : Term
  relation : Lowering Relation
  shape : Lowering Shape
  /-- The members of a group, when the subject filters and maps one. -/
  members : Lowering (Option Members)

namespace Subject

/-- The expression of a subject of one column. -/
def column (s : Subject) : Lowering Expr := singleColumn s.term.id s.shape

/-- The shape of a field. -/
def field (s : Subject) (node : Nat) (name : String) : Lowering Shape := do
  match ← s.shape with
  | .mapping fields =>
    match Fields.get? fields name with
    | some shape => pure shape
    | none => refuse node (.noField name)
  | _ => refuse node .fieldOfColumn

/-- A binary operator over the subject and an operand lowered by `rhs`. -/
def binary (s : Subject) (node : Nat) (ty : Ty) (op : BinaryOp) (operand : Term)
    (rhs : Lowering Shape) : Lowering Shape := do
  match op with
  | .and =>
    let a ← s.column
    let b ← singleColumn operand.id rhs
    pure (.scalar (.and [a, b]) ty)
  | .or =>
    let a ← s.column
    let b ← singleColumn operand.id rhs
    pure (.scalar (.or [a, b]) ty)
  | .matching =>
    match operand with
    | .literal _ (.text pattern) =>
      match Pattern.Anchored.ofText? pattern with
      | some pattern => pure (.scalar (matchingExpr (← s.column) pattern) .bool)
      | none => refuse node .patternNotAnchored
    | _ => refuse node .patternNotLiteral
  | op =>
    if op = .add ∧ ty.isMapping then
      let a ← s.shape
      let b ← rhs
      match a, b with
      | .mapping a, .mapping b => pure (.mapping (Fields.extend a b))
      | _, _ => refuse node .mergeOfColumns
    else
      let a ← s.column
      let b ← singleColumn operand.id rhs
      match op, operatorOf? op ty with
      | .div, _ =>
        if isDivisor operand then pure (.scalar (.operation (.cast a .real) .div b) ty)
        else refuse node .zeroDivisor
      | _, some operator => pure (.scalar (.operation a operator b) ty)
      | _, none => refuse node .expression

/-- An aggregate over the subject, a value of type `subjectTy` unless it reads a group. -/
def aggregate (s : Subject) (node : Nat) (ty : Ty) (op : AggregateOp)
    (subjectTy : Lowering Ty) : Lowering Shape := do
  match ← s.members with
  | some members => pure (.scalar (← members.aggregate node op) ty)
  | none =>
    match ← subjectTy with
    | .string =>
      if op = .len then pure (.scalar (.call .length [← s.column] none) ty)
      else refuse node .textAggregate
    | .mapping _ _ =>
      match op, ← s.shape with
      | .len, .mapping fields =>
        pure (.scalar (.value (.int (Int64.ofNat fields.length))) ty)
      | _, _ => refuse node .mappingAggregate
    | _ => do pure (.scalar (← (← s.relation).aggregate node op) ty)

end Subject

mutual

/-- The rows of a list. -/
def relationOf (target : Target) (scopes : List Binding) : Term → Lowering Relation
  | .source id name =>
    match target.schema.find? name with
    | some c => do pure (.ofCollection c (← freshAlias))
    | none => refuse id (.unknownSource name)
  | .step id subject action =>
    stepRelation target scopes (.step id subject action) (relationOf target scopes subject) action
  | t => refuse t.id .notRelation

/-- The rows of a step over a list lowered by `subject`. -/
def stepRelation (target : Target) (scopes : List Binding) (whole : Term)
    (subject : Lowering Relation) : Step → Lowering Relation
  | .filter predicate => do
    let r ← (← subject).opened whole.id
    let e ← singleColumn predicate.id (shapeOf target (r.element :: scopes) predicate)
    pure { r with select := { r.select with filter := r.select.filter ++ [e] } }
  | .map transform => do
    let r ← subject
    let r ← if r.select.distinct then r.wrap whole.id else pure r
    let shape ← shapeOf target (r.element :: scopes) transform
    let item ← itemTypeOf target scopes whole
    pure { r with shape := shape, item := item }
  | .sort keys => do
    let r ← (← subject).opened whole.id
    let orderBy ← keyColumns target (r.element :: scopes) keys
    pure { r with select := { r.select with orderBy := orderBy ++ r.select.orderBy } }
  | .slice start stop =>
    if !Step.isForward start stop then refuse whole.id .negativeBound
    else do
      let r ← subject
      pure { r with select := r.select.slice start stop }
  | .distinct => do
    let r ← subject
    let r ← if r.select.isUnbounded then pure r else r.wrap whole.id
    if !r.select.orderBy.isEmpty then refuse whole.id .orderedDistinct
    else pure { r with select := { r.select with distinct := true } }
  | .groupby key aggregates =>
    if aggregates.isEmpty then refuse whole.id .bareGroups
    else do
      let r ← (← subject).opened whole.id
      let keyShape ← shapeOf target (r.element :: scopes) key
      let groupBy ← orRefuse key.id keyShape.columns
      let fields ← fieldShapes target (.group r.shape r.item :: scopes) aggregates
      let item ← itemTypeOf target scopes whole
      Relation.wrap whole.id
        { select := { r.select with orderBy := [], groupBy := groupBy }
          shape := .mapping (Fields.extend [("key", keyShape)] fields)
          item := item }
  | _ => refuse whole.id .notRelation

/-- The columns of a term. -/
def shapeOf (target : Target) (scopes : List Binding) : Term → Lowering Shape
  | .source id name => do
    let ty ← typeOf target scopes (.source id name)
    Relation.toArray target id ty do
      match target.schema.find? name with
      | some c => pure (.ofCollection c (← freshAlias))
      | none => refuse id (.unknownSource name)
  | .literal id v =>
    if v.ty.isList then Relation.toArray target id v.ty (refuse id .notRelation)
    else literalShape id v
  | .context id up => do
    let ty ← typeOf target scopes (.context id up)
    if ty.isList then Relation.toArray target id ty (refuse id .notRelation)
    else match ← bindingOf scopes id up with
      | .element shape _ => pure shape
      | .group _ _ => refuse id .groupOutsideAggregate
  | .record _ fields => do pure (.mapping (← fieldShapes target scopes fields))
  | .step id subject action => do
    let ty ← typeOf target scopes (.step id subject action)
    if ty.isList then
      Relation.toArray target id ty
        (stepRelation target scopes (.step id subject action)
          (relationOf target scopes subject) action)
    else
      stepShape target scopes id ty
        { term := subject
          relation := relationOf target scopes subject
          shape := shapeOf target scopes subject
          members := membersOf target scopes subject } action

/-- The columns of a step that is no list. -/
def stepShape (target : Target) (scopes : List Binding) (id : Nat) (ty : Ty) (subject : Subject) :
    Step → Lowering Shape
  | .field name => subject.field id name
  | .unary .not => do pure (.scalar (.not (← subject.column)) ty)
  | .unary .neg => do pure (.scalar (.neg (← subject.column)) ty)
  | .binary op rhs => subject.binary id ty op rhs (shapeOf target scopes rhs)
  | .aggregate op => subject.aggregate id ty op (typeOf target scopes subject.term)
  | .index _ | .one | .oneOr _ => refuse id .singleElement
  | _ => refuse id .expression

/-- The members of a group that a term filters and maps, if it does. -/
def membersOf (target : Target) (scopes : List Binding) : Term → Lowering (Option Members)
  | .context id up => do
    match ← bindingOf scopes id up with
    | .group member ty => pure (some ⟨member, ty, []⟩)
    | .element _ _ => pure none
  | .step _ subject (.filter predicate) => do
    match ← membersOf target scopes subject with
    | none => pure none
    | some m =>
      let e ← singleColumn predicate.id
        (shapeOf target (.element m.shape m.item :: scopes) predicate)
      pure (some { m with filter := m.filter ++ [e] })
  | .step id subject (.map transform) => do
    match ← membersOf target scopes subject with
    | none => pure none
    | some m =>
      let shape ← shapeOf target (.element m.shape m.item :: scopes) transform
      let item ← itemTypeOf target scopes (.step id subject (.map transform))
      pure (some { m with shape := shape, item := item })
  | _ => pure none

def fieldShapes (target : Target) (scopes : List Binding) :
    List (String × Term) → Lowering (List (String × Shape))
  | [] => pure []
  | (name, t) :: rest => do
    let first ← shapeOf target scopes t
    pure ((name, first) :: (← fieldShapes target scopes rest))

def keyColumns (target : Target) (scopes : List Binding) :
    List (Term × Bool) → Lowering (List (Expr × Bool))
  | [] => pure []
  | (t, descending) :: rest => do
    let e ← singleColumn t.id (shapeOf target scopes t)
    pure ((e, descending) :: (← keyColumns target scopes rest))

end

end QueryPushdown.Sql
