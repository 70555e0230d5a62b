import QueryPushdown.Pattern.Anchored
import QueryPushdown.Request.Typing
import QueryPushdown.Sql.Shape

/-!
# Relations

A relation is a list that is being lowered: the rows of a select, read through a shape. A row
operation changes the select in place as long as the select is open, and otherwise turns it into a
derived table that a new select reads. The order of a derived table is kept in further columns.
-/

namespace QueryPushdown.Sql

/-- Lowering hands out table aliases and may refuse a node. -/
abbrev Lowering := StateT Nat (Except Refusal)

/-- What lowering depends on. -/
structure Target where
  schema : Schema
  /-- Whether a row can hold an array. -/
  arrays : Bool

/-- What a scope binds. -/
inductive Binding where
  /-- An element, read from the current row. -/
  | element (shape : Shape) (ty : Ty)
  /-- The members of a group, inside the aggregates over it. -/
  | group (member : Shape) (ty : Ty)

structure Relation where
  select : Select
  shape : Shape
  /-- The type of one element. -/
  item : Ty

/-- The members of a group that pass some filters, mapped. -/
structure Members where
  shape : Shape
  item : Ty
  filter : List Expr

namespace Binding

def ty : Binding → Ty
  | element _ ty => ty
  | group _ ty => .list ty

end Binding

def refuse {α : Type} (node : Nat) (obstacle : Obstacle) : Lowering α :=
  throw ⟨node, obstacle⟩

/-- A result, or the refusal of a node. -/
def orRefuse {α : Type} (node : Nat) : Except Obstacle α → Lowering α
  | .ok a => pure a
  | .error obstacle => refuse node obstacle

def freshAlias : Lowering Nat := fun next => .ok (next, next + 1)

/-- The type of a term under the bindings, innermost first. -/
def typeOf (target : Target) (scopes : List Binding) (t : Term) : Lowering Ty :=
  match t.infer target.schema (scopes.map Binding.ty) with
  | .ok ty => pure ty
  | .error e => refuse t.id (.error e)

/-- The type of the elements of a term. -/
def itemTypeOf (target : Target) (scopes : List Binding) (t : Term) : Lowering Ty := do
  match (← typeOf target scopes t).item? with
  | some ty => pure ty
  | none => refuse t.id .listExpected

/-- What the scope `up` scopes outwards binds. -/
def bindingOf (scopes : List Binding) (node up : Nat) : Lowering Binding :=
  match scopes[up]? with
  | some b => pure b
  | none => refuse node .contextEscapes

/-- The expression of a shape of one column. -/
def singleColumn (node : Nat) (shape : Lowering Shape) : Lowering Expr := do
  match ← shape with
  | .scalar e _ => pure e
  | _ => refuse node .columnExpected

namespace Relation

/-- Whether rows can still be filtered or reordered in place. -/
def isOpen (r : Relation) : Bool := r.select.isUnbounded && !r.select.distinct

/-- The name of a column that keeps the order of a derived table. -/
def orderName (i : Nat) : String := s!"o{i}"

/-- The relation as a derived table that a new select reads. -/
def wrap (node : Nat) (r : Relation) : Lowering Relation := do
  let columns ← orRefuse node r.shape.selected
  let table ← freshAlias
  let keys := r.select.orderBy.zipIdx
  let inner := { r.select with
    columns := columns ++ keys.map fun ((e, _), i) => (e, orderName i) }
  let orderBy := keys.map fun ((_, descending), i) =>
    (Expr.column (some table) (orderName i), descending)
  pure { r with
    select := { Select.ofDerived inner table with orderBy := orderBy }
    shape := r.shape.rebase table }

/-- The relation, as a derived table unless its rows can be changed in place. -/
def opened (node : Nat) (r : Relation) : Lowering Relation :=
  if r.isOpen then pure r else r.wrap node

/-- The binding of an element of the relation. -/
def element (r : Relation) : Binding := .element r.shape r.item

/-- The rows of a stored collection. -/
def ofCollection (c : Collection) (table : Nat) : Relation :=
  { select := Select.ofTable c.name table
    shape := Shape.ofCollection c table
    item := c.itemTy }

/-- A list inside a row, where the target has arrays. -/
def toArray (target : Target) (node : Nat) (ty : Ty) (relation : Lowering Relation) :
    Lowering Shape := do
  if !target.arrays then refuse node .listInMapping
  else
    let r ← relation
    match r.shape with
    | .scalar _ _ =>
      let columns ← orRefuse node r.shape.selected
      pure (.scalar (.array { r.select with columns := columns }) ty)
    | _ => refuse node .mappingsInMapping

end Relation

/-- The sum, minimum or maximum of an expression, or a number of rows. An empty sum is zero. -/
def reduce (op : AggregateOp) (arg : Expr) (restriction : Option Expr) : Expr :=
  match op with
  | .sum => .call .coalesce [.call .sum [arg] restriction, .value (.int 0)] none
  | .min => .call .min [arg] restriction
  | .max => .call .max [arg] restriction
  | .len => .call .count [] restriction

namespace Members

/-- An aggregate over the members. -/
def aggregate (node : Nat) (op : AggregateOp) (m : Members) : Lowering Expr :=
  let restriction := if m.filter.isEmpty then none else some (Expr.all m.filter)
  match op, m.shape with
  | .len, _ => pure (.call .count [] restriction)
  | op, .scalar arg _ => pure (reduce op arg restriction)
  | _, _ => refuse node .aggregateOfColumns

end Members

/-- An aggregate over all rows, as a sub-select. -/
def Relation.aggregate (node : Nat) (op : AggregateOp) (r : Relation) : Lowering Expr := do
  let r ← r.opened node
  let column ← match op, r.shape with
    | .len, _ => pure (Expr.call .count [] none)
    | op, .scalar arg _ => pure (reduce op arg none)
    | _, _ => refuse node .aggregateOfColumns
  pure (.subquery { r.select with orderBy := [], columns := [(column, "c0")] })

/-- The relational operator for an operator that reads two columns. -/
def operatorOf? (op : BinaryOp) (ty : Ty) : Option Operator :=
  match op with
  | .add => some (if ty.isString then .concat else .add)
  | .sub => some .sub
  | .mul => some .mul
  | .div => some .div
  | .eq => some .eq
  | .ne => some .ne
  | .lt => some .lt
  | .le => some .le
  | .gt => some .gt
  | .ge => some .ge
  | .and | .or | .matching => none

/-- Whether a term is a literal by which any number can be divided. -/
def isDivisor : Term → Bool
  | .literal _ v =>
    match v.asFloat? with
    | some x => !x.isZero && x.isFinite
    | none => false
  | _ => false

/-- A test of an expression against an anchored pattern. -/
def matchingExpr (subject : Expr) : Pattern.Anchored → Expr
  | .exact text => .operation subject .eq (.value (.text text))
  | .leading text => .startsWith subject text

mutual

/-- The shape of a literal; its fields are columns of their own. -/
def literalShape (node : Nat) : Value → Lowering Shape
  | .mapping fields => do pure (.mapping (← literalFields node fields))
  | .list _ => refuse node .listLiteral
  | v => pure (.scalar (.value v) v.ty)

def literalFields (node : Nat) : List (String × Value) → Lowering (List (String × Shape))
  | [] => pure []
  | (name, v) :: rest => do
    let first ← literalShape node v
    pure ((name, first) :: (← literalFields node rest))

end

end QueryPushdown.Sql
