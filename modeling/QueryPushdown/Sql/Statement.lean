import QueryPushdown.Schema
import QueryPushdown.Value.Basic

/-!
# Statements of the relational language

A `Select` serves as a query, a derived table or a sub-select; expressions and selects contain
each other. Tables in a `FROM` clause carry numbered aliases, and values are kept as values: how
they are written is decided by `Sql.Written`.
-/

namespace QueryPushdown.Sql

/-- The dialect a statement is written in. -/
inductive Dialect where
  | sqlite
  | postgresql
  deriving DecidableEq, Repr, Inhabited

inductive ColumnType where
  | boolean
  | integer
  | real
  | text
  deriving DecidableEq, Repr

/-- Operators between two operands. Equality holds between nulls. -/
inductive Operator where
  | eq | ne | lt | le | gt | ge
  | add | sub | mul | div
  | concat
  deriving DecidableEq, Repr

inductive Func where
  /-- The number of rows when it has no argument. -/
  | count
  | sum
  | min
  | max
  | coalesce
  /-- The number of characters of a text. -/
  | length
  deriving DecidableEq, Repr

mutual

inductive Expr where
  | and (operands : List Expr)
  | or (operands : List Expr)
  | operation (lhs : Expr) (op : Operator) (rhs : Expr)
  | cast (operand : Expr) (ty : ColumnType)
  /-- A column, of a table of the `FROM` clause or of the only table there is. -/
  | column (table : Option Nat) (name : String)
  /-- A function call; an aggregate function may be restricted to some of the rows. -/
  | call (func : Func) (args : List Expr) (restriction : Option Expr)
  | startsWith (operand : Expr) (start : String)
  | neg (operand : Expr)
  | not (operand : Expr)
  | subquery (select : Select)
  /-- The rows of a select of one column, as an array. -/
  | array (select : Select)
  | value (v : Value)

structure Select where
  distinct : Bool := false
  /-- Each expression with the name of its column. -/
  columns : List (Expr × String) := []
  origin : Option Origin := none
  /-- Conjuncts of the `WHERE` clause. -/
  filter : List Expr := []
  groupBy : List Expr := []
  /-- Keys, each with whether it is descending. -/
  orderBy : List (Expr × Bool) := []
  limit : Option Int64 := none
  offset : Option Int64 := none

/-- Where a select reads its rows from. -/
inductive Origin where
  | table (name : String) (number : Nat)
  | derived (select : Select) (number : Nat)

end

instance : Inhabited Expr := ⟨.value .null⟩

instance : Inhabited Select := ⟨{}⟩

structure CreateTable where
  name : String
  columns : List (String × ColumnType)
  primaryKey : List String

/-- A new row, which replaces the row with the same values in the columns `replaceOn`. -/
structure Insert where
  table : String
  columns : List String
  values : List Value
  replaceOn : List String

structure Delete where
  table : String
  filter : List Expr

inductive Statement where
  | createTable (s : CreateTable)
  | insert (s : Insert)
  | delete (s : Delete)
  | query (s : Select)

/-- The column type that stores values of a type. -/
def ColumnType.ofTy : Ty → Outcome ColumnType
  | .bool => .ok .boolean
  | .i64 => .ok .integer
  | .f64 => .ok .real
  | .string => .ok .text
  | ty => .error (.invalid (.columnType ty))

/-- The table that stores the elements of a collection, keyed on its identity. -/
def CreateTable.ofCollection (c : Collection) : Outcome CreateTable := do
  let columns ← c.fields.mapM fun (name, ty) => do pure (name, ← ColumnType.ofTy ty)
  pure { name := c.name, columns := columns, primaryKey := c.identity }

namespace Expr

/-- All operands hold. -/
def all : List Expr → Expr
  | [] => value (.bool true)
  | [operand] => operand
  | operands => and operands

end Expr

namespace Select

def ofTable (name : String) (number : Nat) : Select := { origin := some (.table name number) }

def ofDerived (select : Select) (number : Nat) : Select :=
  { origin := some (.derived select number) }

/-- Whether every row is kept. -/
def isUnbounded (s : Select) : Bool := s.limit.isNone && s.offset.isNone

/-- The difference of two words, at most and at least the extreme ones. -/
def difference (a b : Int64) : Int64 := .ofIntClamp (a.toInt - b.toInt)

/-- The sum of two words, at most and at least the extreme ones. -/
def total (a b : Int64) : Int64 := .ofIntClamp (a.toInt + b.toInt)

/-- Narrows the rows to those from `start` up to `stop`, counted among the rows kept so far. -/
def slice (s : Select) (start stop : Option Int64) : Select :=
  let first := start.getD 0
  let remaining := s.limit.map fun limit => max (difference limit first) 0
  let wanted := stop.map fun stop => max (difference stop first) 0
  let offset := total (s.offset.getD 0) first
  { s with
    offset := if 0 < offset then some offset else none
    limit := match remaining, wanted with
      | some remaining, some wanted => some (min remaining wanted)
      | some limit, none => some limit
      | none, limit => limit }

end Select

end QueryPushdown.Sql
