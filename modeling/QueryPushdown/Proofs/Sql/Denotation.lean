import QueryPushdown.Proofs.Eval.Draining
import QueryPushdown.Proofs.Eval.Grouping
import QueryPushdown.Proofs.Sql.Reading

/-!
# What selects denote

A reading of every select, sub-selects and groups included. The rows of the `FROM` clause are taken in
order and those kept on which every conjunct of the `WHERE` clause is true. `GROUP BY` makes one row
for each distinct tuple of keys, which are compared as requests compare values. Without it there is
exactly one row if the columns use aggregates of the select's own rows, and one for each row that is
kept otherwise. An aggregate ranges over the rows of the select that it is written in; nulls are left
out, and only a count of none is not null. The result is sorted stably, `DISTINCT` keeps first
occurrences, and the bounds come last. Operators mean what they mean in requests, an expression that
fails is null, and so is a connective that no operand decides.
-/

namespace QueryPushdown

namespace Value

def isNull : Value → Bool
  | null => true
  | _ => false

/-- Whether a condition is true, which null is not. -/
def holds (v : Value) : Bool := v.asBool? == some true

end Value

namespace Sql

/-- The current row of each table in scope with the number of the table, innermost first. -/
abbrev Current := List (Nat × Fields Value)

/-- A column of a table in scope. -/
def Current.read (row : Current) (table : Option Nat) (name : String) : Value :=
  let fields := match table with
    | some number => row.lookup number
    | none => row.head?.map Prod.snd
  (fields.bind (Fields.get? · name)).getD .null

/-- Operands that are connected: one that is `stop` decides, and otherwise all have to be known. -/
def connected (stop : Bool) (vs : List Value) : Value :=
  if vs.any fun v => v.asBool? == some stop then .bool stop
  else if vs.all fun v => v.asBool?.isSome then .bool !stop
  else .null

/-- A conversion. Statements that requests are compiled to convert to reals only. -/
def ColumnType.convert (ty : ColumnType) (v : Value) : Value :=
  match ty, v.asFloat? with
  | .real, some x => .float x
  | _, _ => .null

namespace Func

/-- Whether a function ranges over rows. -/
def isAggregate : Func → Bool
  | count | sum | min | max => true
  | coalesce | length => false

/-- An aggregate of its argument on some rows, or of the rows when it has no argument. -/
def reduce (f : Func) (rows : List (List Value)) : Value :=
  let present := rows.filter fun args => !args.any Value.isNull
  match f with
  | sum =>
    if present.isEmpty then .null
    else (present.flatten.foldlM QueryPushdown.Operator.accumulate (.int 0)).orNull
  | min => (Value.extreme Ordering.isLT present.flatten).orNull
  | max => (Value.extreme Ordering.isGT present.flatten).orNull
  | _ => .int (Int64.ofNat present.length)

/-- A function of the values of its arguments. -/
def apply (f : Func) (args : List Value) : Value :=
  match f, args with
  | coalesce, args => (args.find? fun v => !v.isNull).getD .null
  | length, [.text s] => .int (Int64.ofNat s.length)
  | _, _ => .null

end Func

mutual

/-- Whether an expression uses an aggregate of the rows of the select that it is written in. -/
def Expr.aggregates : Expr → Bool
  | .and operands | .or operands => anyAggregates operands
  | .operation lhs _ rhs => lhs.aggregates || rhs.aggregates
  | .cast operand _ | .startsWith operand _ | .neg operand | .not operand => operand.aggregates
  | .call f args _ => f.isAggregate || anyAggregates args
  | .column _ _ | .subquery _ | .array _ | .value _ => false

def anyAggregates : List Expr → Bool
  | [] => false
  | e :: rest => e.aggregates || anyAggregates rest

end

/-- What a row of a result is made of. -/
structure Batch where
  /-- The row that columns are read from. -/
  row : Current
  /-- The rows that aggregates range over. -/
  members : List Current

/-- What the rows of a result are made of, given the rows that are kept and their grouping keys. -/
def batches (outer : Current) (groupBy : List Expr) (columns : List (Expr × String))
    (keys : Current → List Value) (kept : List Current) : List Batch :=
  if !groupBy.isEmpty then
    (gather Value.isEqItems (kept.map fun r => (keys r, r))).map fun g => ⟨g.2.headD outer, g.2⟩
  else if columns.any fun column => column.1.aggregates then [⟨kept.headD outer, kept⟩]
  else kept.map fun r => ⟨r, []⟩

/-- Things in the order of their sort keys. -/
def ordered {α : Type} (descending : List Bool) (keys : α → List Value) (as : List α) : List α :=
  Sorting.sortBy (fun a b => Sorting.compareDirected descending (keys a) (keys b)) as

/-- The rows that `DISTINCT` leaves. -/
def deduplicated (distinct : Bool) (rows : List (Fields Value)) : List (Fields Value) :=
  if distinct then rows.eraseDupsBy fun b a => sameColumns a b else rows

mutual

/-- The value of an expression on the current rows, aggregates ranging over `members`. -/
def Expr.eval (input : Input) (members : List Current) (row : Current) : Expr → Value
  | .and operands => connected false (evalAll input members row operands)
  | .or operands => connected true (evalAll input members row operands)
  | .operation lhs op rhs => (QueryPushdown.Operator.binary op.toBinary
      (lhs.eval input members row) (rhs.eval input members row)).orNull
  | .cast operand ty => ty.convert (operand.eval input members row)
  | .column table name => row.read table name
  | .call f args restriction =>
    if f.isAggregate then
      let ranged := match restriction with
        | none => members
        | some condition => members.filter fun r => (condition.eval input members r).holds
      f.reduce (ranged.map fun r => evalAll input members r args)
    else f.apply (evalAll input members row args)
  | .startsWith operand start =>
    match operand.eval input members row with
    | .text s => .bool (start.toList.isPrefixOf s.toList)
    | _ => .null
  | .neg operand => (QueryPushdown.Operator.unary .neg (operand.eval input members row)).orNull
  | .not operand => (QueryPushdown.Operator.unary .not (operand.eval input members row)).orNull
  | .subquery select =>
    match select.rows input row with
    | (column :: _) :: _ => column.2
    | _ => .null
  | .array select => .list ((select.rows input row).filterMap fun r => r.head?.map Prod.snd)
  | .value v => v

def evalAll (input : Input) (members : List Current) (row : Current) : List Expr → List Value
  | [] => []
  | e :: rest => e.eval input members row :: evalAll input members row rest

def evalOrder (input : Input) (members : List Current) (row : Current) :
    List (Expr × Bool) → List Value
  | [] => []
  | (e, _) :: rest => e.eval input members row :: evalOrder input members row rest

def evalColumns (input : Input) (members : List Current) (row : Current) :
    List (Expr × String) → Fields Value
  | [] => []
  | (e, name) :: rest =>
    (name, e.eval input members row) :: evalColumns input members row rest

/-- The rows of a select inside the scope of other tables. -/
def Select.rows (input : Input) (outer : Current) : Select → List (Fields Value)
  | { distinct, columns, origin, filter, groupBy, orderBy, limit, offset } =>
    let source := match origin with
      | none => [outer]
      | some o => o.rows input outer
    let kept := source.filter fun r => (evalAll input [] r filter).all Value.holds
    let made := batches outer groupBy columns (fun r => evalAll input [] r groupBy) kept
    let sorted := ordered (orderBy.map Prod.snd)
      (fun (b : Batch) => evalOrder input b.members b.row orderBy) made
    let selected := sorted.map fun b => evalColumns input b.members b.row columns
    Select.bounded { limit, offset } (deduplicated distinct selected)

/-- The rows of an origin on top of those in scope; the rows of stored tables are their elements. -/
def Origin.rows (input : Input) (outer : Current) : Origin → List Current
  | .table name number => ((input name).toOption.getD []).map fun v =>
      (number, v.asMapping?.getD []) :: outer
  | .derived select number => (select.rows input outer).map fun r => (number, r) :: outer

end

/-- The rows of a select as they are decoded. -/
def Select.cells (s : Select) (input : Input) : List (List Value) :=
  (s.rows input []).map fun row => row.map Prod.snd

/-- The rows that a select is made of, before they are grouped and sorted. -/
def Select.kept (s : Select) (input : Input) (outer : Current) : List Current :=
  let source := match s.origin with
    | none => [outer]
    | some o => o.rows input outer
  source.filter fun r => (evalAll input [] r s.filter).all Value.holds

section Lists

variable {input : Input} {members : List Current} {row outer : Current}

theorem evalAll_eq (es : List Expr) :
    evalAll input members row es = es.map fun e => e.eval input members row := by
  induction es with
  | nil => rfl
  | cons e es ih => rw [evalAll, ih, List.map_cons]

theorem evalOrder_eq (keys : List (Expr × Bool)) :
    evalOrder input members row keys = keys.map fun key => key.1.eval input members row := by
  induction keys with
  | nil => rfl
  | cons key keys ih => rw [evalOrder, ih, List.map_cons]

theorem evalColumns_eq (columns : List (Expr × String)) :
    evalColumns input members row columns =
      columns.map fun column => (column.2, column.1.eval input members row) := by
  induction columns with
  | nil => rfl
  | cons column columns ih => rw [evalColumns, ih, List.map_cons]

theorem Select.rows_eq (s : Select) : s.rows input outer =
    s.bounded (deduplicated s.distinct ((ordered (s.orderBy.map Prod.snd)
      (fun (b : Batch) => evalOrder input b.members b.row s.orderBy)
      (batches outer s.groupBy s.columns (fun r => evalAll input [] r s.groupBy)
        (s.kept input outer))).map fun b => evalColumns input b.members b.row s.columns)) := by
  obtain ⟨distinct, columns, origin, filter, groupBy, orderBy, limit, offset⟩ := s
  cases origin <;> rfl

end Lists

end Sql

end QueryPushdown
