import QueryPushdown.Value.Basic

/-!
# Reading rows

A layout tells how the columns of a row are read back into a value, and a cardinality how the
values of all rows make up a result. Stores without booleans return them as integers, and may
return an integral real as an integer; an integer that overflowed comes back as a real.
-/

namespace QueryPushdown.Sql

inductive Layout where
  | column (ty : Ty)
  /-- The columns of the fields, one field after the other. -/
  | mapping (fields : List (String × Layout))
  deriving Inhabited

inductive Cardinality where
  /-- One element of a list for each row. -/
  | list
  /-- The value of a single row. -/
  | value
  /-- The only row; `default` stands in for none, and `context` names the request in errors. -/
  | one (default : Option Value) (context : String)

/-- A column read as a value of a type. -/
def readColumn : Ty → Value → Outcome Value
  | .bool, .int i => .ok (.bool (i != 0))
  | .f64, .int i => .ok (.float (Binary64.ofInt i.toInt))
  | .i64, .float _ => .error (.fault .columnOverflow)
  | .list item, .list items => do pure (.list (← items.mapM (readColumn item)))
  | _, v => .ok v

namespace Layout

mutual

/-- The number of columns. -/
def width : Layout → Nat
  | column _ => 1
  | mapping fields => widths fields

def widths : List (String × Layout) → Nat
  | [] => 0
  | (_, layout) :: rest => layout.width + widths rest

end

mutual

/-- Reads the first columns and returns the columns after them. Absent columns are null. -/
def read (row : List Value) : Layout → Outcome (Value × List Value)
  | column ty => do pure (← readColumn ty (row.headD .null), row.tail)
  | mapping fields => do
    let (read, row) ← readFields row fields
    pure (.mapping read, row)

def readFields (row : List Value) :
    List (String × Layout) → Outcome (List (String × Value) × List Value)
  | [] => pure ([], row)
  | (name, layout) :: rest => do
    let (v, row) ← layout.read row
    let (read, row) ← readFields row rest
    pure ((name, v) :: read, row)

end

/-- The value of a row. Columns beyond the layout are left out. -/
def readRow (layout : Layout) (row : List Value) : Outcome Value := do
  let (v, _) ← layout.read row
  if row.length < layout.width then .error (.invalid (.rowWidth row.length layout.width))
  else pure v

end Layout

/-- The result that the values of all rows make up. -/
def Cardinality.assemble : Cardinality → List Value → Outcome Value
  | list, values => .ok (.list values)
  | value, values =>
    match values.getLast? with
    | some v => .ok v
    | none => .error (.invalid .noRow)
  | one default context, values =>
    match values, default with
    | [], some v => .ok v
    | [], none => .error (.ofCause (.emptyResult context))
    | [v], _ => .ok v
    | _, _ => .error (.ofCause (.multipleResults context))

end QueryPushdown.Sql
