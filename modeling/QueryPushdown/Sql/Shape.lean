import QueryPushdown.Refusal
import QueryPushdown.Sql.Row
import QueryPushdown.Sql.Statement

/-!
# Shapes

A shape tells how a value is spread over the columns of a row. `columns`, `layout` and `rebase` go
through the scalars of a shape in one order, so that the columns selected for a shape are the ones
its layout reads and a derived table of them has the shape again.
-/

namespace QueryPushdown.Sql

inductive Shape where
  /-- One column. -/
  | scalar (e : Expr) (ty : Ty)
  | mapping (fields : List (String × Shape))
  /-- A stored value that no column expression can read. -/
  | unreadable (ty : Ty)
  deriving Inhabited

namespace Shape

mutual

/-- The expressions of all columns. -/
def columns : Shape → Except Obstacle (List Expr)
  | scalar e _ => .ok [e]
  | mapping fields => fieldColumns fields
  | unreadable ty => .error (.unselectable ty)

def fieldColumns : List (String × Shape) → Except Obstacle (List Expr)
  | [] => .ok []
  | (_, shape) :: rest => do
    let first ← shape.columns
    pure (first ++ (← fieldColumns rest))

end

theorem fieldColumns_cons {name : String} {s : Shape} {rest : List (String × Shape)}
    {es : List Expr} (h : fieldColumns ((name, s) :: rest) = .ok es) :
    ∃ first others, s.columns = .ok first ∧ fieldColumns rest = .ok others ∧
      es = first ++ others := by
  rw [fieldColumns] at h
  obtain ⟨first, hfirst, h⟩ := Refusal.bind_eq_ok h
  obtain ⟨others, hothers, h⟩ := Refusal.bind_eq_ok h
  cases h
  exact ⟨first, others, hfirst, hothers, rfl⟩

/-- The name of a column by its place. -/
def columnName (i : Nat) : String := s!"c{i}"

/-- Expressions named by their places. -/
def named (es : List Expr) : List (Expr × String) :=
  es.zipIdx.map fun (e, i) => (e, columnName i)

/-- The columns to select, one that is null when there is no other. -/
def selected (s : Shape) : Except Obstacle (List (Expr × String)) := do
  match ← s.columns with
  | [] => pure (named [.value .null])
  | es => pure (named es)

mutual

def layout : Shape → Except Obstacle Layout
  | scalar _ ty => .ok (.column ty)
  | mapping fields => do pure (.mapping (← fieldLayouts fields))
  | unreadable ty => .error (.unselectable ty)

def fieldLayouts : List (String × Shape) → Except Obstacle (List (String × Layout))
  | [] => .ok []
  | (name, shape) :: rest => do
    let first ← shape.layout
    pure ((name, first) :: (← fieldLayouts rest))

end

theorem fieldLayouts_cons {name : String} {s : Shape} {rest : List (String × Shape)}
    {ls : List (String × Layout)} (h : fieldLayouts ((name, s) :: rest) = .ok ls) :
    ∃ first others, s.layout = .ok first ∧ fieldLayouts rest = .ok others ∧
      ls = (name, first) :: others := by
  rw [fieldLayouts] at h
  obtain ⟨first, hfirst, h⟩ := Refusal.bind_eq_ok h
  obtain ⟨others, hothers, h⟩ := Refusal.bind_eq_ok h
  cases h
  exact ⟨first, others, hfirst, hothers, rfl⟩

mutual

/-- The shape read from the columns of a derived table, from the column `next` on. Also returns the
first column that is left. -/
def rebaseFrom (table next : Nat) : Shape → Shape × Nat
  | scalar _ ty => (scalar (.column (some table) (columnName next)) ty, next + 1)
  | mapping fields =>
    let (fields, next) := rebaseFields table next fields
    (mapping fields, next)
  | unreadable ty => (unreadable ty, next)

def rebaseFields (table next : Nat) : List (String × Shape) → List (String × Shape) × Nat
  | [] => ([], next)
  | (name, shape) :: rest =>
    let (first, next) := shape.rebaseFrom table next
    let (rest, next) := rebaseFields table next rest
    ((name, first) :: rest, next)

end

/-- The same shape, read from a derived table of its selected columns. -/
def rebase (s : Shape) (table : Nat) : Shape := (s.rebaseFrom table 0).1

/-- The shape of the elements of a collection stored in a table. -/
def ofCollection (c : Collection) (table : Nat) : Shape :=
  mapping (c.fields.map fun (name, ty) =>
    (name, if ty.isScalar then scalar (.column (some table) name) ty else unreadable ty))

end Shape

end QueryPushdown.Sql
