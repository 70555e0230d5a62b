import QueryPushdown.Proofs.Sql.Denotation

/-!
# Places

A place is where expressions are read: the current rows of the tables in scope, and the rows of a
group if the select around is a grouped one. Aliases from some number on are free, and tables that are
read later take their numbers from there. What an expression denotes is therefore stated for every
scope that agrees on the aliases that are taken, and it stays the same at all places further on.
-/

namespace QueryPushdown.Sql

/-- Two scopes have the same current rows in the tables that are numbered below `n`. -/
def Current.AgreeBelow (n : Nat) (row other : Current) : Prop :=
  ∀ number < n, other.lookup number = row.lookup number

namespace Current.AgreeBelow

variable {m n : Nat} {a b c : Current}

theorem refl (n : Nat) (a : Current) : a.AgreeBelow n a := fun _ _ => rfl

theorem trans (h : a.AgreeBelow n b) (h' : b.AgreeBelow n c) : a.AgreeBelow n c :=
  fun number hn => (h' number hn).trans (h number hn)

theorem mono (h : a.AgreeBelow n b) (hm : m ≤ n) : a.AgreeBelow m b :=
  fun number hn => h number (Nat.lt_of_lt_of_le hn hm)

/-- A table that takes a free alias changes nothing below it. -/
theorem cons (n : Nat) (fields : Fields Value) (hm : m ≤ n) : a.AgreeBelow m ((n, fields) :: a) := by
  intro number hn
  have hne : (number == n) = false := beq_false_of_ne (by omega)
  rw [List.lookup_cons, hne]

end Current.AgreeBelow

/-- Where expressions are read. -/
structure Place where
  input : Input
  /-- The aliases from here on are free. -/
  next : Nat
  row : Current
  /-- The rows of the group, in a grouped select. -/
  group : Option (List Current)

namespace Place

/-- The scopes that cannot be told from a place by what is read there. -/
def Admits (p : Place) (members : List Current) (row : Current) : Prop :=
  match p.group with
  | none => p.row.AgreeBelow p.next row
  | some rows => members = rows ∧ row = p.row

/-- What is read at `p` is the same at `q`. -/
structure Leads (p q : Place) : Prop where
  input : q.input = p.input
  next : p.next ≤ q.next
  admits : ∀ members row, q.Admits members row → p.Admits members row

/-- The place of another row, in a select that is not grouped. -/
def on (p : Place) (row : Current) : Place := { p with row, group := none }

/-- The place with more aliases taken. -/
def upto (p : Place) (n : Nat) : Place := { p with next := n }

@[simp] theorem group_upto (p : Place) (n : Nat) : (p.upto n).group = p.group := rfl

variable {p q o : Place} {n : Nat} {row : Current}

theorem admits_on (members : List Current) : (p.on row).Admits members row := .refl _ _

namespace Leads

theorem refl (p : Place) : p.Leads p := ⟨rfl, Nat.le_refl _, fun _ _ h => h⟩

theorem trans (h : p.Leads q) (h' : q.Leads o) : p.Leads o :=
  ⟨h'.input.trans h.input, Nat.le_trans h.next h'.next, fun members row ho =>
    h.admits members row (h'.admits members row ho)⟩

/-- Taking further aliases changes nothing. -/
theorem upto (h : p.next ≤ n) : p.Leads (p.upto n) := by
  refine ⟨rfl, h, fun members row ha => ?_⟩
  unfold Admits at ha ⊢
  rw [group_upto] at ha
  cases hg : p.group with
  | none =>
    rw [hg] at ha
    exact ha.mono h
  | some rows =>
    rw [hg] at ha
    exact ha

/-- Rows that agree on the aliases that are taken are the same to what is read. -/
theorem of_agree (hp : p.group = none) (hinput : q.input = p.input) (hnext : p.next ≤ q.next)
    (hrow : p.row.AgreeBelow p.next q.row) : p.Leads q := by
  refine ⟨hinput, hnext, fun members row ha => ?_⟩
  unfold Admits at ha ⊢
  rw [hp]
  cases hg : q.group with
  | none =>
    rw [hg] at ha
    exact hrow.trans (ha.mono hnext)
  | some rows =>
    rw [hg] at ha
    obtain ⟨-, rfl⟩ := ha
    exact hrow

/-- What is read off the current row holds in the group of the row as well. -/
theorem of_plain (p : Place) : (p.on p.row).Leads p :=
  of_agree rfl rfl (Nat.le_refl _) (.refl _ _)

end Leads

end Place

/-- An expression has a value at a place, whatever else is in scope. -/
def Expr.Denotes (p : Place) (e : Expr) (v : Value) : Prop :=
  ∀ members row, p.Admits members row → e.eval p.input members row = v

namespace Expr.Denotes

variable {p q : Place} {a b e : Expr} {u v w : Value}

theorem leads (h : e.Denotes p v) (hpq : p.Leads q) : e.Denotes q v := fun members row hq => by
  rw [hpq.input]
  exact h members row (hpq.admits members row hq)

theorem eval_on {row : Current} (h : e.Denotes (p.on row) v) (members : List Current) :
    e.eval p.input members row = v := h members row (Place.admits_on members)

theorem value (p : Place) (v : Value) : (Expr.value v).Denotes p v := fun _ _ _ => by rw [eval]

/-- A column of a table that has its alias. -/
theorem column {number : Nat} {name : String} {fields : Fields Value} {row : Current}
    (hnumber : number < p.next) (hfields : row.lookup number = some fields)
    (hv : Fields.get? fields name = some v) : (column (some number) name).Denotes (p.on row) v := by
  intro members other (h : row.AgreeBelow p.next other)
  rw [eval, Current.read, h number hnumber, hfields]
  change (Fields.get? fields name).getD .null = v
  rw [hv]
  rfl

theorem operation {op : Operator} (ha : a.Denotes p u) (hb : b.Denotes p w)
    (h : QueryPushdown.Operator.binary op.toBinary u w = .ok v) :
    (operation a op b).Denotes p v := fun members row hm => by
  rw [eval, ha members row hm, hb members row hm, h]
  rfl

theorem neg (ha : a.Denotes p u) (h : QueryPushdown.Operator.unary .neg u = .ok v) :
    (neg a).Denotes p v := fun members row hm => by
  rw [eval, ha members row hm, h]
  rfl

theorem not (ha : a.Denotes p u) (h : QueryPushdown.Operator.unary .not u = .ok v) :
    (not a).Denotes p v := fun members row hm => by
  rw [eval, ha members row hm, h]
  rfl

/-- A quotient is the quotient of reals. -/
theorem divide_convert (h : QueryPushdown.Operator.divide u w = .ok v) :
    QueryPushdown.Operator.divide (ColumnType.convert .real u) w = .ok v := by
  unfold QueryPushdown.Operator.divide at h
  split at h
  · rename_i x y hx hy
    have hconvert : ColumnType.convert .real u = .float x := by
      unfold ColumnType.convert
      rw [hx]
    have hfloat : (Value.float x).asFloat? = some x := rfl
    rw [hconvert, QueryPushdown.Operator.divide, hfloat, hy]
    exact h
  · cases h

theorem divide (ha : a.Denotes p u) (hb : b.Denotes p w)
    (h : QueryPushdown.Operator.binary .div u w = .ok v) :
    (Expr.operation (.cast a .real) .div b).Denotes p v := by
  have hcast : (cast a .real).Denotes p (ColumnType.convert .real u) := fun members row hm => by
    rw [eval, ha members row hm]
  exact hcast.operation hb (divide_convert h)

/-- The first operand decides, whatever the second one is. -/
theorem connected_first (stop : Bool) (w : Value) : connected stop [.bool stop, w] = .bool stop := by
  unfold connected
  rw [List.any_cons]
  change (if (some stop == some stop || _) = true then _ else _) = _
  rw [beq_self_eq_true, Bool.true_or, if_pos rfl]

/-- The second operand decides after a first one that does not. -/
theorem connected_second (stop b : Bool) :
    connected stop [.bool !stop, .bool b] = .bool b := by
  cases stop <;> cases b <;> rfl

theorem length {s : String} (ha : a.Denotes p (.text s)) :
    (call .length [a] none).Denotes p (.int (Int64.ofNat s.length)) := fun members row hm => by
  rw [eval, evalAll, evalAll, ha members row hm]
  rfl

theorem startsWith {s start : String} (ha : a.Denotes p (.text s)) :
    (startsWith a start).Denotes p (.bool (start.toList.isPrefixOf s.toList)) :=
  fun members row hm => by rw [eval, ha members row hm]

/-- A test against an anchored pattern. -/
theorem matching {s : String} (pattern : Pattern.Anchored) (ha : a.Denotes p (.text s)) :
    (matchingExpr a pattern).Denotes p (.bool (pattern.holds s)) := by
  cases pattern with
  | leading start => exact ha.startsWith
  | exact text => exact ha.operation (.value p (.text text)) rfl

end Expr.Denotes

end QueryPushdown.Sql
