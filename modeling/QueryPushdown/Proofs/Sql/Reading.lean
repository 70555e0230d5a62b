import QueryPushdown.Proofs.Eval.Sorting
import QueryPushdown.Proofs.Eval.Occurrences
import QueryPushdown.Sql.Fragment

/-!
# Reading selects

What a select yields over given tables. The rows of its `FROM` clause are taken in order. Those on
which every conjunct of the `WHERE` clause is true are sorted stably and the columns are selected.
`DISTINCT` then keeps first occurrences, and the bounds come last. Operators mean what they mean in
requests, equality between nulls included. Groups, aggregates, sub-selects and conversions are given
no reading, and neither is an expression that fails.
-/

namespace QueryPushdown.Sql

/-- The operator of requests that an operator between two operands stands for. -/
def Operator.toBinary : Operator → BinaryOp
  | .eq => .eq
  | .ne => .ne
  | .lt => .lt
  | .le => .le
  | .gt => .gt
  | .ge => .ge
  | .add | .concat => .add
  | .sub => .sub
  | .mul => .mul
  | .div => .div

mutual

/-- The value of an expression on a row of the table with a number. -/
def Expr.value? (table : Nat) (row : Fields Value) : Expr → Option Value
  | .and operands => (decided? table row false operands).map .bool
  | .or operands => (decided? table row true operands).map .bool
  | .operation lhs op rhs => do
    let a ← lhs.value? table row
    let b ← rhs.value? table row
    (QueryPushdown.Operator.binary op.toBinary a b).toOption
  | .column (some number) name => if number = table then Fields.get? row name else none
  | .column none name => Fields.get? row name
  | .neg operand => do
    let v ← operand.value? table row
    (QueryPushdown.Operator.unary .neg v).toOption
  | .not operand => do
    let v ← operand.value? table row
    (QueryPushdown.Operator.unary .not v).toOption
  | .value v => some v
  | .cast _ _ | .call _ _ _ | .startsWith _ _ | .subquery _ | .array _ => none

/-- Tests operands one after the other. The first that is `stop` decides, otherwise their end. -/
def decided? (table : Nat) (row : Fields Value) (stop : Bool) : List Expr → Option Bool
  | [] => some !stop
  | e :: rest => do
    let v ← e.value? table row
    let b ← v.asBool?
    if b = stop then some stop else decided? table row stop rest

end

/-- The elements that pass a test. -/
def keep? {α : Type} (test : α → Option Bool) : List α → Option (List α)
  | [] => some []
  | a :: rest => do
    let b ← test a
    let kept ← keep? test rest
    pure (if b then a :: kept else kept)

/-- Whether two rows have equal columns. -/
def sameColumns (a b : Fields Value) : Bool :=
  Value.isEqItems (a.map Prod.snd) (b.map Prod.snd)

namespace Select

/-- The values of the sort keys on a row. -/
def keys? (s : Select) (table : Nat) (row : Fields Value) : Option (List Value) :=
  s.orderBy.mapM fun key => key.1.value? table row

/-- The selected columns of a row. -/
def output? (s : Select) (table : Nat) (row : Fields Value) : Option (Fields Value) :=
  s.columns.mapM fun column => do
    let v ← column.1.value? table row
    pure (column.2, v)

/-- The rows sorted by their keys. -/
def sort? (s : Select) (table : Nat) (rows : List (Fields Value)) :
    Option (List (Fields Value)) := do
  let keyed ← rows.mapM fun row => do
    let keys ← s.keys? table row
    pure (keys, row)
  let sorted := Sorting.sortBy
    (fun a b => Sorting.compareDirected (s.orderBy.map Prod.snd) a.1 b.1) keyed
  pure (sorted.map Prod.snd)

/-- The rows within the bounds. -/
def bounded {α : Type} (s : Select) (rows : List α) : List α :=
  let rest := rows.drop (s.offset.getD 0).toInt.toNat
  match s.limit with
  | some limit => rest.take limit.toInt.toNat
  | none => rest

/-- What the clauses of a select make of the rows of its `FROM` clause. -/
def yields? (s : Select) (table : Nat) (rows : List (Fields Value)) :
    Option (List (Fields Value)) := do
  if !s.groupBy.isEmpty then none
  else do
    let kept ← keep? (fun row => decided? table row false s.filter) rows
    let sorted ← s.sort? table kept
    let selected ← sorted.mapM (s.output? table)
    let selected := if s.distinct then selected.eraseDupsBy fun b a => sameColumns a b else selected
    pure (s.bounded selected)

end Select

mutual

/-- The rows of a select; those of stored tables are their elements. -/
def Select.rows? (input : Input) : Select → Option (List (Fields Value))
  | { distinct, columns, origin, filter, groupBy, orderBy, limit, offset } => do
    let (table, rows) ← match origin with
      | none => some (0, [[]])
      | some o => o.rows? input
    Select.yields? { distinct, columns, filter, groupBy, orderBy, limit, offset } table rows

/-- The number of an origin and its rows. -/
def Origin.rows? (input : Input) : Origin → Option (Nat × List (Fields Value))
  | .table name number => do
    let elements ← (input name).toOption
    let rows ← elements.mapM Value.asMapping?
    pure (number, rows)
  | .derived select number => do
    let rows ← select.rows? input
    pure (number, rows)

end

/-- The rows of a select as they are decoded. -/
def Select.cells? (s : Select) (input : Input) : Option (List (List Value)) :=
  (s.rows? input).map fun rows => rows.map fun row => row.map Prod.snd

section Lists

variable {α β : Type}

theorem mapM_eq_some {f : α → Option β} {g : α → β} {xs : List α}
    (h : ∀ a ∈ xs, f a = some (g a)) : xs.mapM f = some (xs.map g) := by
  induction xs with
  | nil => rfl
  | cons a xs ih =>
    obtain ⟨ha, hxs⟩ := List.forall_mem_cons.1 h
    rw [List.mapM_cons, ha, ih hxs]
    rfl

theorem mapM_length {f : α → Option β} {xs : List α} {ys : List β} (h : xs.mapM f = some ys) :
    ys.length = xs.length := by
  induction xs generalizing ys with
  | nil =>
    cases h
    rfl
  | cons x xs ih =>
    rw [List.mapM_cons] at h
    obtain ⟨y, -, h⟩ := Option.bind_eq_some_iff.1 h
    obtain ⟨rest, hrest, h⟩ := Option.bind_eq_some_iff.1 h
    cases h
    rw [List.length_cons, List.length_cons, ih hrest]

variable {γ : Type} {test both : α → Option Bool} {xs : List α} {ps : List γ} {f : γ → α}
  {p : γ → Bool}

/-- A further test is made only of the elements that pass the first one. -/
theorem keep?_and (more : α → Option Bool) (h : keep? test xs = some (ps.map f))
    (hp : ∀ q ∈ ps, more (f q) = some (p q))
    (hboth : ∀ a b, test a = some b → both a = if b then more a else some false) :
    keep? both xs = some ((ps.filter p).map f) := by
  induction xs generalizing ps with
  | nil =>
    have hnil : [] = ps.map f := Option.some.inj h
    rw [List.map_eq_nil_iff.1 hnil.symm]
    rfl
  | cons a xs ih =>
    obtain ⟨b, hb, h⟩ := Option.bind_eq_some_iff.1 h
    obtain ⟨kept, hkept, h⟩ := Option.bind_eq_some_iff.1 h
    rw [keep?, hboth a b hb]
    cases b with
    | true =>
      obtain ⟨q, qs, rfl, rfl, rfl⟩ := List.map_eq_cons_iff.1 (Option.some.inj h).symm
      obtain ⟨hq, hqs⟩ := List.forall_mem_cons.1 hp
      rw [if_pos rfl, hq, ih hkept hqs, List.filter_cons]
      cases p q <;> rfl
    | false =>
      cases Option.some.inj h
      rw [if_neg Bool.false_ne_true, ih hkept hp]
      rfl

theorem keep?_true (xs : List α) : keep? (fun _ => some true) xs = some xs := by
  induction xs with
  | nil => rfl
  | cons a xs ih =>
    rw [keep?, ih]
    rfl

end Lists

section Clauses

variable {table : Nat} {row : Fields Value}

theorem decided?_cons (stop : Bool) (e : Expr) (es : List Expr) :
    decided? table row stop (e :: es) =
      ((e.value? table row).bind Value.asBool?).bind fun b =>
        if b = stop then some stop else decided? table row stop es := by
  rw [decided?, Option.bind_assoc]
  rfl

theorem decided?_append (stop : Bool) (es fs : List Expr) :
    decided? table row stop (es ++ fs) = (decided? table row stop es).bind fun b =>
      if b = stop then some stop else decided? table row stop fs := by
  induction es with
  | nil => cases stop <;> rfl
  | cons e es ih =>
    rw [List.cons_append, decided?_cons, decided?_cons, ih]
    cases (e.value? table row).bind Value.asBool? with
    | none => rfl
    | some b => cases b <;> cases stop <;> rfl

theorem decided?_singleton {stop b : Bool} {e : Expr} (h : e.value? table row = some (.bool b)) :
    decided? table row stop [e] = some b := by
  rw [decided?_cons, h]
  cases b <;> cases stop <;> rfl

namespace Select

/-- Rows compared by their sort keys. -/
def compareRows (s : Select) (table : Nat) (a b : Fields Value) : Ordering :=
  Sorting.compareDirected (s.orderBy.map Prod.snd) ((s.keys? table a).getD [])
    ((s.keys? table b).getD [])

variable {s : Select} {rows : List (Fields Value)} {γ : Type} {ps : List γ} {r : γ → Fields Value}
  {out : γ → Fields Value}

/-- Sorting rows sorts whatever stands for them. -/
theorem sort?_eq (hkeys : ∀ p ∈ ps, ∃ keys, s.keys? table (r p) = some keys) :
    s.sort? table (ps.map r) =
      some ((Sorting.sortBy (fun p q => s.compareRows table (r p) (r q)) ps).map r) := by
  have hkeyed : (ps.map r).mapM (fun row => do
      let keys ← s.keys? table row
      pure (keys, row)) = some (ps.map fun p => ((s.keys? table (r p)).getD [], r p)) := by
    rw [List.mapM_map]
    refine mapM_eq_some fun p hp => ?_
    obtain ⟨keys, hkeys⟩ := hkeys p hp
    rw [Function.comp_apply, hkeys]
    rfl
  rw [sort?, hkeyed]
  change some (List.map Prod.snd (Sorting.sortBy _ (ps.map _))) = _
  rw [Sorting.sortBy, Sorting.stable_map, List.map_map]
  rfl

/-- What the clauses make of rows that are kept, sorted and selected without failure. -/
theorem yields?_eq (hgroup : s.groupBy = [])
    (hkept : keep? (fun row => decided? table row false s.filter) rows = some (ps.map r))
    (hkeys : ∀ p ∈ ps, ∃ keys, s.keys? table (r p) = some keys)
    (hout : ∀ p ∈ ps, s.output? table (r p) = some (out p)) :
    s.yields? table rows = some (s.bounded
      (let selected := (Sorting.sortBy (fun p q => s.compareRows table (r p) (r q)) ps).map out
      if s.distinct then selected.eraseDupsBy fun b a => sameColumns a b else selected)) := by
  have hselected : ((Sorting.sortBy (fun p q => s.compareRows table (r p) (r q)) ps).map r).mapM
      (s.output? table) =
      some ((Sorting.sortBy (fun p q => s.compareRows table (r p) (r q)) ps).map out) := by
    rw [List.mapM_map]
    exact mapM_eq_some fun p hp => hout p (Sorting.mem_sortBy.1 hp)
  rw [yields?, hgroup, hkept]
  change (s.sort? table (ps.map r) >>= _) = _
  rw [sort?_eq hkeys]
  change Option.bind (List.mapM (s.output? table) _) _ = _
  rw [hselected]
  rfl

theorem rows?_eq {input : Input} {o : Origin} (ho : s.origin = some o)
    (hrows : o.rows? input = some (table, rows)) :
    s.rows? input = ({ s with origin := none } : Select).yields? table rows := by
  obtain ⟨distinct, columns, origin, filter, groupBy, orderBy, limit, offset⟩ := s
  cases ho
  rw [rows?, hrows]
  rfl

theorem bounded_map {α β : Type} (f : α → β) (xs : List α) :
    s.bounded (xs.map f) = (s.bounded xs).map f := by
  unfold bounded
  cases s.limit <;> simp only [List.map_drop, List.map_take]

theorem bounded_sublist {α : Type} (xs : List α) : (s.bounded xs).Sublist xs := by
  unfold bounded
  cases s.limit with
  | none => exact List.drop_sublist _ _
  | some limit => exact (List.take_sublist _ _).trans (List.drop_sublist _ _)

end Select

end Clauses

end QueryPushdown.Sql
