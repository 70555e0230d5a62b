import QueryPushdown.Proofs.Eval.Backed
import QueryPushdown.Proofs.Eval.Lockstep
import QueryPushdown.Proofs.Sql.Fitting
import QueryPushdown.Proofs.Typing.Soundness

/-!
# What relations stand for at a place

A relation that is being lowered keeps some rows of its origin. Sorted by the keys of the select, made
distinct and cut to its bounds, they back the sequence that its term evaluates to, as far as that does
not fail. Changing the select in place goes with the row operation on the sequence, and the derived
table of a relation stands for the same sequence.
-/

namespace QueryPushdown.Sql

section Columns

variable {input : Input} {members : List Current} {row : Current}

theorem map_snd_evalColumns (columns : List (Expr × String)) :
    (evalColumns input members row columns).map Prod.snd =
      columns.map fun column => column.1.eval input members row := by
  rw [evalColumns_eq, List.map_map]
  rfl

theorem evalColumns_append (columns more : List (Expr × String)) :
    evalColumns input members row (columns ++ more) =
      evalColumns input members row columns ++ evalColumns input members row more := by
  rw [evalColumns_eq, evalColumns_eq, evalColumns_eq, List.map_append]

/-- Expressions named by their places give their values so named. -/
theorem evalColumns_zipIdx (name : Nat → String) (start : Nat) (es : List Expr) :
    evalColumns input members row ((es.zipIdx start).map fun (e, i) => (e, name i)) =
      numbered name start (es.map fun e => e.eval input members row) := by
  induction es generalizing start with
  | nil => rfl
  | cons e es ih =>
    rw [List.zipIdx_cons, List.map_cons, evalColumns, ih, List.map_cons, numbered]

/-- Selected columns are compared as the columns of the shape. -/
theorem sameColumns_selected {s : Shape} {columns : List (Expr × String)} {es : List Expr}
    (hs : s.selected = .ok columns) (hes : s.columns = .ok es) (a b : Current) :
    sameColumns (evalColumns input members a columns) (evalColumns input members b columns) =
      Value.isEqItems (evalAll input members a es) (evalAll input members b es) := by
  obtain ⟨es', hes', hs⟩ := Refusal.bind_eq_ok hs
  obtain rfl := Except.ok.inj (hes.symm.trans hes')
  rw [sameColumns, map_snd_evalColumns, map_snd_evalColumns]
  split at hs
  · cases hs
    rfl
  · obtain rfl := Except.ok.inj hs
    have hvalues : ∀ c : Current, (Shape.named es).map (fun column =>
        column.1.eval input members c) = evalAll input members c es := fun c => by
      rw [evalAll_eq, ← Shape.map_fst_named es, List.map_map, Shape.map_fst_named]
      rfl
    rw [hvalues, hvalues]

/-- Selected columns use aggregates when the shape does. -/
theorem any_selected {s : Shape} {columns : List (Expr × String)} (hs : s.selected = .ok columns) :
    columns.any (fun column => column.1.aggregates) = s.aggregates := by
  obtain ⟨es, hes, hs⟩ := Refusal.bind_eq_ok hs
  have hany : ∀ es, (Shape.named es).any (fun column => column.1.aggregates) =
      es.any Expr.aggregates := fun es => by
    rw [← Shape.map_fst_named es, List.any_map, Shape.map_fst_named]
    rfl
  rw [← s.any_columns hes]
  split at hs
  · cases hs
    rfl
  · obtain rfl := Except.ok.inj hs
    exact hany es

/-- Selected columns are named by their places. -/
theorem evalColumns_selected {s : Shape} {columns : List (Expr × String)}
    (hs : s.selected = .ok columns) : ∃ vs,
      evalColumns input members row columns = numbered Shape.columnName 0 vs := by
  have hnamed : ∀ es, ∃ vs, evalColumns input members row (Shape.named es) =
      numbered Shape.columnName 0 vs := fun es => ⟨_, evalColumns_zipIdx Shape.columnName 0 es⟩
  obtain ⟨es, -, hs⟩ := Refusal.bind_eq_ok hs
  split at hs <;> obtain rfl := Except.ok.inj hs <;> exact hnamed _

end Columns

section Selected

variable {p q : Place} {s : Shape} {v : Value} {es : List Expr} {columns : List (Expr × String)}
  {members : List Current} {row outer : Current}

theorem Shape.Holds.evalAll (h : s.Holds p v) (hes : s.columns = .ok es)
    (ha : p.Admits members row) : evalAll p.input members row es = v.leaves := by
  have hcolumns := h.columns hes
  generalize v.leaves = leaves at hcolumns
  clear hes
  rw [evalAll_eq]
  induction hcolumns with
  | nil => rfl
  | cons he _ ih => rw [List.map_cons, he members row ha, ih]

/-- Selected columns hold the leaves, named by their places. -/
theorem Shape.Holds.evalColumns (h : s.Holds p v) (hs : s.selected = .ok columns)
    (ha : p.Admits members row) :
    evalColumns p.input members row columns = numbered columnName 0 (cells v) := by
  obtain ⟨es, hes, hs⟩ := Refusal.bind_eq_ok hs
  have hleaves := h.evalAll hes ha
  unfold cells
  split at hs
  · cases hs
    rw [← hleaves]
    rfl
  · rename_i hne
    obtain rfl := Except.ok.inj hs
    rw [evalAll_eq] at hleaves
    rw [Shape.named, evalColumns_zipIdx, hleaves, if_neg fun hnil => hne ?_]
    rw [hnil, List.map_eq_nil_iff] at hleaves
    exact hleaves

/-- A derived table of the selected columns has the shape again. -/
theorem Shape.Holds.rebase (h : s.Holds p v) (hes : s.columns = .ok es) {number : Nat}
    (hnumber : number < q.next) (more : Fields Value) :
    (s.rebase number).Holds
      (q.on ((number, numbered columnName 0 (cells v) ++ more) :: outer)) v := by
  refine (h.rebaseFrom hes number 0 fun i u hi => ?_).1
  rw [Nat.zero_add]
  exact Expr.Denotes.column hnumber List.lookup_cons_self (get?_numbered_cells hi more)

/-- Decoding the selected columns gives what comes back of a value. -/
theorem Shape.Holds.readRow {ty : Ty} {l : Layout} (h : s.Holds p v) (hfits : s.Fits ty)
    (hl : s.layout = .ok l) : l.readRow (cells v) = .ok (ty.settle v) :=
  l.readRow_cells (h.layout hfits hl)

end Selected

/-- The columns of a stored table hold the fields of its elements. -/
theorem Shape.fieldsHold_ofCollection {p : Place} {tys : List (String × Ty)}
    {fields : List (String × Value)} {table : Nat} {outer : Current}
    (hn : (Fields.names tys).Nodup) (h : Fields.Inhabit tys fields) (htable : table < p.next) :
    FieldsHold (p.on ((table, fields) :: outer)) (tys.map fun (name, ty) =>
      (name, if ty.isScalar then scalar (.column (some table) name) ty else unreadable ty))
      fields := by
  have hall : ∀ {ts : List (String × Ty)} {fs : List (String × Value)},
      (∀ f ∈ fs, Fields.get? fields f.1 = some f.2) → Fields.Inhabit ts fs →
      FieldsHold (p.on ((table, fields) :: outer)) (ts.map fun (name, ty) =>
        (name, if ty.isScalar then scalar (.column (some table) name) ty else unreadable ty))
        fs := by
    intro ts fs hget h
    induction h with
    | nil => exact .nil
    | @cons t f ts fs htf _ ih =>
      obtain ⟨name, ty⟩ := t
      obtain ⟨other, v⟩ := f
      obtain ⟨rfl, hv⟩ := htf
      obtain ⟨hfirst, hget⟩ := List.forall_mem_cons.1 hget
      refine .cons ?_ (ih hget)
      split
      · rename_i hscalar
        exact .scalar (.column htable List.lookup_cons_self hfirst) (hv.isFlat hscalar) hv
      · exact .unreadable ty v
  exact hall (fun f hf => Fields.get?_of_mem (h.names_eq ▸ hn) hf) h

/-- Rows compared by sort keys. -/
def compareBy (input : Input) (orderBy : List (Expr × Bool)) (a b : Current) : Ordering :=
  Sorting.compareDirected (orderBy.map Prod.snd) (evalOrder input [] a orderBy)
    (evalOrder input [] b orderBy)

theorem compareBy_append (input : Input) (orderBy more : List (Expr × Bool)) (a b : Current) :
    compareBy input (orderBy ++ more) a b =
      (compareBy input orderBy a b).then (compareBy input more a b) := by
  have hlength : ∀ row, (evalOrder input [] row orderBy).length =
      (orderBy.map Prod.snd).length := fun row => by
    rw [evalOrder_eq, List.length_map, List.length_map]
  have happend : ∀ row, evalOrder input [] row (orderBy ++ more) =
      evalOrder input [] row orderBy ++ evalOrder input [] row more := fun row => by
    rw [evalOrder_eq, evalOrder_eq, evalOrder_eq, List.map_append]
  rw [compareBy, happend, happend, List.map_append]
  exact Sorting.compareDirected_append (hlength a) (hlength b)

namespace Relation

section Rows

variable (r : Relation) (input : Input) (outer : Current)

/-- The values of the columns of the shape on a row. -/
def cellsOn (row : Current) : List Value :=
  evalAll input [] row (r.shape.columns.toOption.getD [])

/-- The rows that are kept, in the order of the sort keys. -/
def sortedRows : List Current :=
  Sorting.sortBy (compareBy input r.select.orderBy) (r.select.kept input outer)

/-- The rows in order, without those of equal columns if they are distinct. -/
def listedRows : List Current :=
  if r.select.distinct then (r.sortedRows input outer).eraseDupsBy fun b a =>
    Value.isEqItems (r.cellsOn input a) (r.cellsOn input b)
  else r.sortedRows input outer

/-- The rows that are left within the bounds. -/
def windowRows : List Current := r.select.bounded (r.listedRows input outer)

variable {r input outer}

theorem mem_sortedRows {row : Current} :
    row ∈ r.sortedRows input outer ↔ row ∈ r.select.kept input outer := Sorting.mem_sortBy

theorem listedRows_sublist : (r.listedRows input outer).Sublist (r.sortedRows input outer) := by
  unfold listedRows
  split
  · exact Occurrences.eraseDupsBy_sublist _ _
  · exact .refl _

theorem windowRows_sublist : (r.windowRows input outer).Sublist (r.sortedRows input outer) :=
  (Select.bounded_sublist _).trans listedRows_sublist

theorem mem_kept_of_mem_windowRows {row : Current} (h : row ∈ r.windowRows input outer) :
    row ∈ r.select.kept input outer := mem_sortedRows.1 (windowRows_sublist.subset h)

theorem length_sortedRows :
    (r.sortedRows input outer).length = (r.select.kept input outer).length :=
  (Sorting.stable_perm _ _).length_eq

/-- Rows that are in place are sorted and nothing else. -/
theorem windowRows_of_isOpen (h : r.isOpen = true) :
    r.windowRows input outer = r.sortedRows input outer := by
  rw [windowRows, Select.bounded_of_unbounded (isUnbounded_of_isOpen h), listedRows,
    if_neg (by rw [distinct_of_isOpen h]; exact Bool.false_ne_true)]

/-- Selecting plain columns gives one row for each row that is left. -/
theorem rows_eq_windowRows {columns : List (Expr × String)} (hgroup : r.select.groupBy = [])
    (hplain : columns.any (fun column => column.1.aggregates) = false)
    (hsame : r.select.distinct = true → ∀ a b,
      sameColumns (evalColumns input [] a columns) (evalColumns input [] b columns) =
        Value.isEqItems (r.cellsOn input a) (r.cellsOn input b)) :
    ({ r.select with columns := columns } : Select).rows input outer =
      (r.windowRows input outer).map fun row => evalColumns input [] row columns := by
  have hmade : batches outer r.select.groupBy columns
      (fun row => evalAll input [] row r.select.groupBy) (r.select.kept input outer) =
      (r.select.kept input outer).map fun row => ⟨row, []⟩ := by
    rw [batches, hgroup, hplain]
    rfl
  have hsorted : ordered (r.select.orderBy.map Prod.snd)
      (fun b : Batch => evalOrder input b.members b.row r.select.orderBy)
      ((r.select.kept input outer).map fun row => (⟨row, []⟩ : Batch)) =
      (r.sortedRows input outer).map fun row => ⟨row, []⟩ := Sorting.stable_map _ _ _
  rw [Select.rows_eq]
  change r.select.bounded (Sql.deduplicated r.select.distinct ((ordered _ _ (batches outer
    r.select.groupBy columns _ (r.select.kept input outer))).map _)) = _
  rw [hmade, hsorted, List.map_map, windowRows, listedRows, Sql.deduplicated]
  cases hdistinct : r.select.distinct with
  | false => exact Select.bounded_map _ _
  | true =>
    rw [if_pos rfl, if_pos rfl, Occurrences.eraseDupsBy_map (s := fun b a =>
      Value.isEqItems (r.cellsOn input a) (r.cellsOn input b))]
    · exact Select.bounded_map _ _
    · exact fun _ _ _ _ => hsame hdistinct _ _

end Rows

/-- A relation stands for a sequence at a place, from where its tables take aliases up to `m`. The
order of an unordered sequence is that of the tables as long as the rows are in place. -/
structure Renders (r : Relation) (p : Place) (m : Nat) (isOrdered : Bool) (ys : Yields) :
    Prop where
  ungrouped : r.select.groupBy = []
  agree : ∀ row ∈ r.select.kept p.input p.row, p.row.AgreeBelow p.next row
  ranks : Sorting.Ranks (compareBy p.input r.select.orderBy) (r.select.kept p.input p.row)
  unsorted : r.select.distinct = true → r.select.orderBy = []
  forward : r.select.IsForward
  positive : ∀ offset, r.select.offset = some offset → 0 < offset
  length_lt : (r.select.kept p.input p.row).length < 2 ^ 63
  inPlace : isOrdered = false → r.isOpen = true →
    r.sortedRows p.input p.row = r.select.kept p.input p.row
  backed : (r.select.distinct = true → ∃ es, r.shape.columns = .ok es) →
    ys.Backed (fun row v => r.shape.Holds ((p.upto m).on row) v) (r.windowRows p.input p.row)

namespace Renders

variable {r : Relation} {p : Place} {k m : Nat} {isOrdered : Bool} {ys : Yields} {vs : List Value}

/-- What is read of a row stays the same when further aliases are taken. -/
theorem leads_on (p : Place) (row : Current) (hkm : k ≤ m) :
    ((p.upto k).on row).Leads ((p.upto m).on row) :=
  Place.Leads.upto (p := (p.upto k).on row) hkm

theorem backed_of_isOpen (h : r.Renders p m isOrdered ys) (hopen : r.isOpen = true) :
    ys.Backed (fun row v => r.shape.Holds ((p.upto m).on row) v) (r.sortedRows p.input p.row) := by
  rw [← windowRows_of_isOpen hopen]
  refine h.backed fun hdistinct => ?_
  rw [distinct_of_isOpen hopen] at hdistinct
  cases hdistinct

/-- The rows that are kept stand for the elements in some order, their own if they are unordered. -/
theorem kept_forall₂ (h : r.Renders p m isOrdered (Yields.ofList vs)) (hopen : r.isOpen = true) :
    ∃ us, us.Perm vs ∧ (isOrdered = false → us = vs) ∧
      List.Forall₂ (fun row v => r.shape.Holds ((p.upto m).on row) v)
        (r.select.kept p.input p.row) us := by
  have hback := (h.backed_of_isOpen hopen).forall₂
  cases isOrdered with
  | false =>
    rw [h.inPlace rfl hopen] at hback
    exact ⟨vs, .refl _, fun _ => rfl, hback⟩
  | true =>
    obtain ⟨us, hus, hperm⟩ := List.perm_comp_forall₂ (Sorting.stable_perm _ _).symm hback
    exact ⟨us, hperm, fun ho => (by cases ho), hus⟩

section Table

variable {c : Collection}

theorem kept_ofCollection (input : Input) (outer : Current) (table : Nat)
    (hinput : input c.name = .ok vs) :
    (Relation.ofCollection c table).select.kept input outer =
      vs.map fun v => (table, v.asMapping?.getD []) :: outer := by
  change List.filter _ (Origin.rows input outer (.table c.name table)) = _
  rw [Origin.rows, hinput]
  exact List.filter_eq_self.2 fun _ _ => rfl

/-- The rows of a stored table stand for its elements. -/
theorem ofCollection (hinput : p.input c.name = .ok vs)
    (hrows : ∀ v ∈ vs, ∃ fields, v = .mapping fields ∧ Fields.Inhabit c.fields fields)
    (hdistinct : c.itemTy.Distinct) (hlength : vs.length < 2 ^ 63) (hm : p.next < m) :
    (Relation.ofCollection c p.next).Renders p m false (Yields.ofList vs) := by
  have hkept := kept_ofCollection p.input p.row p.next hinput
  have hsorted : (Relation.ofCollection c p.next).sortedRows p.input p.row =
      (Relation.ofCollection c p.next).select.kept p.input p.row :=
    Sorting.sortBy_eq_self fun _ _ _ _ => rfl
  refine ⟨rfl, ?_, ⟨fun _ _ _ _ => rfl, fun _ _ _ _ _ _ _ _ => rfl⟩, fun _ => rfl,
    .of_unbounded rfl, fun _ h => (nomatch h), ?_, fun _ _ => hsorted, fun _ => ?_⟩
  · rw [hkept]
    exact List.forall_mem_map.2 fun v _ => .cons _ _ (Nat.le_refl _)
  · rw [hkept, List.length_map]
    exact hlength
  rw [windowRows_of_isOpen rfl, hsorted, hkept]
  refine .ofList (List.forall₂_map_left_iff.2 (List.forall₂_same.2 fun v hv => ?_))
  obtain ⟨fields, rfl, hfields⟩ := hrows v hv
  cases hdistinct with
  | mapping hn _ => exact .mapping (Shape.fieldsHold_ofCollection hn hfields hm)

end Table

end Renders

end Relation

end QueryPushdown.Sql
