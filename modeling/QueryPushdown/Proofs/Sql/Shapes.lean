import QueryPushdown.Proofs.Sql.Reading

/-!
# Values in columns

A shape reads a value off a row when every scalar of the value stands in its column. The columns of
a shape then hold the leaves of the value in order, its layout puts them together again, and the
rebased shape reads the value off any row that has the leaves in columns named by their places.
-/

namespace QueryPushdown

namespace Value

mutual

/-- The values in a value that are no mappings, in order. -/
def leaves : Value → List Value
  | mapping fields => fieldLeaves fields
  | v => [v]

def fieldLeaves : List (String × Value) → List Value
  | [] => []
  | (_, v) :: rest => leaves v ++ fieldLeaves rest

end

theorem leaves_of_isScalar {v : Value} (h : v.isScalar = true) : v.leaves = [v] := by
  cases v <;> first | rfl | cases h

theorem isScalar_of_ty {v : Value} (h : v.ty.isScalar = true) : v.isScalar = true := by
  cases v <;> first | rfl | cases h

theorem isEqItems_append {as bs cs ds : List Value} (h : as.length = bs.length) :
    isEqItems (as ++ cs) (bs ++ ds) = (isEqItems as bs && isEqItems cs ds) := by
  induction as generalizing bs with
  | nil =>
    rw [List.length_eq_zero_iff.1 h.symm]
    rfl
  | cons a as ih =>
    cases bs with
    | nil => cases h
    | cons b bs =>
      rw [List.cons_append, List.cons_append, isEqItems, isEqItems, ih (Nat.succ.inj h),
        Bool.and_assoc]

theorem isEqFields_cons_of_not_mem {as bs : List (String × Value)} {name : String} {b : Value}
    (h : name ∉ Fields.names as) : isEqFields as ((name, b) :: bs) = isEqFields as bs := by
  induction as with
  | nil => rfl
  | cons f as ih =>
    have hne : name ≠ f.1 := fun he => h (he ▸ List.mem_cons_self)
    have hrest : name ∉ Fields.names as := fun hm => h (List.mem_cons_of_mem _ hm)
    rw [isEqFields, isEqFields, ih hrest, Fields.get?, if_neg hne]

/-- Mappings of the same different names are equal field by field. -/
theorem isEq_mapping {as bs : List (String × Value)} (h : Fields.names as = Fields.names bs)
    (hn : (Fields.names as).Nodup) :
    (mapping as).isEq (mapping bs) = isEqItems (as.map Prod.snd) (bs.map Prod.snd) := by
  have hfields : isEqFields as bs = isEqItems (as.map Prod.snd) (bs.map Prod.snd) := by
    induction as generalizing bs with
    | nil =>
      cases bs with
      | nil => rfl
      | cons g bs => cases h
    | cons f as ih =>
      cases bs with
      | nil => cases h
      | cons g bs =>
        obtain ⟨name, a⟩ := f
        obtain ⟨other, b⟩ := g
        obtain ⟨rfl, hrest⟩ : name = other ∧ Fields.names as = Fields.names bs := List.cons.inj h
        obtain ⟨hnot, hn⟩ := List.nodup_cons.1 hn
        rw [isEqFields, Fields.get?, if_pos rfl, isEqFields_cons_of_not_mem hnot, ih hrest hn]
        rfl
  have hlength : as.length = bs.length := by
    simpa [Fields.names] using congrArg List.length h
  rw [isEq, hlength, beq_self_eq_true, Bool.true_and, hfields]

end Value

namespace Sql

mutual

/-- A shape reads a value of a type off a row. What stands in a field that no column can read is
left open. -/
inductive Shape.Reads (table : Nat) (row : Fields Value) : Shape → Ty → Value → Prop
  | scalar {e : Expr} {v : Value} (hv : e.value? table row = some v)
    (hs : v.ty.isScalar = true) : Shape.Reads table row (.scalar e v.ty) v.ty v
  | mapping {shapes : List (String × Shape)} {tys : List (String × Ty)} {source : Option String}
    {fields : List (String × Value)} (h : Shape.ReadsFields table row shapes tys fields) :
    Shape.Reads table row (.mapping shapes) (.mapping tys source) (.mapping fields)
  | unreadable (ty : Ty) (v : Value) : Shape.Reads table row (.unreadable ty) ty v

inductive Shape.ReadsFields (table : Nat) (row : Fields Value) :
    List (String × Shape) → List (String × Ty) → List (String × Value) → Prop
  | nil : Shape.ReadsFields table row [] [] []
  | cons {name : String} {s : Shape} {ty : Ty} {v : Value} {shapes : List (String × Shape)}
    {tys : List (String × Ty)} {fields : List (String × Value)} (h : Shape.Reads table row s ty v)
    (hrest : Shape.ReadsFields table row shapes tys fields) :
    Shape.ReadsFields table row ((name, s) :: shapes) ((name, ty) :: tys) ((name, v) :: fields)

end

/-- Values in columns named by their places, from the place `start` on. -/
def numbered (name : Nat → String) (start : Nat) : List Value → Fields Value
  | [] => []
  | v :: rest => (name start, v) :: numbered name (start + 1) rest

section Numbered

variable {name : Nat → String} {start i : Nat} {vs : List Value} {v : Value} {more : Fields Value}

theorem map_snd_numbered (name : Nat → String) (start : Nat) (vs : List Value) :
    (numbered name start vs).map Prod.snd = vs := by
  induction vs generalizing start with
  | nil => rfl
  | cons v vs ih => rw [numbered, List.map_cons, ih]

theorem get?_numbered (hinj : ∀ i j, name i = name j → i = j) (h : vs[i]? = some v) :
    Fields.get? (numbered name start vs ++ more) (name (start + i)) = some v := by
  induction vs generalizing start i with
  | nil => cases h
  | cons u vs ih =>
    rw [numbered, List.cons_append, Fields.get?]
    cases i with
    | zero =>
      cases h
      rw [Nat.add_zero, if_pos rfl]
    | succ i =>
      have hne : name start ≠ name (start + (i + 1)) := fun he => by
        have := hinj _ _ he
        omega
      rw [if_neg hne, Nat.add_comm i 1, ← Nat.add_assoc]
      exact ih h

theorem get?_numbered_of_ne {other : String} (h : ∀ i, name i ≠ other) :
    Fields.get? (numbered name start vs ++ more) other = Fields.get? more other := by
  induction vs generalizing start with
  | nil => rfl
  | cons v vs ih => rw [numbered, List.cons_append, Fields.get?, if_neg (h start), ih]

/-- Expressions named by their places give their values so named. -/
theorem mapM_zipIdx {table : Nat} {row : Fields Value} (name : Nat → String) (start : Nat)
    {es : List Expr} (h : es.mapM (fun e => e.value? table row) = some vs) :
    ((es.zipIdx start).map fun (e, i) => (e, name i)).mapM (fun column => do
      let v ← column.1.value? table row
      pure (column.2, v)) = some (numbered name start vs) := by
  induction es generalizing start vs with
  | nil =>
    cases h
    rfl
  | cons e es ih =>
    rw [List.mapM_cons] at h
    obtain ⟨v, hv, h⟩ := Option.bind_eq_some_iff.1 h
    obtain ⟨rest, hrest, h⟩ := Option.bind_eq_some_iff.1 h
    cases h
    rw [List.zipIdx_cons, List.map_cons, List.mapM_cons, ih (start + 1) hrest, hv]
    rfl

end Numbered

/-- A place is told by its digits. -/
theorem repr_inj {i j : Nat} (h : Nat.repr i = Nat.repr j) : i = j := by
  have hdigits : Nat.toDigits 10 i = Nat.toDigits 10 j := by
    rw [← Nat.toList_repr, ← Nat.toList_repr, h]
  rw [← Nat.ofDigitChars_ten_toDigits (n := i), hdigits, Nat.ofDigitChars_ten_toDigits]

theorem Shape.columnName_inj (i j : Nat) (h : columnName i = columnName j) : i = j :=
  repr_inj ((String.append_right_inj "c").1 h)

theorem Relation.orderName_inj (i j : Nat) (h : orderName i = orderName j) : i = j :=
  repr_inj ((String.append_right_inj "o").1 h)

theorem columnName_ne_orderName (i j : Nat) : Shape.columnName i ≠ Relation.orderName j := by
  intro h
  have hlist : ("c" ++ Nat.repr i).toList = ("o" ++ Nat.repr j).toList := congrArg String.toList h
  rw [String.toList_append, String.toList_append] at hlist
  have hc : 'c' = 'o' := (List.cons.inj hlist).1
  exact absurd hc (by decide)

theorem Shape.map_fst_named (es : List Expr) : (named es).map Prod.fst = es := by
  rw [named, List.map_map]
  exact List.zipIdx_map_fst 0 es

theorem Shape.map_snd_named (es : List Expr) :
    (named es).map Prod.snd = (List.range es.length).map columnName := by
  rw [named, List.map_map, List.range_eq_range', ← List.zipIdx_map_snd 0 es, List.map_map]
  rfl

/-- A column of a scalar type is read as it is. -/
theorem readColumn_of_ty {v : Value} (h : v.ty.isScalar = true) : readColumn v.ty v = .ok v := by
  cases v <;> first | rfl | cases h

variable {table : Nat} {row : Fields Value}

mutual

/-- The columns of a shape hold the leaves of what it reads. -/
theorem Shape.Reads.columns {s : Shape} {ty : Ty} {v : Value} {es : List Expr}
    (h : s.Reads table row ty v) (hes : s.columns = .ok es) :
    es.mapM (fun e => e.value? table row) = some v.leaves := by
  cases h with
  | scalar hv hs =>
    cases hes
    rw [List.mapM_cons, hv, Value.leaves_of_isScalar (Value.isScalar_of_ty hs)]
    rfl
  | mapping h =>
    rw [Shape.columns] at hes
    exact h.columns hes
  | unreadable => cases hes
termination_by sizeOf s

theorem Shape.ReadsFields.columns {shapes : List (String × Shape)} {tys : List (String × Ty)}
    {fields : List (String × Value)} {es : List Expr} (h : ReadsFields table row shapes tys fields)
    (hes : fieldColumns shapes = .ok es) :
    es.mapM (fun e => e.value? table row) = some (Value.fieldLeaves fields) := by
  cases h with
  | nil =>
    cases hes
    rfl
  | cons h hrest =>
    obtain ⟨first, others, hfirst, hothers, rfl⟩ := Shape.fieldColumns_cons hes
    rw [List.mapM_append, h.columns hfirst, hrest.columns hothers]
    rfl
termination_by sizeOf shapes

end

mutual

/-- The layout of a shape puts the leaves of what it reads together again. -/
theorem Shape.Reads.layout {s : Shape} {ty : Ty} {v : Value} {l : Layout}
    (h : s.Reads table row ty v) (hl : s.layout = .ok l) (more : List Value) :
    l.read (v.leaves ++ more) = .ok (v, more) ∧ l.width = v.leaves.length := by
  cases h with
  | scalar hv hs =>
    cases hl
    rw [Value.leaves_of_isScalar (Value.isScalar_of_ty hs), Layout.read]
    change (do pure (← readColumn v.ty v, more)) = _ ∧ _
    rw [readColumn_of_ty hs]
    exact ⟨rfl, rfl⟩
  | mapping h =>
    rw [Shape.layout] at hl
    obtain ⟨ls, hls, hl⟩ := Refusal.bind_eq_ok hl
    cases hl
    obtain ⟨hread, hwidth⟩ := h.layout hls more
    rw [Value.leaves, Layout.read, hread, Layout.width, hwidth]
    exact ⟨rfl, rfl⟩
  | unreadable => cases hl
termination_by sizeOf s

theorem Shape.ReadsFields.layout {shapes : List (String × Shape)} {tys : List (String × Ty)}
    {fields : List (String × Value)} {ls : List (String × Layout)}
    (h : ReadsFields table row shapes tys fields) (hls : fieldLayouts shapes = .ok ls)
    (more : List Value) :
    Layout.readFields (Value.fieldLeaves fields ++ more) ls = .ok (fields, more) ∧
      Layout.widths ls = (Value.fieldLeaves fields).length := by
  cases h with
  | nil =>
    cases hls
    exact ⟨rfl, rfl⟩
  | cons h hrest =>
    obtain ⟨first, others, hfirst, hothers, rfl⟩ := Shape.fieldLayouts_cons hls
    obtain ⟨hread, hwidth⟩ := h.layout hfirst (Value.fieldLeaves _ ++ more)
    obtain ⟨hreads, hwidths⟩ := hrest.layout hothers more
    rw [Value.fieldLeaves, List.append_assoc, Layout.readFields, hread, Layout.widths, hwidth,
      hwidths, List.length_append]
    change (do
      let (read, row) ← Layout.readFields (Value.fieldLeaves _ ++ more) others
      pure ((_, _) :: read, row)) = _ ∧ _
    rw [hreads]
    exact ⟨rfl, rfl⟩
termination_by sizeOf shapes

end

theorem Shape.rebaseFields_cons (number next : Nat) (name : String) (s : Shape)
    (shapes : List (String × Shape)) : rebaseFields number next ((name, s) :: shapes) =
      ((name, (s.rebaseFrom number next).1) ::
        (rebaseFields number (s.rebaseFrom number next).2 shapes).1,
        (rebaseFields number (s.rebaseFrom number next).2 shapes).2) := by
  rw [rebaseFields]

mutual

/-- The rebased shape reads a value off any row that has its leaves in columns named by places. -/
theorem Shape.Reads.rebaseFrom {s : Shape} {ty : Ty} {v : Value} {es : List Expr}
    (h : s.Reads table row ty v) (hes : s.columns = .ok es) (number next : Nat)
    (row' : Fields Value) (hrow : ∀ i u, v.leaves[i]? = some u →
      Fields.get? row' (columnName (next + i)) = some u) :
    (s.rebaseFrom number next).1.Reads number row' ty v ∧
      (s.rebaseFrom number next).2 = next + v.leaves.length := by
  cases h with
  | scalar hv hs =>
    have hleaves := Value.leaves_of_isScalar (Value.isScalar_of_ty hs)
    have hcolumn := hrow 0 v (by rw [hleaves]; rfl)
    rw [Shape.rebaseFrom, hleaves]
    refine ⟨.scalar ?_ hs, rfl⟩
    rw [Expr.value?, if_pos rfl]
    exact hcolumn
  | mapping h =>
    rw [Shape.columns] at hes
    obtain ⟨hreads, hnext⟩ := h.rebaseFields hes number next row' hrow
    rw [Shape.rebaseFrom]
    exact ⟨.mapping hreads, hnext⟩
  | unreadable => cases hes
termination_by sizeOf s

theorem Shape.ReadsFields.rebaseFields {shapes : List (String × Shape)} {tys : List (String × Ty)}
    {fields : List (String × Value)} {es : List Expr} (h : ReadsFields table row shapes tys fields)
    (hes : fieldColumns shapes = .ok es) (number next : Nat) (row' : Fields Value)
    (hrow : ∀ i u, (Value.fieldLeaves fields)[i]? = some u →
      Fields.get? row' (columnName (next + i)) = some u) :
    ReadsFields number row' (Shape.rebaseFields number next shapes).1 tys fields ∧
      (Shape.rebaseFields number next shapes).2 = next + (Value.fieldLeaves fields).length := by
  cases h with
  | nil => exact ⟨.nil, rfl⟩
  | @cons _ _ _ v _ _ fields h hrest =>
    obtain ⟨first, others, hfirst, hothers, rfl⟩ := Shape.fieldColumns_cons hes
    obtain ⟨hread, hnext⟩ := h.rebaseFrom hfirst number next row'
      fun i u hi => hrow i u (by
        rw [Value.fieldLeaves, List.getElem?_append_left (List.getElem?_eq_some_iff.1 hi).1, hi])
    obtain ⟨hreads, hnext'⟩ := hrest.rebaseFields hothers number
      (next + v.leaves.length) row' fun i u hi => by
        rw [Nat.add_assoc]
        refine hrow (v.leaves.length + i) u ?_
        rw [Value.fieldLeaves, List.getElem?_append_right (Nat.le_add_right _ _),
          Nat.add_sub_cancel_left, hi]
    rw [Shape.rebaseFields_cons, hnext]
    refine ⟨.cons hread hreads, ?_⟩
    rw [Value.fieldLeaves, List.length_append, ← Nat.add_assoc]
    exact hnext'
termination_by sizeOf shapes

end

theorem Shape.ReadsFields.names_eq {shapes : List (String × Shape)} {tys : List (String × Ty)}
    {fields : List (String × Value)} (h : ReadsFields table row shapes tys fields) :
    Fields.names fields = Fields.names tys := by
  induction fields generalizing shapes tys with
  | nil =>
    cases h
    rfl
  | cons f fields ih =>
    cases h with
    | cons h hrest => exact congrArg _ (ih hrest)

mutual

/-- What one shape reads is equal when the leaves are. -/
theorem Shape.Reads.isEq {s : Shape} {ty : Ty} {v w : Value} {es : List Expr} {row' : Fields Value}
    (h : s.Reads table row ty v) (h' : s.Reads table row' ty w) (hty : ty.Distinct)
    (hes : s.columns = .ok es) : v.isEq w = Value.isEqItems v.leaves w.leaves := by
  cases h with
  | @scalar e v hv hs =>
    generalize hty' : v.ty = ty at h'
    cases h' with
    | scalar hv' hs' =>
      rw [Value.leaves_of_isScalar (Value.isScalar_of_ty hs),
        Value.leaves_of_isScalar (Value.isScalar_of_ty hs')]
      exact (Bool.and_true _).symm
  | mapping h =>
    cases h' with
    | mapping h' =>
      cases hty with
      | mapping hn hty =>
        rw [Shape.columns] at hes
        have hnames := h.names_eq.trans h'.names_eq.symm
        rw [Value.isEq_mapping hnames (h.names_eq ▸ hn), h.isEqItems h' hty hes]
        rfl
  | unreadable => cases hes
termination_by sizeOf s

theorem Shape.ReadsFields.isEqItems {shapes : List (String × Shape)} {tys : List (String × Ty)}
    {fields fields' : List (String × Value)} {es : List Expr} {row' : Fields Value}
    (h : ReadsFields table row shapes tys fields) (h' : ReadsFields table row' shapes tys fields')
    (hty : ∀ f ∈ tys, f.2.Distinct) (hes : fieldColumns shapes = .ok es) :
    Value.isEqItems (fields.map Prod.snd) (fields'.map Prod.snd) =
      Value.isEqItems (Value.fieldLeaves fields) (Value.fieldLeaves fields') := by
  cases h with
  | nil =>
    cases h'
    rfl
  | cons h hrest =>
    cases h' with
    | cons h' hrest' =>
      obtain ⟨first, others, hfirst, hothers, rfl⟩ := Shape.fieldColumns_cons hes
      obtain ⟨hfty, hty⟩ := List.forall_mem_cons.1 hty
      have hlength := (mapM_length (h.columns hfirst)).trans (mapM_length (h'.columns hfirst)).symm
      rw [List.map_cons, List.map_cons, Value.isEqItems, h.isEq h' hfty hfirst,
        hrest.isEqItems hrest' hty hothers, Value.fieldLeaves, Value.fieldLeaves,
        Value.isEqItems_append hlength]
termination_by sizeOf shapes

end

/-- The columns selected for what a shape reads, one that is null when there is no other. -/
def cells (v : Value) : List Value := if v.leaves = [] then [.null] else v.leaves

theorem leaves_prefix_cells (v : Value) : v.leaves <+: cells v := by
  unfold cells
  split
  · rename_i hnil
    rw [hnil]
    exact List.nil_prefix
  · exact List.prefix_refl _

/-- A leaf is found by its place, whatever the other columns are. -/
theorem get?_numbered_cells {v u : Value} {i : Nat} (hi : v.leaves[i]? = some u)
    (more : Fields Value) :
    Fields.get? (numbered Shape.columnName 0 (cells v) ++ more) (Shape.columnName i) = some u := by
  obtain ⟨padding, hcells⟩ := leaves_prefix_cells v
  have hlt : i < v.leaves.length := (List.getElem?_eq_some_iff.1 hi).1
  rw [← Nat.zero_add i]
  refine get?_numbered Shape.columnName_inj ?_
  rw [← hcells, List.getElem?_append_left hlt, hi]

/-- A layout that reads a value off its leaves reads it off the selected columns. -/
theorem Layout.readRow_cells {l : Layout} {v w : Value}
    (h : ∀ more, l.read (v.leaves ++ more) = .ok (w, more) ∧ l.width = v.leaves.length) :
    l.readRow (cells v) = .ok w := by
  obtain ⟨padding, hcells⟩ := leaves_prefix_cells v
  obtain ⟨hread, hwidth⟩ := h padding
  rw [Layout.readRow, ← hcells, hread, hwidth]
  change (if (v.leaves ++ padding).length < v.leaves.length then _ else Except.ok w) = _
  rw [if_neg (by simp)]

/-- Selected columns hold the leaves, named by their places. -/
theorem Shape.Reads.selected {s : Shape} {ty : Ty} {v : Value} {columns : List (Expr × String)}
    (h : s.Reads table row ty v) (hs : s.selected = .ok columns) :
    (columns.mapM fun column => do
      let v ← column.1.value? table row
      pure (column.2, v)) = some (numbered columnName 0 (cells v)) := by
  obtain ⟨es, hes, hs⟩ := Refusal.bind_eq_ok hs
  have hleaves := h.columns hes
  have hlength := mapM_length hleaves
  unfold cells
  split at hs
  · cases hs
    rw [if_pos (List.length_eq_zero_iff.1 hlength)]
    rfl
  · rename_i hne
    cases hs
    rw [if_neg fun hnil => hne (List.length_eq_zero_iff.1 (by rw [← hlength, hnil, List.length_nil]))]
    exact mapM_zipIdx columnName 0 hleaves

theorem Shape.columns_of_selected {s : Shape} {columns : List (Expr × String)}
    (hs : s.selected = .ok columns) : ∃ es, s.columns = .ok es := by
  obtain ⟨es, hes, -⟩ := Refusal.bind_eq_ok hs
  exact ⟨es, hes⟩

/-- What one shape reads is equal when the selected columns are. -/
theorem Shape.Reads.isEq_cells {s : Shape} {ty : Ty} {v w : Value} {es : List Expr}
    {row' : Fields Value} (h : s.Reads table row ty v) (h' : s.Reads table row' ty w)
    (hty : ty.Distinct) (hes : s.columns = .ok es) :
    Value.isEqItems (cells v) (cells w) = v.isEq w := by
  have hlength := (mapM_length (h.columns hes)).trans (mapM_length (h'.columns hes)).symm
  rw [h.isEq h' hty hes]
  unfold cells
  by_cases hv : v.leaves = []
  · have hw : w.leaves = [] := by
      rw [hv] at hlength
      exact List.length_eq_zero_iff.1 hlength.symm
    rw [if_pos hv, if_pos hw, hv, hw]
    rfl
  · have hw : w.leaves ≠ [] := fun hw => by
      rw [hw] at hlength
      exact hv (List.length_eq_zero_iff.1 hlength)
    rw [if_neg hv, if_neg hw]

/-- A derived table of the selected columns has the shape again. -/
theorem Shape.Reads.rebase {s : Shape} {ty : Ty} {v : Value} {es : List Expr} {number : Nat}
    {more : Fields Value} (h : s.Reads table row ty v) (hes : s.columns = .ok es) :
    (s.rebase number).Reads number (numbered columnName 0 (cells v) ++ more) ty v := by
  refine (h.rebaseFrom hes number 0 _ fun i u hi => ?_).1
  rw [Nat.zero_add]
  exact get?_numbered_cells hi more

/-- Decoding the selected columns gives back what the shape reads. -/
theorem Shape.Reads.readRow {s : Shape} {ty : Ty} {v : Value} {l : Layout}
    (h : s.Reads table row ty v) (hl : s.layout = .ok l) : l.readRow (cells v) = .ok v :=
  l.readRow_cells (h.layout hl)

end Sql

end QueryPushdown
