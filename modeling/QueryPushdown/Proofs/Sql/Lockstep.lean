import QueryPushdown.Proofs.Sql.Shapes

/-!
# Shapes and rows in lockstep

The columns that a shape selects, the shape rebased on a derived table of them, and the layout that
reads its rows all number the scalars of the shape in one order. A row is read whenever it is wide
enough and holds no real where an integer is read, and each scalar of what is read is the reading of
the column with its number.
-/

namespace QueryPushdown.Sql

/-- A real stands in a column of integers, or within a list in a column of lists of them. -/
inductive Overflows : Ty → Value → Prop
  | real (x : Binary64) : Overflows .i64 (.float x)
  | item {ty : Ty} {v : Value} {items : List Value} (hv : v ∈ items) (h : Overflows ty v) :
    Overflows (.list ty) (.list items)

namespace Shape

mutual

/-- The columns of a shape in order, each with the type it is read as. -/
def scalars : Shape → List (Expr × Ty)
  | scalar e ty => [(e, ty)]
  | mapping fields => fieldScalars fields
  | unreadable _ => []

def fieldScalars : List (String × Shape) → List (Expr × Ty)
  | [] => []
  | (_, shape) :: rest => shape.scalars ++ fieldScalars rest

end

mutual

/-- The types of the stored values that no column can read, in order. -/
def unreadables : Shape → List Ty
  | scalar _ _ => []
  | mapping fields => fieldUnreadables fields
  | unreadable ty => [ty]

def fieldUnreadables : List (String × Shape) → List Ty
  | [] => []
  | (_, shape) :: rest => shape.unreadables ++ fieldUnreadables rest

end

end Shape

namespace Layout

mutual

/-- The types of the columns of a layout in order. -/
def tys : Layout → List Ty
  | column ty => [ty]
  | mapping fields => fieldTys fields

def fieldTys : List (String × Layout) → List Ty
  | [] => []
  | (_, layout) :: rest => layout.tys ++ fieldTys rest

end

mutual

/-- A value has the fields of a layout, and these are its scalars in order. -/
inductive Spreads : Layout → Value → List Value → Prop
  | column (ty : Ty) (v : Value) : Spreads (.column ty) v [v]
  | mapping {fields : List (String × Layout)} {values : List (String × Value)} {vs : List Value}
    (h : SpreadsFields fields values vs) : Spreads (.mapping fields) (.mapping values) vs

inductive SpreadsFields : List (String × Layout) → List (String × Value) → List Value → Prop
  | nil : SpreadsFields [] [] []
  | cons {name : String} {layout : Layout} {v : Value} {vs ws : List Value}
    {fields : List (String × Layout)} {values : List (String × Value)} (h : Spreads layout v vs)
    (hrest : SpreadsFields fields values ws) :
    SpreadsFields ((name, layout) :: fields) ((name, v) :: values) (vs ++ ws)

end

end Layout

section Columns

open Shape

mutual

/-- A readable shape has its scalars as columns. -/
theorem Shape.columns_of_readable (s : Shape) (h : s.unreadables = []) :
    s.columns = .ok (s.scalars.map Prod.fst) := by
  cases s with
  | scalar e ty => rfl
  | mapping fields =>
    rw [columns, scalars]
    exact fieldColumns_of_readable fields h
  | unreadable ty => cases h

theorem Shape.fieldColumns_of_readable (fields : List (String × Shape))
    (h : fieldUnreadables fields = []) :
    fieldColumns fields = .ok ((fieldScalars fields).map Prod.fst) := by
  cases fields with
  | nil => rfl
  | cons f fields =>
    obtain ⟨hfirst, hrest⟩ := List.append_eq_nil_iff.1 h
    rw [fieldColumns, columns_of_readable f.2 hfirst, fieldColumns_of_readable fields hrest,
      fieldScalars, List.map_append]
    rfl

end

mutual

/-- The first value that no column can read is why the columns are refused. -/
theorem Shape.columns_of_unreadable (s : Shape) {ty : Ty} {tys : List Ty}
    (h : s.unreadables = ty :: tys) : s.columns = .error (.unselectable ty) := by
  cases s with
  | scalar e ty => cases h
  | mapping fields =>
    rw [columns]
    exact fieldColumns_of_unreadable fields h
  | unreadable ty =>
    cases h
    rfl

theorem Shape.fieldColumns_of_unreadable (fields : List (String × Shape)) {ty : Ty}
    {tys : List Ty} (h : fieldUnreadables fields = ty :: tys) :
    fieldColumns fields = .error (.unselectable ty) := by
  cases fields with
  | nil => cases h
  | cons f fields =>
    rw [fieldColumns]
    rcases List.append_eq_cons_iff.1 h with ⟨hfirst, hrest⟩ | ⟨more, hfirst, -⟩
    · rw [columns_of_readable f.2 hfirst, fieldColumns_of_unreadable fields hrest]
      rfl
    · rw [columns_of_unreadable f.2 hfirst]
      rfl

end

mutual

/-- The layout of a readable shape has the types of its scalars. -/
theorem Shape.layout_of_readable (s : Shape) (h : s.unreadables = []) :
    ∃ l, s.layout = .ok l ∧ l.tys = s.scalars.map Prod.snd := by
  cases s with
  | scalar e ty => exact ⟨.column ty, rfl, rfl⟩
  | mapping fields =>
    obtain ⟨ls, hls, htys⟩ := fieldLayouts_of_readable fields h
    refine ⟨.mapping ls, ?_, htys⟩
    rw [layout, hls]
    rfl
  | unreadable ty => cases h

theorem Shape.fieldLayouts_of_readable (fields : List (String × Shape))
    (h : fieldUnreadables fields = []) :
    ∃ ls, fieldLayouts fields = .ok ls ∧
      Layout.fieldTys ls = (fieldScalars fields).map Prod.snd := by
  cases fields with
  | nil => exact ⟨[], rfl, rfl⟩
  | cons f fields =>
    obtain ⟨hfirst, hrest⟩ := List.append_eq_nil_iff.1 h
    obtain ⟨l, hl, htys⟩ := layout_of_readable f.2 hfirst
    obtain ⟨ls, hls, hrests⟩ := fieldLayouts_of_readable fields hrest
    refine ⟨(f.1, l) :: ls, ?_, ?_⟩
    · rw [fieldLayouts, hl, hls]
      rfl
    · rw [Layout.fieldTys, htys, hrests, fieldScalars, List.map_append]

end

mutual

theorem Shape.layout_of_unreadable (s : Shape) {ty : Ty} {tys : List Ty}
    (h : s.unreadables = ty :: tys) : s.layout = .error (.unselectable ty) := by
  cases s with
  | scalar e ty => cases h
  | mapping fields =>
    rw [layout, fieldLayouts_of_unreadable fields h]
    rfl
  | unreadable ty =>
    cases h
    rfl

theorem Shape.fieldLayouts_of_unreadable (fields : List (String × Shape)) {ty : Ty}
    {tys : List Ty} (h : fieldUnreadables fields = ty :: tys) :
    fieldLayouts fields = .error (.unselectable ty) := by
  cases fields with
  | nil => cases h
  | cons f fields =>
    rw [fieldLayouts]
    rcases List.append_eq_cons_iff.1 h with ⟨hfirst, hrest⟩ | ⟨more, hfirst, -⟩
    · obtain ⟨l, hl, -⟩ := layout_of_readable f.2 hfirst
      rw [hl, fieldLayouts_of_unreadable fields hrest]
      rfl
    · rw [layout_of_unreadable f.2 hfirst]
      rfl

end

mutual

/-- A rebased shape reads the scalars off columns named by their places. -/
theorem Shape.rebaseFrom_spec (s : Shape) (table next : Nat) :
    (s.rebaseFrom table next).1.scalars = (s.scalars.zipIdx next).map (fun (c, i) =>
        (.column (some table) (columnName i), c.2)) ∧
      (s.rebaseFrom table next).2 = next + s.scalars.length ∧
      (s.rebaseFrom table next).1.unreadables = s.unreadables ∧
      (s.rebaseFrom table next).1.layout = s.layout := by
  cases s with
  | scalar e ty => exact ⟨rfl, rfl, rfl, rfl⟩
  | mapping fields =>
    obtain ⟨hscalars, hnext, hunreadables, hlayouts⟩ := rebaseFields_spec fields table next
    rw [rebaseFrom]
    refine ⟨hscalars, hnext, hunreadables, ?_⟩
    rw [layout, layout, hlayouts]
  | unreadable ty => exact ⟨rfl, rfl, rfl, rfl⟩

theorem Shape.rebaseFields_spec (fields : List (String × Shape)) (table next : Nat) :
    fieldScalars (rebaseFields table next fields).1 =
        ((fieldScalars fields).zipIdx next).map (fun (c, i) =>
          (.column (some table) (columnName i), c.2)) ∧
      (rebaseFields table next fields).2 = next + (fieldScalars fields).length ∧
      fieldUnreadables (rebaseFields table next fields).1 = fieldUnreadables fields ∧
      fieldLayouts (rebaseFields table next fields).1 = fieldLayouts fields := by
  cases fields with
  | nil => exact ⟨rfl, rfl, rfl, rfl⟩
  | cons f fields =>
    obtain ⟨name, s⟩ := f
    obtain ⟨hscalars, hnext, hunreadables, hlayout⟩ := rebaseFrom_spec s table next
    obtain ⟨hscalars', hnext', hunreadables', hlayouts⟩ :=
      rebaseFields_spec fields table (s.rebaseFrom table next).2
    rw [rebaseFields_cons]
    refine ⟨?_, ?_, ?_, ?_⟩
    · rw [fieldScalars, hscalars, hscalars', hnext, fieldScalars, List.zipIdx_append,
        List.map_append]
    · rw [hnext', hnext, fieldScalars, List.length_append, Nat.add_assoc]
    · rw [fieldUnreadables, hunreadables, hunreadables', fieldUnreadables]
    · rw [fieldLayouts, hlayout, hlayouts, fieldLayouts]

end

end Columns

section Rows

variable {ty : Ty} {v : Value} {row : List Value}

/-- The first columns of a row, null where it is too short. -/
def firstColumns : Nat → List Value → List Value
  | 0, _ => []
  | n + 1, row => row.headD .null :: firstColumns n row.tail

theorem firstColumns_add (m n : Nat) (row : List Value) :
    firstColumns (m + n) row = firstColumns m row ++ firstColumns n (row.drop m) := by
  induction m generalizing row with
  | zero => rw [Nat.zero_add, firstColumns, List.drop_zero, List.nil_append]
  | succ m ih =>
    rw [Nat.succ_add, firstColumns, firstColumns, ih, List.drop_tail, List.cons_append]

theorem length_firstColumns (n : Nat) (row : List Value) : (firstColumns n row).length = n := by
  induction n generalizing row with
  | zero => rfl
  | succ n ih => rw [firstColumns, List.length_cons, ih]

theorem firstColumns_of_le {n : Nat} (h : n ≤ row.length) : firstColumns n row = row.take n := by
  induction n generalizing row with
  | zero => rw [firstColumns, List.take_zero]
  | succ n ih =>
    cases row with
    | nil => cases h
    | cons v row =>
      rw [firstColumns, List.take_succ_cons, List.tail_cons, ih (Nat.le_of_succ_le_succ h)]
      rfl

theorem not_readColumn (h : Overflows ty v) {w : Value} : readColumn ty v ≠ .ok w := by
  induction h generalizing w with
  | real x => exact fun hw => by cases hw
  | item hv _ ih =>
    intro hw
    rw [readColumn] at hw
    obtain ⟨ws, hws, -⟩ := Outcome.bind_eq_ok.1 hw
    obtain ⟨w, -, hw⟩ := exists_of_mem_left (Outcome.mapM_eq_ok.1 hws) hv
    exact ih hw

/-- A column is read unless it overflows. -/
theorem exists_readColumn (ty : Ty) (v : Value) (h : ¬ Overflows ty v) :
    ∃ w, readColumn ty v = .ok w := by
  cases ty with
  | i64 =>
    cases v with
    | float x => exact absurd (.real x) h
    | _ => exact ⟨_, rfl⟩
  | list item =>
    cases v with
    | list items =>
      have hitems : ∃ ws, items.mapM (readColumn item) = .ok ws :=
        Outcome.exists_mapM fun v hv => exists_readColumn item v fun hover => h (.item hv hover)
      obtain ⟨ws, hws⟩ := hitems
      exact ⟨.list ws, by rw [readColumn, hws]; rfl⟩
    | _ => exact ⟨_, rfl⟩
  | _ => cases v <;> exact ⟨_, rfl⟩

/-- A value that a column of a type is read as. -/
def IsReading (c : Ty × Value) (w : Value) : Prop := readColumn c.1 c.2 = .ok w

end Rows

namespace Layout

mutual

theorem length_tys (l : Layout) : l.tys.length = l.width := by
  cases l with
  | column ty => rfl
  | mapping fields =>
    rw [tys, width]
    exact length_fieldTys fields

theorem length_fieldTys (fields : List (String × Layout)) :
    (fieldTys fields).length = widths fields := by
  cases fields with
  | nil => rfl
  | cons f fields =>
    rw [fieldTys, List.length_append, length_tys f.2, length_fieldTys fields, widths]

end

/-- The columns of the first field come before the columns of the others. -/
theorem zip_fieldTys (name : String) (l : Layout) (fields : List (String × Layout))
    (row : List Value) :
    (fieldTys ((name, l) :: fields)).zip (firstColumns (widths ((name, l) :: fields)) row) =
      l.tys.zip (firstColumns l.width row) ++
        (fieldTys fields).zip (firstColumns (widths fields) (row.drop l.width)) := by
  rw [fieldTys, widths, firstColumns_add, List.zip_append]
  rw [length_tys, length_firstColumns]

mutual

/-- What is read has the fields of the layout, its scalars being the readings of the columns. -/
theorem read_eq_ok (l : Layout) {row rest : List Value} {v : Value}
    (h : l.read row = .ok (v, rest)) : rest = row.drop l.width ∧
      ∃ vs, l.Spreads v vs ∧ List.Forall₂ IsReading (l.tys.zip (firstColumns l.width row)) vs := by
  cases l with
  | column ty =>
    obtain ⟨w, hw, h⟩ := Outcome.bind_eq_ok.1 h
    cases h
    exact ⟨List.drop_one.symm, [v], .column ty v, .cons hw .nil⟩
  | mapping fields =>
    rw [read] at h
    obtain ⟨⟨values, rest'⟩, hread, h⟩ := Outcome.bind_eq_ok.1 h
    cases h
    obtain ⟨hrest, vs, hvs, hreads⟩ := readFields_eq_ok fields hread
    exact ⟨hrest, vs, .mapping hvs, hreads⟩

theorem readFields_eq_ok (fields : List (String × Layout)) {row rest : List Value}
    {values : List (String × Value)} (h : readFields row fields = .ok (values, rest)) :
    rest = row.drop (widths fields) ∧ ∃ vs, SpreadsFields fields values vs ∧
      List.Forall₂ IsReading ((fieldTys fields).zip (firstColumns (widths fields) row)) vs := by
  cases fields with
  | nil =>
    cases h
    exact ⟨rfl, [], .nil, .nil⟩
  | cons f fields =>
    obtain ⟨name, l⟩ := f
    rw [readFields] at h
    obtain ⟨⟨v, row'⟩, hv, h⟩ := Outcome.bind_eq_ok.1 h
    obtain ⟨⟨values, rest'⟩, hvalues, h⟩ := Outcome.bind_eq_ok.1 h
    cases h
    obtain ⟨rfl, vs, hvs, hreads⟩ := read_eq_ok l hv
    obtain ⟨rfl, ws, hws, hreads'⟩ := readFields_eq_ok fields hvalues
    refine ⟨by rw [widths, List.drop_drop], vs ++ ws, .cons hvs hws, ?_⟩
    rw [zip_fieldTys]
    exact List.rel_append hreads hreads'

end

mutual

/-- A row is read when all its columns are. -/
theorem exists_read (l : Layout) {row : List Value}
    (h : ∀ c ∈ l.tys.zip (firstColumns l.width row), ∃ w, IsReading c w) :
    ∃ v, l.read row = .ok (v, row.drop l.width) := by
  cases l with
  | column ty =>
    obtain ⟨w, hw⟩ := h _ List.mem_cons_self
    refine ⟨w, ?_⟩
    rw [read, show readColumn ty (row.headD .null) = .ok w from hw, width, List.drop_one]
    rfl
  | mapping fields =>
    obtain ⟨values, hvalues⟩ := exists_readFields fields h
    exact ⟨.mapping values, by rw [read, hvalues]; rfl⟩

theorem exists_readFields (fields : List (String × Layout)) {row : List Value}
    (h : ∀ c ∈ (fieldTys fields).zip (firstColumns (widths fields) row), ∃ w, IsReading c w) :
    ∃ values, readFields row fields = .ok (values, row.drop (widths fields)) := by
  cases fields with
  | nil => exact ⟨[], rfl⟩
  | cons f fields =>
    obtain ⟨name, l⟩ := f
    rw [zip_fieldTys] at h
    obtain ⟨hfirst, hrest⟩ := List.forall_mem_append.1 h
    obtain ⟨v, hv⟩ := exists_read l hfirst
    obtain ⟨values, hvalues⟩ := exists_readFields fields hrest
    refine ⟨(name, v) :: values, ?_⟩
    rw [readFields, hv, widths, ← List.drop_drop]
    change (do
      let (read, row) ← readFields (row.drop l.width) fields
      pure ((name, v) :: read, row)) = _
    rw [hvalues]
    rfl

end

theorem read_of_readRow {l : Layout} {row : List Value} {v : Value} (h : l.readRow row = .ok v) :
    l.width ≤ row.length ∧ ∃ vs, l.Spreads v vs ∧
      List.Forall₂ IsReading (l.tys.zip (firstColumns l.width row)) vs := by
  obtain ⟨⟨w, rest⟩, hread, h⟩ := Outcome.bind_eq_ok.1 h
  change (if row.length < l.width then Except.error _ else Except.ok w) = .ok v at h
  split at h
  · cases h
  · rename_i hwide
    cases h
    exact ⟨Nat.not_lt.1 hwide, (read_eq_ok l hread).2⟩

/-- In a row that is wide enough the columns that are read are its first ones. -/
theorem zip_firstColumns {l : Layout} {row : List Value} (h : l.width ≤ row.length) :
    l.tys.zip (firstColumns l.width row) = l.tys.zip row := by
  have hzip : l.tys.zip row = (l.tys.take (min l.tys.length row.length)).zip
      (row.take (min l.tys.length row.length)) := List.zip_eq_zip_take_min
  rw [firstColumns_of_le h, hzip, length_tys, Nat.min_eq_left h, ← length_tys, List.take_length]

/-- A row is read exactly when it is wide enough and none of its columns overflows. -/
theorem readRow_eq_ok_iff (l : Layout) (row : List Value) : (∃ v, l.readRow row = .ok v) ↔
    l.width ≤ row.length ∧ ∀ c ∈ l.tys.zip row, ¬ Overflows c.1 c.2 := by
  constructor
  · rintro ⟨v, h⟩
    obtain ⟨hwide, vs, -, hreads⟩ := read_of_readRow h
    refine ⟨hwide, fun c hc hover => ?_⟩
    rw [zip_firstColumns hwide] at hreads
    obtain ⟨w, -, hw⟩ := exists_of_mem_left hreads hc
    exact not_readColumn hover hw
  · rintro ⟨hwide, h⟩
    rw [← zip_firstColumns hwide] at h
    obtain ⟨v, hv⟩ := exists_read l fun c hc => exists_readColumn c.1 c.2 (h c hc)
    refine ⟨v, ?_⟩
    rw [readRow, hv]
    exact if_neg (Nat.not_lt.2 hwide)

end Layout

namespace Shape

/-- The columns that a readable shape selects are its scalars, or a null in their stead. -/
theorem selected_of_readable {s : Shape} (h : s.unreadables = []) : s.selected = .ok
    (named (if s.scalars = [] then [.value .null] else s.scalars.map Prod.fst)) := by
  rw [selected, columns_of_readable s h]
  cases s.scalars with
  | nil => rfl
  | cons c cs => rfl

/-- The columns of a rebased shape are the columns of the table, named by their places. -/
theorem columns_rebase {s : Shape} (h : s.unreadables = []) (table : Nat) :
    (s.rebase table).columns = .ok ((List.range s.scalars.length).map fun i =>
      .column (some table) (columnName i)) := by
  obtain ⟨hscalars, -, hunreadables, -⟩ := rebaseFrom_spec s table 0
  have hreadable : (s.rebase table).unreadables = [] := hunreadables.trans h
  rw [columns_of_readable _ hreadable, rebase, hscalars, List.map_map, List.range_eq_range',
    ← List.zipIdx_map_snd, List.map_map]
  rfl

theorem layout_rebase (s : Shape) (table : Nat) : (s.rebase table).layout = s.layout :=
  (rebaseFrom_spec s table 0).2.2.2

/-- Columns, layout, rebased shape and readings number the scalars of a readable shape alike; a shape
with a value that no column can read has neither columns nor a layout. -/
theorem columns_match_layout (s : Shape) :
    (s.unreadables = [] → ∃ columns l, s.selected = .ok columns ∧ s.layout = .ok l ∧
      l.tys = s.scalars.map Prod.snd ∧ l.width = s.scalars.length ∧
      columns.length = max 1 l.width ∧
      columns.map Prod.snd = (List.range (max 1 l.width)).map columnName ∧
      columns.map Prod.fst =
        (if s.scalars = [] then [.value .null] else s.scalars.map Prod.fst) ∧
      (∀ table, (s.rebase table).layout = .ok l ∧ (s.rebase table).columns =
        .ok ((List.range l.width).map fun i => .column (some table) (columnName i))) ∧
      ∀ row, ((∃ v, l.readRow row = .ok v) ↔
          l.width ≤ row.length ∧ ∀ c ∈ l.tys.zip row, ¬ Overflows c.1 c.2) ∧
        ∀ v, l.readRow row = .ok v →
          ∃ vs, l.Spreads v vs ∧ List.Forall₂ IsReading (l.tys.zip row) vs) ∧
    (s.unreadables ≠ [] → ∃ ty, s.selected = .error (.unselectable ty) ∧
      s.layout = .error (.unselectable ty)) := by
  refine ⟨fun h => ?_, fun h => ?_⟩
  · obtain ⟨l, hl, htys⟩ := layout_of_readable s h
    have hwidth : l.width = s.scalars.length := by
      rw [← l.length_tys, htys, List.length_map]
    have hlength : (if s.scalars = [] then [.value .null] else s.scalars.map Prod.fst).length =
        max 1 l.width := by
      rw [hwidth]
      cases s.scalars with
      | nil => rfl
      | cons c cs => simp
    refine ⟨_, l, selected_of_readable h, hl, htys, hwidth, ?_, ?_, map_fst_named _,
      fun table => ?_, fun row => ⟨l.readRow_eq_ok_iff row, fun v hv => ?_⟩⟩
    · rw [← hlength, named, List.length_map, List.length_zipIdx]
    · rw [map_snd_named, hlength]
    · rw [layout_rebase, columns_rebase h, hwidth]
      exact ⟨hl, rfl⟩
    · obtain ⟨hwide, vs, hvs, hreads⟩ := Layout.read_of_readRow hv
      rw [Layout.zip_firstColumns hwide] at hreads
      exact ⟨vs, hvs, hreads⟩
  · obtain ⟨ty, tys, hty⟩ := List.exists_cons_of_ne_nil h
    refine ⟨ty, ?_, layout_of_unreadable s hty⟩
    rw [selected, columns_of_unreadable s hty]
    rfl

/-- An element with an empty mapping between its two columns. -/
def counted : Shape :=
  .mapping [("id", .scalar (.column (some 0) "id") .i64), ("more", .mapping []),
    ("counts", .mapping [("each", .scalar (.column (some 0) "each") (.list .i64))])]

theorem counted_columns_match_layout : counted.unreadables = [] ∧
    (∃ columns l, counted.selected = .ok columns ∧ counted.layout = .ok l ∧ columns.length = 2 ∧
      (counted.rebase 3).layout = .ok l ∧
      (counted.rebase 3).columns = .ok [.column (some 3) "c0", .column (some 3) "c1"] ∧
      (∃ v vs, l.readRow [.int 7, .list [.int 1, .null], .int 0] = .ok v ∧ l.Spreads v vs) ∧
      ¬ ∃ v, l.readRow [.int 7, .list [.int 1, .float (.zero false)]] = .ok v) ∧
    (unreadable .any).unreadables ≠ [] ∧
      ∃ ty, (unreadable .any).selected = .error (.unselectable ty) ∧
      (unreadable .any).layout = .error (.unselectable ty) := by
  obtain ⟨hreadable, -⟩ := columns_match_layout counted
  obtain ⟨-, hrefused⟩ := columns_match_layout (unreadable .any)
  obtain ⟨columns, l, hcolumns, hl, -, hwidth, hlength, -, -, hrebase, hrow⟩ := hreadable rfl
  obtain ⟨hlayout, hnamed⟩ := hrebase 3
  cases hl
  refine ⟨rfl, ⟨columns, _, hcolumns, rfl, hlength, hlayout, hnamed, ?_, fun hread => ?_⟩,
    List.cons_ne_nil _ _, hrefused (List.cons_ne_nil _ _)⟩
  · obtain ⟨-, hspread⟩ := hrow [.int 7, .list [.int 1, .null], .int 0]
    obtain ⟨vs, hvs, -⟩ := hspread _ rfl
    exact ⟨_, vs, rfl, hvs⟩
  · obtain ⟨hreads, -⟩ := hrow [.int 7, .list [.int 1, .float (.zero false)]]
    refine (hreads.1 hread).2 (.list .i64, .list [.int 1, .float (.zero false)]) ?_ ?_
    · exact List.mem_cons_of_mem _ List.mem_cons_self
    · exact .item (List.mem_cons_of_mem _ List.mem_cons_self) (.real _)

end Shape

end QueryPushdown.Sql
