import QueryPushdown.Proofs.Sql.Deriving

/-!
# Groups and aggregates

A grouped select makes one row for each group of elements whose keys are equal. Its place is that of the
first row of the group, where the key is read, together with the rows of the group, over which
aggregates range. A select of one aggregate makes one row, also of no elements.
-/

namespace QueryPushdown.Sql

/-- The place of a group of rows. -/
def Place.grouped (p : Place) (rows : List Current) : Place :=
  { p with row := rows.headD p.row, group := some rows }

/-- Without sort keys nothing is moved. -/
theorem ordered_nil {α : Type} (keys : α → List Value) (as : List α) : ordered [] keys as = as :=
  Sorting.sortBy_eq_self fun _ _ _ _ => rfl

namespace Relation

section Grouped

variable {r : Relation} {p : Place} {k k₁ n : Nat} {isOrdered : Bool} {ys : Yields}
  {vs : List Value} {keyShape : Shape}
  {groupBy : List Expr} {fields : List (String × Shape)} {item : Ty}
  {columns : List (Expr × String)}

/-- Without an order there is one row for each group of kept rows. -/
theorem rows_grouped (hopen : r.isOpen = true) (hne : groupBy ≠ []) (input : Input)
    (outer : Current) :
    (withHidden (r.grouped groupBy keyShape fields item).select columns).rows input outer =
      (gather Value.isEqItems ((r.select.kept input outer).map fun row =>
        (evalAll input [] row groupBy, row))).map fun g =>
          evalColumns input g.2 (g.2.headD outer) columns := by
  have hgroups : groupBy.isEmpty = false := by simpa using hne
  have hunbounded : (withHidden (r.grouped groupBy keyShape fields item).select columns).isUnbounded =
      true := isUnbounded_of_isOpen hopen
  rw [Select.rows_eq, Select.bounded_of_unbounded hunbounded]
  change Sql.deduplicated r.select.distinct ((ordered [] _ (batches outer groupBy (columns ++ []) _
    (r.select.kept input outer))).map fun b => evalColumns input b.members b.row (columns ++ [])) = _
  rw [distinct_of_isOpen hopen, ordered_nil, batches, hgroups, List.append_nil]
  exact List.map_map

/-- What a row of the table and its key stand for: an element and the key of the element. -/
def Keyed (r : Relation) (p : Place) (k k₁ : Nat) (keyShape : Shape) (a : List Value × Current)
    (b : Value × Value) : Prop :=
  a.2 ∈ r.select.kept p.input p.row ∧ r.shape.Holds ((p.upto k).on a.2) b.2 ∧
    keyShape.Holds ((p.upto k₁).on a.2) b.1 ∧ a.1 = b.1.leaves

variable {keys : Value → Value} {keyTy : Ty} {ws : List Value}

/-- Rows fall into the groups that the elements fall into. -/
theorem groups_match (hkept : List.Forall₂ (fun row v => r.shape.Holds ((p.upto k).on row) v)
      (r.select.kept p.input p.row) vs)
    (hcolumns : keyShape.columns = .ok groupBy) (hfits : keyShape.Fits keyTy)
    (hkeyTy : keyTy.Distinct)
    (hkeys : ∀ row ∈ r.select.kept p.input p.row, ∀ v ∈ vs, r.shape.Holds ((p.upto k).on row) v →
      keyShape.Holds ((p.upto k₁).on row) (keys v)) :
    List.Forall₂ (GroupsMatch (r.Keyed p k k₁ keyShape))
      (gather Value.isEqItems ((r.select.kept p.input p.row).map fun row =>
        (evalAll p.input [] row groupBy, row)))
      (gather Value.isEq (vs.map fun v => (keys v, v))) := by
  refine gather_match (fun a b a' b' hab hab' => ?_)
    (List.forall₂_map_left_iff.2 (List.forall₂_map_right_iff.2
      ((Yields.Backed.ofList hkept).imp fun row hrow v hv hread => ?_).forall₂))
  · obtain ⟨-, -, hk, hcells⟩ := hab
    obtain ⟨-, -, hk', hcells'⟩ := hab'
    rw [hcells, hcells', hk.isEq hk' hfits hkeyTy hcolumns]
  · have hk := hkeys row hrow v (Yields.ok_mem_ofList.1 hv) hread
    exact ⟨hrow, hread, hk, hk.evalAll hcolumns (Place.admits_on [])⟩

/-- What the columns of a group hold: its key, and what is aggregated over its members. -/
theorem holds_group {a : List Value × List Current} {g : Value × List Value}
    {out : List (String × Value)} (hmatch : GroupsMatch (r.Keyed p k k₁ keyShape) a g)
    (hn : k₁ ≤ n) (hout : Shape.FieldsHold ((p.upto n).grouped a.2) fields out) :
    Shape.Holds ((p.upto n).grouped a.2) (.mapping (Fields.extend [("key", keyShape)] fields))
      (.mapping (Fields.extend [("key", g.1)] out)) := by
  obtain ⟨-, row, rest, v, others, hrows, -, -, -, hkey, -⟩ := hmatch
  have hplace : ((p.upto k₁).on row).Leads ((p.upto n).grouped a.2) := by
    have hplain := Place.Leads.of_plain ((p.upto n).grouped a.2)
    rw [hrows] at hplain ⊢
    exact (Renders.leads_on p row hn).trans hplain
  have hpair : Fields.Paired (Shape.Holds ((p.upto n).grouped a.2)) [("key", keyShape)]
      [("key", g.1)] := .cons ⟨rfl, hkey.leads hplace⟩ .nil
  exact .mapping (Shape.fieldsHold_iff.2 (hpair.extend (Shape.fieldsHold_iff.1 hout)))

/-- A derived table of groups stands for the keys of the groups with what is aggregated over them. -/
theorem Renders.grouped (h : r.Renders p k isOrdered ys) (hopen : r.isOpen = true)
    (hkept : List.Forall₂ (fun row v => r.shape.Holds ((p.upto k).on row) v)
      (r.select.kept p.input p.row) vs)
    (hcolumns : keyShape.columns = .ok groupBy) (hne : groupBy ≠ []) (hfits : keyShape.Fits keyTy)
    (hkeyTy : keyTy.Distinct)
    (hkeys : ∀ row ∈ r.select.kept p.input p.row, ∀ v ∈ vs, r.shape.Holds ((p.upto k).on row) v →
      keyShape.Holds ((p.upto k₁).on row) (keys v))
    (hselected : (r.grouped groupBy keyShape fields item).shape.selected = .ok columns)
    (hp : p.next ≤ k₁) (hn : k₁ ≤ n)
    (hfields : List.Forall₂ (fun (g : Value × List Value) w => ∃ out,
      w = .mapping (Fields.extend [("key", g.1)] out) ∧ ∀ rows,
        (∀ row ∈ rows, row ∈ r.select.kept p.input p.row) →
        List.Forall₂ (fun row v => r.shape.Holds ((p.upto k).on row) v) rows g.2 →
        Shape.FieldsHold ((p.upto n).grouped rows) fields out)
      (gather Value.isEq (vs.map fun v => (keys v, v))) ws) :
    ((r.grouped groupBy keyShape fields item).derived columns n).Renders p (n + 1) false
      (Yields.ofList ws) := by
  obtain ⟨es, hes⟩ := Shape.columns_of_selected hselected
  refine Renders.of_rows (fun _ => []) (rows_grouped hopen hne p.input p.row)
    (fun _ _ => ⟨rfl, fun _ _ hk => (nomatch hk)⟩) ⟨fun _ _ _ _ => rfl, fun _ _ _ _ _ _ _ _ => rfl⟩
    (List.pairwise_of_forall fun _ _ => rfl) ?_ (Nat.le_trans hp hn) (.ofList ?_)
  · refine Nat.lt_of_le_of_lt (length_gather_le _ _) ?_
    rw [List.length_map]
    exact h.length_lt
  refine forall₂_trans (fun a g w hmatch hgroup => ?_)
    (groups_match hkept hcolumns hfits hkeyTy hkeys) hfields
  obtain ⟨out, rfl, hout⟩ := hgroup
  have hhold := holds_group hmatch hn (hout a.2 ?_ ?_)
  · rw [show evalColumns p.input a.2 (a.2.headD p.row) columns = numbered Shape.columnName 0 (cells _)
      from hhold.evalColumns hselected ⟨rfl, rfl⟩, ← List.append_nil (numbered _ _ _)]
    exact hhold.rebase hes (Nat.lt_succ_self n) []
  · have hkept := (List.forall₂_and_left (R := fun _ _ => True)
      (p := (· ∈ r.select.kept p.input p.row)) a.2 g.2).1 (hmatch.1.imp fun row v hrv => by
        obtain ⟨_, _, hrow, -⟩ := hrv
        exact ⟨hrow, trivial⟩)
    exact hkept.1
  · exact hmatch.1.imp fun row v hrv => by
      obtain ⟨_, _, -, hread, -⟩ := hrv
      exact hread

end Grouped

end Relation

end QueryPushdown.Sql
