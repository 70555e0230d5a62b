import QueryPushdown.Proofs.Fields
import QueryPushdown.Proofs.Sql.Places
import QueryPushdown.Proofs.Sql.Shapes
import QueryPushdown.Proofs.Typing.Inhabits

/-!
# Shapes at a place

A shape fits a type when it has the columns of the type, and reads a value at a place when every scalar
or list of the value is what its column denotes. The columns of a shape then hold the leaves of the
value, the layout puts these together again, integers among floats becoming floats, and the rebased
shape reads the value off any row that has the leaves in columns named by their places.
-/

namespace QueryPushdown

namespace Value

mutual

/-- Whether a value has no mapping in it, and so fits into a column. -/
def isFlat : Value → Bool
  | mapping _ => false
  | list items => areFlat items
  | _ => true

def areFlat : List Value → Bool
  | [] => true
  | v :: rest => isFlat v && areFlat rest

end

theorem areFlat_iff {vs : List Value} : areFlat vs = true ↔ ∀ v ∈ vs, v.isFlat = true := by
  induction vs with
  | nil => simp [areFlat]
  | cons v vs ih => rw [areFlat, Bool.and_eq_true, ih, List.forall_mem_cons]

theorem leaves_of_isFlat {v : Value} (h : v.isFlat = true) : v.leaves = [v] := by
  cases v <;> first | rfl | cases h

end Value

namespace Ty

mutual

/-- A value of a type as it comes back from a store: integers among floats have become the nearest
floats. -/
def settle : Ty → Value → Value
  | f64, .int i => .float (Binary64.ofInt i.toInt)
  | list item, .list items => .list (items.map fun v => settle item v)
  | mapping tys _, .mapping fields => .mapping (settleFields tys fields)
  | _, v => v

def settleFields : List (String × Ty) → List (String × Value) → List (String × Value)
  | (_, ty) :: tys, (name, v) :: fields => (name, settle ty v) :: settleFields tys fields
  | _, fields => fields

/-- Whether a type has a scalar or a list in it, and so takes a column. -/
def hasColumn : Ty → Bool
  | mapping fields _ => anyColumn fields
  | _ => true

def anyColumn : List (String × Ty) → Bool
  | [] => false
  | (_, ty) :: rest => ty.hasColumn || anyColumn rest

end

/-- Scalars are flat. -/
theorem Inhabits.isFlat {ty : Ty} {v : Value} (h : ty.Inhabits v) (hty : ty.isScalar = true) :
    v.isFlat = true := by
  cases h <;> first | rfl | cases hty

@[simp] theorem settle_null (ty : Ty) : ty.settle .null = .null := by
  cases ty <;> rfl

end Ty

namespace Sql

/-- A flat value is read from a column as the value that comes back for its type. -/
theorem readColumn_of_isFlat {ty : Ty} {v : Value} (h : ty.Inhabits v) (hv : v.isFlat = true) :
    readColumn ty v = .ok (ty.settle v) := by
  induction h with
  | null ty => cases ty <;> rfl
  | any v => cases v <;> rfl
  | bool | int | widened | float | text => rfl
  | @list item items _ ih =>
    have hitems : items.mapM (readColumn item) = .ok (items.map fun v => item.settle v) :=
      Outcome.mapM_eq_map fun v hm => ih v hm (Value.areFlat_iff.1 hv v hm)
    rw [readColumn, hitems, Ty.settle]
    rfl
  | mapping => cases hv

mutual

/-- Whether a column of a shape uses aggregates. -/
def Shape.aggregates : Shape → Bool
  | .scalar e _ => e.aggregates
  | .mapping fields => fieldsAggregate fields
  | .unreadable _ => false

def fieldsAggregate : List (String × Shape) → Bool
  | [] => false
  | (_, s) :: rest => s.aggregates || fieldsAggregate rest

end

mutual

/-- A shape has the columns of a type. -/
inductive Shape.Fits : Shape → Ty → Prop
  | scalar (e : Expr) (ty : Ty) : Shape.Fits (.scalar e ty) ty
  | mapping {shapes : List (String × Shape)} {tys : List (String × Ty)}
    (h : Shape.FieldsFit shapes tys) (source : Option String) :
    Shape.Fits (.mapping shapes) (.mapping tys source)
  | unreadable (ty : Ty) : Shape.Fits (.unreadable ty) ty

inductive Shape.FieldsFit : List (String × Shape) → List (String × Ty) → Prop
  | nil : Shape.FieldsFit [] []
  | cons {name : String} {s : Shape} {ty : Ty} {shapes : List (String × Shape)}
    {tys : List (String × Ty)} (h : s.Fits ty) (hrest : Shape.FieldsFit shapes tys) :
    Shape.FieldsFit ((name, s) :: shapes) ((name, ty) :: tys)

end

mutual

/-- A shape holds a value at a place. What stands in a field that no column can read is left open. -/
inductive Shape.Holds (p : Place) : Shape → Value → Prop
  | scalar {e : Expr} {ty : Ty} {v : Value} (he : e.Denotes p v) (hflat : v.isFlat = true)
    (hty : ty.Inhabits v) : Shape.Holds p (.scalar e ty) v
  | mapping {shapes : List (String × Shape)} {fields : List (String × Value)}
    (h : Shape.FieldsHold p shapes fields) : Shape.Holds p (.mapping shapes) (.mapping fields)
  | unreadable (ty : Ty) (v : Value) : Shape.Holds p (.unreadable ty) v

inductive Shape.FieldsHold (p : Place) : List (String × Shape) → List (String × Value) → Prop
  | nil : Shape.FieldsHold p [] []
  | cons {name : String} {s : Shape} {v : Value} {shapes : List (String × Shape)}
    {fields : List (String × Value)} (h : Shape.Holds p s v)
    (hrest : Shape.FieldsHold p shapes fields) :
    Shape.FieldsHold p ((name, s) :: shapes) ((name, v) :: fields)

end

section Fits

variable {s : Shape} {ty : Ty} {shapes more : List (String × Shape)} {tys : List (String × Ty)}
  {es : List Expr}

theorem Shape.fieldsFit_iff : FieldsFit shapes tys ↔ Fields.Paired Fits shapes tys := by
  constructor
  · intro h
    induction shapes generalizing tys with
    | nil =>
      cases h
      exact .nil
    | cons f shapes ih =>
      cases h with
      | cons h hrest => exact .cons ⟨rfl, h⟩ (ih hrest)
  · intro h
    induction h with
    | nil => exact .nil
    | @cons f g _ _ hfg _ ih =>
      obtain ⟨name, s⟩ := f
      obtain ⟨other, ty⟩ := g
      obtain ⟨rfl, hfits⟩ := hfg
      exact .cons hfits ih

mutual

/-- The columns of a shape are the expressions that may use aggregates. -/
theorem Shape.any_columns (s : Shape) {es : List Expr} (h : s.columns = .ok es) :
    es.any Expr.aggregates = s.aggregates := by
  cases s with
  | scalar e ty =>
    cases h
    rw [List.any_cons, List.any_nil, Bool.or_false, aggregates]
  | mapping shapes =>
    rw [columns] at h
    exact any_fieldColumns shapes h
  | unreadable ty => cases h

theorem Shape.any_fieldColumns (shapes : List (String × Shape)) {es : List Expr}
    (h : fieldColumns shapes = .ok es) : es.any Expr.aggregates = fieldsAggregate shapes := by
  cases shapes with
  | nil =>
    cases h
    rfl
  | cons f shapes =>
    obtain ⟨first, others, hfirst, hothers, rfl⟩ := Shape.fieldColumns_cons h
    rw [List.any_append, Shape.any_columns f.2 hfirst, Shape.any_fieldColumns shapes hothers,
      fieldsAggregate]

end

theorem fieldsAggregate_eq (shapes : List (String × Shape)) :
    fieldsAggregate shapes = shapes.any fun f => f.2.aggregates := by
  induction shapes with
  | nil => rfl
  | cons f shapes ih => rw [fieldsAggregate, ih, List.any_cons]

theorem fieldsAggregate_eq_false :
    fieldsAggregate shapes = false ↔ ∀ f ∈ shapes, f.2.aggregates = false := by
  rw [fieldsAggregate_eq, List.any_eq_false]
  exact forall₂_congr fun _ _ => by rw [Bool.not_eq_true]

mutual

/-- A shape of a type with columns has columns. -/
theorem Shape.Fits.columns_ne_nil {s : Shape} {ty : Ty} {es : List Expr} (h : s.Fits ty)
    (hty : ty.hasColumn = true) (hes : s.columns = .ok es) : es ≠ [] := by
  cases h with
  | scalar e ty =>
    cases hes
    exact List.cons_ne_nil _ _
  | mapping h source =>
    rw [Shape.columns] at hes
    exact h.columns_ne_nil hty hes
  | unreadable ty => cases hes
termination_by sizeOf s

theorem Shape.FieldsFit.columns_ne_nil {shapes : List (String × Shape)} {tys : List (String × Ty)}
    {es : List Expr} (h : FieldsFit shapes tys) (hty : Ty.anyColumn tys = true)
    (hes : fieldColumns shapes = .ok es) : es ≠ [] := by
  cases h with
  | nil => cases hty
  | cons h hrest =>
    obtain ⟨first, others, hfirst, hothers, rfl⟩ := Shape.fieldColumns_cons hes
    rw [Ty.anyColumn, Bool.or_eq_true] at hty
    rcases hty with hty | hty
    · exact fun hnil => h.columns_ne_nil hty hfirst (List.append_eq_nil_iff.1 hnil).1
    · exact fun hnil => hrest.columns_ne_nil hty hothers (List.append_eq_nil_iff.1 hnil).2
termination_by sizeOf shapes

end

mutual

/-- A rebased shape has the columns of the same type. -/
theorem Shape.Fits.rebaseFrom {s : Shape} {ty : Ty} (h : s.Fits ty) (number next : Nat) :
    (s.rebaseFrom number next).1.Fits ty := by
  cases h with
  | scalar e ty => exact .scalar _ _
  | mapping h source =>
    rw [Shape.rebaseFrom]
    exact .mapping (h.rebaseFields number next) source
  | unreadable ty => exact .unreadable ty
termination_by sizeOf s

theorem Shape.FieldsFit.rebaseFields {shapes : List (String × Shape)} {tys : List (String × Ty)}
    (h : FieldsFit shapes tys) (number next : Nat) :
    FieldsFit (Shape.rebaseFields number next shapes).1 tys := by
  cases h with
  | nil => exact .nil
  | cons h hrest =>
    rw [Shape.rebaseFields_cons]
    exact .cons (h.rebaseFrom number next) (hrest.rebaseFields number _)
termination_by sizeOf shapes

end

mutual

/-- A rebased shape reads columns. -/
theorem Shape.aggregates_rebaseFrom (s : Shape) (number next : Nat) :
    (s.rebaseFrom number next).1.aggregates = false := by
  cases s with
  | scalar e ty => rfl
  | mapping shapes =>
    rw [rebaseFrom]
    exact aggregate_rebaseFields shapes number next
  | unreadable ty => rfl

theorem Shape.aggregate_rebaseFields (shapes : List (String × Shape)) (number next : Nat) :
    fieldsAggregate (rebaseFields number next shapes).1 = false := by
  cases shapes with
  | nil => rfl
  | cons f shapes =>
    obtain ⟨name, s⟩ := f
    rw [rebaseFields_cons, fieldsAggregate, aggregates_rebaseFrom s,
      aggregate_rebaseFields shapes]
    rfl

end

end Fits

section Holds

variable {p q : Place} {shapes more : List (String × Shape)}
  {fields others : List (String × Value)}

theorem Shape.fieldsHold_iff : FieldsHold p shapes fields ↔ Fields.Paired (Holds p) shapes fields := by
  constructor
  · intro h
    induction shapes generalizing fields with
    | nil =>
      cases h
      exact .nil
    | cons f shapes ih =>
      cases h with
      | cons h hrest => exact .cons ⟨rfl, h⟩ (ih hrest)
  · intro h
    induction h with
    | nil => exact .nil
    | @cons f g _ _ hfg _ ih =>
      obtain ⟨name, s⟩ := f
      obtain ⟨other, v⟩ := g
      obtain ⟨rfl, hholds⟩ := hfg
      exact .cons hholds ih

mutual

theorem Shape.Holds.leads {s : Shape} {v : Value} (h : s.Holds p v) (hpq : p.Leads q) :
    s.Holds q v := by
  cases h with
  | scalar he hflat hty => exact .scalar (he.leads hpq) hflat hty
  | mapping h => exact .mapping (h.leads hpq)
  | unreadable ty v => exact .unreadable ty v
termination_by sizeOf s

theorem Shape.FieldsHold.leads {shapes : List (String × Shape)} {fields : List (String × Value)}
    (h : FieldsHold p shapes fields) (hpq : p.Leads q) : FieldsHold q shapes fields := by
  cases h with
  | nil => exact .nil
  | cons h hrest => exact .cons (h.leads hpq) (hrest.leads hpq)
termination_by sizeOf shapes

end

mutual

/-- The columns of a shape denote the leaves of what it holds. -/
theorem Shape.Holds.columns {s : Shape} {v : Value} {es : List Expr} (h : s.Holds p v)
    (hes : s.columns = .ok es) : List.Forall₂ (Expr.Denotes p) es v.leaves := by
  cases h with
  | scalar he hflat hty =>
    cases hes
    rw [Value.leaves_of_isFlat hflat]
    exact .cons he .nil
  | mapping h =>
    rw [Shape.columns] at hes
    exact h.columns hes
  | unreadable => cases hes
termination_by sizeOf s

theorem Shape.FieldsHold.columns {shapes : List (String × Shape)} {fields : List (String × Value)}
    {es : List Expr} (h : FieldsHold p shapes fields) (hes : fieldColumns shapes = .ok es) :
    List.Forall₂ (Expr.Denotes p) es (Value.fieldLeaves fields) := by
  cases h with
  | nil =>
    cases hes
    exact .nil
  | cons h hrest =>
    obtain ⟨first, others, hfirst, hothers, rfl⟩ := Shape.fieldColumns_cons hes
    exact List.rel_append (h.columns hfirst) (hrest.columns hothers)
termination_by sizeOf shapes

end

mutual

/-- The layout of a shape puts the leaves together again as the value that comes back. -/
theorem Shape.Holds.layout {s : Shape} {ty : Ty} {v : Value} {l : Layout} (h : s.Holds p v)
    (hfits : s.Fits ty) (hl : s.layout = .ok l) (more : List Value) :
    l.read (v.leaves ++ more) = .ok (ty.settle v, more) ∧ l.width = v.leaves.length := by
  cases h with
  | scalar he hflat hty =>
    cases hfits
    cases hl
    rw [Value.leaves_of_isFlat hflat, Layout.read]
    change (do pure (← readColumn ty v, more)) = _ ∧ _
    rw [readColumn_of_isFlat hty hflat]
    exact ⟨rfl, rfl⟩
  | mapping h =>
    cases hfits with
    | mapping hfits source =>
      rw [Shape.layout] at hl
      obtain ⟨ls, hls, hl⟩ := Refusal.bind_eq_ok hl
      cases hl
      obtain ⟨hread, hwidth⟩ := h.layout hfits hls more
      rw [Value.leaves, Layout.read, hread, Layout.width, hwidth]
      exact ⟨rfl, rfl⟩
  | unreadable => cases hl
termination_by sizeOf s

theorem Shape.FieldsHold.layout {shapes : List (String × Shape)} {tys : List (String × Ty)}
    {fields : List (String × Value)} {ls : List (String × Layout)} (h : FieldsHold p shapes fields)
    (hfits : FieldsFit shapes tys) (hls : fieldLayouts shapes = .ok ls) (more : List Value) :
    Layout.readFields (Value.fieldLeaves fields ++ more) ls =
        .ok (Ty.settleFields tys fields, more) ∧
      Layout.widths ls = (Value.fieldLeaves fields).length := by
  cases h with
  | nil =>
    cases hfits
    cases hls
    exact ⟨rfl, rfl⟩
  | @cons _ _ v _ fields h hrest =>
    cases hfits with
    | @cons _ _ ty _ tys hfits hfitsRest =>
      obtain ⟨first, others, hfirst, hothers, rfl⟩ := Shape.fieldLayouts_cons hls
      obtain ⟨hread, hwidth⟩ := h.layout hfits hfirst (Value.fieldLeaves fields ++ more)
      obtain ⟨hreads, hwidths⟩ := hrest.layout hfitsRest hothers more
      rw [Value.fieldLeaves, List.append_assoc, Layout.readFields, hread, Layout.widths, hwidth,
        hwidths, List.length_append, Ty.settleFields]
      change (do
        let (read, row) ← Layout.readFields (Value.fieldLeaves fields ++ more) others
        pure ((_, ty.settle v) :: read, row)) = _ ∧ _
      rw [hreads]
      exact ⟨rfl, rfl⟩
termination_by sizeOf shapes

end

mutual

/-- The rebased shape holds a value wherever its columns denote the leaves. -/
theorem Shape.Holds.rebaseFrom {s : Shape} {v : Value} {es : List Expr} (h : s.Holds p v)
    (hes : s.columns = .ok es) (number next : Nat)
    (hq : ∀ i u, v.leaves[i]? = some u →
      (Expr.column (some number) (columnName (next + i))).Denotes q u) :
    (s.rebaseFrom number next).1.Holds q v ∧
      (s.rebaseFrom number next).2 = next + v.leaves.length := by
  cases h with
  | scalar he hflat hty =>
    have hleaves := Value.leaves_of_isFlat hflat
    rw [Shape.rebaseFrom, hleaves]
    exact ⟨.scalar (hq 0 v (by rw [hleaves]; rfl)) hflat hty, rfl⟩
  | mapping h =>
    rw [Shape.columns] at hes
    obtain ⟨hholds, hnext⟩ := h.rebaseFields hes number next hq
    rw [Shape.rebaseFrom]
    exact ⟨.mapping hholds, hnext⟩
  | unreadable => cases hes
termination_by sizeOf s

theorem Shape.FieldsHold.rebaseFields {shapes : List (String × Shape)}
    {fields : List (String × Value)} {es : List Expr} (h : FieldsHold p shapes fields)
    (hes : fieldColumns shapes = .ok es) (number next : Nat)
    (hq : ∀ i u, (Value.fieldLeaves fields)[i]? = some u →
      (Expr.column (some number) (Shape.columnName (next + i))).Denotes q u) :
    FieldsHold q (Shape.rebaseFields number next shapes).1 fields ∧
      (Shape.rebaseFields number next shapes).2 = next + (Value.fieldLeaves fields).length := by
  cases h with
  | nil => exact ⟨.nil, rfl⟩
  | @cons _ _ v _ fields h hrest =>
    obtain ⟨first, others, hfirst, hothers, rfl⟩ := Shape.fieldColumns_cons hes
    obtain ⟨hhold, hnext⟩ := h.rebaseFrom hfirst number next fun i u hi => hq i u (by
      rw [Value.fieldLeaves, List.getElem?_append_left (List.getElem?_eq_some_iff.1 hi).1, hi])
    obtain ⟨hholds, hnext'⟩ := hrest.rebaseFields hothers number (next + v.leaves.length)
      fun i u hi => by
        rw [Nat.add_assoc]
        refine hq (v.leaves.length + i) u ?_
        rw [Value.fieldLeaves, List.getElem?_append_right (Nat.le_add_right _ _),
          Nat.add_sub_cancel_left, hi]
    rw [Shape.rebaseFields_cons, hnext]
    refine ⟨.cons hhold hholds, ?_⟩
    rw [Value.fieldLeaves, List.length_append, ← Nat.add_assoc]
    exact hnext'
termination_by sizeOf shapes

end

theorem Shape.FieldsHold.names_eq (h : FieldsHold p shapes fields) :
    Fields.names shapes = Fields.names fields := (fieldsHold_iff.1 h).names_eq

mutual

/-- What one shape holds at two places is equal when the leaves are. -/
theorem Shape.Holds.isEq {s : Shape} {ty : Ty} {v w : Value} {es : List Expr} (h : s.Holds p v)
    (h' : s.Holds q w) (hfits : s.Fits ty) (hty : ty.Distinct) (hes : s.columns = .ok es) :
    v.isEq w = Value.isEqItems v.leaves w.leaves := by
  cases h with
  | scalar he hflat hv =>
    cases h' with
    | scalar he' hflat' hw =>
      rw [Value.leaves_of_isFlat hflat, Value.leaves_of_isFlat hflat']
      exact (Bool.and_true _).symm
  | mapping h =>
    cases h' with
    | mapping h' =>
      cases hfits with
      | mapping hfits source =>
        cases hty with
        | mapping hn hty =>
          rw [Shape.columns] at hes
          have hnames := (Shape.fieldsFit_iff.1 hfits).names_eq
          rw [Value.isEq_mapping (h.names_eq.symm.trans h'.names_eq) (by
              rw [← h.names_eq, hnames]
              exact hn),
            h.isEqItems h' hfits hty hes]
          rfl
  | unreadable => cases hes
termination_by sizeOf s

theorem Shape.FieldsHold.isEqItems {shapes : List (String × Shape)} {tys : List (String × Ty)}
    {fields others : List (String × Value)} {es : List Expr} (h : FieldsHold p shapes fields)
    (h' : FieldsHold q shapes others) (hfits : FieldsFit shapes tys)
    (hty : ∀ f ∈ tys, f.2.Distinct) (hes : fieldColumns shapes = .ok es) :
    Value.isEqItems (fields.map Prod.snd) (others.map Prod.snd) =
      Value.isEqItems (Value.fieldLeaves fields) (Value.fieldLeaves others) := by
  cases h with
  | nil =>
    cases h'
    rfl
  | cons h hrest =>
    cases h' with
    | cons h' hrest' =>
      cases hfits with
      | cons hfits hfitsRest =>
        obtain ⟨first, others, hfirst, hothers, rfl⟩ := Shape.fieldColumns_cons hes
        obtain ⟨hfty, hty⟩ := List.forall_mem_cons.1 hty
        have hlength := (h.columns hfirst).length_eq.symm.trans (h'.columns hfirst).length_eq
        rw [List.map_cons, List.map_cons, Value.isEqItems, h.isEq h' hfits hfty hfirst,
          hrest.isEqItems hrest' hfitsRest hty hothers, Value.fieldLeaves, Value.fieldLeaves,
          Value.isEqItems_append hlength]
termination_by sizeOf shapes

end

end Holds

end Sql

end QueryPushdown
