import QueryPushdown.Proofs.Sql.Standing
import QueryPushdown.Proofs.Value.Classes

/-!
# What comes back of values

A store gives the integers among floats back as the nearest floats. A value comes back as one that it
equals unless a `NaN` is in it, or an integer among floats that no float is equal to. So a list whose
elements come back in some order comes back the same up to order.
-/

namespace QueryPushdown

theorem Value.isEqItems_map {f : Value → Value} {vs : List Value}
    (h : ∀ v ∈ vs, (f v).isEq v = true) : isEqItems (vs.map f) vs = true := by
  induction vs with
  | nil => rfl
  | cons v vs ih =>
    obtain ⟨hv, hvs⟩ := List.forall_mem_cons.1 h
    rw [List.map_cons, isEqItems, hv, ih hvs]
    rfl

namespace Ty

mutual

/-- Whether every integer among floats is that of a float. -/
def Precise : Ty → Value → Prop
  | f64, .int i => Value.exactInt? (Binary64.ofInt i.toInt) = some i
  | list item, .list items => ∀ v ∈ items, Precise item v
  | mapping tys _, .mapping fields => FieldsPrecise tys fields
  | _, _ => True

def FieldsPrecise : List (String × Ty) → List (String × Value) → Prop
  | (_, ty) :: tys, (_, v) :: fields => ty.Precise v ∧ FieldsPrecise tys fields
  | _, _ => True

end

section

variable {ty : Ty} {tys : List (String × Ty)} {fields : List (String × Value)} {v : Value}

theorem length_settleFields (tys : List (String × Ty)) (fields : List (String × Value)) :
    (settleFields tys fields).length = fields.length := by
  induction tys generalizing fields with
  | nil => rw [settleFields]; simp
  | cons t tys ih =>
    cases fields with
    | nil => rfl
    | cons f fields => exact congrArg Nat.succ (ih fields)

/-- A field comes back as its value does for some type. Those beyond the fields of the type stay as they
are. -/
theorem mem_settleFields (hp : FieldsPrecise tys fields) {f : String × Value}
    (hf : f ∈ settleFields tys fields) :
    ∃ (ty : Ty) (v : Value), (f.1, v) ∈ fields ∧ f.2 = ty.settle v ∧ ty.Precise v := by
  induction tys generalizing fields with
  | nil => exact ⟨.any, f.2, hf, rfl, trivial⟩
  | cons t tys ih =>
    cases fields with
    | nil => cases hf
    | cons g fields =>
      obtain ⟨hfirst, hp⟩ := hp
      rcases List.mem_cons.1 hf with rfl | hf
      · exact ⟨t.2, g.2, List.mem_cons_self, rfl, hfirst⟩
      · obtain ⟨ty, v, hv, hsettle, hprecise⟩ := ih hp hf
        exact ⟨ty, v, List.mem_cons_of_mem _ hv, hsettle, hprecise⟩

/-- A value comes back as one that it equals. -/
theorem settle_isEq (hv : v.Distinct) (hn : v.WithoutNaN) (hp : ty.Precise v) :
    (ty.settle v).isEq v = true := by
  induction hv generalizing ty with
  | null => rw [settle_null, Value.isEq]
  | bool b =>
    have hself := (Value.isEq_self_iff (.bool b)).2 hn
    cases ty <;> exact hself
  | float x =>
    have hself := (Value.isEq_self_iff (.float x)).2 hn
    cases ty <;> exact hself
  | text s =>
    have hself := (Value.isEq_self_iff (.text s)).2 hn
    cases ty <;> exact hself
  | int i =>
    have hself := (Value.isEq_self_iff (.int i)).2 hn
    cases ty with
    | f64 => exact beq_iff_eq.2 hp
    | _ => exact hself
  | list h ih =>
    have hself := (Value.isEq_self_iff (.list h)).2 hn
    cases ty with
    | list item =>
      cases hn with
      | list hn =>
        rw [settle, Value.isEq]
        exact Value.isEqItems_map fun v hv => ih v hv (hn v hv) (hp v hv)
    | _ => exact hself
  | mapping hnames h ih =>
    have hself := (Value.isEq_self_iff (.mapping hnames h)).2 hn
    cases ty with
    | mapping tys source =>
      cases hn with
      | mapping hn =>
        rw [settle, Value.isEq, length_settleFields, beq_self_eq_true, Bool.true_and,
          Value.isEqFields_iff]
        intro f hf
        obtain ⟨ty, v, hv, hsettle, hprecise⟩ := mem_settleFields hp hf
        exact ⟨v, Fields.get?_of_mem hnames hv, hsettle ▸ ih _ hv (hn _ hv) hprecise⟩
    | _ => exact hself

end

end Ty

namespace Value

mutual

theorem distinct_of_isFlat {v : Value} (h : v.isFlat = true) : v.Distinct := by
  cases v with
  | mapping fields => cases h
  | list items => exact .list fun v hv => distinct_of_areFlat h v hv
  | _ => constructor

theorem distinct_of_areFlat {vs : List Value} (h : areFlat vs = true) : ∀ v ∈ vs, v.Distinct := by
  cases vs with
  | nil => exact fun _ hv => nomatch hv
  | cons v vs =>
    rw [areFlat, Bool.and_eq_true] at h
    exact List.forall_mem_cons.2 ⟨distinct_of_isFlat h.1, distinct_of_areFlat h.2⟩

end

/-- Whether a list is another one in some order, up to equality of the elements. -/
def SameUpToOrder (ws vs : List Value) : Prop :=
  ∃ us : List Value, List.Forall₂ (fun w u => w.isEq u = true) ws us ∧ us.Perm vs

/-- Elements that come back in some order are the same up to order. -/
theorem sameUpToOrder_settle {ty : Ty} {ws vs : List Value} (h : ws.Perm (vs.map ty.settle))
    (hvs : ∀ v ∈ vs, v.Distinct ∧ v.WithoutNaN ∧ ty.Precise v) : SameUpToOrder ws vs := by
  refine List.perm_comp_forall₂ h (List.forall₂_map_left_iff.2 (List.forall₂_same.2 fun v hv => ?_))
  obtain ⟨hd, hn, hp⟩ := hvs v hv
  exact Ty.settle_isEq hd hn hp

end Value

namespace Sql

variable {p : Place}

mutual

/-- What the columns of a shape hold keeps its names apart. -/
theorem Shape.Holds.distinct {s : Shape} {ty : Ty} {v : Value} {es : List Expr} (h : s.Holds p v)
    (hfits : s.Fits ty) (hty : ty.Distinct) (hes : s.columns = .ok es) : v.Distinct := by
  cases h with
  | scalar _ hflat _ => exact Value.distinct_of_isFlat hflat
  | mapping h =>
    cases hfits with
    | mapping hfits source =>
      cases hty with
      | mapping hn hty =>
        rw [Shape.columns] at hes
        refine .mapping ?_ (h.distinct hfits hty hes)
        rw [← h.names_eq, (Shape.fieldsFit_iff.1 hfits).names_eq]
        exact hn
  | unreadable => cases hes
termination_by sizeOf s

theorem Shape.FieldsHold.distinct {shapes : List (String × Shape)} {tys : List (String × Ty)}
    {fields : List (String × Value)} {es : List Expr} (h : FieldsHold p shapes fields)
    (hfits : FieldsFit shapes tys) (hty : ∀ f ∈ tys, f.2.Distinct)
    (hes : fieldColumns shapes = .ok es) : ∀ f ∈ fields, f.2.Distinct := by
  cases h with
  | nil => exact fun _ hf => nomatch hf
  | cons h hrest =>
    cases hfits with
    | cons hfits hfitsRest =>
      obtain ⟨first, others, hfirst, hothers, rfl⟩ := Shape.fieldColumns_cons hes
      obtain ⟨hfty, hty⟩ := List.forall_mem_cons.1 hty
      exact List.forall_mem_cons.2
        ⟨h.distinct hfits hfty hfirst, hrest.distinct hfitsRest hty hothers⟩
termination_by sizeOf shapes

end

end Sql

end QueryPushdown
