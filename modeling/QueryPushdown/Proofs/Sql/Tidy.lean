import QueryPushdown.Proofs.Fields
import QueryPushdown.Proofs.Sql.Columns
import QueryPushdown.Proofs.Typing.Inference

/-!
# Tidy terms

What a select keeps of groups. A group is read by the aggregates over it themselves and by no term under
a further binder, and the key of a group has a column. Every step of a tidy term that has a type is tidy
and has a type.
-/

namespace QueryPushdown

/-- What a scope binds, to the terms inside. -/
structure Bound where
  ty : Ty
  /-- Whether it is a group, inside the aggregates over it. -/
  isGroup : Bool

abbrev Bound.element (item : Ty) : Bound := ⟨item, false⟩

abbrev Bound.group (ty : Ty) : Bound := ⟨ty, true⟩

/-- What the scopes around a term bind, innermost first. -/
abbrev Bounds := List Bound

def Bounds.frames (bounds : Bounds) : Frames := bounds.map Bound.ty

/-- Whether a term stands directly in an aggregate over a group. -/
def Bounds.isGrouped : Bounds → Bool
  | bound :: _ => bound.isGroup
  | [] => false

mutual

/-- Whether groups are made and read as selects keep them. -/
def Term.Tidy (schema : Schema) (bounds : Bounds) : Term → Prop
  | .source _ _ | .literal _ _ => True
  | .context _ up => ∀ bound, bounds[up]? = some bound → bound.isGroup = true → up = 0
  | .record _ fields => fieldsTidy schema bounds fields
  | .step _ subject action => subject.Tidy schema bounds ∧
      ∀ ty, subject.infer schema bounds.frames = .ok ty → action.Tidy schema bounds ty

/-- Whether a step over a subject of a type is tidy. -/
def Step.Tidy (schema : Schema) (bounds : Bounds) (ty : Ty) : Step → Prop
  | .binary _ rhs => rhs.Tidy schema bounds
  | .filter t | .map t => ∀ item, ty.item? = some item → t.Tidy schema (.element item :: bounds)
  | .sort keys => ∀ item, ty.item? = some item → keysTidy schema (.element item :: bounds) keys
  | .groupby key aggregates =>
      (∀ item, ty.item? = some item → key.Tidy schema (.element item :: bounds) ∧
        ∀ keyTy, key.infer schema (item :: bounds.frames) = .ok keyTy → keyTy.hasColumn = true) ∧
      fieldsTidy schema (.group ty :: bounds) aggregates
  | .oneOr default => default.Tidy schema bounds
  | .field _ | .unary _ | .slice _ _ | .index _ | .distinct | .one | .aggregate _ => True

def fieldsTidy (schema : Schema) (bounds : Bounds) : List (String × Term) → Prop
  | [] => True
  | (_, t) :: rest => t.Tidy schema bounds ∧ fieldsTidy schema bounds rest

def keysTidy (schema : Schema) (bounds : Bounds) : List (Term × Bool) → Prop
  | [] => True
  | (t, _) :: rest => t.Tidy schema bounds ∧ keysTidy schema bounds rest

end

/-- A tidy term of a type, all of whose records and literals keep their names apart. -/
structure Term.Regular (schema : Schema) (bounds : Bounds) (t : Term) (ty : Ty) : Prop where
  distinct : t.Distinct
  tidy : t.Tidy schema bounds
  infer : t.infer schema bounds.frames = .ok ty

/-- A tidy step over a subject of the type `sty`, of the type `ty` as a whole. -/
structure Step.Regular (schema : Schema) (bounds : Bounds) (sty : Ty) (action : Step)
    (ty : Ty) : Prop where
  distinct : ∀ c ∈ action.operands, c.1.Distinct
  tidy : action.Tidy schema bounds sty
  infer : action.infer schema bounds.frames sty = .ok ty

section

variable {schema : Schema} {bounds : Bounds} {subject : Term} {ty item : Ty}

theorem fields_regular {fields : List (String × Term)} {tys : List (String × Ty)}
    (hd : ∀ f ∈ fields, f.2.Distinct) (ht : fieldsTidy schema bounds fields)
    (h : inferFields schema bounds.frames fields = .ok tys) :
    Fields.Paired (Term.Regular schema bounds) fields tys := by
  replace h := inferFields_paired h
  induction h with
  | nil => exact .nil
  | cons hty _ ih =>
    obtain ⟨hdistinct, hd⟩ := List.forall_mem_cons.1 hd
    obtain ⟨htidy, ht⟩ := ht
    exact .cons ⟨hty.1, hdistinct, htidy, hty.2⟩ (ih hd ht)

theorem keys_regular {keys : List (Term × Bool)} (hd : ∀ k ∈ keys, k.1.Distinct)
    (ht : keysTidy schema bounds keys) (h : inferKeys schema bounds.frames keys = .ok ()) :
    ∀ k ∈ keys, ∃ ty, k.1.Regular schema bounds ty := by
  induction keys with
  | nil => exact fun _ hk => nomatch hk
  | cons k keys ih =>
    obtain ⟨t, descending⟩ := k
    obtain ⟨hdistinct, hd⟩ := List.forall_mem_cons.1 hd
    obtain ⟨htidy, ht⟩ := ht
    rw [inferKeys] at h
    obtain ⟨ty, hty, h⟩ := Outcome.bind_eq_ok.1 h
    exact List.forall_mem_cons.2 ⟨⟨ty, hdistinct, htidy, hty⟩, ih hd ht h⟩

namespace Term.Regular

theorem step {id : Nat} {action : Step} (h : (step id subject action).Regular schema bounds ty) :
    ∃ sty, subject.Regular schema bounds sty ∧
      action.Regular schema bounds sty ty := by
  obtain ⟨hs, ho⟩ := Term.distinct_step.1 h.distinct
  obtain ⟨sty, hsty, hty⟩ := Outcome.bind_eq_ok.1 h.infer
  obtain ⟨hsubject, haction⟩ := h.tidy
  exact ⟨sty, ⟨hs, hsubject, hsty⟩, ho, haction sty hsty, hty⟩

theorem record {id : Nat} {fields : List (String × Term)}
    (h : (Term.record id fields).Regular schema bounds ty) :
    ∃ tys, ty = .mapping tys none ∧ Fields.Paired (Term.Regular schema bounds) fields tys := by
  obtain ⟨tys, htys, hty⟩ := Outcome.bind_eq_ok.1 h.infer
  cases hty
  refine ⟨tys, rfl, fields_regular (fun f hf => ?_) h.tidy htys⟩
  exact h.distinct.child (f.2, 0) (List.mem_map.2 ⟨f, hf, rfl⟩)

theorem distinct_ty (hschema : schema.Distinct) (hbounds : ∀ b ∈ bounds, b.ty.Distinct) {t : Term}
    (h : t.Regular schema bounds ty) : ty.Distinct :=
  t.infer_distinct hschema h.distinct bounds.frames ty (List.forall_mem_map.2 hbounds) h.infer

end Term.Regular

namespace Step.Regular

theorem binary {op : BinaryOp} {rhs : Term} {sty : Ty}
    (h : (Step.binary op rhs).Regular schema bounds sty ty) :
    ∃ rty, rhs.Regular schema bounds rty ∧ Typing.binary op sty rty = .ok ty := by
  obtain ⟨rty, hrty, hty⟩ := Outcome.bind_eq_ok.1 h.infer
  exact ⟨rty, ⟨h.distinct _ List.mem_cons_self, h.tidy, hrty⟩, hty⟩

theorem filter {predicate : Term}
    (h : (Step.filter predicate).Regular schema bounds (.list item) ty) :
    ty = .list item ∧ ∃ pty, predicate.Regular schema (.element item :: bounds) pty := by
  obtain ⟨_, hitem, hty⟩ := Outcome.bind_eq_ok.1 h.infer
  cases hitem
  obtain ⟨pty, hpty, hty⟩ := Outcome.bind_eq_ok.1 hty
  obtain ⟨_, _, hty⟩ := Outcome.bind_eq_ok.1 hty
  cases hty
  exact ⟨rfl, pty, h.distinct _ List.mem_cons_self, h.tidy item rfl, hpty⟩

theorem map {transform : Term}
    (h : (Step.map transform).Regular schema bounds (.list item) ty) :
    ∃ result, ty = .list result ∧ transform.Regular schema (.element item :: bounds) result := by
  obtain ⟨_, hitem, hty⟩ := Outcome.bind_eq_ok.1 h.infer
  cases hitem
  obtain ⟨result, hresult, hty⟩ := Outcome.bind_eq_ok.1 hty
  cases hty
  exact ⟨result, rfl, h.distinct _ List.mem_cons_self, h.tidy item rfl, hresult⟩

theorem sort {keys : List (Term × Bool)}
    (h : (Step.sort keys).Regular schema bounds (.list item) ty) :
    ty = .list item ∧ ∀ k ∈ keys, ∃ kty, k.1.Regular schema (.element item :: bounds) kty := by
  obtain ⟨_, hitem, hty⟩ := Outcome.bind_eq_ok.1 h.infer
  cases hitem
  obtain ⟨_, hkeys, hty⟩ := Outcome.bind_eq_ok.1 hty
  cases hty
  exact ⟨rfl, keys_regular (fun k hk => h.distinct (k.1, 1) (List.mem_map.2 ⟨k, hk, rfl⟩))
    (h.tidy item rfl) hkeys⟩

theorem groupby {key : Term} {aggregates : List (String × Term)} (hne : aggregates.isEmpty = false)
    (h : (Step.groupby key aggregates).Regular schema bounds (.list item) ty) :
    ∃ keyTy tys, ty = .list (.mapping (Fields.extend [("key", keyTy)] tys) none) ∧
      key.Regular schema (.element item :: bounds) keyTy ∧ keyTy.hasColumn = true ∧
      Fields.Paired (Term.Regular schema (.group (.list item) :: bounds)) aggregates tys := by
  obtain ⟨hkeys, hfields⟩ := h.tidy
  obtain ⟨hkey, hcolumn⟩ := hkeys item rfl
  obtain ⟨_, hitem, hty⟩ := Outcome.bind_eq_ok.1 h.infer
  cases hitem
  obtain ⟨keyTy, hkeyTy, hty⟩ := Outcome.bind_eq_ok.1 hty
  rw [hne, if_neg Bool.false_ne_true] at hty
  obtain ⟨tys, htys, hty⟩ := Outcome.bind_eq_ok.1 hty
  cases hty
  refine ⟨keyTy, tys, rfl, ⟨h.distinct _ List.mem_cons_self, hkey, hkeyTy⟩, hcolumn keyTy hkeyTy,
    fields_regular (fun f hf => ?_) hfields htys⟩
  exact h.distinct (f.2, 1) (List.mem_cons_of_mem _ (List.mem_map.2 ⟨f, hf, rfl⟩))

end Step.Regular

end

end QueryPushdown
