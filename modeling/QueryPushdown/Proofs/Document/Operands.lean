import Mathlib.Data.List.Perm.Subperm
import QueryPushdown.Proofs.Document.Truth
import QueryPushdown.Proofs.Value.Equality

/-!
# Operands of conditions

Documents keep the kinds of numbers apart and ignore the order of fields. What is the same there
stands for values that no condition tells apart: nothing equals one of them and not the other, and
both have the same order with everything.
-/

namespace QueryPushdown

namespace Bson

theorem get?_of_toFields {fields : Document} {values : Fields Value}
    (h : toFields fields = .ok values) {name : String} {b : Bson}
    (hget : Fields.get? fields name = some b) :
    ∃ v, Fields.get? values name = some v ∧ b.toValue = .ok v := by
  induction fields generalizing values with
  | nil => cases hget
  | cons e rest ih =>
    obtain ⟨n, c⟩ := e
    obtain ⟨v, hv, h⟩ := Outcome.bind_eq_ok.1 h
    obtain ⟨others, hothers, h⟩ := Outcome.bind_eq_ok.1 h
    cases h
    rw [Fields.get?] at hget ⊢
    split at hget
    · rename_i hname
      cases hget
      exact ⟨v, if_pos hname, hv⟩
    · rename_i hname
      rw [if_neg hname]
      exact ih hothers hget

theorem names_toFields {fields : Document} {values : Fields Value}
    (h : toFields fields = .ok values) : Fields.names values = Fields.names fields := by
  induction fields generalizing values with
  | nil =>
    cases h
    rfl
  | cons e rest ih =>
    obtain ⟨v, -, h⟩ := Outcome.bind_eq_ok.1 h
    obtain ⟨others, hothers, h⟩ := Outcome.bind_eq_ok.1 h
    cases h
    exact congrArg (e.1 :: ·) (ih hothers)

theorem length_toFields {fields : Document} {values : Fields Value}
    (h : toFields fields = .ok values) : values.length = fields.length := by
  simpa [Fields.names] using congrArg List.length (names_toFields h)

/-- Each field of the first document stands in the second one with the same content. -/
theorem sameFields_iff {as bs : Document} : sameFields as bs = true ↔
    ∀ f ∈ as, ∃ b, Fields.get? bs f.1 = some b ∧ f.2.same b = true := by
  induction as with
  | nil => simp [sameFields]
  | cons f as ih =>
    obtain ⟨name, a⟩ := f
    rw [sameFields, Bool.and_eq_true_iff, ih, List.forall_mem_cons]
    cases Fields.get? bs name <;> simp

/-- Documents that are the same have the same names. -/
theorem names_perm_of_same {as bs : Document} (ha : (Fields.names as).Nodup)
    (hlength : as.length = bs.length) (h : sameFields as bs = true) :
    (Fields.names as).Perm (Fields.names bs) := by
  have hsub : Fields.names as ⊆ Fields.names bs := by
    intro name hm
    obtain ⟨f, hf, rfl⟩ := List.mem_map.1 hm
    obtain ⟨b, hb, -⟩ := sameFields_iff.1 h f hf
    exact List.mem_map.2 ⟨_, Fields.mem_of_get? hb, rfl⟩
  refine (List.subperm_of_subset ha hsub).perm_of_length_le ?_
  simp only [Fields.names, List.length_map, hlength, Nat.le_refl]

mutual

/-- What is the same stands for equal values. -/
theorem isEq_of_same {a b : Bson} {u w : Value} (h : a.same b = true) (hu : a.toValue = .ok u)
    (hw : b.toValue = .ok w) : u.isEq w = true := by
  cases a with
  | array as =>
    cases b with
    | array bs =>
      obtain ⟨us, hus, hu⟩ := Outcome.bind_eq_ok.1 hu
      obtain ⟨ws, hws, hw⟩ := Outcome.bind_eq_ok.1 hw
      cases hu
      cases hw
      exact isEqItems_of_sameItems h hus hws
    | _ => cases h
  | document as =>
    cases b with
    | document bs =>
      obtain ⟨hlength, h⟩ := Bool.and_eq_true_iff.1 h
      obtain ⟨us, hus, hu⟩ := Outcome.bind_eq_ok.1 hu
      obtain ⟨ws, hws, hw⟩ := Outcome.bind_eq_ok.1 hw
      cases hu
      cases hw
      refine Bool.and_eq_true_iff.2 ⟨beq_iff_eq.2 ?_, isEqFields_of_sameFields h hus hws⟩
      rw [length_toFields hus, length_toFields hws]
      exact eq_of_beq hlength
    | _ => cases h
  | double x =>
    cases b with
    | double y =>
      cases hu
      cases hw
      exact h
    | _ => cases h
  | foreign x =>
    cases b with
    | foreign y =>
      obtain rfl := eq_of_beq h
      cases x with
      | undefined =>
        cases hu
        cases hw
        rfl
      | _ => cases hu
    | _ => cases h
  | null =>
    cases b with
    | null =>
      cases hu
      cases hw
      rfl
    | _ => cases h
  | bool | int32 | int64 | text =>
    cases b with
    | bool | int32 | int64 | text =>
      first
      | cases h
      | obtain rfl := eq_of_beq h
        cases hu
        cases hw
        exact beq_self_eq_true _
    | _ => cases h
termination_by sizeOf a

theorem isEqItems_of_sameItems {as bs : List Bson} {us ws : List Value}
    (h : sameItems as bs = true) (hu : toItems as = .ok us) (hw : toItems bs = .ok ws) :
    Value.isEqItems us ws = true := by
  match as, bs with
  | [], [] =>
    cases hu
    cases hw
    rfl
  | [], _ :: _ | _ :: _, [] => cases h
  | a :: as, b :: bs =>
    obtain ⟨hfirst, hrest⟩ := Bool.and_eq_true_iff.1 h
    obtain ⟨u, hua, hu⟩ := Outcome.bind_eq_ok.1 hu
    obtain ⟨us, hus, hu⟩ := Outcome.bind_eq_ok.1 hu
    obtain ⟨w, hwb, hw⟩ := Outcome.bind_eq_ok.1 hw
    obtain ⟨ws, hws, hw⟩ := Outcome.bind_eq_ok.1 hw
    cases hu
    cases hw
    exact Bool.and_eq_true_iff.2 ⟨isEq_of_same hfirst hua hwb, isEqItems_of_sameItems hrest hus hws⟩
termination_by sizeOf as

theorem isEqFields_of_sameFields {as bs : Document} {us ws : Fields Value}
    (h : sameFields as bs = true) (hu : toFields as = .ok us) (hw : toFields bs = .ok ws) :
    Value.isEqFields us ws = true := by
  match as with
  | [] =>
    cases hu
    rfl
  | (name, a) :: as =>
    obtain ⟨⟨b, hb, hfirst⟩, hrest⟩ := List.forall_mem_cons.1 (sameFields_iff.1 h)
    obtain ⟨u, hua, hu⟩ := Outcome.bind_eq_ok.1 hu
    obtain ⟨us, hus, hu⟩ := Outcome.bind_eq_ok.1 hu
    cases hu
    obtain ⟨w, hget, hwb⟩ := get?_of_toFields hw hb
    exact (Value.isEqFields_cons ..).2 ⟨⟨w, hget, isEq_of_same hfirst hua hwb⟩,
      isEqFields_of_sameFields (sameFields_iff.2 hrest) hus hw⟩
termination_by sizeOf as

end

mutual

/-- What is the same has one order with everything. -/
theorem compare?_of_same {a b : Bson} {u w : Value} (h : a.same b = true) (hu : a.toValue = .ok u)
    (hw : b.toValue = .ok w) (v : Value) : v.compare? u = v.compare? w := by
  cases a with
  | array as =>
    cases b with
    | array bs =>
      obtain ⟨us, hus, hu⟩ := Outcome.bind_eq_ok.1 hu
      obtain ⟨ws, hws, hw⟩ := Outcome.bind_eq_ok.1 hw
      cases hu
      cases hw
      cases v with
      | list vs => exact compareItems?_of_sameItems h hus hws vs
      | _ => rfl
    | _ => cases h
  | document as =>
    cases b with
    | document bs =>
      obtain ⟨us, -, hu⟩ := Outcome.bind_eq_ok.1 hu
      obtain ⟨ws, -, hw⟩ := Outcome.bind_eq_ok.1 hw
      cases hu
      cases hw
      cases v <;> rfl
    | _ => cases h
  | double x =>
    cases b with
    | double y =>
      cases hu
      cases hw
      exact Value.compare?_float_of_same h v
    | _ => cases h
  | null =>
    cases b with
    | null =>
      cases hu
      cases hw
      rfl
    | _ => cases h
  | bool | int32 | int64 | text | foreign =>
    cases b with
    | bool | int32 | int64 | text | foreign =>
      first
      | cases h
      | obtain rfl := eq_of_beq h
        rw [hu] at hw
        cases hw
        rfl
    | _ => cases h
termination_by sizeOf a

theorem compareItems?_of_sameItems {as bs : List Bson} {us ws : List Value}
    (h : sameItems as bs = true) (hu : toItems as = .ok us) (hw : toItems bs = .ok ws)
    (vs : List Value) : Value.compareItems? vs us = Value.compareItems? vs ws := by
  match as, bs with
  | [], [] =>
    cases hu
    cases hw
    rfl
  | [], _ :: _ | _ :: _, [] => cases h
  | a :: as, b :: bs =>
    obtain ⟨hfirst, hrest⟩ := Bool.and_eq_true_iff.1 h
    obtain ⟨u, hua, hu⟩ := Outcome.bind_eq_ok.1 hu
    obtain ⟨us, hus, hu⟩ := Outcome.bind_eq_ok.1 hu
    obtain ⟨w, hwb, hw⟩ := Outcome.bind_eq_ok.1 hw
    obtain ⟨ws, hws, hw⟩ := Outcome.bind_eq_ok.1 hw
    cases hu
    cases hw
    cases vs with
    | nil => rfl
    | cons v vs =>
      rw [Value.compareItems?, Value.compareItems?, compare?_of_same hfirst hua hwb,
        compareItems?_of_sameItems hrest hus hws]
termination_by sizeOf as

end

end Bson

namespace Filter

theorem isOperators_eq (fields : Document) :
    isOperators fields = (Fields.names fields).all isOperator := by
  rw [isOperators, Fields.names, List.all_map]
  rfl

/-- An operand stands for a value, and is no document that would be taken for operators. -/
structure Operand (b : Bson) (v : Value) : Prop where
  toValue : b.toValue = .ok v
  distinct : v.Distinct
  exact : ∀ ops, b = .document ops → isOperators ops = false

variable {a b : Bson} {u v w : Value}

theorem Operand.ofValue (h : v.isScalar = true) : Operand (.ofValue v) v where
  toValue := Bson.toValue_ofValue v
  distinct := by
    cases v with
    | list | mapping => cases h
    | _ => constructor
  exact ops hops := by
    cases v with
    | list | mapping => cases h
    | _ => cases hops

theorem Operand.equals (h : Operand b w) (v : Value) : equals v b = .ok (v.isEq w) := by
  rw [Filter.equals, h.toValue]
  rfl

theorem Operand.ordered (h : Operand b w) (test : Ordering → Bool) (v : Value) :
    ordered test v b = (do pure (test (← v.compare? w))) := by
  rw [Filter.ordered, h.toValue]
  rfl

/-- An operand is an exact value as a condition. -/
theorem Operand.holds (h : Operand b w) (v : Value) : holds v b = .ok (v.isEq w) := by
  rw [← h.equals]
  cases b with
  | document ops => rw [Filter.holds, h.exact ops rfl, Bool.and_false, if_neg Bool.false_ne_true]
  | _ => rfl

theorem Operand.condition {R : Reading} (h : Operand b w) (v : Value) :
    condition R v b = some (v.isEq w) := by
  have heq : Filter.condition R v b = .ofOutcome (Filter.equals v b) := by
    cases b with
    | document ops =>
      rw [Filter.condition, h.exact ops rfl, Bool.and_false, if_neg Bool.false_ne_true]
    | _ => rfl
  rw [heq, h.equals]
  rfl

theorem Operand.nodup {fields : Document} (h : Operand (.document fields) v) :
    (Fields.names fields).Nodup := by
  obtain ⟨values, hvalues, hv⟩ := Outcome.bind_eq_ok.1 h.toValue
  cases hv
  cases h.distinct with
  | mapping hn _ => exact Bson.names_toFields hvalues ▸ hn

/-- Operands that are the same are equal to the same values. -/
theorem Operand.isEq_of_same (ha : Operand a u) (hb : Operand b w) (h : a.same b = true)
    (v : Value) : v.isEq u = v.isEq w := by
  have huw : u.isEq w = true := Bson.isEq_of_same h ha.toValue hb.toValue
  exact Bool.eq_iff_iff.2 ⟨fun hv => Value.isEq_trans hv huw,
    fun hv => Value.isEq_trans hv (Value.isEq_symm ha.distinct hb.distinct huw)⟩

/-- Only a text is a pattern. -/
theorem matchesPattern_other (h : ∀ s, b ≠ .text s) (v : Value) :
    Truth.ofOutcome (matchesPattern v b) = none := by
  cases b with
  | text s => exact absurd rfl (h s)
  | _ => rfl

theorem matchesPattern_of_same (h : a.same b = true) (v : Value) :
    Truth.ofOutcome (matchesPattern v a) = Truth.ofOutcome (matchesPattern v b) := by
  by_cases ha : ∃ s, a = .text s
  · obtain ⟨s, rfl⟩ := ha
    cases b with
    | text t => rw [eq_of_beq h]
    | _ => cases h
  · rw [matchesPattern_other (fun s hs => ha ⟨s, hs⟩), matchesPattern_other]
    rintro s rfl
    cases a with
    | text t => exact ha ⟨t, rfl⟩
    | _ => cases h

end Filter

end QueryPushdown
