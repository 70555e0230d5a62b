import QueryPushdown.Proofs.Value.Equality

/-!
# Classes of equal values

Equality is an equivalence on the values that hold no `NaN`, whatever they are nested in, and a value
that does hold one equals nothing. The values that have keys fall into the same classes by their keys.
A value without a key equals none that has one.
-/

namespace QueryPushdown

namespace Value

/-- No float in a value is `NaN`, at any depth. -/
inductive WithoutNaN : Value → Prop
  | null : WithoutNaN .null
  | bool (b : Bool) : WithoutNaN (.bool b)
  | int (i : Int64) : WithoutNaN (.int i)
  | float {x : Binary64} (h : x.isNaN = false) : WithoutNaN (.float x)
  | text (s : String) : WithoutNaN (.text s)
  | list {items : List Value} (h : ∀ v ∈ items, WithoutNaN v) : WithoutNaN (.list items)
  | mapping {fields : List (String × Value)} (h : ∀ f ∈ fields, WithoutNaN f.2) :
    WithoutNaN (.mapping fields)

variable {a b : Value}

theorem isEqItems_self_iff {vs : List Value} :
    isEqItems vs vs = true ↔ ∀ v ∈ vs, v.isEq v = true := by
  induction vs with
  | nil => exact ⟨fun _ v hv => (by cases hv), fun _ => rfl⟩
  | cons v vs ih => rw [isEqItems, Bool.and_eq_true_iff, ih, List.forall_mem_cons]

theorem isEqFields_self_iff {fields : List (String × Value)} (hn : (Fields.names fields).Nodup) :
    isEqFields fields fields = true ↔ ∀ f ∈ fields, f.2.isEq f.2 = true := by
  rw [isEqFields_iff]
  refine forall₂_congr fun f hf => ?_
  rw [Fields.get?_of_mem hn hf]
  simp

/-- A value equals itself unless it holds a `NaN`. -/
theorem isEq_self_iff (ha : a.Distinct) : a.isEq a = true ↔ a.WithoutNaN := by
  induction ha with
  | null => exact ⟨fun _ => .null, fun _ => rfl⟩
  | bool b => exact ⟨fun _ => .bool b, fun _ => beq_self_eq_true b⟩
  | int i => exact ⟨fun _ => .int i, fun _ => beq_self_eq_true i⟩
  | text s => exact ⟨fun _ => .text s, fun _ => beq_self_eq_true s⟩
  | float x =>
    constructor
    · intro h
      exact .float (Binary64.position_of_same h).1
    · intro h
      cases h with
      | float hx => exact Binary64.same_of_position hx hx rfl
  | list _ ih =>
    rw [isEq, isEqItems_self_iff]
    constructor
    · intro h
      exact .list fun v hv => (ih v hv).1 (h v hv)
    · intro h v hv
      cases h with
      | list h => exact (ih v hv).2 (h v hv)
  | mapping hn _ ih =>
    rw [isEq, beq_self_eq_true, Bool.true_and, isEqFields_self_iff hn]
    constructor
    · intro h
      exact .mapping fun f hf => (ih f hf).1 (h f hf)
    · intro h f hf
      cases h with
      | mapping h => exact (ih f hf).2 (h f hf)

theorem isEq_comm (ha : a.Distinct) (hb : b.Distinct) : a.isEq b = b.isEq a :=
  Bool.eq_iff_iff.2 ⟨isEq_symm ha hb, isEq_symm hb ha⟩

/-- Values with keys are equal exactly when their keys are. -/
theorem isEq_iff_key {k l : Key} (ha : a.key? = some k) (hb : b.key? = some l) :
    a.isEq b = true ↔ k = l := by
  constructor
  · intro h
    have hkeys := key?_of_isEq h
    rw [ha, hb] at hkeys
    exact Option.some.inj hkeys
  · rintro rfl
    exact isEq_of_key? ha hb

/-- A value without a key equals none that has one, and the other way round. -/
theorem isEq_eq_false_of_key? (h : a.key? ≠ b.key?) : a.isEq b = false :=
  Bool.eq_false_iff.2 fun heq => h (key?_of_isEq heq)

/-- Lists, mappings and `NaN` are what has no key. -/
theorem key?_eq_none_iff : a.key? = none ↔ a.isScalar = false ∨ ∃ x, a = .float x ∧ x.isNaN = true := by
  cases a with
  | null | bool | int | text => simp [key?, isScalar]
  | list | mapping => simp [key?, isScalar]
  | float x =>
    rw [key?]
    cases hx : x.isNaN with
    | true => simp [hx]
    | false =>
      simp only [Bool.false_eq_true, if_false, isScalar, false_or, Bool.true_eq_false]
      constructor
      · intro h
        cases hexact : exactInt? x <;> rw [hexact] at h <;> cases h
      · rintro ⟨y, hy, hnan⟩
        cases hy
        rw [hx] at hnan
        cases hnan

/-- Equality tells the same classes of values apart as keys do. It is symmetric and transitive at every
depth, and fails to be reflexive just on values that hold a `NaN`. -/
theorem isEq_classes (a b c : Value) (ha : a.Distinct) (hb : b.Distinct) :
    a.isEq b = b.isEq a ∧
    (a.isEq b = true → b.isEq c = true → a.isEq c = true) ∧
    (a.isEq a = true ↔ a.WithoutNaN) ∧
    (∀ k l, a.key? = some k → b.key? = some l → (a.isEq b = true ↔ k = l)) ∧
    (a.key? = none → b.key? ≠ none → a.isEq b = false ∧ b.isEq a = false) ∧
    (a.key? = none ↔ a.isScalar = false ∨ ∃ x, a = .float x ∧ x.isNaN = true) := by
  refine ⟨isEq_comm ha hb, isEq_trans, isEq_self_iff ha, fun k l => isEq_iff_key, fun hkey hkeyed => ?_,
    key?_eq_none_iff⟩
  have hne : a.key? ≠ b.key? := fun h => hkeyed (h ▸ hkey)
  exact ⟨isEq_eq_false_of_key? hne, isEq_eq_false_of_key? hne.symm⟩

/-- A large number and a zero, each an integer or a float. -/
def numbers (large zero : Value) : Value :=
  .mapping [("large", large), ("zero", .list [zero])]

theorem distinct_numbers {large zero : Value} (hl : large.Distinct) (hz : zero.Distinct) :
    (numbers large zero).Distinct := by
  refine .mapping (by simp [Fields.names]) fun f hf => ?_
  simp only [List.mem_cons, List.not_mem_nil, or_false] at hf
  rcases hf with rfl | rfl
  · exact hl
  · exact .list fun v hv => List.mem_singleton.1 hv ▸ hz

/-- Equality goes through the floats that stand for the integers, `-0.0` for zero among them. -/
theorem numbers_isEq_classes :
    (numbers (.int 9007199254740992) (.int 0)).Distinct ∧
    (numbers (.float ⟨0x4340000000000000⟩) (.float ⟨0x8000000000000000⟩)).Distinct ∧
    (numbers (.int 9007199254740992) (.int 0)).isEq
      (numbers (.int 9007199254740992) (.float ⟨0⟩)) = true := by
  have ha := distinct_numbers (.int 9007199254740992) (.int 0)
  have hb := distinct_numbers (.float ⟨0x4340000000000000⟩) (.float ⟨0x8000000000000000⟩)
  obtain ⟨-, htrans, -⟩ := isEq_classes _ _ (numbers (.int 9007199254740992) (.float ⟨0⟩)) ha hb
  exact ⟨ha, hb, htrans (by decide +kernel) (by decide +kernel)⟩

end Value

end QueryPushdown
