import QueryPushdown.Proofs.Transform.Isolating

/-!
# Bindings and remainder

The bindings of a predicate and its remainder say exactly what the predicate says. A binding met a
second time constrains an element no further than the first one does, and two bindings that
conflict leave no element.
-/

namespace QueryPushdown

theorem Value.Distinct.distinctFields {element : Value} (h : element.Distinct) :
    element.DistinctFields := by
  intro name w hw
  cases h with
  | @mapping fields hn hfields =>
    simp only [field] at hw
    cases hget : Fields.get? fields name with
    | none =>
      rw [hget] at hw
      cases hw
    | some v =>
      rw [hget] at hw
      cases hw
      exact hfields _ (Fields.mem_of_get? hget)
  | _ => cases hw

/-- Equal values equal the same values. -/
theorem Value.isEq_congr {a b w : Value} (ha : a.Distinct) (hb : b.Distinct)
    (h : a.isEq b = true) : w.isEq a = w.isEq b :=
  Bool.eq_iff_iff.2 ⟨fun hw => isEq_trans hw h, fun hw => isEq_trans hw (isEq_symm ha hb h)⟩

namespace Term

variable {input : Input} {scope : Scope}

theorem decisions_eq_true {cs : List Term} :
    decisions input scope cs = .ok true ↔ cs.all (·.isTrue input scope) = true := by
  induction cs with
  | nil => simp [decisions, pure, Except.pure]
  | cons c cs ih =>
    rw [List.all_cons, Bool.and_eq_true_iff, isTrue_iff, ← ih, decisions]
    cases hc : c.decision input scope with
    | error e => simp [bind, Except.bind]
    | ok b => cases b <;> simp [bind, Except.bind, pure, Except.pure]

end Term

namespace Request

variable {input : Input} {scope : Scope} {r : Request} {element : Value}

theorem eval_eq_true :
    r.eval input scope = .ok (.bool true) ↔ r.root.decision input scope = .ok true :=
  Term.decision_eq_ok.symm

/-- A predicate that isolation finds in conflict has conflicting conjuncts. -/
theorem conflict_eq_false (h : ¬ Term.Conflicting r.root.conjuncts) :
    (r.root.collectBindings {}).conflict = false :=
  Bool.eq_false_iff.2 fun hx => h ((Isolating.collects_conjuncts r.root).conflict hx)

/-- A predicate in conflict is true of no element: isolation leaves the literal `false`. -/
theorem isolate_conflict (hx : (r.root.collectBindings {}).conflict = true) :
    r.isolate = ⟨[], .literal (.bool false)⟩ := by
  unfold isolate
  dsimp only
  rw [if_pos hx]

section Element

variable (hr : r.root.Distinct) (he : element.Distinct)

include hr he

/-- The bindings and the remainder together are true of the elements that the predicate is true
of. -/
theorem decision_iff_isolate : r.root.decision input (element :: scope) = .ok true ↔
    (∀ f ∈ r.isolate.bindings, element.binds f = true) ∧
      r.isolate.remainder.root.decision input (element :: scope) = .ok true := by
  have hcollects := Isolating.collects_conjuncts r.root
  have hdistinct : ∀ c ∈ r.root.conjuncts, c.Distinct := fun c hc => hr.of_mem_conjuncts hc
  have hfields := he.distinctFields
  rw [Term.decision_eq, Term.decisions_eq_true]
  cases hx : (r.root.collectBindings {}).conflict with
  | true =>
    have hnone : r.root.conjuncts.all (·.isTrue input (element :: scope)) = false :=
      hcollects.not_all_isTrue hdistinct hfields hx
    rw [isolate_conflict hx, hnone]
    refine iff_of_false Bool.false_ne_true ?_
    rintro ⟨-, hfalse⟩
    cases hfalse
  | false =>
    rw [hcollects.all_isTrue hdistinct hfields hx, decision_remainder hx, Term.decisions_eq_true,
      isolate_bindings hx, Bool.and_eq_true_iff, List.all_eq_true]

/-- Conflicting conjuncts are true of no element. -/
theorem decision_of_conflicting (h : Term.Conflicting r.root.conjuncts) :
    r.root.decision input (element :: scope) ≠ .ok true := by
  rw [Term.decision_eq, Ne, Term.decisions_eq_true,
    h.not_all_isTrue (fun c hc => hr.of_mem_conjuncts hc) he.distinctFields]
  exact Bool.false_ne_true

end Element

/-- What a conjunct binds is kept, if only as an equal value met before. -/
theorem exists_binding_of_bound? (hr : r.root.Distinct) (h : ¬ Term.Conflicting r.root.conjuncts) {c : Term}
    (hc : c ∈ r.root.conjuncts) {f : String × Value} (hf : c.bound? = some f) :
    ∃ g ∈ r.isolate.bindings, g.1 = f.1 ∧ ∀ w : Value, w.isEq g.2 = w.isEq f.2 := by
  have hx := conflict_eq_false h
  have hcollects := Isolating.collects_conjuncts r.root
  obtain ⟨b, hget, hsame⟩ := hcollects.bound c hc f hf
  have hmem := Fields.mem_of_get? hget
  refine ⟨(f.1, b), isolate_bindings hx ▸ hmem, rfl, fun w => ?_⟩
  rcases hsame hx with rfl | hsame
  · rfl
  · obtain ⟨d, hd, hdb⟩ := hcollects.origin _ hmem
    have hb := Term.distinct_of_bound? hdb (hr.of_mem_conjuncts hd)
    exact Value.isEq_congr hb (Term.distinct_of_bound? hf (hr.of_mem_conjuncts hc)) hsame

/-- A predicate is true of an element exactly when the element has every binding and the remainder
is true of it. Bindings that conflict leave no element, and a conjunct that is dropped because it
binds a field once more constrains the field no further than the binding that is kept. -/
theorem eval_isolate (hr : r.root.Distinct) (he : element.Distinct) :
    (r.eval input (element :: scope) = .ok (.bool true) ↔
      (∀ f ∈ r.isolate.bindings, ∃ w, element.field f.1 = .ok w ∧ w.isEq f.2 = true) ∧
        r.isolate.remainder.eval input (element :: scope) = .ok (.bool true)) ∧
    (Term.Conflicting r.root.conjuncts → r.eval input (element :: scope) ≠ .ok (.bool true)) ∧
    (¬ Term.Conflicting r.root.conjuncts → ∀ c ∈ r.root.conjuncts, ∀ f, c.bound? = some f →
      ∃ g ∈ r.isolate.bindings, g.1 = f.1 ∧ ∀ w : Value, w.isEq g.2 = w.isEq f.2) := by
  refine ⟨?_, fun h => ?_, fun h c hc f hf => exists_binding_of_bound? hr h hc hf⟩
  · rw [eval_eq_true, eval_eq_true, decision_iff_isolate hr he]
    exact and_congr_left fun _ => forall₂_congr fun f _ => Value.binds_iff
  · rw [Ne, eval_eq_true]
    exact decision_of_conflicting hr he h

end Request

/-- Whether the size is one, asked twice, and the weight above two. -/
def Request.oneAbove : Request :=
  let size := (Request.context 0).wrap (.field "size")
  let weight := (Request.context 0).wrap (.field "weight")
  let sized := (size.combine (.literal (.int 1)) (.binary .eq)).combine
    ((Request.literal (.float ⟨0x3FF0000000000000⟩)).combine size (.binary .eq)) (.binary .and)
  sized.combine (weight.combine (.literal (.int 2)) (.binary .gt)) (.binary .and)

theorem Request.oneAbove_root : oneAbove.root =
    .step 13 (.step 8 (.step 3 (.step 1 (.context 0 0) (.field "size"))
      (.binary .eq (.literal 2 (.int 1)))) (.binary .and
        (.step 7 (.literal 4 (.float ⟨0x3FF0000000000000⟩))
          (.binary .eq (.step 6 (.context 5 0) (.field "size"))))))
      (.binary .and (.step 12 (.step 10 (.context 9 0) (.field "weight"))
        (.binary .gt (.literal 11 (.int 2))))) := rfl

theorem Request.oneAbove_distinct : oneAbove.root.Distinct := by
  simp [oneAbove_root, Term.distinct_step, Step.operands, Term.distinct_context,
    Term.distinct_literal, Value.Distinct.int, Value.Distinct.float]

theorem Request.oneAbove_bound {c : Term} (hc : c ∈ oneAbove.root.conjuncts)
    {f : String × Value} (hf : c.bound? = some f) :
    f = ("size", .int 1) ∨ f = ("size", .float ⟨0x3FF0000000000000⟩) := by
  simp only [oneAbove_root, Term.conjuncts, List.cons_append, List.nil_append, List.mem_cons,
    List.not_mem_nil, or_false] at hc
  rcases hc with rfl | rfl | rfl
  · cases hf
    exact .inl rfl
  · cases hf
    exact .inr rfl
  · cases hf

theorem Request.oneAbove_not_conflicting : ¬ Term.Conflicting oneAbove.root.conjuncts := by
  rintro ⟨c, hc, d, hd, name, a, b, hca, hdb, hab⟩
  have ha := oneAbove_bound hc hca
  have hb := oneAbove_bound hd hdb
  simp only [Prod.mk.injEq] at ha hb
  rcases ha with ⟨-, rfl⟩ | ⟨-, rfl⟩ <;> rcases hb with ⟨-, rfl⟩ | ⟨-, rfl⟩ <;>
    exact absurd hab (by decide +kernel)

/-- An element of size one. -/
def Value.heavyOne : Value := .mapping [("size", .int 1), ("weight", .int 3)]

theorem Value.heavyOne_distinct : heavyOne.Distinct := by
  refine .mapping (by decide) fun f hf => ?_
  simp only [List.mem_cons, List.not_mem_nil, or_false] at hf
  rcases hf with rfl | rfl <;> exact .int _

theorem Request.oneAbove_eval_isolate :
    oneAbove.eval .empty [.heavyOne] = .ok (.bool true) ∧
      ∃ g ∈ oneAbove.isolate.bindings, g.1 = "size" ∧
        ∀ w : Value, w.isEq g.2 = w.isEq (.float ⟨0x3FF0000000000000⟩) := by
  obtain ⟨hexact, -, hkept⟩ := @eval_isolate .empty [] oneAbove .heavyOne oneAbove_distinct
    Value.heavyOne_distinct
  have hx := conflict_eq_false oneAbove_not_conflicting
  constructor
  · refine hexact.2 ⟨fun f hf => ?_, ?_⟩
    · rw [isolate_bindings hx] at hf
      obtain rfl : f = ("size", .int 1) := List.mem_singleton.1 hf
      exact ⟨.int 1, rfl, rfl⟩
    · rw [eval_eq_true, decision_remainder hx]
      rfl
  · exact hkept oneAbove_not_conflicting
      (.step 7 (.literal 4 (.float ⟨0x3FF0000000000000⟩))
        (.binary .eq (.step 6 (.context 5 0) (.field "size"))))
      (by simp [oneAbove_root, Term.conjuncts]) _ rfl

end QueryPushdown
