import QueryPushdown.Proofs.Eval.Steps
import QueryPushdown.Proofs.Typing.Inference
import QueryPushdown.Proofs.Value.Equality
import QueryPushdown.Transform.Isolate

/-!
# Isolated bindings

A predicate is true of an element exactly when all bindings and the remainder are. Bindings are
collected conjunct by conjunct; what the conjuncts met so far leave behind is an invariant of the
collection. A repeated binding may be dropped because equality is transitive, and two conflicting
ones have no element in common.
-/

namespace QueryPushdown

namespace Term

variable {input : Input} {scope : Scope} {t c : Term}

/-- What a term decides as a condition. -/
def decision (input : Input) (scope : Scope) (t : Term) : Outcome Bool :=
  t.outcome input scope >>= Value.toBool

theorem decision_eq_ok {b : Bool} :
    t.decision input scope = .ok b ↔ t.outcome input scope = .ok (.bool b) := by
  constructor
  · intro h
    obtain ⟨v, hv, hb⟩ := Outcome.bind_eq_ok.1 h
    rw [hv, toBool_eq_ok hb]
  · intro h
    rw [decision, h]
    rfl

theorem decision_and (id : Nat) (lhs rhs : Term) :
    (step id lhs (.binary .and rhs)).decision input scope =
      (do if ← lhs.decision input scope then rhs.decision input scope else pure false) := by
  rw [decision, decision, decision, outcome_eq, eval_connective rfl]
  cases lhs.outcome input scope with
  | error e => rfl
  | ok v =>
    change ((v.toBool >>= _) >>= _) >>= _ = v.toBool >>= _
    cases v.toBool with
    | error e => rfl
    | ok b =>
      cases b with
      | false => rfl
      | true =>
        change ((rhs.outcome input scope >>= _) >>= _) >>= _ = rhs.outcome input scope >>= _
        cases rhs.outcome input scope with
        | error e => rfl
        | ok w =>
          change ((w.toBool >>= _) >>= _) >>= _ = w.toBool
          cases w.toBool <;> rfl

/-- What several conditions decide together, tested from left to right up to the first one that does
not hold. -/
def decisions (input : Input) (scope : Scope) : List Term → Outcome Bool
  | [] => pure true
  | c :: cs => do if ← c.decision input scope then decisions input scope cs else pure false

theorem decisions_append (xs ys : List Term) : decisions input scope (xs ++ ys) =
    (do if ← decisions input scope xs then decisions input scope ys else pure false) := by
  induction xs with
  | nil => rfl
  | cons x xs ih =>
    rw [List.cons_append, decisions, decisions, ih]
    cases x.decision input scope with
    | error e => rfl
    | ok b => cases b <;> rfl

/-- A predicate decides what its conjuncts decide. -/
theorem decision_eq (t : Term) :
    t.decision input scope = decisions input scope t.conjuncts := by
  induction t using conjuncts.induct with
  | case1 id lhs rhs ihl ihr => rw [conjuncts, decisions_append, decision_and, ihl, ihr]
  | case2 t ht =>
    rw [conjuncts_eq_singleton ht, decisions]
    cases t.decision input scope with
    | error e => rfl
    | ok b => cases b <;> rfl

theorem isTrue_of_decision {b : Bool} (h : t.decision input scope = .ok b) :
    t.isTrue input scope = b := isTrue_of_outcome (decision_eq_ok.1 h)

theorem isTrue_iff : t.isTrue input scope = true ↔ t.decision input scope = .ok true := by
  refine ⟨fun h => ?_, isTrue_of_decision⟩
  unfold isTrue at h
  split at h
  · rename_i b hb
    rw [decision_eq_ok, hb, h]
  · cases h

theorem all_isTrue_of_decisions {cs : List Term} {b : Bool}
    (h : decisions input scope cs = .ok b) : cs.all (·.isTrue input scope) = b := by
  induction cs with
  | nil =>
    cases h
    rfl
  | cons c cs ih =>
    obtain ⟨x, hx, h⟩ := Outcome.bind_eq_ok.1 h
    rw [List.all_cons, isTrue_of_decision hx]
    cases x with
    | false =>
      cases h
      rfl
    | true => exact ih h

/-- Conditions that hold decide nothing. -/
theorem decisions_filter (keep : Term → Bool) {cs : List Term}
    (h : ∀ c ∈ cs, keep c = false → c.isTrue input scope = true) :
    decisions input scope (cs.filter keep) = decisions input scope cs := by
  induction cs with
  | nil => rfl
  | cons c cs ih =>
    obtain ⟨hc, hcs⟩ := List.forall_mem_cons.1 h
    cases hk : keep c with
    | true => rw [List.filter_cons_of_pos hk, decisions, decisions, ih hcs]
    | false =>
      rw [List.filter_cons_of_neg (by simp [hk]), ih hcs, decisions, isTrue_iff.1 (hc hk)]
      rfl

theorem not_and_of_mem_conjuncts (h : c ∈ t.conjuncts) (id : Nat) (lhs rhs : Term) :
    c = step id lhs (.binary .and rhs) → False := by
  induction t using conjuncts.induct with
  | case1 id lhs rhs ihl ihr => exact (List.mem_append.1 h).elim ihl ihr
  | case2 t ht =>
    rw [conjuncts_eq_singleton ht, List.mem_singleton] at h
    exact h ▸ ht id lhs rhs

theorem conjuncts_of_mem_conjuncts (h : c ∈ t.conjuncts) : c.conjuncts = [c] :=
  conjuncts_eq_singleton (not_and_of_mem_conjuncts h)

theorem Distinct.of_mem_conjuncts (ht : t.Distinct) (h : c ∈ t.conjuncts) : c.Distinct := by
  induction t using conjuncts.induct with
  | case1 id lhs rhs ihl ihr =>
    obtain ⟨hl, hr⟩ := distinct_step.1 ht
    exact (List.mem_append.1 h).elim (ihl hl) (ihr (hr (rhs, 0) (List.mem_singleton_self _)))
  | case2 t ht' =>
    rw [conjuncts_eq_singleton ht', List.mem_singleton] at h
    exact h ▸ ht

/-- The field and the value that a conjunct binds. -/
def bound? : Term → Option (String × Value)
  | step _ lhs (.binary .eq rhs) => (binding? lhs rhs).orElse fun _ => binding? rhs lhs
  | _ => none

theorem isolateConjunct_eq (met : Isolating) (c : Term) : isolateConjunct met c =
    match c.bound? with
    | none => { met with rest := met.rest ++ [c] }
    | some (name, value) =>
      match Fields.get? met.bindings name with
      | some b => { met with conflict := met.conflict || !b.isEq value }
      | none => { met with bindings := Fields.insert met.bindings name value } := by
  cases c with
  | step id lhs action =>
    cases action with
    | binary op rhs => cases op <;> rfl
    | _ => rfl
  | _ => rfl

theorem collectBindings_eq (met : Isolating) (t : Term) :
    t.collectBindings met = t.conjuncts.foldl isolateConjunct met := by
  induction t using conjuncts.induct generalizing met with
  | case1 id lhs rhs ihl ihr =>
    rw [collectBindings, conjuncts, List.foldl_append, ihl, ihr]
  | case2 t ht =>
    rw [conjuncts_eq_singleton ht, collectBindings]
    · rfl
    · exact ht

end Term

section Conjuncts

variable {input : Input} {scope : Scope} {c : Term} {cs : List Term} {element : Value}
  {f : String × Value}

theorem Term.binding?_eq_some {s t : Term} (h : binding? s t = some f) :
    ∃ i j k, s = step i (context j 0) (.field f.1) ∧ t = literal k f.2 := by
  unfold binding? at h
  split at h
  · cases h
    exact ⟨_, _, _, rfl, rfl⟩
  · cases h

theorem Term.outcome_context_field (i j : Nat) (name : String) :
    (step i (context j 0) (.field name)).outcome input (element :: scope) = element.field name := by
  have hcontext : (context j 0).outcome input (element :: scope) = .ok element := rfl
  rw [outcome_step _ hcontext]
  change (Run.outcome (do
    pure (Evaluated.value (← liftM (element.field name)))) >>= fun e => e.toValue.outcome) = _
  rw [Run.outcome_bind, Run.outcome_lift]
  cases element.field name <;> rfl

theorem Term.distinct_of_bound? (h : c.bound? = some f) (hc : c.Distinct) : f.2.Distinct := by
  have hliteral : ∀ {k : Nat} {v : Value}, (literal k v).Distinct → v.Distinct := by
    rintro k v ⟨hl, -, -⟩
    exact hl _ _ rfl
  unfold bound? at h
  split at h
  · rename_i id lhs rhs
    obtain ⟨hlhs, hrhs⟩ := distinct_step.1 hc
    have hrhs := hrhs (rhs, 0) (List.mem_singleton_self _)
    cases hl : binding? lhs rhs with
    | some g =>
      rw [hl] at h
      cases h
      obtain ⟨i, j, k, rfl, rfl⟩ := binding?_eq_some hl
      exact hliteral hrhs
    | none =>
      rw [hl] at h
      obtain ⟨i, j, k, rfl, rfl⟩ := binding?_eq_some h
      exact hliteral hlhs
  · cases h

/-- A conjunct that binds a field compares it. -/
theorem Term.decision_of_bound? (h : c.bound? = some f) (hc : c.Distinct)
    (he : element.DistinctFields) : c.decision input (element :: scope) =
      (do pure ((← element.field f.1).isEq f.2)) := by
  have hf := distinct_of_bound? h hc
  unfold bound? at h
  split at h
  · rename_i id lhs rhs
    rw [decision, outcome_binary id lhs rhs (by decide) (by decide)]
    cases hl : binding? lhs rhs with
    | some g =>
      rw [hl] at h
      cases h
      obtain ⟨i, j, k, rfl, rfl⟩ := binding?_eq_some hl
      rw [outcome_context_field]
      cases element.field f.1 <;> rfl
    | none =>
      rw [hl] at h
      obtain ⟨i, j, k, rfl, rfl⟩ := binding?_eq_some h
      rw [outcome_context_field]
      cases hw : element.field f.1 with
      | error e => rfl
      | ok w =>
        have hcomm : f.2.isEq w = w.isEq f.2 := Bool.eq_iff_iff.2
          ⟨Value.isEq_symm hf (he _ _ hw), Value.isEq_symm (he _ _ hw) hf⟩
        change Except.ok (f.2.isEq w) = Except.ok (w.isEq f.2)
        rw [hcomm]
  · cases h

theorem Term.isTrue_of_bound? (h : c.bound? = some f) (hc : c.Distinct)
    (he : element.DistinctFields) : c.isTrue input (element :: scope) = element.binds f := by
  rw [Bool.eq_iff_iff, isTrue_iff, decision_of_bound? h hc he, Value.binds]
  cases element.field f.1 with
  | error e => simp [bind, Except.bind]
  | ok w => simp [bind, Except.bind, pure, Except.pure]

/-- Two of several conjuncts bind one field to different values. -/
def Term.Conflicting (cs : List Term) : Prop :=
  ∃ c ∈ cs, ∃ d ∈ cs, ∃ name a b,
    c.bound? = some (name, a) ∧ d.bound? = some (name, b) ∧ a.isEq b = false

/-- No field of an element equals two different values at once. -/
theorem Term.Conflicting.not_all_isTrue (h : Conflicting cs) (hcs : ∀ c ∈ cs, c.Distinct)
    (he : element.DistinctFields) : cs.all (·.isTrue input (element :: scope)) = false := by
  obtain ⟨c, hc, d, hd, name, a, b, hca, hdb, hab⟩ := h
  refine Bool.eq_false_iff.2 fun hall => ?_
  have hta := List.all_eq_true.1 hall c hc
  have htb := List.all_eq_true.1 hall d hd
  rw [isTrue_of_bound? hca (hcs c hc) he] at hta
  rw [isTrue_of_bound? hdb (hcs d hd) he] at htb
  obtain ⟨w, hw, hwa⟩ := Value.binds_iff.1 hta
  obtain ⟨w', hw', hwb⟩ := Value.binds_iff.1 htb
  rw [hw] at hw'
  cases hw'
  have haw := Value.isEq_symm (he _ _ hw) (distinct_of_bound? hca (hcs c hc)) hwa
  rw [Value.isEq_trans haw hwb] at hab
  cases hab

namespace Isolating

variable {met : Isolating}

/-- What collecting the bindings of conjuncts leaves behind. -/
structure Collects (met : Isolating) (cs : List Term) : Prop where
  rest : met.rest = cs.filter fun c => c.bound?.isNone
  bound : ∀ c ∈ cs, ∀ f, c.bound? = some f → ∃ b, Fields.get? met.bindings f.1 = some b ∧
    (met.conflict = false → b = f.2 ∨ b.isEq f.2 = true)
  origin : ∀ f ∈ met.bindings, ∃ c ∈ cs, c.bound? = some f
  nodup : (Fields.names met.bindings).Nodup
  conflict : met.conflict = true → ∃ c ∈ cs, ∃ d ∈ cs, ∃ name a b,
    c.bound? = some (name, a) ∧ d.bound? = some (name, b) ∧ a.isEq b = false

theorem Collects.nil : Collects {} [] where
  rest := rfl
  bound _ h := by cases h
  origin _ h := by cases h
  nodup := List.Pairwise.nil
  conflict h := by cases h

private theorem Collects.other (h : met.Collects cs) (hc : c.bound? = none) :
    Collects { met with rest := met.rest ++ [c] } (cs ++ [c]) where
  rest := by simp [h.rest, hc]
  bound d hd f hf := by
    rcases List.mem_append.1 hd with hd | hd
    · exact h.bound d hd f hf
    · rw [List.mem_singleton.1 hd, hc] at hf
      cases hf
  origin f hf := by
    obtain ⟨d, hd, hbound⟩ := h.origin f hf
    exact ⟨d, List.mem_append_left _ hd, hbound⟩
  nodup := h.nodup
  conflict hx := by
    obtain ⟨d, hd, e, he, rest⟩ := h.conflict hx
    exact ⟨d, List.mem_append_left _ hd, e, List.mem_append_left _ he, rest⟩

private theorem Collects.again {name : String} {a b : Value} (h : met.Collects cs)
    (hc : c.bound? = some (name, a)) (hb : Fields.get? met.bindings name = some b) :
    Collects { met with conflict := met.conflict || !b.isEq a } (cs ++ [c]) where
  rest := by simp [h.rest, hc]
  bound d hd f hf := by
    rcases List.mem_append.1 hd with hd | hd
    · obtain ⟨b', hb', hsame⟩ := h.bound d hd f hf
      exact ⟨b', hb', fun hx => hsame (Bool.or_eq_false_iff.1 hx).1⟩
    · rw [List.mem_singleton.1 hd, hc] at hf
      cases hf
      refine ⟨b, hb, fun hx => .inr ?_⟩
      simpa using (Bool.or_eq_false_iff.1 hx).2
  origin f hf := by
    obtain ⟨d, hd, hbound⟩ := h.origin f hf
    exact ⟨d, List.mem_append_left _ hd, hbound⟩
  nodup := h.nodup
  conflict hx := by
    rcases Bool.or_eq_true_iff.1 hx with hx | hx
    · obtain ⟨d, hd, e, he, rest⟩ := h.conflict hx
      exact ⟨d, List.mem_append_left _ hd, e, List.mem_append_left _ he, rest⟩
    · obtain ⟨d, hd, hbound⟩ := h.origin _ (Fields.mem_of_get? hb)
      exact ⟨d, List.mem_append_left _ hd, c, List.mem_append_right _ (List.mem_singleton_self c),
        name, b, a, hbound, hc, by simpa using hx⟩

private theorem Collects.first {name : String} {a : Value} (h : met.Collects cs)
    (hc : c.bound? = some (name, a)) (hb : Fields.get? met.bindings name = none) :
    Collects { met with bindings := Fields.insert met.bindings name a } (cs ++ [c]) where
  rest := by simp [h.rest, hc]
  bound d hd f hf := by
    rcases List.mem_append.1 hd with hd | hd
    · obtain ⟨b, hget, hsame⟩ := h.bound d hd f hf
      have hne : f.1 ≠ name := fun he => by
        rw [he, hb] at hget
        cases hget
      exact ⟨b, by rw [Fields.get?_insert_other _ _ hne, hget], hsame⟩
    · rw [List.mem_singleton.1 hd, hc] at hf
      cases hf
      exact ⟨a, Fields.get?_insert_same _ _ _, fun _ => .inl rfl⟩
  origin f hf := by
    rcases Fields.mem_of_mem_insert hf with hf | rfl
    · obtain ⟨d, hd, hbound⟩ := h.origin f hf
      exact ⟨d, List.mem_append_left _ hd, hbound⟩
    · exact ⟨c, List.mem_append_right _ (List.mem_singleton_self c), hc⟩
  nodup := Fields.nodup_names_insert h.nodup name a
  conflict hx := by
    obtain ⟨d, hd, e, he, rest⟩ := h.conflict hx
    exact ⟨d, List.mem_append_left _ hd, e, List.mem_append_left _ he, rest⟩

theorem Collects.step (h : met.Collects cs) (c : Term) :
    (Term.isolateConjunct met c).Collects (cs ++ [c]) := by
  rw [Term.isolateConjunct_eq]
  split
  · exact h.other ‹_›
  · split
    · exact h.again ‹_› ‹_›
    · exact h.first ‹_› ‹_›

theorem Collects.run (h : met.Collects cs) (ds : List Term) :
    (ds.foldl Term.isolateConjunct met).Collects (cs ++ ds) := by
  induction ds generalizing met cs with
  | nil => rwa [List.append_nil]
  | cons d ds ih =>
    rw [List.append_cons]
    exact ih (h.step d)

/-- What collecting the bindings of a predicate leaves behind. -/
theorem collects_conjuncts (t : Term) : (t.collectBindings {}).Collects t.conjuncts := by
  rw [Term.collectBindings_eq]
  exact Collects.nil.run t.conjuncts

section Element

variable (h : met.Collects cs) (hcs : ∀ c ∈ cs, c.Distinct) (he : element.DistinctFields)

include h hcs he

/-- A conflict leaves no element. -/
theorem Collects.not_all_isTrue (hx : met.conflict = true) :
    cs.all (·.isTrue input (element :: scope)) = false :=
  Term.Conflicting.not_all_isTrue (h.conflict hx) hcs he

/-- Whatever binds a field holds when the bindings do. -/
theorem Collects.isTrue_of_binds (hx : met.conflict = false)
    (hbindings : ∀ f ∈ met.bindings, element.binds f = true) {c : Term} (hc : c ∈ cs)
    {f : String × Value} (hbound : c.bound? = some f) :
    c.isTrue input (element :: scope) = true := by
  obtain ⟨b, hb, hsame⟩ := h.bound c hc f hbound
  obtain ⟨w, hw, hwb⟩ := Value.binds_iff.1 (hbindings _ (Fields.mem_of_get? hb))
  rw [Term.isTrue_of_bound? hbound (hcs c hc) he, Value.binds_iff]
  refine ⟨w, hw, ?_⟩
  rcases hsame hx with hsame | hsame
  · exact hsame ▸ hwb
  · exact Value.isEq_trans hwb hsame

/-- The conjuncts are true when the bindings and the rest are. -/
theorem Collects.all_isTrue (hx : met.conflict = false) :
    cs.all (·.isTrue input (element :: scope)) =
      (met.bindings.all element.binds && met.rest.all (·.isTrue input (element :: scope))) := by
  rw [Bool.eq_iff_iff, Bool.and_eq_true_iff, List.all_eq_true, List.all_eq_true, List.all_eq_true]
  constructor
  · intro hall
    refine ⟨fun f hf => ?_, fun c hc => hall c (List.mem_of_mem_filter (h.rest ▸ hc))⟩
    obtain ⟨c, hc, hbound⟩ := h.origin f hf
    rw [← Term.isTrue_of_bound? hbound (hcs c hc) he]
    exact hall c hc
  · rintro ⟨hbindings, hrest⟩ c hc
    cases hbound : c.bound? with
    | none => exact hrest c (h.rest ▸ List.mem_filter.2 ⟨hc, by rw [hbound]; rfl⟩)
    | some f => exact h.isTrue_of_binds hcs he hx hbindings hc hbound

end Element

end Isolating

end Conjuncts

theorem Term.conjuncts_conjoinAll (t : Term) (ts : List Term) (a : Arena) :
    (conjoinAll t ts a).1.conjuncts = t.conjuncts ++ ts.flatMap conjuncts := by
  induction ts generalizing t a with
  | nil => exact (List.append_nil _).symm
  | cons next rest ih =>
    change (conjoinAll (step a.size t (.binary .and next)) rest _).1.conjuncts = _
    rw [ih, conjuncts, List.flatMap_cons, List.append_assoc]

theorem Isolating.Collects.flatMap_conjuncts {met : Isolating} {t : Term} {ts : List Term}
    (h : met.Collects t.conjuncts) (hts : ts ⊆ met.rest) : ts.flatMap Term.conjuncts = ts := by
  induction ts with
  | nil => rfl
  | cons c ts ih =>
    obtain ⟨hc, hts⟩ := List.cons_subset.1 hts
    have hmem := List.mem_of_mem_filter (h.rest ▸ hc)
    rw [List.flatMap_cons, ih hts, Term.conjuncts_of_mem_conjuncts hmem]
    rfl

namespace Request

variable {input : Input} {scope : Scope} {r : Request} {element : Value}

/-- Without a conflict, the bindings are those that were collected. -/
theorem isolate_bindings (hx : (r.root.collectBindings {}).conflict = false) :
    r.isolate.bindings = (r.root.collectBindings {}).bindings := by
  unfold isolate
  dsimp only
  rw [hx, if_neg Bool.false_ne_true]
  split <;> rfl

/-- Without a conflict, the remainder decides the conjuncts that bind nothing. -/
theorem decision_remainder (hx : (r.root.collectBindings {}).conflict = false) (input : Input)
    (scope : Scope) : r.isolate.remainder.root.decision input scope =
      Term.decisions input scope (r.root.collectBindings {}).rest := by
  have hcollects := Isolating.collects_conjuncts r.root
  unfold isolate
  dsimp only
  rw [hx, if_neg Bool.false_ne_true]
  generalize r.root.collectBindings {} = met at hcollects
  split
  · rename_i hrest
    rw [hrest]
    rfl
  · rename_i first others hrest
    have hconjuncts : (r.rebuild fun _ => first.conjoinAll others).root.conjuncts = met.rest := by
      change (Term.conjoinAll first others r.arena).1.conjuncts = _
      rw [Term.conjuncts_conjoinAll, ← List.flatMap_cons,
        hcollects.flatMap_conjuncts (hrest ▸ List.Subset.refl _), hrest]
    rw [Term.decision_eq, hconjuncts]

theorem isolate_of_conflict (hx : (r.root.collectBindings {}).conflict = true) :
    r.isolate.isUnsatisfiable = true := by
  unfold isolate
  dsimp only
  rw [hx, if_pos rfl]
  rfl

theorem conflict_of_satisfiable (h : r.isolate.isUnsatisfiable = false) :
    (r.root.collectBindings {}).conflict = false := by
  cases hx : (r.root.collectBindings {}).conflict with
  | true =>
    rw [isolate_of_conflict hx] at h
    cases h
  | false => rfl

theorem nodup_bindings (h : r.isolate.isUnsatisfiable = false) :
    (Fields.names r.isolate.bindings).Nodup := by
  rw [isolate_bindings (conflict_of_satisfiable h)]
  exact (Isolating.collects_conjuncts r.root).nodup

theorem bound_of_mem_bindings (h : r.isolate.isUnsatisfiable = false) {f : String × Value}
    (hf : f ∈ r.isolate.bindings) : ∃ c ∈ r.root.conjuncts, c.bound? = some f := by
  rw [isolate_bindings (conflict_of_satisfiable h)] at hf
  exact (Isolating.collects_conjuncts r.root).origin f hf

section Element

variable (hr : r.root.Distinct) (he : element.DistinctFields)

include hr he

/-- A predicate that isolation finds unsatisfiable is true of no element. -/
theorem isTrue_of_isUnsatisfiable (h : r.isolate.isUnsatisfiable = true) :
    r.root.conjuncts.all (·.isTrue input (element :: scope)) = false := by
  have hcollects := Isolating.collects_conjuncts r.root
  have hdistinct : ∀ c ∈ r.root.conjuncts, c.Distinct := fun c hc => hr.of_mem_conjuncts hc
  cases hx : (r.root.collectBindings {}).conflict with
  | true => exact hcollects.not_all_isTrue hdistinct he hx
  | false =>
    have hfalse : r.isolate.remainder.root.decision input (element :: scope) = .ok false := by
      unfold Isolated.isUnsatisfiable Term.isLiteralBool at h
      split at h
      · rename_i heq
        rw [heq, ← eq_of_beq h]
        rfl
      · cases h
    rw [hcollects.all_isTrue hdistinct he hx,
      Term.all_isTrue_of_decisions ((decision_remainder hx ..).symm.trans hfalse), Bool.and_false]

/-- A predicate is true of an element when the bindings are and the remainder decides so. -/
theorem isTrue_of_isolate {b : Bool} (h : r.isolate.isUnsatisfiable = false)
    (hb : r.isolate.remainder.root.decision input (element :: scope) = .ok b) :
    r.root.conjuncts.all (·.isTrue input (element :: scope)) =
      (r.isolate.bindings.all element.binds && b) := by
  have hx := conflict_of_satisfiable h
  rw [(Isolating.collects_conjuncts r.root).all_isTrue (fun c hc => hr.of_mem_conjuncts hc) he hx,
    isolate_bindings hx, Term.all_isTrue_of_decisions ((decision_remainder hx ..).symm.trans hb)]

/-- A predicate is true of no element but those that have all bindings. -/
theorem binds_of_isTrue (h : r.isolate.isUnsatisfiable = false)
    (ht : r.root.conjuncts.all (·.isTrue input (element :: scope)) = true) :
    ∀ f ∈ r.isolate.bindings, element.binds f = true := by
  have hx := conflict_of_satisfiable h
  rw [(Isolating.collects_conjuncts r.root).all_isTrue (fun c hc => hr.of_mem_conjuncts hc) he hx,
    ← isolate_bindings hx, Bool.and_eq_true_iff] at ht
  exact List.all_eq_true.1 ht.1

/-- Over an element that has all bindings, the remainder decides what the predicate does. -/
theorem decision_isolate (h : r.isolate.isUnsatisfiable = false)
    (hbinds : ∀ f ∈ r.isolate.bindings, element.binds f = true) :
    r.isolate.remainder.root.decision input (element :: scope) =
      r.root.decision input (element :: scope) := by
  have hx := conflict_of_satisfiable h
  have hcollects := Isolating.collects_conjuncts r.root
  rw [decision_remainder hx, Term.decision_eq, hcollects.rest]
  refine Term.decisions_filter _ fun c hc hkeep => ?_
  cases hf : c.bound? with
  | none =>
    rw [hf] at hkeep
    cases hkeep
  | some f =>
    exact hcollects.isTrue_of_binds (fun c hc => hr.of_mem_conjuncts hc) he hx
      (isolate_bindings hx ▸ hbinds) hc hf

end Element

end Request

end QueryPushdown
