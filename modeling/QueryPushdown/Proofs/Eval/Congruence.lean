import QueryPushdown.Proofs.Eval.Agreement
import QueryPushdown.Proofs.Request.Operands

/-!
# Terms in agreement

The value of a step depends on its operands only through what they evaluate to under the scopes
that the step binds.
-/

namespace QueryPushdown

variable {T : Tolerance} {input : Input} {scope scope' : Scope}

-- The equations of evaluation are made here, once for all the proofs below that go by its cases.
attribute [local simp] Term.eval Step.act evalFields evalKeys

namespace Term

/-- The value of a term, a sequence drained into a list. -/
def outcome (input : Input) (scope : Scope) (t : Term) : Outcome Value :=
  (do (← t.eval input scope).toValue : Run Value).outcome

theorem outcome_eq (input : Input) (scope : Scope) (t : Term) :
    t.outcome input scope = (do (← (t.eval input scope).outcome).toValue.outcome) :=
  Run.outcome_bind _ _

/-- The use of an operand: it is evaluated and drained. -/
theorem outcome_operand {α : Type} (input : Input) (scope : Scope) (t : Term) (k : Value → Run α) :
    (do let v ← (← t.eval input scope).toValue; k v : Run α).outcome =
      (do let v ← t.outcome input scope; (k v).outcome) := by
  rw [outcome_eq, Run.outcome_bind]
  cases (t.eval input scope).outcome with
  | error e => rfl
  | ok e => exact Run.outcome_bind _ _

/-- Agreement of two terms under `n` common scopes. -/
def Agree (T : Tolerance) (input : Input) (scope scope' : Scope) (n : Nat) (s t : Term) : Prop :=
  ∀ frames : Scope, frames.length = n →
    Outcome.Related T Eq (s.outcome input (frames ++ scope)) (t.outcome input (frames ++ scope'))

theorem Agree.here {s t : Term} (h : Agree T input scope scope' 0 s t) :
    Outcome.Related T Eq (s.outcome input scope) (t.outcome input scope') := h [] rfl

theorem Agree.inside {s t : Term} (h : Agree T input scope scope' 1 s t) (v : Value) :
    Outcome.Related T Eq (s.outcome input (v :: scope)) (t.outcome input (v :: scope')) :=
  h [v] rfl

theorem Agree.refl (n : Nat) (t : Term) : Agree T input scope scope n t t := fun _ _ => .refl _

end Term

/-- Values in agreement make terms that agree. -/
theorem Outcome.Related.outcome {s t : Term}
    (h : Outcome.Related T (Evaluated.Related T) (s.eval input scope).outcome
      (t.eval input scope').outcome) :
    Outcome.Related T Eq (s.outcome input scope) (t.outcome input scope') := by
  rw [Term.outcome_eq, Term.outcome_eq]
  exact h.bind fun _ _ hab => hab.toValue

theorem Outcome.Related.mapM {α β : Type} {f g : α → Outcome β} {xs : List α}
    (h : ∀ a ∈ xs, Outcome.Related T Eq (f a) (g a)) :
    Outcome.Related T Eq (xs.mapM f) (xs.mapM g) := by
  induction xs with
  | nil => exact .refl _
  | cons a xs ih =>
    rw [List.mapM_cons, List.mapM_cons]
    refine (h a List.mem_cons_self).bind_eq fun b => ?_
    exact (ih fun c hc => h c (List.mem_cons_of_mem _ hc)).bind_eq fun bs => .refl _

theorem evalFields_related {n : Nat} {fs gs : List (String × Term)} (frames : Scope)
    (hn : frames.length = n)
    (h : List.Forall₂ (fun f g => f.1 = g.1 ∧ Term.Agree T input scope scope' n f.2 g.2) fs gs) :
    Outcome.Related T Eq (evalFields input (frames ++ scope) fs).outcome
      (evalFields input (frames ++ scope') gs).outcome := by
  induction h with
  | nil => exact .refl _
  | @cons f g fs gs hfg h ih =>
    obtain ⟨name, s⟩ := f
    obtain ⟨name', t⟩ := g
    obtain ⟨rfl, hst⟩ := hfg
    simp only [evalFields, Term.outcome_operand]
    refine (hst frames hn).bind_eq fun v => ?_
    simp only [Run.outcome_bind]
    exact ih.bind_eq fun _ => .refl _

theorem evalKeys_related {n : Nat} {ks ls : List (Term × Bool)} (frames : Scope)
    (hn : frames.length = n)
    (h : List.Forall₂ (fun k l => Term.Agree T input scope scope' n k.1 l.1 ∧ k.2 = l.2) ks ls) :
    Outcome.Related T Eq (evalKeys input (frames ++ scope) ks).outcome
      (evalKeys input (frames ++ scope') ls).outcome := by
  induction h with
  | nil => exact .refl _
  | @cons k l ks ls hkl h ih =>
    obtain ⟨s, d⟩ := k
    obtain ⟨t, d'⟩ := l
    simp only [evalKeys, Term.outcome_operand]
    refine (hkl.1 frames hn).bind_eq fun v => ?_
    simp only [Run.outcome_bind]
    exact ih.bind_eq fun _ => .refl _

theorem Outcome.Related.wrapped {x y : Run Value}
    (h : Outcome.Related T Eq x.outcome y.outcome) :
    Outcome.Related T (Evaluated.Related T) (do pure (.value (← x)) : Run Evaluated).outcome
      (do pure (.value (← y)) : Run Evaluated).outcome := by
  simp only [Run.outcome_bind]
  exact h.bind_eq fun v => .ok (.value v)

namespace Step

private theorem binary_related {op : BinaryOp} {e f : Evaluated} {s t u w : Term}
    (he : e.Related T f)
    (h : Outcome.Related T Eq (s.outcome input scope) (t.outcome input scope')) :
    Outcome.Related T (Evaluated.Related T) ((Step.binary op s).act input scope u e).outcome
      ((Step.binary op t).act input scope' w f).outcome := by
  cases op with
  | and | or =>
    simp only [Step.act]
    rw [Run.outcome_bind, Run.outcome_bind]
    refine he.toValue.bind_eq fun v => ?_
    rw [Run.outcome_bind, Run.outcome_bind]
    refine (Outcome.Related.refl v.toBool).bind_eq fun b => ?_
    cases b with
    | true | false =>
      simp only [if_true, if_false, Bool.false_eq_true]
      first
        | exact .ok (.value _)
        | rw [Term.outcome_operand, Term.outcome_operand]
          exact h.bind_eq fun v => .self (fun _ => .refl _) _
  | _ =>
    simp only [Step.act]
    rw [Run.outcome_bind, Run.outcome_bind]
    refine he.toValue.bind_eq fun v => ?_
    rw [Term.outcome_operand, Term.outcome_operand]
    exact h.bind_eq fun w => .self (fun _ => .refl _) _

private theorem sort_related {e f : Evaluated} {u w : Term} {ks ls : List (Term × Bool)}
    (he : e.Related T f)
    (h : List.Forall₂ (fun k l => Term.Agree T input scope scope' 1 k.1 l.1 ∧ k.2 = l.2) ks ls) :
    Outcome.Related T (Evaluated.Related T) ((Step.sort ks).act input scope u e).outcome
      ((Step.sort ls).act input scope' w f).outcome := by
  have hdir : ks.map Prod.snd = ls.map Prod.snd := by
    rw [← List.forall₂_eq_eq_eq, List.forall₂_map_left_iff, List.forall₂_map_right_iff]
    exact h.imp fun _ _ hkl => hkl.2
  simp only [Step.act]
  rw [Run.outcome_bind, Run.outcome_bind]
  refine he.toSequence.bind fun ps qs hpq => ?_
  rw [Run.outcome_bind, Run.outcome_bind, Pulls.outcome_foldRun, Pulls.outcome_foldRun, hdir]
  refine (hpq.fold (R := Eq) ?_ rfl).bind_eq fun rows => .ok (.value _)
  rintro rows _ v rfl
  rw [Run.outcome_bind, Run.outcome_bind]
  exact (evalKeys_related [v] rfl h).bind_eq fun keys => .refl _

private theorem groupby_related {e f : Evaluated} {s t u w : Term} {fs gs : List (String × Term)}
    (he : e.Related T f) (hk : Term.Agree T input scope scope' 1 s t)
    (h : List.Forall₂ (fun f g => f.1 = g.1 ∧ Term.Agree T input scope scope' 1 f.2 g.2) fs gs) :
    Outcome.Related T (Evaluated.Related T) ((Step.groupby s fs).act input scope u e).outcome
      ((Step.groupby t gs).act input scope' w f).outcome := by
  have hempty : fs.isEmpty = gs.isEmpty := by cases h <;> rfl
  simp only [Step.act]
  rw [Run.outcome_bind, Run.outcome_bind]
  refine he.toSequence.bind fun ps qs hpq => ?_
  rw [Run.outcome_bind, Run.outcome_bind, Pulls.outcome_foldRun, Pulls.outcome_foldRun]
  refine (hpq.fold (R := Eq) ?_ rfl).bind_eq fun groups => ?_
  · rintro groups _ v rfl
    rw [Term.outcome_operand, Term.outcome_operand]
    exact (hk.inside v).bind_eq fun k => .refl _
  · rw [Run.outcome_bind, Run.outcome_bind, Run.outcome_mapM, Run.outcome_mapM, hempty]
    refine (Outcome.Related.mapM fun group _ => ?_).bind_eq fun members => .ok (.value _)
    by_cases hg : gs.isEmpty = true
    · simp only [hg, if_true]
      exact .refl _
    · simp only [hg, if_false, Bool.false_eq_true]
      rw [Run.outcome_bind, Run.outcome_bind]
      exact (evalFields_related [_] rfl h).bind_eq fun fields => .refl _

private theorem bare_related {e f : Evaluated} {s t : Term} {a : Step}
    (hnames : Evaluated.NamesPair T s t) (he : e.Related T f) (ha : a.operands = []) :
    Outcome.Related T (Evaluated.Related T) (a.act input scope s e).outcome
      (a.act input scope' t f).outcome := by
  cases a with
  | field name | unary op =>
    simp only [Step.act]
    rw [Run.outcome_bind, Run.outcome_bind]
    exact he.toValue.bind_eq fun v => .self (fun _ => .refl _) _
  | sort keys =>
    obtain rfl := List.map_eq_nil_iff.1 ha
    exact sort_related he .nil
  | slice start stop => exact Evaluated.slice_related start stop he
  | index position =>
    simp only [Step.act]
    rw [Run.outcome_bind, Run.outcome_bind]
    refine he.toSequence.bind fun ps qs hpq => ?_
    exact .wrapped (Window.index_related position hpq)
  | distinct =>
    simp only [Step.act]
    rw [Run.outcome_bind, Run.outcome_bind]
    refine he.toSequence.bind fun ps qs hpq => .ok (.sequence rfl rfl ?_)
    rw [Pulls.yields_distinct, Pulls.yields_distinct]
    exact Yields.Related.distinct {} hpq
  | one => exact .wrapped (Evaluated.one_related hnames he (.error hnames.1))
  | aggregate op => exact .wrapped (Evaluated.aggregate_related op he)
  | binary | filter | map | groupby | oneOr => cases ha

/-- A step acts alike on subjects that agree when its operands agree. -/
theorem act_related {s t : Term} {e f : Evaluated} {a b : Step}
    (hnames : Evaluated.NamesPair T s t) (he : e.Related T f)
    (hab : a.Alike (Term.Agree T input scope scope') b) :
    Outcome.Related T (Evaluated.Related T) (a.act input scope s e).outcome
      (b.act input scope' t f).outcome := by
  cases hab with
  | bare ha => exact bare_related hnames he ha
  | binary h => exact binary_related he h.here
  | filter h =>
    simp only [act]
    rw [Run.outcome_bind, Run.outcome_bind]
    refine he.toSequence.bind fun ps qs hpq => .ok (.sequence rfl rfl ?_)
    rw [Pulls.yields_map_keepIf, Pulls.yields_map_keepIf]
    refine hpq.keep fun v => ?_
    rw [Term.outcome_operand, Term.outcome_operand]
    exact (h.inside v).bind_eq fun b => .refl _
  | map h =>
    simp only [act]
    rw [Run.outcome_bind, Run.outcome_bind]
    refine he.toSequence.bind fun ps qs hpq => .ok (.sequence rfl rfl ?_)
    rw [Pulls.yields_map_mapWith, Pulls.yields_map_mapWith]
    exact hpq.mapWith h.inside
  | sort h => exact sort_related he h
  | groupby h hs => exact groupby_related he h hs
  | oneOr h => exact .wrapped (Evaluated.one_related hnames he h.here)

end Step

namespace Term

/-- Steps that are alike on subjects that agree make terms that agree. -/
theorem eval_step_related {id id' : Nat} {s t : Term} {a b : Step}
    (hnames : Evaluated.NamesPair T s t)
    (hst : Outcome.Related T (Evaluated.Related T) (s.eval input scope).outcome
      (t.eval input scope').outcome)
    (hab : a.Alike (Agree T input scope scope') b) :
    Outcome.Related T (Evaluated.Related T) ((step id s a).eval input scope).outcome
      ((step id' t b).eval input scope').outcome := by
  simp only [eval, Run.outcome_bind]
  exact hst.bind fun e f hef => Step.act_related hnames hef hab

theorem eval_record_related {id id' : Nat} {fs gs : List (String × Term)}
    (h : List.Forall₂ (fun f g => f.1 = g.1 ∧ Agree T input scope scope' 0 f.2 g.2) fs gs) :
    Outcome.Related T (Evaluated.Related T) ((record id fs).eval input scope).outcome
      ((record id' gs).eval input scope').outcome := by
  simp only [eval, Run.outcome_bind]
  exact (evalFields_related [] rfl h).bind_eq fun fields => .ok (.value _)

end Term

end QueryPushdown
