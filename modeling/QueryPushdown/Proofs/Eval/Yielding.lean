import QueryPushdown.Proofs.Eval.Grouping
import QueryPushdown.Proofs.Eval.Operands
import QueryPushdown.Proofs.Eval.Steps

/-!
# What list steps yield

A step over a list yields what it makes of the elements of its subject, which may fail later on. Sorts,
groups and aggregates go through all elements, so they give a result only if none of them failed.
-/

namespace QueryPushdown

namespace Yields

variable {σ : Type} {ys : Yields}

/-- A sequence that is folded to the end has elements only. -/
theorem eq_ofList_of_fold {f : σ → Value → Outcome σ} {s t : σ} (h : fold f s ys = .ok t) :
    ∃ vs, ys = ofList vs := by
  induction ys generalizing s with
  | nil => exact ⟨[], rfl⟩
  | cons y ys ih =>
    cases y with
    | error e => cases h
    | ok v =>
      obtain ⟨s', -, h⟩ := Outcome.bind_eq_ok.1 h
      obtain ⟨vs, rfl⟩ := ih h
      exact ⟨v :: vs, rfl⟩

theorem eq_ofList_of_foldAll {f : σ → Value → Outcome σ} {s : Outcome σ} {t : σ}
    (h : foldAll f s ys = .ok t) : ∃ vs, ys = ofList vs := by
  induction ys generalizing s with
  | nil => exact ⟨[], rfl⟩
  | cons y ys ih =>
    cases y with
    | ok v =>
      obtain ⟨vs, rfl⟩ := ih h
      exact ⟨v :: vs, rfl⟩
    | error e =>
      -- The failure is the result, unless there was one before.
      cases s <;>
      · change foldAll f (.error _) ys = _ at h
        rw [Related.foldAll_error] at h
        cases h

/-- What a slice from the start leaves of a sequence. -/
def between (start stop : Option Int64) (ys : Yields) : Yields :=
  let rest := skip (start.getD 0).toInt.toNat ys
  match stop with
  | none => rest
  | some stop => rest.take (stop.toInt.toNat - (start.getD 0).toInt.toNat)

end Yields

/-- Elements are gathered by their keys, none of which fails. -/
theorem Groups.fold_insert {key : Value → Outcome Value} {vs : List Value} {groups : Groups}
    (h : Yields.fold (fun (groups : Groups) v => do pure (groups.insert (← key v) v)) {}
      (Yields.ofList vs) = .ok groups) :
    ∃ ks : Value → Value, (∀ v ∈ vs, key v = .ok (ks v)) ∧
      groups.groups = gather Value.isEq (vs.map fun v => (ks v, v)) := by
  have hfold : ∀ {g : Groups}, Yields.fold (fun (groups : Groups) v => do
      pure (groups.insert (← key v) v)) g (Yields.ofList vs) = .ok groups →
      (∀ v ∈ vs, key v = .ok (key v).orNull) ∧
        groups = (vs.map fun v => ((key v).orNull, v)).foldl (fun g p => g.insert p.1 p.2) g := by
    clear h
    induction vs with
    | nil => exact fun h => ⟨fun _ hv => (nomatch hv), (Except.ok.inj h).symm⟩
    | cons v vs ih =>
      intro g h
      obtain ⟨g', hg', h⟩ := Outcome.bind_eq_ok.1 h
      obtain ⟨k, hk, hg'⟩ := Outcome.bind_eq_ok.1 hg'
      cases hg'
      obtain ⟨hkeys, hgroups⟩ := ih h
      rw [List.map_cons, List.foldl_cons, hk]
      exact ⟨List.forall_mem_cons.2 ⟨hk ▸ rfl, hkeys⟩, hgroups⟩
  obtain ⟨hkeys, rfl⟩ := hfold h
  exact ⟨fun v => (key v).orNull, hkeys, foldl_insert_eq_gather _⟩

/-- Reducing a sequence reduces the list of its elements. -/
theorem Operator.aggregate_eq_ok {op : AggregateOp} {ps : Pulls} {v : Value}
    (h : (aggregate op ps).outcome = .ok v) :
    ∃ vs, ps.yields = Yields.ofList vs ∧ (Value.list vs).aggregate op = .ok v := by
  cases op with
  | len =>
    rw [aggregate, Run.outcome_bind, Pulls.outcome_foldRun] at h
    obtain ⟨n, hn, h⟩ := Outcome.bind_eq_ok.1 h
    obtain ⟨vs, hvs⟩ := Yields.eq_ofList_of_fold hn
    rw [hvs] at hn
    simp only [Run.outcome_pure, Yields.fold_count, Nat.zero_add] at hn
    cases hn
    exact ⟨vs, hvs, h⟩
  | sum =>
    rw [aggregate, Pulls.outcome_foldAll] at h
    obtain ⟨vs, hvs⟩ := Yields.eq_ofList_of_foldAll h
    rw [hvs, Yields.foldAll_eq_foldlM] at h
    exact ⟨vs, hvs, h⟩
  | min | max =>
    rw [aggregate, extreme, Run.outcome_bind, Pulls.outcome_foldRun] at h
    obtain ⟨best, hbest, h⟩ := Outcome.bind_eq_ok.1 h
    obtain ⟨vs, hvs⟩ := Yields.eq_ofList_of_fold hbest
    rw [hvs, Yields.fold_eq_foldlM] at hbest
    exact ⟨vs, hvs, Outcome.bind_eq_ok.2 ⟨best, hbest, h⟩⟩

/-- Whether a step first takes the whole value of its subject. -/
def Step.takesValue : Step → Bool
  | field _ | unary _ | binary _ _ => true
  | _ => false

namespace Term

variable {input : Input} {scope : Scope} {id : Nat} {subject : Term} {action : Step}
  {e f : Evaluated} {ys : Yields}

theorem eval_step (h : ((step id subject action).eval input scope).outcome = .ok f) :
    ∃ e, (subject.eval input scope).outcome = .ok e ∧
      (action.act input scope subject e).outcome = .ok f := by
  rw [eval, Run.outcome_bind] at h
  exact Outcome.bind_eq_ok.1 h

/-- A step that first takes the value of its subject has none without it. -/
theorem outcome_of_takesValue {v : Value} (ha : action.takesValue = true)
    (h : (step id subject action).outcome input scope = .ok v) : ∃ w,
      subject.outcome input scope = .ok w ∧ action.outcome input scope subject w = .ok v := by
  obtain ⟨f, hf, -⟩ := eval_of_outcome h
  obtain ⟨e, he, hf⟩ := eval_step hf
  obtain ⟨w, hw⟩ : ∃ w, e.toValue.outcome = .ok w := by
    cases action with
    | field name | unary op =>
      rw [Step.act, Run.outcome_bind] at hf
      obtain ⟨w, hw, -⟩ := Outcome.bind_eq_ok.1 hf
      exact ⟨w, hw⟩
    | binary op rhs =>
      cases op <;>
      · simp only [Step.act] at hf
        rw [Run.outcome_bind] at hf
        obtain ⟨w, hw, -⟩ := Outcome.bind_eq_ok.1 hf
        exact ⟨w, hw⟩
    | _ => cases ha
  have hsubject : subject.outcome input scope = .ok w := by
    rw [outcome_eq, he]
    exact hw
  exact ⟨w, hsubject, (outcome_step action hsubject).symm.trans h⟩

theorem length_evalKeys {keys : List (Term × Bool)} {ks : List Value}
    (h : (evalKeys input scope keys).outcome = .ok ks) : ks.length = keys.length := by
  induction keys generalizing ks with
  | nil =>
    cases h
    rfl
  | cons key keys ih =>
    rw [outcome_evalKeys_cons] at h
    obtain ⟨k, -, h⟩ := Outcome.bind_eq_ok.1 h
    obtain ⟨others, hothers, h⟩ := Outcome.bind_eq_ok.1 h
    cases h
    exact congrArg Nat.succ (ih hothers)

/-- A term that yields a sequence and has a value has the list of the elements. -/
theorem eq_list_of_yields {t : Term} {v : Value} (he : (t.eval input scope).outcome = .ok e)
    (hys : e.yields? = some ys) (hv : t.outcome input scope = .ok v) :
    ∃ vs, v = .list vs ∧ ys = Yields.ofList vs := by
  rw [outcome_eq, he] at hv
  change e.toValue.outcome = .ok v at hv
  rw [Evaluated.outcome_toValue_of_yields hys] at hv
  cases hvs : Yields.collect ys with
  | error err =>
    rw [hvs] at hv
    cases hv
  | ok vs =>
    rw [hvs] at hv
    cases hv
    exact ⟨vs, rfl, Yields.eq_ofList_of_collect hvs⟩

theorem outcome_of_yields {t : Term} {vs : List Value} (he : (t.eval input scope).outcome = .ok e)
    (hys : e.yields? = some (Yields.ofList vs)) : t.outcome input scope = .ok (.list vs) := by
  rw [outcome_eq, he]
  change e.toValue.outcome = _
  rw [Evaluated.outcome_toValue_of_yields hys, Yields.collect_ofList]
  rfl

/-- An aggregate reduces the value of its subject. -/
theorem outcome_aggregate_eq_ok {op : AggregateOp} {v : Value}
    (h : (step id subject (.aggregate op)).outcome input scope = .ok v) :
    ∃ w, subject.outcome input scope = .ok w ∧ w.aggregate op = .ok v := by
  obtain ⟨f, hf, hv⟩ := eval_of_outcome h
  obtain ⟨e, he, hf⟩ := eval_step hf
  obtain ⟨w, hw⟩ : ∃ w, e.toValue.outcome = .ok w := by
    cases e with
    | value w => exact ⟨w, rfl⟩
    | pulls ps =>
      rw [Step.act, Run.outcome_bind] at hf
      obtain ⟨u, hu, -⟩ := Outcome.bind_eq_ok.1 hf
      rw [Evaluated.aggregate_of_yields rfl] at hu
      obtain ⟨vs, hvs, -⟩ := Operator.aggregate_eq_ok hu
      rw [Evaluated.outcome_toValue_of_yields rfl, hvs, Yields.collect_ofList]
      exact ⟨_, rfl⟩
  have hsubject : subject.outcome input scope = .ok w := by
    rw [outcome_eq, he]
    exact hw
  rw [outcome_step _ hsubject, Step.outcome_aggregate] at h
  exact ⟨w, hsubject, h⟩

end Term

namespace Step

variable {input : Input} {scope : Scope} {subject : Term} {e f : Evaluated} {ys : Yields}

section

variable (h : e.yields? = some ys)

include h

theorem yields_filter {predicate : Term}
    (hf : ((filter predicate).act input scope subject e).outcome = .ok f) :
    f.yields? = some (Yields.keep
      (fun v => do (← predicate.outcome input (v :: scope)).toBool) ys) := by
  obtain ⟨ps, hps, rfl⟩ := Evaluated.toSequence_of_yields h
  rw [act, hps] at hf
  cases hf
  change some (Pulls.yields _) = _
  rw [Pulls.yields_map_keepIf]
  simp only [Term.outcome_operand]
  rfl

theorem yields_map {transform : Term}
    (hf : ((map transform).act input scope subject e).outcome = .ok f) :
    f.yields? = some (Yields.mapWith (fun v => transform.outcome input (v :: scope)) ys) := by
  obtain ⟨ps, hps, rfl⟩ := Evaluated.toSequence_of_yields h
  rw [act, hps] at hf
  cases hf
  change some (Pulls.yields _) = _
  rw [Pulls.yields_map_mapWith]
  rfl

theorem yields_slice {start stop : Option Int64} (hforward : isForward start stop = true)
    (hf : ((slice start stop).act input scope subject e).outcome = .ok f) :
    f.yields? = some (Yields.between start stop ys) := by
  obtain ⟨ps, hps, rfl⟩ := Evaluated.toPulls_of_yields h
  rw [act, Evaluated.slice_of_yields h, hps, pure_bind, Run.outcome_bind] at hf
  rw [Window.slice] at hf
  dsimp only at hf
  rw [if_neg (Int64.not_lt.2 (start_nonneg hforward))] at hf
  cases stop with
  | none =>
    cases hf
    exact congrArg some (Pulls.yields_skip _ _)
  | some stop =>
    dsimp only at hf
    rw [if_pos (stop_nonneg hforward stop rfl)] at hf
    cases hf
    refine congrArg some ((Pulls.yields_take _ _).trans ?_)
    rw [Pulls.yields_skip]
    rfl

theorem yields_distinct (hf : (distinct.act input scope subject e).outcome = .ok f) :
    f.yields? = some (Yields.distinct {} ys) := by
  obtain ⟨ps, hps, rfl⟩ := Evaluated.toSequence_of_yields h
  rw [act, hps] at hf
  cases hf
  exact congrArg some (Pulls.yields_distinct _ _)

/-- A sort gives a result when no element fails, and no key of an element. -/
theorem yields_sort {keys : List (Term × Bool)}
    (hf : ((sort keys).act input scope subject e).outcome = .ok f) :
    ∃ (vs : List Value) (ks : Value → List Value), ys = Yields.ofList vs ∧
      (∀ v ∈ vs, (evalKeys input (v :: scope) keys).outcome = .ok (ks v)) ∧
      f.yields? = some (Yields.ofList
        (Sorting.rows (vs.map fun v => ⟨ks v, v⟩) (keys.map Prod.snd))) := by
  obtain ⟨ps, hps, rfl⟩ := Evaluated.toSequence_of_yields h
  rw [act, hps, pure_bind, Run.outcome_bind, Pulls.outcome_foldRun] at hf
  obtain ⟨rows, hrows, hf⟩ := Outcome.bind_eq_ok.1 hf
  obtain ⟨vs, hvs⟩ := Yields.eq_ofList_of_fold hrows
  rw [hvs] at hrows
  simp only [Run.outcome_bind, Run.outcome_pure] at hrows
  have hrows := (Yields.fold_rows (fun v => (evalKeys input (v :: scope) keys).outcome) Row.mk []
    vs).symm.trans hrows
  obtain ⟨rows', hrows', hrows⟩ := Outcome.bind_eq_ok.1 hrows
  obtain ⟨g, hg, rfl⟩ := Outcome.exists_of_mapM ⟨[], .null⟩ hrows'
  have hkeys : ∀ v ∈ vs, (evalKeys input (v :: scope) keys).outcome = .ok (g v).keys ∧
      g v = ⟨(g v).keys, v⟩ := fun v hv => by
    obtain ⟨ks, hks, hrow⟩ := Outcome.bind_eq_ok.1 (hg v hv)
    rw [← Except.ok.inj hrow]
    exact ⟨hks, rfl⟩
  refine ⟨vs, fun v => (g v).keys, hvs, fun v hv => (hkeys v hv).1, ?_⟩
  cases hrows
  cases hf
  rw [List.append_nil, List.reverse_reverse, List.map_congr_left fun v hv => (hkeys v hv).2]
  rfl

/-- Groups give a result when no element fails, no key of an element and no aggregate of a group. -/
theorem yields_groupby {key : Term} {aggregates : List (String × Term)}
    (hne : aggregates.isEmpty = false)
    (hf : ((groupby key aggregates).act input scope subject e).outcome = .ok f) :
    ∃ (vs : List Value) (ks : Value → Value) (ws : List Value), ys = Yields.ofList vs ∧
      (∀ v ∈ vs, key.outcome input (v :: scope) = .ok (ks v)) ∧
      List.Forall₂ (fun (g : Value × List Value) w => ∃ out,
        (evalFields input (.list g.2 :: scope) aggregates).outcome = .ok out ∧
        w = .mapping (Fields.extend [("key", g.1)] out))
        (gather Value.isEq (vs.map fun v => (ks v, v))) ws ∧
      f.yields? = some (Yields.ofList ws) := by
  obtain ⟨ps, hps, rfl⟩ := Evaluated.toSequence_of_yields h
  rw [act, hps, pure_bind, Run.outcome_bind, Pulls.outcome_foldRun] at hf
  obtain ⟨groups, hgroups, hf⟩ := Outcome.bind_eq_ok.1 hf
  obtain ⟨vs, hvs⟩ := Yields.eq_ofList_of_fold hgroups
  rw [hvs] at hgroups
  simp only [Term.outcome_operand, Run.outcome_pure, hne, Bool.false_eq_true, if_false] at hgroups hf
  rw [Run.outcome_bind, Run.outcome_mapM] at hf
  obtain ⟨ws, hws, hf⟩ := Outcome.bind_eq_ok.1 hf
  cases hf
  obtain ⟨ks, hks, hgathered⟩ := Groups.fold_insert hgroups
  refine ⟨vs, ks, ws, hvs, hks, ?_, rfl⟩
  rw [← hgathered]
  refine (Outcome.mapM_eq_ok.1 hws).imp fun g w hw => ?_
  rw [Run.outcome_bind] at hw
  obtain ⟨out, hout, hw⟩ := Outcome.bind_eq_ok.1 hw
  exact ⟨out, hout, (Except.ok.inj hw).symm⟩

end

/-- Groups of a list. -/
theorem outcome_groupby_eq_ok {key : Term} {aggregates : List (String × Term)} {us : List Value}
    {w : Value} (hne : aggregates.isEmpty = false)
    (h : (groupby key aggregates).outcome input scope subject (.list us) = .ok w) :
    ∃ (ks : Value → Value) (ws : List Value), w = .list ws ∧
      (∀ v ∈ us, key.outcome input (v :: scope) = .ok (ks v)) ∧
      List.Forall₂ (fun (g : Value × List Value) w => ∃ out,
        (evalFields input (.list g.2 :: scope) aggregates).outcome = .ok out ∧
        w = .mapping (Fields.extend [("key", g.1)] out))
        (gather Value.isEq (us.map fun v => (ks v, v))) ws := by
  obtain ⟨f, hf, hw⟩ := Outcome.bind_eq_ok.1 h
  obtain ⟨vs, ks, ws, hvs, hks, hws, hys⟩ := yields_groupby (e := .value (.list us)) rfl hne hf
  obtain rfl : us = vs := List.map_injective_iff.2 (fun _ _ h => Except.ok.inj h) hvs
  rw [Evaluated.outcome_toValue_of_yields hys, Yields.collect_ofList] at hw
  exact ⟨ks, ws, (Except.ok.inj hw).symm, hks, hws⟩

end Step

end QueryPushdown
