import QueryPushdown.Eval.Term
import QueryPushdown.Proofs.Eval.Tolerance

/-!
# Steps keep agreement

Subjects that agree, with operands that agree on all elements, give results that agree. Whether a
subject is a list or a sequence that was not drained makes no difference.
-/

namespace QueryPushdown

variable {T : Tolerance}

/-- Agreement of two sequences, whatever they read. -/
def Pulls.Related (T : Tolerance) (ps qs : Pulls) : Prop := Yields.Related T ps.yields qs.yields

namespace Window

variable {ps qs : Pulls}

/-- A window that is full drops its oldest element. -/
theorem push_drop (n : Nat) (vs : List Value) (v : Value) :
    push n (vs.drop (vs.length - n), vs.length) v =
      ((vs ++ [v]).drop ((vs ++ [v]).length - n), (vs ++ [v]).length) := by
  rw [push, List.length_append, List.length_singleton, List.length_drop]
  by_cases hzero : n = 0
  · rw [if_pos hzero, hzero, List.drop_eq_nil_of_le (by simp), List.drop_eq_nil_of_le (by simp)]
  · rw [if_neg hzero]
    by_cases hfull : vs.length - (vs.length - n) = n
    · rw [if_pos hfull, List.drop_drop, List.drop_append_of_le_length (by omega),
        show vs.length - n + 1 = vs.length + 1 - n by omega]
    · rw [if_neg hfull, Nat.sub_eq_zero_of_le (by omega), Nat.sub_eq_zero_of_le (by omega)]
      rfl

/-- A window over the elements so far is moved over further ones. -/
theorem foldl_push (n : Nat) (seen vs : List Value) :
    vs.foldl (push n) (seen.drop (seen.length - n), seen.length) =
      ((seen ++ vs).drop ((seen ++ vs).length - n), (seen ++ vs).length) := by
  induction vs generalizing seen with
  | nil => rw [List.foldl_nil, List.append_nil]
  | cons v vs ih => rw [List.foldl_cons, push_drop, ih, List.append_assoc, List.singleton_append]

theorem outcome_trailing (n : Nat) (ps : Pulls) :
    (trailing n ps).outcome = (do
      reserve n
      let items ← Yields.collect ps.yields
      pure (items.drop (items.length - n), items.length)) := by
  rw [trailing, Run.outcome_bind, Run.outcome_lift, Pulls.outcome_foldRun]
  simp only [Run.outcome_pure]
  refine congrArg _ (funext fun _ => (Yields.fold_pure (push n) _ _).trans ?_)
  exact congrArg _ (funext fun vs => congrArg Except.ok (by simpa using foldl_push n [] vs))

/-- The elements that stand before a place are the first ones. -/
theorem filter_zipIdx_lt {α : Type} (xs : List α) (first stop : Nat) :
    ((xs.zipIdx first).filter fun p => p.2 < stop) =
      (xs.take (stop - first)).zipIdx first := by
  induction xs generalizing first with
  | nil => rw [List.take_nil, List.zipIdx_nil, List.filter_nil]
  | cons x xs ih =>
    rw [List.zipIdx_cons, List.filter_cons, ih]
    by_cases h : first < stop
    · obtain ⟨n, hn⟩ := Nat.exists_eq_add_of_lt h
      rw [if_pos (decide_eq_true h), show stop - first = n + 1 by omega,
        show stop - (first + 1) = n by omega, List.take_succ_cons, List.zipIdx_cons]
    · rw [if_neg (by simpa using h), Nat.sub_eq_zero_of_le (by omega),
        Nat.sub_eq_zero_of_le (by omega), List.take_zero, List.take_zero, List.zipIdx_nil,
        List.zipIdx_nil]

theorem fromEnd_eq (ps : Pulls) (k : Nat) (stop : Option Int64) : fromEnd ps k stop = (do
    let w ← trailing k ps
    pure (Pulls.ofList (w.1.take (stopAt w.2 stop - (w.2 - w.1.length))))) := by
  have hplaced : ∀ (window : List Value) (first stop : Nat),
      ((window.zipIdx first).filter fun p => p.2 < stop).map Prod.fst =
        window.take (stop - first) := fun window first stop => by
    rw [filter_zipIdx_lt, List.zipIdx_map_fst]
  exact congrArg (trailing k ps >>= ·) (funext fun w =>
    congrArg (fun vs => pure (Pulls.ofList vs)) (hplaced w.1 (w.2 - w.1.length) _))

theorem trailing_related (n : Nat) (h : ps.Related T qs) :
    Outcome.Related T Eq (trailing n ps).outcome (trailing n qs).outcome := by
  rw [outcome_trailing, outcome_trailing]
  refine (Outcome.Related.refl (reserve n)).bind_eq fun _ => ?_
  exact h.collect.bind_eq fun items => .ok rfl

theorem slice_related (start stop : Option Int64) (h : ps.Related T qs) :
    Outcome.Related T (Pulls.Related T) (slice ps start stop).outcome
      (slice qs start stop).outcome := by
  unfold slice
  dsimp only
  by_cases hs : start.getD 0 < 0
  · simp only [hs, if_true, fromEnd_eq, Run.outcome_bind, Run.outcome_pure]
    exact (trailing_related _ h).bind_eq fun _ => .ok (.refl _)
  · simp only [hs, if_false]
    have hskip : Pulls.Related T (ps.skip (start.getD 0).toInt.toNat)
        (qs.skip (start.getD 0).toInt.toNat) := by
      simpa only [Pulls.Related, Pulls.yields_skip] using Yields.Related.skip _ h
    cases stop with
    | none => exact .ok hskip
    | some stop =>
      dsimp only
      by_cases hp : 0 ≤ stop
      · simp only [hp, if_true, Run.outcome_pure]
        refine .ok ?_
        simpa only [Pulls.Related, Pulls.yields_take] using Yields.Related.take _ hskip
      · simp only [hp, if_false, Run.outcome_bind, Run.outcome_lift, Run.outcome_pure]
        refine (Outcome.Related.refl (reserve _)).bind_eq fun _ => .ok ?_
        simpa only [Pulls.Related, Pulls.yields_holdBack] using Yields.Related.holdBack _ [] hskip

theorem index_related (position : Int64) (h : ps.Related T qs) :
    Outcome.Related T Eq (index ps position).outcome (index qs position).outcome := by
  unfold index
  by_cases hp : 0 ≤ position
  · simp only [hp, if_true, Pulls.outcome_nth]
    exact h.nth position _ 0
  · simp only [hp, if_false, Run.outcome_bind]
    exact (trailing_related _ h).bind_eq fun _ => .refl _

end Window

namespace Evaluated

/-- What a sequence yields, none for a value that is no list. -/
def yields? : Evaluated → Option Yields
  | pulls ps => some ps.yields
  | value (.list vs) => some (Yields.ofList vs)
  | value _ => none

/-- Agreement of two evaluated nodes. -/
inductive Related (T : Tolerance) : Evaluated → Evaluated → Prop
  | value (v : Value) : Related T (value v) (value v)
  | sequence {e f : Evaluated} {xs ys : Yields} (he : e.yields? = some xs)
    (hf : f.yields? = some ys) (h : Yields.Related T xs ys) : Related T e f

theorem Related.refl (e : Evaluated) : e.Related T e := by
  cases e with
  | value v => exact .value v
  | pulls ps => exact .sequence rfl rfl (.refl _)

theorem outcome_toValue_of_yields {e : Evaluated} {xs : Yields} (h : e.yields? = some xs) :
    e.toValue.outcome = (Yields.collect xs).map Value.list := by
  rcases e with v | ps
  · cases v <;> cases h
    rw [Yields.collect_ofList]
    rfl
  · cases h
    simp only [toValue, Run.outcome_bind, Pulls.outcome_drain]
    cases Yields.collect ps.yields <;> rfl

theorem toPulls_of_yields {e : Evaluated} {xs : Yields} (h : e.yields? = some xs) :
    ∃ ps : Pulls, e.toPulls = pure ps ∧ ps.yields = xs := by
  rcases e with v | ps
  · cases v <;> cases h
    exact ⟨_, rfl, Pulls.yields_ofList _⟩
  · cases h
    exact ⟨ps, rfl, rfl⟩

theorem toSequence_of_yields {e : Evaluated} {xs : Yields} (h : e.yields? = some xs) :
    ∃ ps : Pulls, e.toSequence = pure ps ∧ ps.yields = xs := by
  obtain ⟨ps, hp, hxs⟩ := toPulls_of_yields h
  refine ⟨ps, ?_, hxs⟩
  rcases e with v | qs
  · cases v <;> cases h
    exact hp
  · exact hp

namespace Related

variable {e f : Evaluated}

theorem toValue (h : e.Related T f) :
    Outcome.Related T Eq e.toValue.outcome f.toValue.outcome := by
  cases h with
  | value v => exact .refl _
  | sequence he hf h =>
    rw [outcome_toValue_of_yields he, outcome_toValue_of_yields hf]
    exact h.collect.map fun _ _ hab => hab ▸ rfl

theorem toPulls (h : e.Related T f) :
    Outcome.Related T (Pulls.Related T) e.toPulls.outcome f.toPulls.outcome := by
  cases h with
  | value v => exact .self (fun _ => .refl _) _
  | sequence he hf h =>
    obtain ⟨ps, hp, rfl⟩ := toPulls_of_yields he
    obtain ⟨qs, hq, rfl⟩ := toPulls_of_yields hf
    rw [hp, hq]
    exact .ok h

theorem toSequence (h : e.Related T f) :
    Outcome.Related T (Pulls.Related T) e.toSequence.outcome f.toSequence.outcome := by
  cases h with
  | value v => exact .self (fun _ => .refl _) _
  | sequence he hf h =>
    obtain ⟨ps, hp, rfl⟩ := toSequence_of_yields he
    obtain ⟨qs, hq, rfl⟩ := toSequence_of_yields hf
    rw [hp, hq]
    exact .ok h

end Related

theorem slice_of_yields {e : Evaluated} {xs : Yields} (h : e.yields? = some xs)
    (start stop : Option Int64) :
    e.slice start stop = (do
      let ps ← e.toPulls
      pure (pulls (← Window.slice ps start stop))) := by
  rcases e with v | ps
  · cases v <;> cases h
    rfl
  · rfl

theorem aggregate_of_yields {e : Evaluated} {xs : Yields} (h : e.yields? = some xs)
    (op : AggregateOp) : e.aggregate op = (do Operator.aggregate op (← e.toPulls)) := by
  rcases e with v | ps
  · cases v <;> cases h
    cases op <;> rfl
  · cases op <;> rfl

theorem slice_related {e f : Evaluated} (start stop : Option Int64) (h : e.Related T f) :
    Outcome.Related T (Evaluated.Related T) (e.slice start stop).outcome
      (f.slice start stop).outcome := by
  cases h with
  | value v => exact .self (fun _ => .refl _) _
  | sequence he hf h =>
    rw [slice_of_yields he, slice_of_yields hf]
    simp only [Run.outcome_bind, Run.outcome_pure]
    refine (Related.toPulls (.sequence he hf h)).bind fun ps qs hpq => ?_
    exact (Window.slice_related start stop hpq).bind fun _ _ hab => .ok (.sequence rfl rfl hab)

end Evaluated

namespace Operator

variable {ps qs : Pulls}

theorem extreme_related (test : Ordering → Bool) (h : ps.Related T qs) :
    Outcome.Related T Eq (extreme test ps).outcome (extreme test qs).outcome := by
  simp only [extreme, Run.outcome_bind, Pulls.outcome_foldRun]
  refine (h.fold (R := Eq) ?_ rfl).bind_eq fun _ => .refl _
  rintro s _ v rfl
  exact .refl _

theorem aggregate_related (op : AggregateOp) (h : ps.Related T qs) :
    Outcome.Related T Eq (aggregate op ps).outcome (aggregate op qs).outcome := by
  cases op with
  | len =>
    simp only [aggregate, Run.outcome_bind, Pulls.outcome_foldRun]
    refine (h.fold (R := Eq) ?_ rfl).bind_eq fun _ => .refl _
    rintro s _ v rfl
    exact .refl _
  | sum =>
    simp only [aggregate, Pulls.outcome_foldAll]
    exact h.foldAll (.refl _)
  | min => exact extreme_related _ h
  | max => exact extreme_related _ h

end Operator

namespace Evaluated

theorem aggregate_related {e f : Evaluated} (op : AggregateOp) (h : e.Related T f) :
    Outcome.Related T Eq (e.aggregate op).outcome (f.aggregate op).outcome := by
  cases h with
  | value v => exact .refl _
  | sequence he hf h =>
    rw [aggregate_of_yields he, aggregate_of_yields hf]
    simp only [Run.outcome_bind]
    exact (Related.toPulls (.sequence he hf h)).bind fun _ _ hpq =>
      Operator.aggregate_related op hpq

/-- What `one` reports may name the subject differently. -/
def NamesPair (T : Tolerance) (s t : Term) : Prop :=
  T.pairs (.ofCause (.emptyResult s.oneContext)) (.ofCause (.emptyResult t.oneContext)) ∧
  T.pairs (.ofCause (.multipleResults s.oneContext)) (.ofCause (.multipleResults t.oneContext))

theorem next?_related {ps qs : Pulls} (h : ps.Related T qs) :
    Outcome.Related T
      (Option.Rel fun (a b : Value × Pulls) => a.1 = b.1 ∧ Pulls.Related T a.2 b.2)
      ps.next?.outcome qs.next?.outcome := by
  have hr := Yields.Related.next? h
  rw [← Pulls.outcome_next?, ← Pulls.outcome_next?] at hr
  revert hr
  generalize ps.next?.outcome = x
  generalize qs.next?.outcome = y
  intro hr
  rcases x with e | a <;> rcases y with f | b
  · cases hr with
    | error he => exact .error he
    | first he => exact .first he
    | second hf => exact .second hf
  · cases hr with
    | first he => exact .first he
  · cases hr with
    | second hf => exact .second hf
  · cases hr with
    | ok h =>
      refine .ok ?_
      rcases a with _ | a <;> rcases b with _ | b
      · exact .none
      · cases h
      · cases h
      · cases h with
        | some h => exact .some h

theorem one_related {e f : Evaluated} {s t : Term} {missing missing' : Run Value}
    (hnames : NamesPair T s t) (h : e.Related T f)
    (hm : Outcome.Related T Eq missing.outcome missing'.outcome) :
    Outcome.Related T Eq (e.one s missing).outcome (f.one t missing').outcome := by
  simp only [one, Run.outcome_bind]
  refine h.toSequence.bind fun ps qs hpq => ?_
  refine (next?_related hpq).bind fun a b hab => ?_
  cases hab with
  | none => exact hm
  | @some a b hab =>
    obtain ⟨v, rest⟩ := a
    obtain ⟨w, rest'⟩ := b
    obtain ⟨rfl, hrest⟩ := hab
    simp only [Run.outcome_bind]
    refine (next?_related hrest).bind fun a b hab => ?_
    cases hab with
    | none => exact .ok rfl
    | some _ => exact .error hnames.2

end Evaluated

end QueryPushdown
