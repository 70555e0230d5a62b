import QueryPushdown.Proofs.Eval.Agreement
import QueryPushdown.Proofs.Eval.Lockstep

/-!
# Evaluated nodes in lockstep

Windows and reductions of sequences in lockstep are in lockstep or alike, and so are those of
evaluated nodes, whether a list was drained or not.
-/

namespace QueryPushdown

variable {R : Value → Value → Prop}

/-- Two sequences in lockstep, whatever they read. -/
def Pulls.Lockstep (R : Value → Value → Prop) (ps qs : Pulls) : Prop :=
  Yields.Lockstep R ps.yields qs.yields

theorem Pulls.Lockstep.ofList {vs ws : List Value} (h : List.Forall₂ R vs ws) :
    Pulls.Lockstep R (Pulls.ofList vs) (Pulls.ofList ws) := by
  rw [Pulls.Lockstep, Pulls.yields_ofList, Pulls.yields_ofList]
  exact .ofList h

namespace Window

variable {ps qs : Pulls}

theorem trailing_lockstep (n : Nat) (h : ps.Lockstep R qs) :
    Outcome.Lockstep (fun a b => List.Forall₂ R a.1 b.1 ∧ a.2 = b.2) (trailing n ps).outcome
      (trailing n qs).outcome := by
  rw [outcome_trailing, outcome_trailing]
  refine (Outcome.Related.refl (reserve n)).bind_eq fun _ => ?_
  refine (Yields.Lockstep.collect h).bind fun vs ws hvs => .ok ?_
  rw [hvs.length_eq]
  exact ⟨List.forall₂_drop _ hvs, rfl⟩

theorem slice_lockstep (start stop : Option Int64) (h : ps.Lockstep R qs) :
    Outcome.Lockstep (Pulls.Lockstep R) (slice ps start stop).outcome
      (slice qs start stop).outcome := by
  unfold slice
  dsimp only
  by_cases hs : start.getD 0 < 0
  · simp only [hs, if_true, fromEnd_eq, Run.outcome_bind, Run.outcome_pure]
    refine (trailing_lockstep _ h).bind fun a b hab => .ok ?_
    rw [← hab.2, ← hab.1.length_eq]
    exact .ofList (List.forall₂_take _ hab.1)
  · simp only [hs, if_false]
    have hskip : Pulls.Lockstep R (ps.skip (start.getD 0).toInt.toNat)
        (qs.skip (start.getD 0).toInt.toNat) := by
      simpa only [Pulls.Lockstep, Pulls.yields_skip] using Yields.Lockstep.skip _ h
    cases stop with
    | none => exact .ok hskip
    | some stop =>
      dsimp only
      by_cases hp : 0 ≤ stop
      · simp only [hp, if_true, Run.outcome_pure]
        refine .ok ?_
        simpa only [Pulls.Lockstep, Pulls.yields_take] using Yields.Lockstep.take _ hskip
      · simp only [hp, if_false, Run.outcome_bind, Run.outcome_lift, Run.outcome_pure]
        refine (Outcome.Related.refl (reserve _)).bind_eq fun _ => .ok ?_
        simpa only [Pulls.Lockstep, Pulls.yields_holdBack] using
          Yields.Lockstep.holdBack _ .nil hskip

theorem index_lockstep (position : Int64) (h : ps.Lockstep R qs) :
    Outcome.Lockstep R (index ps position).outcome (index qs position).outcome := by
  unfold index
  by_cases hp : 0 ≤ position
  · simp only [hp, if_true, Pulls.outcome_nth]
    exact Yields.Lockstep.nth position _ 0 h
  · simp only [hp, if_false, Run.outcome_bind]
    refine (trailing_lockstep _ h).bind ?_
    rintro ⟨vs, n⟩ ⟨ws, _⟩ ⟨hvs, rfl⟩
    cases hvs with
    | nil => exact .error trivial
    | cons hvw hvs =>
      simp only [List.length_cons, hvs.length_eq]
      split
      · exact .error trivial
      · exact .ok hvw

end Window

namespace Operator

variable {ps qs : Pulls}

theorem extreme_lockstep (test : Ordering → Bool) (h : ps.Lockstep Value.Alike qs) :
    Outcome.Lockstep Value.Alike (extreme test ps).outcome (extreme test qs).outcome := by
  simp only [extreme, Run.outcome_bind, Pulls.outcome_foldRun]
  refine (Yields.Lockstep.fold h (P := Option.Rel Value.Alike) ?_ .none).bind fun best best' hb => ?_
  · rintro best best' v w hbest hvw
    change Outcome.Lockstep _ (better test best v) (better test best' w)
    cases hbest with
    | none => exact .ok (.some hvw)
    | some hcurrent =>
      simp only [better, hvw.compare?_eq hcurrent]
      refine (Outcome.Related.refl _).bind_eq fun o => ?_
      split
      · exact .ok (.some hvw)
      · exact .ok (.some hcurrent)
  · cases hb with
    | none => exact .ok .null
    | some hv => exact .ok hv

theorem aggregate_lockstep (op : AggregateOp) (h : ps.Lockstep Value.Alike qs) :
    Outcome.Lockstep Value.Alike (aggregate op ps).outcome (aggregate op qs).outcome := by
  cases op with
  | len =>
    simp only [aggregate, Run.outcome_bind, Pulls.outcome_foldRun]
    refine (Yields.Lockstep.fold h (P := Eq) ?_ rfl).bind_eq fun n => .ok (.int _)
    rintro n _ v w rfl -
    exact .ok rfl
  | sum =>
    simp only [aggregate, Pulls.outcome_foldAll]
    exact Yields.Lockstep.foldAll h (fun s t v w hst hvw => accumulate_alike hst hvw) (.ok (.int 0))
  | min => exact extreme_lockstep _ h
  | max => exact extreme_lockstep _ h

end Operator

namespace Evaluated

/-- Two evaluated nodes that are alike; a list may be a sequence that was not drained. -/
inductive Lockstep : Evaluated → Evaluated → Prop
  | value {v w : Value} (h : v.Alike w) : Lockstep (value v) (value w)
  | sequence {e f : Evaluated} {xs ys : Yields} (he : e.yields? = some xs)
    (hf : f.yields? = some ys) (h : Yields.Lockstep Value.Alike xs ys) : Lockstep e f

namespace Lockstep

variable {e f : Evaluated}

theorem pulls {ps qs : Pulls} (h : ps.Lockstep Value.Alike qs) :
    Lockstep (.pulls ps) (.pulls qs) := .sequence rfl rfl h

/-- Either both are sequences, or both are values that are alike and no lists. -/
theorem cases_sequence (h : e.Lockstep f) :
    (∃ xs ys, e.yields? = some xs ∧ f.yields? = some ys ∧ Yields.Lockstep Value.Alike xs ys) ∨
      ∃ v w, e = .value v ∧ f = .value w ∧ v.Alike w ∧ v.kind ≠ .list := by
  cases h with
  | @value v w h =>
    cases h with
    | list hlength hitems =>
      exact .inl ⟨_, _, rfl, rfl, .ofList (Value.alike_list.1 (.list hlength hitems))⟩
    | null => exact .inr ⟨_, _, rfl, rfl, .null, nofun⟩
    | bool b => exact .inr ⟨_, _, rfl, rfl, .bool b, nofun⟩
    | int i => exact .inr ⟨_, _, rfl, rfl, .int i, nofun⟩
    | float h => exact .inr ⟨_, _, rfl, rfl, .float h, nofun⟩
    | text s => exact .inr ⟨_, _, rfl, rfl, .text s, nofun⟩
    | mapping ha hb hhas h => exact .inr ⟨_, _, rfl, rfl, .mapping ha hb hhas h, nofun⟩
  | sequence he hf h => exact .inl ⟨_, _, he, hf, h⟩

theorem toValue (h : e.Lockstep f) :
    Outcome.Lockstep Value.Alike e.toValue.outcome f.toValue.outcome := by
  cases h with
  | value h => exact .ok h
  | sequence he hf h =>
    rw [outcome_toValue_of_yields he, outcome_toValue_of_yields hf]
    exact h.collect.map fun _ _ hvs => Value.alike_list.2 hvs

theorem toPulls (h : e.Lockstep f) :
    Outcome.Lockstep (Pulls.Lockstep Value.Alike) e.toPulls.outcome f.toPulls.outcome := by
  rcases h.cases_sequence with ⟨_, _, he, hf, h⟩ | ⟨v, w, rfl, rfl, hvw, hlist⟩
  · obtain ⟨ps, hp, rfl⟩ := toPulls_of_yields he
    obtain ⟨qs, hq, rfl⟩ := toPulls_of_yields hf
    rw [hp, hq]
    exact .ok h
  · cases hvw with
    | list _ _ => exact absurd rfl hlist
    | _ => exact .errors _ _

theorem characters_lockstep (s : String) : (characters s).Lockstep Value.Alike (characters s) := by
  have hchars : characters s =
      Pulls.ofList (s.toList.map fun c => .text (String.singleton c)) := by
    rw [characters, Pulls.ofList, List.map_map]
    rfl
  rw [hchars]
  refine .ofList (List.forall₂_same.2 fun v hv => ?_)
  obtain ⟨c, -, rfl⟩ := List.mem_map.1 hv
  exact .text _

theorem toSequence (h : e.Lockstep f) :
    Outcome.Lockstep (Pulls.Lockstep Value.Alike) e.toSequence.outcome f.toSequence.outcome := by
  rcases h.cases_sequence with ⟨_, _, he, hf, h⟩ | ⟨v, w, rfl, rfl, hvw, hlist⟩
  · obtain ⟨ps, hp, rfl⟩ := toSequence_of_yields he
    obtain ⟨qs, hq, rfl⟩ := toSequence_of_yields hf
    rw [hp, hq]
    exact .ok h
  · cases hvw with
    | text s => exact .ok (characters_lockstep s)
    | list _ _ => exact absurd rfl hlist
    | _ => exact .errors _ _

theorem slice (start stop : Option Int64) (h : e.Lockstep f) :
    Outcome.Lockstep Lockstep (e.slice start stop).outcome (f.slice start stop).outcome := by
  have hpulls := h.toPulls
  rcases h.cases_sequence with ⟨_, _, he, hf, h⟩ | ⟨v, w, rfl, rfl, hvw, hlist⟩
  · rw [slice_of_yields he, slice_of_yields hf]
    simp only [Run.outcome_bind, Run.outcome_pure]
    refine hpulls.bind fun ps qs hpq => ?_
    exact (Window.slice_lockstep start stop hpq).bind fun _ _ hab => .ok (.pulls hab)
  · cases hvw with
    | text s =>
      simp only [Evaluated.slice, Run.outcome_bind, Run.outcome_pure]
      refine (Outcome.Related.refl _).bind_eq fun window => ?_
      exact (Outcome.Related.refl _).bind_eq fun text => .ok (.value (.text text))
    | list _ _ => exact absurd rfl hlist
    | _ => exact .errors _ _

theorem aggregate (op : AggregateOp) (h : e.Lockstep f) :
    Outcome.Lockstep Value.Alike (e.aggregate op).outcome (f.aggregate op).outcome := by
  have hpulls := h.toPulls
  rcases h.cases_sequence with ⟨_, _, he, hf, h⟩ | ⟨v, w, rfl, rfl, hvw, hlist⟩
  · rw [aggregate_of_yields he, aggregate_of_yields hf]
    simp only [Run.outcome_bind]
    exact hpulls.bind fun _ _ hpq => Operator.aggregate_lockstep op hpq
  · cases hvw with
    | text s =>
      cases op with
      | len => exact .ok (.int _)
      | _ => exact .errors _ _
    | mapping ha hb hhas h =>
      cases op with
      | len =>
        simp only [Evaluated.aggregate, Fields.length_eq_of_has ha hb hhas]
        exact .ok (.int _)
      | _ => exact .errors _ _
    | list _ _ => exact absurd rfl hlist
    | _ => cases op <;> exact .errors _ _

theorem next? {ps qs : Pulls} (h : ps.Lockstep R qs) :
    Outcome.Lockstep (Option.Rel fun (a b : Value × Pulls) => R a.1 b.1 ∧ a.2.Lockstep R b.2)
      ps.next?.outcome qs.next?.outcome := by
  have hyields := Yields.Lockstep.next? h
  rw [← Pulls.outcome_next?, ← Pulls.outcome_next?] at hyields
  refine hyields.of_map fun a b hab => ?_
  cases a with
  | none =>
    cases b with
    | none => exact .none
    | some b => cases hab
  | some a =>
    cases b with
    | none => cases hab
    | some b =>
      cases hab with
      | some hab => exact .some hab

theorem one {s t : Term} {missing missing' : Run Value} (h : e.Lockstep f)
    (hm : Outcome.Lockstep Value.Alike missing.outcome missing'.outcome) :
    Outcome.Lockstep Value.Alike (e.one s missing).outcome (f.one t missing').outcome := by
  simp only [Evaluated.one, Run.outcome_bind]
  refine h.toSequence.bind fun ps qs hpq => ?_
  refine (next? hpq).bind fun a b hab => ?_
  cases hab with
  | none => exact hm
  | @some a b hab =>
    simp only [Run.outcome_bind]
    refine (next? hab.2).bind fun c d hcd => ?_
    cases hcd with
    | none => exact .ok hab.1
    | some _ => exact .error trivial

end Lockstep

end Evaluated

end QueryPushdown
