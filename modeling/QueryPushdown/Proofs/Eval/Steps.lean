import QueryPushdown.Proofs.Eval.Draining

/-!
# Steps over values

A step acts on the value of its subject, whether the subject was drained or not, as long as it has
one. On a list, every step whose operands can be evaluated gives what the step does to lists.
-/

namespace QueryPushdown

/-- No error makes up for another. -/
def Tolerance.strict : Tolerance where
  pairs e f := e = f
  first _ := False
  second _ := False
  pairs_refl _ := rfl

theorem Outcome.Related.eq_of_strict {α : Type} {x y : Outcome α}
    (h : Outcome.Related .strict Eq x y) : x = y := by
  cases h with
  | ok h => rw [h]
  | error h => exact congrArg Except.error h
  | first h => exact h.elim
  | second h => exact h.elim

theorem Evaluated.Related.of_toValue {T : Tolerance} {e : Evaluated} {w : Value}
    (h : e.toValue.outcome = .ok w) : e.Related T (.value w) := by
  cases e with
  | value v =>
    cases h
    exact .value _
  | pulls ps =>
    rw [outcome_toValue_of_yields rfl] at h
    cases hc : Yields.collect ps.yields with
    | error e =>
      rw [hc] at h
      cases h
    | ok vs =>
      rw [hc] at h
      cases h
      exact .sequence rfl rfl (Yields.eq_ofList_of_collect hc ▸ .refl _)

theorem Outcome.mapM_eq_map {α β : Type} {f : α → Outcome β} {g : α → β} {xs : List α}
    (h : ∀ x ∈ xs, f x = .ok (g x)) : xs.mapM f = .ok (xs.map g) := by
  induction xs with
  | nil => rfl
  | cons x xs ih =>
    obtain ⟨hx, hxs⟩ := List.forall_mem_cons.1 h
    rw [List.mapM_cons, hx, ih hxs]
    rfl

/-- The element of a list at a position counted from the front. -/
def Value.nth (position : Int64) (vs : List Value) : Outcome Value :=
  match vs[position.toInt.toNat]? with
  | some v => .ok v
  | none => .error (.ofCause (.indexOutOfRange position.toInt vs.length))

/-- The elements of a list from `start` up to `stop`, both counted from the front. -/
def Window.between (start stop : Option Int64) (vs : List Value) : List Value :=
  let rest := vs.drop (start.getD 0).toInt.toNat
  match stop with
  | some stop => rest.take (stop.toInt.toNat - (start.getD 0).toInt.toNat)
  | none => rest

/-- Bounds from the front need no buffer. -/
theorem Window.sliceBuffer_of_isForward {start stop : Option Int64}
    (hforward : Step.isForward start stop = true) : sliceBuffer start stop = 0 := by
  unfold sliceBuffer
  rw [if_neg (Int64.not_lt.2 (Step.start_nonneg hforward))]
  cases stop with
  | none => rfl
  | some stop => exact if_pos (Step.stop_nonneg hforward stop rfl)

theorem Window.sublist_of_isForward {start stop : Option Int64}
    (hforward : Step.isForward start stop = true) (vs : List Value) :
    sublist start stop vs = between start stop vs := by
  rw [sublist, place_of_nonneg (Step.start_nonneg hforward)]
  cases stop with
  | none =>
    rw [Option.map_none, Option.getD_none, List.take_length]
    rfl
  | some stop =>
    rw [Option.map_some, Option.getD_some, place_of_nonneg (Step.stop_nonneg hforward stop rfl),
      List.drop_take]
    rfl

theorem Window.mem_between {start stop : Option Int64} {vs : List Value} {v : Value}
    (h : v ∈ between start stop vs) : v ∈ vs := by
  unfold between at h
  split at h
  · exact List.mem_of_mem_drop (List.mem_of_mem_take h)
  · exact List.mem_of_mem_drop h

theorem Window.map_between {start stop : Option Int64} (f : Value → Value) (vs : List Value) :
    between start stop (vs.map f) = (between start stop vs).map f := by
  unfold between
  cases stop with
  | none => rw [List.map_drop]
  | some stop => rw [List.map_take, List.map_drop]

namespace Step

variable {input : Input} {scope : Scope} {subject : Term}

/-- It makes no difference to a step whether its subject was drained. -/
theorem outcome_of_toValue {e : Evaluated} {w : Value} (action : Step)
    (he : e.toValue.outcome = .ok w) :
    ((action.act input scope subject e).outcome >>= fun e => e.toValue.outcome) =
      action.outcome input scope subject w := by
  have hact : Outcome.Related .strict (Evaluated.Related .strict)
      (action.act input scope subject e).outcome (action.act input scope subject (.value w)).outcome :=
    Step.act_related ⟨rfl, rfl⟩ (.of_toValue he) (.refl fun c _ => .refl c.2 c.1)
  exact (hact.bind fun _ _ hef => hef.toValue).eq_of_strict

/-- A slice from the front evaluates to the part of the list. -/
theorem outcome_slice_forward {start stop : Option Int64} (hforward : isForward start stop = true)
    (vs : List Value) : (slice start stop).outcome input scope subject (.list vs) =
      .ok (.list (Window.between start stop vs)) := by
  rw [outcome_slice (by rw [Window.sliceBuffer_of_isForward hforward]; rfl),
    ← Window.sublist_of_isForward hforward]
  rfl

theorem outcome_index_forward {position : Int64} (h : 0 ≤ position) (vs : List Value) :
    (index position).outcome input scope subject (.list vs) = Value.nth position vs := by
  have hbuffer : Window.indexBuffer position = 0 := if_pos h
  have hnat : 0 ≤ position.toInt := Int64.le_iff_toInt_le.1 h
  rw [outcome_index (by rw [hbuffer]; rfl)]
  change Value.elementAt position vs = _
  rw [Value.elementAt, Value.nth, if_pos h]
  cases vs[position.toInt.toNat]? with
  | none => simp only [if_pos hnat]
  | some v => simp only [if_pos hnat]

end Step

namespace Term

variable {input : Input} {scope : Scope} {id : Nat} {subject : Term} {vs : List Value}

/-- A step acts on the value of its subject. -/
theorem outcome_step {w : Value} (action : Step) (h : subject.outcome input scope = .ok w) :
    (step id subject action).outcome input scope = action.outcome input scope subject w := by
  obtain ⟨e, he, hw⟩ := eval_of_outcome h
  rw [outcome_eq, eval, Run.outcome_bind, he]
  exact Step.outcome_of_toValue action hw

section Lists

variable (hs : subject.outcome input scope = .ok (.list vs))

include hs

theorem outcome_filter_list {predicate : Term} {p : Value → Bool}
    (hp : ∀ v ∈ vs, predicate.outcome input (v :: scope) = .ok (.bool (p v))) :
    (step id subject (.filter predicate)).outcome input scope = .ok (.list (vs.filter p)) := by
  have hkept : vs.filterM (fun v => do (← predicate.outcome input (v :: scope)).toBool) =
      .ok (vs.filter p) := by
    rw [Yields.filterM_eq, Yields.keep_ofList fun v hv => ?_, Yields.collect_ofList]
    rw [hp v hv]
    rfl
  rw [outcome_step _ hs, Step.outcome_filter]
  exact congrArg (fun kept : Outcome (List Value) => (do
    pure (.list (← kept)) : Outcome Value)) hkept

theorem outcome_map_list {transform : Term} {f : Value → Value}
    (hf : ∀ v ∈ vs, transform.outcome input (v :: scope) = .ok (f v)) :
    (step id subject (.map transform)).outcome input scope = .ok (.list (vs.map f)) := by
  rw [outcome_step _ hs, Step.outcome_map]
  exact congrArg (fun made : Outcome (List Value) => (do
    pure (.list (← made)) : Outcome Value)) (Outcome.mapM_eq_map hf)

theorem outcome_sort_list {keys : List (Term × Bool)} {ks : Value → List Value}
    (hk : ∀ v ∈ vs, (evalKeys input (v :: scope) keys).outcome = .ok (ks v)) :
    (step id subject (.sort keys)).outcome input scope =
      .ok (.list (Sorting.rows (vs.map fun v => ⟨ks v, v⟩) (keys.map Prod.snd))) := by
  have hrows : (vs.mapM fun v => do
      pure (⟨← (evalKeys input (v :: scope) keys).outcome, v⟩ : Row)) =
      .ok (vs.map fun v => ⟨ks v, v⟩) := Outcome.mapM_eq_map fun v hv => by
    rw [hk v hv]
    rfl
  rw [outcome_step _ hs, Step.outcome_sort]
  exact congrArg (fun rows : Outcome (List Row) => (do
    pure (.list (Sorting.rows (← rows) (keys.map Prod.snd))) : Outcome Value)) hrows

theorem outcome_slice_list {start stop : Option Int64} (hforward : Step.isForward start stop = true) :
    (step id subject (.slice start stop)).outcome input scope =
      .ok (.list (Window.between start stop vs)) :=
  (outcome_step _ hs).trans (Step.outcome_slice_forward hforward vs)

theorem outcome_distinct_list :
    (step id subject .distinct).outcome input scope = .ok (.list (Seen.fresh {} vs)) := by
  rw [outcome_step _ hs, Step.outcome_distinct]
  rfl

theorem outcome_one_list : (step id subject .one).outcome input scope =
    Value.only subject.oneContext (.error (.ofCause (.emptyResult subject.oneContext))) vs := by
  rw [outcome_step _ hs, Step.outcome_one]
  rfl

theorem outcome_oneOr_list {default : Term} : (step id subject (.oneOr default)).outcome input scope =
    Value.only subject.oneContext (default.outcome input scope) vs := by
  rw [outcome_step _ hs, Step.outcome_oneOr]
  rfl

theorem outcome_len_list : (step id subject (.aggregate .len)).outcome input scope =
    .ok (.int (Int64.ofNat vs.length)) := by
  rw [outcome_step _ hs, Step.outcome_aggregate]
  rfl

theorem outcome_index_list {position : Int64} (h : 0 ≤ position) :
    (step id subject (.index position)).outcome input scope =
      Value.nth position vs := (outcome_step _ hs).trans (Step.outcome_index_forward h vs)

end Lists

end Term

end QueryPushdown
