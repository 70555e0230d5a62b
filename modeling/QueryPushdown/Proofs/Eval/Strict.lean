import QueryPushdown.Proofs.Eval.Occurrences

/-!
# Strict evaluation

Strict evaluation makes a complete list of the subject of every step, and evaluates the operands of
the step for each element of it, before any later step runs. Evaluation pulls only what it needs, so
it may pass over the error of an element that nothing pulls, but whatever strict evaluation finds it
finds too. Windows that count from the end are the one exception: a list needs no buffer for them,
and the pulls do.
-/

namespace QueryPushdown

mutual

/-- Evaluates a term strictly. `reserve` tells whether a buffer can be had, which a bound from the
end asks for. -/
def Term.strict (reserve : Nat → Outcome Unit) (input : Input) (scope : Scope) :
    Term → Outcome Value
  | .source _ name => (input name).map Value.list
  | .literal _ value => .ok value
  | .context _ up => scope.read up
  | .record _ fields => do pure (.mapping (← strictFields reserve input scope fields))
  | .step _ subject action => do
    let w ← subject.strict reserve input scope
    action.strict reserve input scope subject.oneContext w

/-- What a step makes of the complete value of its subject. Connectives stop at an operand that
decides them, and a default is evaluated for an empty list only. -/
def Step.strict (reserve : Nat → Outcome Unit) (input : Input) (scope : Scope) (context : String)
    (w : Value) : Step → Outcome Value
  | .field name => w.field name
  | .unary op => Operator.unary op w
  | .binary .and rhs => do
    if ← w.toBool then pure (.bool (← (← rhs.strict reserve input scope).toBool))
    else pure (.bool false)
  | .binary .or rhs => do
    if ← w.toBool then pure (.bool true)
    else pure (.bool (← (← rhs.strict reserve input scope).toBool))
  | .binary op rhs => do Operator.binary op w (← rhs.strict reserve input scope)
  | .filter predicate => do
    let vs ← w.sequence
    let kept ← vs.filterM fun v => do (← predicate.strict reserve input (v :: scope)).toBool
    pure (.list kept)
  | .map transform => do
    let vs ← w.sequence
    pure (.list (← vs.mapM fun v => transform.strict reserve input (v :: scope)))
  | .sort keys => do
    let vs ← w.sequence
    let rows ← vs.mapM fun v => do
      pure (⟨← strictKeys reserve input (v :: scope) keys, v⟩ : Row)
    pure (.list (Sorting.rows rows (keys.map Prod.snd)))
  | .slice start stop => do
    reserve (Window.sliceBuffer start stop)
    w.slice start stop
  | .index position => do
    reserve (Window.indexBuffer position)
    Value.elementAt position (← w.sequence)
  | .groupby key aggregates => do
    let vs ← w.sequence
    let groups ← vs.foldlM (fun (groups : Groups) v => do
      pure (groups.insert (← key.strict reserve input (v :: scope)) v)) {}
    let members ← groups.groups.mapM fun (k, members) => do
      if aggregates.isEmpty then
        pure (Value.mapping [("key", k), ("group", .list members)])
      else
        let fields ← strictFields reserve input (.list members :: scope) aggregates
        pure (Value.mapping (Fields.extend [("key", k)] fields))
    pure (.list members)
  | .distinct => do pure (.list (Value.firsts (← w.sequence)))
  | .one => do
    Value.only context (.error (.ofCause (.emptyResult context))) (← w.sequence)
  | .oneOr default => do
    Value.only context (default.strict reserve input scope) (← w.sequence)
  | .aggregate op => w.aggregate op

def strictFields (reserve : Nat → Outcome Unit) (input : Input) (scope : Scope) :
    List (String × Term) → Outcome (List (String × Value))
  | [] => pure []
  | (name, t) :: rest => do
    let v ← t.strict reserve input scope
    pure ((name, v) :: (← strictFields reserve input scope rest))

def strictKeys (reserve : Nat → Outcome Unit) (input : Input) (scope : Scope) :
    List (Term × Bool) → Outcome (List Value)
  | [] => pure []
  | (t, _) :: rest => do
    let v ← t.strict reserve input scope
    pure (v :: (← strictKeys reserve input scope rest))

end

/-- What one outcome finds, the other one finds too. -/
abbrev Outcome.Within {α : Type} (x y : Outcome α) : Prop := Outcome.Related .lenient Eq x y

/-- A term that evaluates to all that strict evaluation finds, under every scope. -/
def Term.Follows (input : Input) (t : Term) : Prop :=
  ∀ scope, (t.strict Window.reserve input scope).Within (t.outcome input scope)

variable {input : Input} {scope : Scope}

theorem strictFields_within {fields : List (String × Term)}
    (h : ∀ f ∈ fields, f.2.Follows input) :
    (strictFields Window.reserve input scope fields).Within
      (evalFields input scope fields).outcome := by
  induction fields with
  | nil => exact .refl _
  | cons f rest ih =>
    obtain ⟨name, t⟩ := f
    obtain ⟨ht, hrest⟩ := List.forall_mem_cons.1 h
    rw [strictFields, Term.outcome_evalFields_cons]
    exact (ht scope).bind_eq fun v => (ih hrest).bind_eq fun vs => .refl _

theorem strictKeys_within {keys : List (Term × Bool)} (h : ∀ k ∈ keys, k.1.Follows input) :
    (strictKeys Window.reserve input scope keys).Within (evalKeys input scope keys).outcome := by
  induction keys with
  | nil => exact .refl _
  | cons k rest ih =>
    obtain ⟨t, descending⟩ := k
    obtain ⟨ht, hrest⟩ := List.forall_mem_cons.1 h
    rw [strictKeys, Term.outcome_evalKeys_cons]
    exact (ht scope).bind_eq fun v => (ih hrest).bind_eq fun vs => .refl _

namespace Step

variable {subject : Term} {w : Value}

/-- A step finds what it finds strictly, if its operands do. -/
theorem strict_within {action : Step} (h : ∀ c ∈ action.operands, c.1.Follows input) :
    (action.strict Window.reserve input scope subject.oneContext w).Within
      (action.outcome input scope subject w) := by
  cases action with
  | field name =>
    rw [outcome_field, strict]
    exact .refl _
  | unary op =>
    rw [outcome_unary, strict]
    exact .refl _
  | binary op rhs =>
    have hrhs : rhs.Follows input := h (rhs, 0) List.mem_cons_self
    cases op with
    | and =>
      rw [outcome_and, strict]
      refine (Outcome.Related.refl _).bind_eq fun b => ?_
      cases b with
      | false => exact .refl _
      | true => exact (hrhs scope).bind_eq fun v => .refl _
    | or =>
      rw [outcome_or, strict]
      refine (Outcome.Related.refl _).bind_eq fun b => ?_
      cases b with
      | false => exact (hrhs scope).bind_eq fun v => .refl _
      | true => exact .refl _
    | _ =>
      rw [outcome_binary (by decide) (by decide)]
      simp only [strict]
      exact (hrhs scope).bind_eq fun v => .refl _
  | filter predicate =>
    have hp : predicate.Follows input := h (predicate, 1) List.mem_cons_self
    rw [outcome_filter, strict]
    refine (Outcome.Related.refl _).bind_eq fun vs => ?_
    rw [Yields.filterM_eq, Yields.filterM_eq]
    refine (Yields.Related.keep (.refl _) fun v => ?_).collect.bind_eq fun kept => .refl _
    exact (hp (v :: scope)).bind_eq fun b => .refl _
  | map transform =>
    have ht : transform.Follows input := h (transform, 1) List.mem_cons_self
    rw [outcome_map, strict]
    refine (Outcome.Related.refl _).bind_eq fun vs => ?_
    refine (Outcome.Related.mapM fun v _ => ?_).bind_eq fun vs => .refl _
    exact ht (v :: scope)
  | sort keys =>
    have hkeys : ∀ k ∈ keys, k.1.Follows input := fun k hk =>
      h (k.1, 1) (List.mem_map.2 ⟨k, hk, rfl⟩)
    rw [outcome_sort, strict]
    refine (Outcome.Related.refl _).bind_eq fun vs => ?_
    refine (Outcome.Related.mapM fun v _ => ?_).bind_eq fun rows => .refl _
    exact (strictKeys_within hkeys).bind_eq fun ks => .refl _
  | slice start stop =>
    rw [strict]
    refine .of_ok fun v hv => ?_
    obtain ⟨⟨⟩, hroom, hv⟩ := Outcome.bind_eq_ok.1 hv
    exact ⟨v, by rw [outcome_slice hroom, hv], rfl⟩
  | index position =>
    rw [strict]
    refine .of_ok fun v hv => ?_
    obtain ⟨⟨⟩, hroom, hv⟩ := Outcome.bind_eq_ok.1 hv
    exact ⟨v, by rw [outcome_index hroom, hv], rfl⟩
  | groupby key aggregates =>
    have hkey : key.Follows input := h (key, 1) List.mem_cons_self
    have hfields : ∀ f ∈ aggregates, f.2.Follows input := fun f hf =>
      h (f.2, 1) (List.mem_cons_of_mem _ (List.mem_map.2 ⟨f, hf, rfl⟩))
    rw [outcome_groupby, strict]
    refine (Outcome.Related.refl _).bind_eq fun vs => ?_
    -- The groups are the same on both sides, so their members are reduced alike.
    rw [← Yields.fold_eq_foldlM, ← Yields.fold_eq_foldlM]
    refine (Yields.Related.fold (R := Eq) (.refl _) ?_ rfl).bind_eq fun groups => ?_
    · rintro groups _ v rfl
      exact (hkey (v :: scope)).bind_eq fun k => .refl _
    · refine (Outcome.Related.mapM fun group _ => ?_).bind_eq fun members => .refl _
      dsimp only
      split
      · exact .refl _
      · exact (strictFields_within hfields).bind_eq fun fields => .refl _
  | distinct =>
    simp only [outcome_distinct, strict, Seen.fresh_eq_firsts]
    exact .refl _
  | one =>
    rw [outcome_one, strict]
    exact .refl _
  | oneOr default =>
    have hd : default.Follows input := h (default, 0) List.mem_cons_self
    rw [outcome_oneOr, strict]
    refine (Outcome.Related.refl _).bind_eq fun vs => ?_
    rcases vs with - | ⟨v, - | ⟨u, vs⟩⟩
    · exact hd scope
    · exact .refl _
    · exact .refl _
  | aggregate op =>
    rw [outcome_aggregate, strict]
    exact .refl _

end Step

namespace Term

/-- Evaluation finds whatever strict evaluation finds. -/
theorem follows (t : Term) : t.Follows input := by
  induction t using children_induction with
  | h t ih =>
    intro scope
    cases t with
    | source id name =>
      rw [strict, outcome_eq, eval, Evaluated.drained (input.scan name)]
      exact .refl _
    | literal id value =>
      rw [strict]
      exact .refl _
    | context id up =>
      rw [strict, outcome_eq, eval]
      exact (Evaluated.drained (.ofOutcome (scope.read up))).symm ▸ .refl _
    | record id fields =>
      rw [strict, outcome_record]
      exact (strictFields_within fun f hf =>
        ih (f.2, 0) (List.mem_map.2 ⟨f, hf, rfl⟩)).bind_eq fun fs => .refl _
    | step id subject action =>
      rw [strict]
      refine .of_ok fun v hv => ?_
      obtain ⟨w, hw, hv⟩ := Outcome.bind_eq_ok.1 hv
      have hsubject := ih (subject, 0) List.mem_cons_self scope
      rw [hw] at hsubject
      obtain ⟨_, hw, rfl⟩ := hsubject.ok_of_lenient
      have haction : (action.strict Window.reserve input scope subject.oneContext w).Within
          (action.outcome input scope subject w) :=
        Step.strict_within fun c hc => ih c (List.mem_cons_of_mem _ hc)
      rw [hv] at haction
      obtain ⟨_, hv, rfl⟩ := haction.ok_of_lenient
      exact ⟨v, by rw [outcome_step action hw]; exact hv, rfl⟩

end Term

namespace Request

/-- Evaluation finds whatever strict evaluation finds while it can reserve its buffers. -/
theorem eval_of_strict {r : Request} {v : Value}
    (h : r.root.strict Window.reserve input scope = .ok v) : r.eval input scope = .ok v := by
  have hroot : (r.root.strict Window.reserve input scope).Within (r.root.outcome input scope) :=
    r.root.follows scope
  rw [h] at hroot
  obtain ⟨_, hv, rfl⟩ := hroot.ok_of_lenient
  exact hv

/-- The last of the distinct weights above one. -/
def lastHeavy : Request :=
  let weight := (Request.context 0).wrap (.field "weight")
  let heavy := weight.combine (.literal (.int 1)) (.binary .gt)
  ((((Request.source "parts").combine heavy .filter).combine weight .map).wrap .distinct).wrap
    (.slice (some (-1)) none)

theorem lastHeavy_eval_of_strict :
    let weighing (i : Int64) : Value := .mapping [("weight", .int i)]
    let input := Input.ofFields [("parts", [weighing 3, weighing 1, weighing 2, weighing 3])]
    lastHeavy.root.strict Window.reserve input [] = .ok (.list [.int 2]) ∧
      lastHeavy.eval input [] = .ok (.list [.int 2]) :=
  ⟨rfl, eval_of_strict rfl⟩

/-- What comes before the place `2 ^ 63` from the end. -/
def farBefore : Request :=
  (Request.literal (.list [.int 1])).wrap (.slice none (some Int64.minValue))

/-- The list has no element that far from its end, and the buffer for the elements in between
cannot be reserved. -/
theorem farBefore_crashes :
    farBefore.root.strict (fun _ => .ok ()) .empty [] = .ok (.list []) ∧
      farBefore.eval .empty [] = .error (.ofCause (.crashed .capacityOverflow)) :=
  ⟨rfl, rfl⟩

end Request

end QueryPushdown
