import QueryPushdown.Proofs.Eval.Congruence
import QueryPushdown.Proofs.Eval.Ends
import QueryPushdown.Proofs.Eval.Meeting
import QueryPushdown.Proofs.Request.Arenas

/-!
# Evaluation without crashes

Operators fail with errors about their operands. What can crash in an evaluation are the windows,
which reserve buffers as large as their bounds ask for.
-/

namespace QueryPushdown

/-- An error that is an answer. -/
def Error.IsCalm (e : Error) : Prop := e.kind ≠ .crashed

/-- A value or an error that is an answer. -/
abbrev Outcome.Calm {α : Type} (x : Outcome α) : Prop :=
  Outcome.Meets Error.IsCalm (fun _ => True) x

/-- A sequence that yields values and errors that are answers. -/
abbrev Pulls.Calm (ps : Pulls) : Prop := Yields.Meets Error.IsCalm (fun _ => True) ps.yields

namespace Error

theorem invalid_calm (why : Invalid) : (invalid why).IsCalm := fun h => by cases h

theorem fault_calm (why : Fault) : (fault why).IsCalm := fun h => by cases h

theorem emptyResult_calm (context : String) : (ofCause (.emptyResult context)).IsCalm :=
  fun h => by cases h

theorem multipleResults_calm (context : String) : (ofCause (.multipleResults context)).IsCalm :=
  fun h => by cases h

theorem indexOutOfRange_calm (position : Int) (length : Nat) :
    (ofCause (.indexOutOfRange position length)).IsCalm := fun h => by cases h

end Error

namespace Outcome.Calm

variable {α β : Type}

theorem fault (why : Fault) : Outcome.Calm (.error (.fault why) : Outcome α) := Error.fault_calm why

theorem bind {x : Outcome α} {f : α → Outcome β} (hx : x.Calm) (hf : ∀ a, (f a).Calm) :
    (x >>= f).Calm := Outcome.Meets.bind hx fun a _ => hf a

theorem iff {x : Outcome α} : x.Calm ↔ ∀ e, x = .error e → e.kind ≠ .crashed := by
  cases x with
  | ok a => simp [Outcome.Calm, Outcome.Meets]
  | error e => simp [Outcome.Calm, Outcome.Meets, Error.IsCalm]

end Outcome.Calm

open Outcome (Calm)

namespace Value

theorem toBool_calm (v : Value) : v.toBool.Calm := by
  cases v with
  | bool b => trivial
  | _ => exact .fault _

theorem field_calm (v : Value) (name : String) : (v.field name).Calm := by
  cases v with
  | mapping fields =>
    rw [field]
    split
    · trivial
    · exact .fault _
  | _ => exact .fault _

theorem compare?_calm (a b : Value) : (a.compare? b).Calm :=
  compare?_meets (fun _ _ => Error.fault_calm _) (Error.fault_calm _) a b

end Value

namespace Operator

theorem unary_calm (op : UnaryOp) (v : Value) : (unary op v).Calm := by
  unfold unary
  split
  · trivial
  · split
    · trivial
    · exact .fault _
  · trivial
  · exact .fault _

theorem arithmetic_calm (op : BinaryOp) (exactly : Int → Int → Int)
    (rounded : Binary64 → Binary64 → Binary64) (a b : Value) :
    (arithmetic op exactly rounded a b).Calm := by
  unfold arithmetic
  split
  · split
    · trivial
    · exact .fault _
  · split
    · trivial
    · exact .fault _

theorem add_calm (a b : Value) : (add a b).Calm := by
  unfold add
  split
  · trivial
  · trivial
  · trivial
  · exact arithmetic_calm _ _ _ a b

theorem divide_calm (a b : Value) : (divide a b).Calm := by
  unfold divide
  split
  · split
    · exact .fault _
    · trivial
  · exact .fault _

theorem matching_calm (text pattern : String) : (matching text pattern).Calm := by
  unfold matching
  split
  · trivial
  · exact .fault _
  · exact .fault _

theorem binary_calm (op : BinaryOp) (a b : Value) : (binary op a b).Calm := by
  have hordered : ∀ test : Ordering → Bool,
      (do pure (.bool (test (← a.compare? b))) : Outcome Value).Calm := fun test =>
    (a.compare?_calm b).bind fun _ => trivial
  cases op with
  | eq | ne => trivial
  | ge | gt | le | lt => exact hordered _
  | add => exact add_calm a b
  | sub | mul => exact arithmetic_calm _ _ _ a b
  | div => exact divide_calm a b
  | and | or => exact a.toBool_calm.bind fun _ => b.toBool_calm.bind fun _ => trivial
  | matching =>
    unfold binary
    dsimp only
    split
    · exact (matching_calm _ _).bind fun _ => trivial
    · exact .fault _

theorem accumulate_calm (sum v : Value) : (accumulate sum v).Calm := by
  unfold accumulate
  split
  · exact arithmetic_calm _ _ _ sum v
  · exact .fault _

theorem better_calm (test : Ordering → Bool) (best : Option Value) (v : Value) :
    (better test best v).Calm := by
  cases best with
  | none => trivial
  | some current =>
    refine (v.compare?_calm current).bind fun o => ?_
    split <;> trivial

/-- A reduction fails as its sequence does, or for the sake of an element. -/
theorem aggregate_calm (op : AggregateOp) {ps : Pulls} (h : ps.Calm) :
    (aggregate op ps).outcome.Calm := by
  have hextreme : ∀ test, (extreme test ps).outcome.Calm := by
    intro test
    rw [extreme, Run.outcome_bind, Pulls.outcome_foldRun]
    exact (h.fold (fun best v _ _ => better_calm test best v) trivial).bind fun _ _ => trivial
  cases op with
  | len =>
    rw [aggregate, Run.outcome_bind, Pulls.outcome_foldRun]
    have hlen := h.fold (I := fun _ : Nat => True) (f := fun n _ => .ok (n + 1)) (s := 0)
      (fun _ _ _ _ => trivial) trivial
    exact hlen.bind fun _ _ => trivial
  | sum =>
    rw [aggregate, Pulls.outcome_foldAll]
    exact h.foldAll (fun s v _ _ => accumulate_calm s v) trivial
  | min | max => exact hextreme _

end Operator

/-- A value, or a sequence that yields values and errors that are answers. -/
def Evaluated.Calm : Evaluated → Prop
  | value _ => True
  | pulls ps => ps.Calm

namespace Pulls.Calm

variable {ps : Pulls}

theorem ofList (vs : List Value) : (Pulls.ofList vs).Calm := by
  change Yields.Meets _ _ (Pulls.ofList vs).yields
  rw [Pulls.yields_ofList]
  exact .ofList fun v _ => trivial

theorem drain (h : ps.Calm) : ps.drain.outcome.Calm := by
  rw [Pulls.outcome_drain]
  exact h.collect.mono fun _ _ => trivial

end Pulls.Calm

namespace Window

variable {ps : Pulls} {n : Nat}

theorem reserve_calm_iff : (reserve n).Calm ↔ n * elementBytes < 2 ^ 63 := by
  unfold reserve
  split
  · exact iff_of_true trivial ‹_›
  · exact iff_of_false (fun h => h rfl) ‹_›

private theorem exists_reserve_error (h : ¬ n * elementBytes < 2 ^ 63) :
    ∃ e, reserve n = .error e ∧ ¬ e.IsCalm :=
  ⟨_, if_neg h, fun hcalm => hcalm rfl⟩

/-- Whatever it is a slice of, all that can make it crash is its buffer. -/
theorem slice_calm_iff (h : ps.Calm) (start stop : Option Int64) :
    Outcome.Meets Error.IsCalm Pulls.Calm (slice ps start stop).outcome ↔
      sliceBuffer start stop * elementBytes < 2 ^ 63 := by
  constructor
  · intro hslice
    by_contra hroom
    obtain ⟨e, he, hcrash⟩ := exists_reserve_error hroom
    rw [slice_eq_error he ps] at hslice
    exact hcrash hslice
  · intro hroom
    exact slice_meets (reserve_calm_iff.2 hroom) h

theorem index_calm_iff (h : ps.Calm) (position : Int64) :
    (index ps position).outcome.Calm ↔ indexBuffer position * elementBytes < 2 ^ 63 := by
  constructor
  · intro hindex
    by_contra hroom
    obtain ⟨e, he, hcrash⟩ := exists_reserve_error hroom
    rw [index_eq_error he ps] at hindex
    exact hcrash hindex
  · intro hroom
    exact index_meets Error.indexOutOfRange_calm (reserve_calm_iff.2 hroom) h

end Window

namespace Evaluated.Calm

variable {e : Evaluated}

theorem toValue (h : e.Calm) : e.toValue.outcome.Calm := by
  cases e with
  | value v => trivial
  | pulls ps =>
    rw [Evaluated.toValue, Run.outcome_bind]
    exact Outcome.Calm.bind (Pulls.Calm.drain h) fun _ => trivial

theorem toPulls (h : e.Calm) : Outcome.Meets Error.IsCalm Pulls.Calm e.toPulls.outcome := by
  cases e with
  | pulls ps => exact h
  | value v =>
    cases v with
    | list vs => exact .ofList vs
    | _ => exact Error.fault_calm _

theorem toSequence (h : e.Calm) : Outcome.Meets Error.IsCalm Pulls.Calm e.toSequence.outcome := by
  have hps := h.toPulls
  cases e with
  | pulls ps => exact hps
  | value v =>
    cases v with
    | text s => exact Evaluated.characters_meets (fun _ => trivial) s
    | _ => exact hps

theorem slice {start stop : Option Int64} (h : e.Calm)
    (hroom : Window.sliceBuffer start stop * Window.elementBytes < 2 ^ 63) :
    Outcome.Meets Error.IsCalm Evaluated.Calm (e.slice start stop).outcome := by
  have hlist : Outcome.Meets Error.IsCalm Evaluated.Calm
      (do pure (Evaluated.pulls (← Window.slice (← e.toPulls) start stop)) :
        Run Evaluated).outcome := by
    rw [Run.outcome_bind]
    refine h.toPulls.bind fun ps hps => ?_
    rw [Run.outcome_bind]
    exact ((Window.slice_calm_iff hps start stop).2 hroom).bind fun qs hqs => hqs
  cases e with
  | pulls ps => exact hlist
  | value v =>
    cases v with
    | text s =>
      rw [Evaluated.slice, Run.outcome_bind]
      have hs : Pulls.Calm (characters s) := characters_meets (fun _ => trivial) s
      refine ((Window.slice_calm_iff hs start stop).2 hroom).bind fun qs hqs => ?_
      rw [Run.outcome_bind]
      exact Outcome.Meets.bind (joined_meets hqs) fun _ _ => trivial
    | _ => exact hlist

theorem one {missing : Run Value} (h : e.Calm) (subject : Term) (hm : missing.outcome.Calm) :
    (e.one subject missing).outcome.Calm := by
  rw [Evaluated.one, Run.outcome_bind]
  refine h.toSequence.bind fun ps hps => ?_
  rw [Run.outcome_bind]
  refine (Pulls.next?_meets hps).bind fun o ho => ?_
  cases o with
  | none => exact hm
  | some first =>
    obtain ⟨v, rest⟩ := first
    dsimp only
    rw [Run.outcome_bind]
    refine (Pulls.next?_meets (ho v rest rfl).2).bind fun o _ => ?_
    cases o with
    | none => trivial
    | some _ => exact Error.multipleResults_calm _

theorem aggregate (h : e.Calm) (op : AggregateOp) : (e.aggregate op).outcome.Calm := by
  have hps : (do Operator.aggregate op (← e.toPulls) : Run Value).outcome.Calm := by
    rw [Run.outcome_bind]
    exact h.toPulls.bind fun ps hps => Operator.aggregate_calm op hps
  cases e with
  | pulls ps => cases op <;> exact hps
  | value v => cases v <;> cases op <;> first | exact hps | trivial

end Evaluated.Calm

/-- How many elements the buffer of a step is to hold. -/
def Step.buffer : Step → Nat
  | slice start stop => Window.sliceBuffer start stop
  | index position => Window.indexBuffer position
  | _ => 0

/-- The buffer of a node can be reserved. -/
def Term.BufferFits : Term → Prop
  | step _ _ action => action.buffer * Window.elementBytes < 2 ^ 63
  | _ => True

instance : DecidablePred Term.BufferFits
  | .step _ _ action => inferInstanceAs (Decidable (action.buffer * Window.elementBytes < 2 ^ 63))
  | .source _ _ | .literal _ _ | .context _ _ | .record _ _ => isTrue trivial

variable {input : Input} {scope : Scope}

/-- In no scope does a term crash. -/
def Term.Calm (input : Input) (t : Term) : Prop :=
  ∀ scope : Scope, Outcome.Meets Error.IsCalm Evaluated.Calm (t.eval input scope).outcome

theorem Term.Calm.outcome {t : Term} (h : t.Calm input) (scope : Scope) :
    (t.outcome input scope).Calm := by
  rw [Term.outcome_eq]
  exact (h scope).bind fun e he => he.toValue

theorem evalFields_calm {fields : List (String × Term)} (h : ∀ f ∈ fields, f.2.Calm input) :
    (evalFields input scope fields).outcome.Calm := by
  induction fields with
  | nil => trivial
  | cons field rest ih =>
    obtain ⟨name, t⟩ := field
    obtain ⟨ht, hrest⟩ := List.forall_mem_cons.1 h
    rw [evalFields, Term.outcome_operand]
    refine (ht.outcome scope).bind fun v => ?_
    rw [Run.outcome_bind]
    exact (ih hrest).bind fun _ => trivial

theorem evalKeys_calm {keys : List (Term × Bool)} (h : ∀ k ∈ keys, k.1.Calm input) :
    (evalKeys input scope keys).outcome.Calm := by
  induction keys with
  | nil => trivial
  | cons key rest ih =>
    obtain ⟨t, descending⟩ := key
    obtain ⟨ht, hrest⟩ := List.forall_mem_cons.1 h
    rw [evalKeys, Term.outcome_operand]
    refine (ht.outcome scope).bind fun v => ?_
    rw [Run.outcome_bind]
    exact (ih hrest).bind fun _ => trivial

namespace Step

variable {subject : Term} {e : Evaluated}

/-- A computed value is not a sequence that could still crash. -/
private theorem valued {x : Run Value} (h : x.outcome.Calm) :
    Outcome.Meets Error.IsCalm Evaluated.Calm (do pure (.value (← x)) : Run Evaluated).outcome := by
  rw [Run.outcome_bind]
  exact Outcome.Meets.bind h fun _ _ => trivial

private theorem binary_act_calm {op : BinaryOp} {rhs : Term} (he : e.Calm) (ht : rhs.Calm input) :
    Outcome.Meets Error.IsCalm Evaluated.Calm
      ((Step.binary op rhs).act input scope subject e).outcome := by
  cases op with
  | and | or =>
    simp only [act]
    rw [Run.outcome_bind]
    refine Outcome.Meets.bind he.toValue fun v _ => ?_
    rw [Run.outcome_bind]
    refine Outcome.Meets.bind v.toBool_calm fun b _ => ?_
    cases b with
    | true | false =>
      simp only [if_true, if_false, Bool.false_eq_true]
      first
        | exact trivial
        | rw [Term.outcome_operand]
          refine Outcome.Meets.bind (ht.outcome scope) fun w _ => ?_
          rw [Run.outcome_bind]
          exact Outcome.Meets.bind w.toBool_calm fun _ _ => trivial
  | _ =>
    simp only [act]
    rw [Run.outcome_bind]
    refine Outcome.Meets.bind he.toValue fun v _ => ?_
    rw [Term.outcome_operand]
    refine Outcome.Meets.bind (ht.outcome scope) fun w _ => valued ?_
    rw [Run.outcome_lift]
    exact Operator.binary_calm _ v w

/-- Keys are evaluated for every element, and the sort compares them. -/
private theorem sort_act_calm {keys : List (Term × Bool)} (he : e.Calm)
    (ht : ∀ k ∈ keys, k.1.Calm input) :
    Outcome.Meets Error.IsCalm Evaluated.Calm
      ((Step.sort keys).act input scope subject e).outcome := by
  simp only [act]
  rw [Run.outcome_bind]
  refine he.toSequence.bind fun ps hps => ?_
  rw [Run.outcome_bind, Pulls.outcome_foldRun]
  refine (hps.fold (I := fun _ => True) (fun rows v _ _ => ?_) trivial).bind fun _ _ => trivial
  rw [Run.outcome_bind]
  exact (evalKeys_calm ht).bind fun _ => trivial

private theorem groupby_act_calm {key : Term} {aggregates : List (String × Term)} (he : e.Calm)
    (hk : key.Calm input) (ht : ∀ f ∈ aggregates, f.2.Calm input) :
    Outcome.Meets Error.IsCalm Evaluated.Calm
      ((Step.groupby key aggregates).act input scope subject e).outcome := by
  simp only [act]
  rw [Run.outcome_bind]
  refine he.toSequence.bind fun ps hps => ?_
  rw [Run.outcome_bind, Pulls.outcome_foldRun]
  refine (hps.fold (I := fun _ => True) (fun groups v _ _ => ?_) trivial).bind fun groups _ => ?_
  · rw [Term.outcome_operand]
    exact (hk.outcome _).bind fun _ => trivial
  · rw [Run.outcome_bind, Run.outcome_mapM]
    refine (Outcome.Meets.mapM (R := fun _ => True) fun group _ => ?_).bind fun _ _ => trivial
    split
    · trivial
    · rw [Run.outcome_bind]
      exact (evalFields_calm ht).bind fun _ => trivial

/-- A step whose operands and whose evaluated subject are calm is calm, when it can reserve its
buffer. -/
theorem act_calm {action : Step} (he : e.Calm) (ht : ∀ c ∈ action.operands, c.1.Calm input)
    (hroom : action.buffer * Window.elementBytes < 2 ^ 63) :
    Outcome.Meets Error.IsCalm Evaluated.Calm (action.act input scope subject e).outcome := by
  cases action with
  | field name =>
    simp only [act]
    rw [Run.outcome_bind]
    exact Outcome.Meets.bind he.toValue fun v _ => valued (v.field_calm name)
  | unary op =>
    simp only [act]
    rw [Run.outcome_bind]
    exact Outcome.Meets.bind he.toValue fun v _ => valued (Operator.unary_calm op v)
  | binary op rhs => exact binary_act_calm he (ht _ List.mem_cons_self)
  | filter predicate =>
    have hp := ht _ List.mem_cons_self
    simp only [act]
    rw [Run.outcome_bind]
    refine he.toSequence.bind fun ps hps => ?_
    change Yields.Meets _ _ (Pulls.yields _)
    rw [Pulls.yields_map_keepIf]
    refine hps.keep fun v _ => ?_
    rw [Term.outcome_operand]
    exact (hp.outcome _).bind fun b => b.toBool_calm
  | map transform =>
    have hp := ht _ List.mem_cons_self
    simp only [act]
    rw [Run.outcome_bind]
    refine he.toSequence.bind fun ps hps => ?_
    change Yields.Meets _ _ (Pulls.yields _)
    rw [Pulls.yields_map_mapWith]
    exact hps.mapWith fun v _ => hp.outcome _
  | sort keys => exact sort_act_calm he fun k hk => ht (k.1, 1) (List.mem_map.2 ⟨k, hk, rfl⟩)
  | slice start stop => exact he.slice hroom
  | index position =>
    simp only [act]
    rw [Run.outcome_bind]
    refine he.toSequence.bind fun ps hps => valued ?_
    exact (Window.index_calm_iff hps position).2 hroom
  | groupby key aggregates =>
    refine groupby_act_calm he (ht (key, 1) List.mem_cons_self) fun f hf => ?_
    exact ht (f.2, 1) (List.mem_cons_of_mem _ (List.mem_map.2 ⟨f, hf, rfl⟩))
  | distinct =>
    simp only [act]
    rw [Run.outcome_bind]
    refine he.toSequence.bind fun ps hps => ?_
    change Yields.Meets _ _ (Pulls.yields _)
    rw [Pulls.yields_distinct]
    exact hps.distinct {}
  | one => exact valued (he.one subject (Error.emptyResult_calm _))
  | oneOr default =>
    refine valued (he.one subject ?_)
    exact (ht _ List.mem_cons_self).outcome scope
  | aggregate op => exact valued (he.aggregate op)

end Step

/-- A term crashes in no scope, when sources do not and when all its buffers can be reserved. -/
theorem Term.eval_calm (hinput : ∀ name, (input name).Calm) (t : Term) :
    (∀ n ∈ t.nodes, n.BufferFits) → t.Calm input := by
  induction t using children_induction with
  | h t ih =>
    intro hfits scope
    have hchild : ∀ c ∈ t.children, c.1.Calm input := fun c hc =>
      ih c hc fun n hn => hfits n (mem_nodes.2 (.inr ⟨c, hc, hn⟩))
    cases t with
    | source id name =>
      rw [eval, Run.outcome_bind, Input.scan, Run.outcome_accessing]
      have hname := hinput name
      revert hname
      generalize input name = rows
      intro hname
      cases rows with
      | error e => exact hname
      | ok vs => trivial
    | literal id value => trivial
    | context id up =>
      rw [eval, Run.outcome_bind, Run.outcome_lift, Scope.read]
      split
      · trivial
      · exact Error.fault_calm _
    | record id fields =>
      rw [eval, Run.outcome_bind]
      refine Outcome.Meets.bind (evalFields_calm fun f hf => ?_) fun _ _ => trivial
      exact hchild (f.2, 0) (List.mem_map.2 ⟨f, hf, rfl⟩)
    | step id subject action =>
      rw [eval, Run.outcome_bind]
      refine (hchild (subject, 0) List.mem_cons_self scope).bind fun e he => ?_
      exact Step.act_calm he (fun c hc => hchild c (List.mem_cons_of_mem _ hc))
        (hfits _ (self_mem_nodes _))

end QueryPushdown
