import QueryPushdown.Proofs.Document.Predicates
import QueryPushdown.Proofs.Transform.Cutting

/-!
# Eager evaluation

A backend goes through all elements and stops at none, where the interpreter stops at the first
error and reads no more than it needs. Eager evaluation is what both have in common: filters take
the strong truth of their predicate, and what cannot be evaluated counts as null. Whatever the
interpreter finds, eager evaluation finds too.
-/

namespace QueryPushdown

/-- The value of an outcome, null when there is none. -/
def Outcome.orNull (o : Outcome Value) : Value := o.toOption.getD .null

namespace Step

/-- What a step makes of a value when no element stops it. -/
def eager (input : Input) (w : Value) : Step → Outcome Value
  | .filter predicate => do
    let _ ← (Evaluated.value w).toSequence.outcome
    pure (.list (w.elements.filter fun v => predicate.truth input v .strong == some true))
  | .map transform => do
    let _ ← (Evaluated.value w).toSequence.outcome
    pure (.list (w.elements.map fun v => (transform.outcome input [v]).orNull))
  | .sort keys => do
    let _ ← (Evaluated.value w).toSequence.outcome
    pure (.list (Sorting.rows
      (w.elements.map fun v => ⟨keys.map fun k => (k.1.reading input v).orNull, v⟩)
      (keys.map Prod.snd)))
  | action => do (← (action.act input [] default (.value w)).outcome).toValue.outcome

end Step

/-- The value of a chain whose steps are stopped by no element. -/
def Term.eager (input : Input) : Term → Outcome Value
  | step _ subject action => do action.eager input (← subject.eager input)
  | t => t.outcome input []

/-- Errors of the first side excuse everything. -/
def Tolerance.lenient : Tolerance where
  pairs _ _ := True
  first _ := True
  second _ := False
  pairs_refl _ := trivial

theorem Tolerance.lenient_namesPair (s t : Term) : Evaluated.NamesPair lenient s t :=
  ⟨trivial, trivial⟩

theorem Outcome.Related.of_ok {α β : Type} {R : α → β → Prop} {x : Outcome α} {y : Outcome β}
    (h : ∀ a, x = .ok a → ∃ b, y = .ok b ∧ R a b) : Outcome.Related .lenient R x y := by
  cases x with
  | error e => exact .first trivial
  | ok a =>
    obtain ⟨b, rfl, hab⟩ := h a rfl
    exact .ok hab

theorem Outcome.Related.ok_of_lenient {α β : Type} {R : α → β → Prop} {a : α} {y : Outcome β}
    (h : Outcome.Related .lenient R (.ok a) y) : ∃ b, y = .ok b ∧ R a b := by
  cases h with
  | ok h => exact ⟨_, rfl, h⟩
  | second h => exact h.elim

/-- An evaluated node that has the elements of a value, up to its first error. -/
abbrev Evaluated.Approaches (e : Evaluated) (w : Value) : Prop := e.Related .lenient (.value w)

/-- The values of a list that were not met before. -/
def Seen.fresh : Seen → List Value → List Value
  | _, [] => []
  | seen, v :: vs =>
    if (seen.insert v).1 then v :: fresh (seen.insert v).2 vs else fresh (seen.insert v).2 vs

namespace Yields

theorem mapWith_ofList (g : Value → Value) (vs : List Value) :
    mapWith (fun v => .ok (g v)) (ofList vs) = ofList (vs.map g) := by
  induction vs with
  | nil => rfl
  | cons v vs ih =>
    rw [List.map_cons, ofList_cons, ofList_cons, ← ih]
    rfl

theorem ok_of_collect_mapWith {f : Value → Outcome Value} {vs ws : List Value}
    (h : collect (mapWith f (ofList vs)) = .ok ws) : ∀ v ∈ vs, ∃ w, f v = .ok w := by
  intro v hv
  have hmem : f v ∈ mapWith f (ofList vs) :=
    List.mem_map.2 ⟨.ok v, List.mem_map_of_mem hv, rfl⟩
  rw [eq_ofList_of_collect h] at hmem
  obtain ⟨w, -, hw⟩ := List.mem_map.1 hmem
  exact ⟨w, hw.symm⟩

theorem fold_ofList {α : Type} (f : Value → α) (rows : List α) (vs : List Value) :
    fold (fun rows v => .ok (f v :: rows)) rows (ofList vs) = .ok ((vs.map f).reverse ++ rows) := by
  induction vs generalizing rows with
  | nil => rfl
  | cons v vs ih =>
    change fold (fun rows v => .ok (f v :: rows)) (f v :: rows) (ofList vs) = _
    rw [ih, List.map_cons, List.reverse_cons, List.append_assoc]
    rfl

theorem skip_ofList (n : Nat) (vs : List Value) : skip n (ofList vs) = ofList (vs.drop n) := by
  induction vs generalizing n with
  | nil => cases n <;> rfl
  | cons v vs ih =>
    rw [ofList_cons, skip, ih]
    cases n with
    | zero => rfl
    | succ n => rfl

theorem take_ofList (n : Nat) (vs : List Value) : (ofList vs).take n = ofList (vs.take n) := by
  rw [ofList, ofList, List.map_take]

/-- Holding back `n` elements keeps all but the last `n`. -/
theorem holdBack_ofList {n : Nat} {held : List Value} (h : held.length ≤ n) (vs : List Value) :
    holdBack n held (ofList vs) =
      ofList ((held ++ vs).take ((held ++ vs).length - n)) := by
  induction vs generalizing held with
  | nil =>
    rw [List.append_nil, Nat.sub_eq_zero_of_le h]
    rfl
  | cons v vs ih =>
    have happend : held ++ v :: vs = held ++ [v] ++ vs := by rw [List.append_assoc]; rfl
    have hlength : (held ++ [v]).length = held.length + 1 := by simp
    rw [ofList_cons, holdBack, happend]
    cases hnext : held ++ [v] with
    | nil => simp at hnext
    | cons oldest waiting =>
      rw [hnext, List.length_cons] at hlength
      dsimp only
      split
      · rw [ih (by omega), List.cons_append, List.length_cons, Nat.succ_sub, List.take_succ_cons]
        · rfl
        · rw [List.length_append]
          omega
      · exact ih (by rw [List.length_cons]; omega)

theorem distinct_ofList (seen : Seen) (vs : List Value) :
    distinct seen (ofList vs) = ofList (seen.fresh vs) := by
  induction vs generalizing seen with
  | nil => rfl
  | cons v vs ih =>
    rw [ofList_cons, distinct, Seen.fresh, ih]
    split <;> rfl

end Yields

namespace Step

variable {input : Input} {scope : Scope}

/-- The sequences that steps over a node and over the value it approaches go through. -/
theorem toSequence_approaches {e : Evaluated} {w : Value} {ps : Pulls} (he : e.Approaches w)
    (h : e.toSequence.outcome = .ok ps) :
    ∃ qs, (Evaluated.value w).toSequence.outcome = .ok qs ∧
      Yields.Related .lenient ps.yields (Yields.ofList w.elements) := by
  have hseq := Evaluated.Related.toSequence he
  rw [h] at hseq
  obtain ⟨qs, hqs, hpq⟩ := hseq.ok_of_lenient
  refine ⟨qs, hqs, ?_⟩
  rw [← Evaluated.yields_of_toSequence (w := w) rfl hqs]
  exact hpq

variable {e : Evaluated} {w : Value} {s : Term}

private theorem filter_approaches {p q : Term} (he : e.Approaches w)
    (h : Term.Agree .lenient input scope [] 1 p q) :
    Outcome.Related .lenient Evaluated.Approaches ((filter p).act input scope s e).outcome
      ((filter q).eager input w) := by
  refine .of_ok fun f hf => ?_
  simp only [act, Run.outcome_bind] at hf
  obtain ⟨ps, hps, hf⟩ := Outcome.bind_eq_ok.1 hf
  cases hf
  obtain ⟨qs, hqs, hyields⟩ := toSequence_approaches he hps
  refine ⟨_, by rw [eager, hqs]; rfl, .sequence rfl rfl ?_⟩
  have hkeep : Yields.keep (fun v => .ok (q.truth input v .strong == some true))
      (Yields.ofList w.elements) = Yields.ofList (w.elements.filter fun v =>
        q.truth input v .strong == some true) := Yields.keep_ofList fun _ _ => rfl
  rw [Pulls.yields_map_keepIf, ← hkeep]
  refine hyields.keep fun v => .of_ok fun b hb => ?_
  rw [Term.outcome_operand] at hb
  obtain ⟨x, hx, hb⟩ := Outcome.bind_eq_ok.1 hb
  obtain rfl := Term.toBool_eq_ok hb
  have hv := h.inside v
  rw [hx] at hv
  obtain ⟨y, hy, rfl⟩ := hv.ok_of_lenient
  rw [Term.truth_of_outcome hy]
  exact ⟨b, by cases b <;> rfl, rfl⟩

private theorem map_approaches {p q : Term} (he : e.Approaches w)
    (h : Term.Agree .lenient input scope [] 1 p q) :
    Outcome.Related .lenient Evaluated.Approaches ((map p).act input scope s e).outcome
      ((map q).eager input w) := by
  refine .of_ok fun f hf => ?_
  simp only [act, Run.outcome_bind] at hf
  obtain ⟨ps, hps, hf⟩ := Outcome.bind_eq_ok.1 hf
  cases hf
  obtain ⟨qs, hqs, hyields⟩ := toSequence_approaches he hps
  refine ⟨_, by rw [eager, hqs]; rfl, .sequence rfl rfl ?_⟩
  rw [Pulls.yields_map_mapWith, ← Yields.mapWith_ofList]
  refine hyields.mapWith fun v => .of_ok fun x hx => ?_
  have hv := h.inside v
  rw [Term.outcome, hx] at hv
  obtain ⟨y, hy, rfl⟩ := hv.ok_of_lenient
  rw [hy]
  exact ⟨x, rfl, rfl⟩

private theorem evalKeys_reading {v : Value} {keys : List (Term × Bool)} {values : List Value}
    (h : (evalKeys input [v] keys).outcome = .ok values) :
    keys.map (fun k => (k.1.reading input v).orNull) = values := by
  induction keys generalizing values with
  | nil =>
    cases h
    rfl
  | cons k keys ih =>
    obtain ⟨t, d⟩ := k
    rw [evalKeys, Term.outcome_operand] at h
    obtain ⟨x, hx, h⟩ := Outcome.bind_eq_ok.1 h
    rw [Run.outcome_bind] at h
    obtain ⟨rest, hrest, h⟩ := Outcome.bind_eq_ok.1 h
    cases h
    rw [List.map_cons, ih hrest, Term.reading_of_outcome hx]
    rfl

private theorem sort_approaches {ks ls : List (Term × Bool)} (he : e.Approaches w)
    (h : List.Forall₂ (fun k l => Term.Agree .lenient input scope [] 1 k.1 l.1 ∧ k.2 = l.2)
      ks ls) :
    Outcome.Related .lenient Evaluated.Approaches ((sort ks).act input scope s e).outcome
      ((sort ls).eager input w) := by
  have hdir : ks.map Prod.snd = ls.map Prod.snd := by
    rw [← List.forall₂_eq_eq_eq, List.forall₂_map_left_iff, List.forall₂_map_right_iff]
    exact h.imp fun _ _ hkl => hkl.2
  refine .of_ok fun f hf => ?_
  simp only [act] at hf
  rw [Run.outcome_bind] at hf
  obtain ⟨ps, hps, hf⟩ := Outcome.bind_eq_ok.1 hf
  rw [Run.outcome_bind, Pulls.outcome_foldRun] at hf
  obtain ⟨rows, hrows, hf⟩ := Outcome.bind_eq_ok.1 hf
  cases hf
  obtain ⟨qs, hqs, hyields⟩ := toSequence_approaches he hps
  have hfold := hyields.fold (R := Eq)
    (g := fun (rows : List Row) v =>
      .ok (⟨ls.map fun k => (k.1.reading input v).orNull, v⟩ :: rows))
    (f := fun (rows : List Row) v =>
      (do pure (⟨← evalKeys input (v :: scope) ks, v⟩ :: rows) : Run (List Row)).outcome)
    (s := []) (t := []) (fun rows rows' v hr => ?_) rfl
  · rw [hrows, Yields.fold_ofList] at hfold
    obtain ⟨rows', hrows', rfl⟩ := hfold.ok_of_lenient
    cases hrows'
    refine ⟨_, by rw [eager, hqs]; rfl, ?_⟩
    rw [List.append_nil, List.reverse_reverse, hdir]
    exact .value _
  · subst hr
    refine .of_ok fun rows' hrows' => ?_
    rw [Run.outcome_bind] at hrows'
    obtain ⟨keys, hkeys, hrows'⟩ := Outcome.bind_eq_ok.1 hrows'
    cases hrows'
    have hagree := evalKeys_related [v] rfl h
    rw [List.singleton_append, hkeys] at hagree
    obtain ⟨keys', hkeys', rfl⟩ := hagree.ok_of_lenient
    rw [List.singleton_append] at hkeys'
    exact ⟨_, rfl, by rw [evalKeys_reading hkeys']⟩

/-- A run that gives nothing but values. -/
private def GivesValue (r : Run Evaluated) : Prop := ∀ f, r.outcome = .ok f → ∃ x, f = .value x

private theorem givesValue_pure (x : Value) : GivesValue (pure (.value x)) := fun _ h => by
  cases h
  exact ⟨x, rfl⟩

private theorem givesValue_bind {α : Type} (r : Run α) {k : α → Run Evaluated}
    (h : ∀ a, GivesValue (k a)) : GivesValue (r >>= k) := fun f hf => by
  rw [Run.outcome_bind] at hf
  obtain ⟨a, -, hf⟩ := Outcome.bind_eq_ok.1 hf
  exact h a f hf

theorem slice_yields {ps qs : Pulls} {vs : List Value} {start stop : Option Int64}
    (hps : ps.yields = Yields.ofList vs) (h : (Window.slice ps start stop).outcome = .ok qs) :
    ∃ ws, qs.yields = Yields.ofList ws := by
  unfold Window.slice at h
  dsimp only at h
  have hskip : (ps.skip (start.getD 0).toInt.toNat).yields =
      Yields.ofList (vs.drop (start.getD 0).toInt.toNat) := by
    rw [Pulls.yields_skip, hps, Yields.skip_ofList]
  split at h
  · rw [Window.fromEnd, Run.outcome_bind] at h
    obtain ⟨⟨window, length⟩, -, h⟩ := Outcome.bind_eq_ok.1 h
    cases h
    exact ⟨_, Pulls.yields_ofList _⟩
  · split at h
    · cases h
      exact ⟨_, hskip⟩
    · split at h
      · cases h
        exact ⟨_, by rw [Pulls.yields_take, hskip, Yields.take_ofList]⟩
      · rw [Run.outcome_bind] at h
        obtain ⟨-, -, h⟩ := Outcome.bind_eq_ok.1 h
        cases h
        rw [Pulls.yields_holdBack, hskip]
        exact ⟨_, Yields.holdBack_ofList (Nat.zero_le _) _⟩

/-- Steps over a value give no errors in between, apart from filters and maps. -/
private theorem toValue_of_act {a : Step} {f : Evaluated} (hfilter : ∀ p, a ≠ filter p)
    (hmap : ∀ p, a ≠ map p) (h : (a.act input [] default (.value w)).outcome = .ok f) :
    ∃ x, f.toValue.outcome = .ok x := by
  have hvalue : GivesValue (a.act input [] default (.value w)) →
      ∃ x, f.toValue.outcome = .ok x := by
    intro hv
    obtain ⟨x, rfl⟩ := hv f h
    exact ⟨x, rfl⟩
  have hpulls : ∀ {qs : Pulls} {ws : List Value}, qs.yields = Yields.ofList ws →
      ∃ x, (Evaluated.pulls qs).toValue.outcome = .ok x := by
    intro qs ws hqs
    refine ⟨.list ws, ?_⟩
    rw [Evaluated.outcome_toValue_of_yields rfl, hqs, Yields.collect_ofList]
    rfl
  cases a with
  | filter p => exact absurd rfl (hfilter p)
  | map p => exact absurd rfl (hmap p)
  | binary op rhs =>
    refine hvalue ?_
    cases op with
    | and | or =>
      refine givesValue_bind _ fun x => givesValue_bind _ fun b => ?_
      cases b with
      | true | false =>
        first
        | exact givesValue_pure _
        | exact givesValue_bind _ fun _ => givesValue_bind _ fun _ => givesValue_bind _ fun _ =>
            givesValue_pure _
    | _ =>
      exact givesValue_bind _ fun _ => givesValue_bind _ fun _ => givesValue_bind _ fun _ =>
        givesValue_bind _ fun _ => givesValue_pure _
  | slice start stop =>
    change (Evaluated.slice (.value w) start stop).outcome = .ok f at h
    cases w with
    | text s =>
      obtain ⟨x, rfl⟩ := givesValue_bind _ (fun _ => givesValue_bind _ fun _ => givesValue_pure _) f h
      exact ⟨x, rfl⟩
    | list vs =>
      change (do pure (.pulls (← Window.slice (Pulls.ofList vs) start stop)) : Run Evaluated).outcome
        = .ok f at h
      rw [Run.outcome_bind] at h
      obtain ⟨qs, hqs, h⟩ := Outcome.bind_eq_ok.1 h
      cases h
      obtain ⟨ws, hws⟩ := slice_yields (Pulls.yields_ofList vs) hqs
      exact hpulls hws
    | _ => cases h
  | distinct =>
    change (do pure (.pulls ((← (Evaluated.value w).toSequence).distinct {})) :
      Run Evaluated).outcome = .ok f at h
    rw [Run.outcome_bind] at h
    obtain ⟨qs, hqs, h⟩ := Outcome.bind_eq_ok.1 h
    cases h
    refine hpulls (?_ : _ = Yields.ofList (Seen.fresh {} w.elements))
    rw [Pulls.yields_distinct, Evaluated.yields_of_toSequence (w := w) rfl hqs,
      Yields.distinct_ofList]
  | field | unary | index | one | oneOr | aggregate | sort | groupby =>
    refine hvalue ?_
    first
    | exact givesValue_bind _ fun _ => givesValue_pure _
    | exact givesValue_bind _ fun _ => givesValue_bind _ fun _ => givesValue_pure _
    | exact givesValue_bind _ fun _ => givesValue_bind _ fun _ => givesValue_bind _ fun _ =>
        givesValue_pure _

/-- A step that approaches what it makes of a value keeps to it in eager evaluation. -/
theorem act_approaches {a b : Step} (he : e.Approaches w)
    (hab : a.Alike (Term.Agree .lenient input scope []) b) :
    Outcome.Related .lenient Evaluated.Approaches (a.act input scope s e).outcome
      (b.eager input w) := by
  have hplain : (∀ p, b ≠ filter p) → (∀ p, b ≠ map p) →
      b.eager input w = (do (← (b.act input [] default (.value w)).outcome).toValue.outcome) →
      Outcome.Related .lenient Evaluated.Approaches (a.act input scope s e).outcome
        (b.eager input w) := by
    intro hfilter hmap heager
    rw [heager]
    refine .of_ok fun f hf => ?_
    have hact := act_related (s := s) (t := default) (Tolerance.lenient_namesPair _ _) he hab
    rw [hf] at hact
    obtain ⟨g, hg, hfg⟩ := hact.ok_of_lenient
    obtain ⟨x, hx⟩ := toValue_of_act hfilter hmap hg
    refine ⟨x, by rw [hg]; exact hx, ?_⟩
    cases hfg with
    | value v =>
      cases hx
      exact .value _
    | sequence hf' hg' hys =>
      rw [Evaluated.outcome_toValue_of_yields hg'] at hx
      cases hc : Yields.collect _ with
      | error e =>
        rw [hc] at hx
        cases hx
      | ok vs =>
        rw [hc] at hx
        cases hx
        exact .sequence hf' rfl (Yields.eq_ofList_of_collect hc ▸ hys)
  cases hab with
  | filter h => exact filter_approaches he h
  | map h => exact map_approaches he h
  | sort h => exact sort_approaches he h
  | bare ha =>
    cases a with
    | filter | map => cases ha
    | sort keys =>
      obtain rfl := List.map_eq_nil_iff.1 ha
      exact sort_approaches he .nil
    | _ => exact hplain (fun _ h => by cases h) (fun _ h => by cases h) rfl
  | binary | groupby | oneOr =>
    exact hplain (fun _ h => by cases h) (fun _ h => by cases h) rfl

end Step

namespace Term

variable {input : Input} {scope : Scope}

/-- Whatever the interpreter finds, eager evaluation finds too. -/
theorem eval_approaches (t : Term) :
    Outcome.Related .lenient Evaluated.Approaches (t.eval input []).outcome (t.eager input) := by
  induction t using spine.induct with
  | case1 id subject action ih =>
    rw [eval, Run.outcome_bind]
    exact ih.bind fun e w hew => Step.act_approaches hew (.refl fun c _ => .refl c.2 c.1)
  | case2 t ht =>
    have heager : t.eager input = t.outcome input [] := by
      cases t with
      | step id subject action => exact absurd rfl (ht id subject action)
      | _ => rfl
    rw [heager]
    refine .of_ok fun e he => ?_
    rw [outcome_eq, he]
    have hgives : Step.GivesValue (t.eval input []) := by
      cases t with
      | step id subject action => exact absurd rfl (ht id subject action)
      | _ =>
        first
        | exact Step.givesValue_pure _
        | exact Step.givesValue_bind _ fun _ => Step.givesValue_pure _
    obtain ⟨v, rfl⟩ := hgives e he
    exact ⟨v, rfl, .value v⟩

theorem ok_of_approaches {t : Term} {v : Value} {x : Outcome Value}
    (h : Outcome.Related .lenient Evaluated.Approaches (t.eval input scope).outcome x)
    (hv : t.outcome input scope = .ok v) : x = .ok v := by
  obtain ⟨e, he, hv⟩ := eval_of_outcome hv
  rw [he] at h
  obtain ⟨w, rfl, hew⟩ := h.ok_of_lenient
  have hvalue := hew.toValue
  rw [hv] at hvalue
  obtain ⟨w', hw', rfl⟩ := hvalue.ok_of_lenient
  exact hw'

theorem eager_of_outcome {t : Term} {v : Value} (h : t.outcome input [] = .ok v) :
    t.eager input = .ok v := ok_of_approaches t.eval_approaches h

/-- A chain rebuilt on the value of the entry it replaces approaches the whole chain, if the operands
above that entry agree after their shift. -/
theorem rebase_approaches {t before base : Term} {marker n : Nat} {scopes : Int} {a : Arena}
    (hfind : t.spine.find? (·.id == marker) = some before)
    (hbase : Outcome.Related .lenient Evaluated.Approaches (base.eval input scope).outcome
      (before.eager input))
    (hshift : ∀ id subject action, step id subject action ∈ t.spine → ∀ b : Arena, n ≤ b.size →
      (action.shift scopes b).1.Alike (Agree .lenient input scope []) action)
    (hn : n ≤ a.size) :
    Outcome.Related .lenient Evaluated.Approaches
      ((t.rebase marker base scopes a).1.eval input scope).outcome (t.eager input) := by
  refine rebase_induction (motive := fun u r => Outcome.Related .lenient Evaluated.Approaches
    (r.1.eval input scope).outcome (u.eager input)) ?_ ?_
  · rw [hfind]
    exact hbase
  · intro id subject action he s b hs
    change Outcome.Related .lenient _ ((step _ _ _).eval input scope).outcome _
    rw [eval, Run.outcome_bind]
    refine hs.bind fun e w hew => Step.act_approaches hew (hshift id subject action he _ ?_)
    exact Nat.le_trans hn (size_le_rebase subject marker base scopes a)

/-- Nothing above an entry of the chain tells two bases of one value apart. -/
theorem eager_rebase {t before base : Term} {marker : Nat} (a : Arena)
    (hfind : t.spine.find? (·.id == marker) = some before)
    (hbase : base.eager input = before.eager input) :
    (t.rebase marker base 0 a).1.eager input = t.eager input := by
  refine rebase_induction (motive := fun u r => r.1.eager input = u.eager input) ?_ ?_
  · rw [hfind]
    exact hbase
  · intro id subject action _ s b hs
    change (do action.eager input (← s.1.eager input)) = _
    rw [hs, eager]

theorem passes_eq (t : Term) (v : Value) : (t.truth input v .strong == some true) =
    t.conjuncts.all fun c => c.truth input v .strong == some true := by
  rw [Bool.eq_iff_iff, beq_iff_eq, truth_eq_true, List.all_eq_true]
  simp only [beq_iff_eq]

/-- Two filters that share out the conjuncts of one keep the same elements. -/
theorem eager_split_filter {subject predicate kept left : Term} {keep : Term → Bool}
    (id id₁ id₂ : Nat) (hk : kept.conjuncts = predicate.conjuncts.filter keep)
    (hl : left.conjuncts = predicate.conjuncts.filter fun c => !keep c) :
    (step id₂ (step id₁ subject (.filter kept)) (.filter left)).eager input =
      (step id subject (.filter predicate)).eager input := by
  rw [eager, eager, eager]
  cases subject.eager input with
  | error e => rfl
  | ok w =>
    change (Step.eager input w (.filter kept) >>= fun u => Step.eager input u (.filter left)) =
      Step.eager input w (.filter predicate)
    rw [Step.eager, Step.eager]
    cases (Evaluated.value w).toSequence.outcome with
    | error e => rfl
    | ok ps =>
      refine congrArg (fun vs => Except.ok (Value.list vs)) ?_
      rw [Value.elements, List.filter_filter]
      congr 1
      funext v
      rw [passes_eq left, passes_eq kept, passes_eq predicate, hl, hk, all_filter_and_all_filter_not]

end Term

theorem Outcome.Related.lenient_symm {α : Type} {x y : Outcome α}
    (h : Outcome.Related .kinds Eq x y) : Outcome.Related .lenient Eq y x := by
  cases h with
  | ok h => exact .ok h.symm
  | error h => exact .first trivial
  | first h => exact h.elim
  | second h => exact h.elim

/-- What the rest of a cut request finds over the value of the part before the cut, eager evaluation
finds for the whole request. -/
theorem Request.eager_of_cut_after {input : Input} {r : Request} {marker : Nat} {c : Cut}
    {w v : Value} (hr : r.Ordered) (hc : r.cut marker = .ok c)
    (hclosed : r.root.References (fun level up => up < level) 0)
    (hw : c.before.root.eager input = .ok w) (hv : c.after.eval input [w] = .ok v) :
    r.root.eager input = .ok v := by
  obtain ⟨before, hfound, hbefore, hafter⟩ := cut_eq_ok hc
  rw [hbefore] at hw
  rw [hafter] at hv
  refine Term.ok_of_approaches (Term.rebase_approaches (n := r.arena.size) hfound ?_ ?_ ?_) hv
  · rw [hw]
    exact .ok (.value w)
  · intro id subject action he b hb
    have href : (Term.step id subject action).References (Scope.Carries .kinds [] [w] 1) 0 :=
      (hclosed.mono fun level up hup => Scope.carries_of_lt [] [w] 1 hup).of_mem_spine he
    have hagree : action.Alike (Term.Agree .kinds input [] [w]) (action.shift 1 b).1 :=
      Step.shift_agree Tolerance.kinds_namesPair (by decide) ((hr.of_mem_spine he).mono hb) href
    exact hagree.flip.mono fun n s t _ h frames hframes => (h frames hframes).lenient_symm
  · simp [Arena.size]

end QueryPushdown
