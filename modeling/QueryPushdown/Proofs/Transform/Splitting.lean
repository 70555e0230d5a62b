import QueryPushdown.Proofs.Eval.Operands
import QueryPushdown.Proofs.Transform.Cutting
import QueryPushdown.Transform.Split

/-!
# Split filters

A predicate whose conjuncts are all boolean holds when all of them do, so a filter may be taken
apart into two, the conjuncts being shared out between them in any way.
-/

namespace QueryPushdown

namespace Value

/-- The elements that a step over a value goes through: those of a list, the characters of a
text. -/
def elements : Value → List Value
  | list vs => vs
  | text s => s.toList.map fun c => text (String.singleton c)
  | _ => []

end Value

namespace Evaluated

theorem yields_characters (s : String) :
    (characters s).yields = Yields.ofList (Value.text s).elements := by
  rw [← Pulls.yields_ofList]
  simp [characters, Pulls.ofList, Value.elements, Function.comp_def]

/-- A sequence made of an evaluated node goes through the elements of its value. -/
theorem yields_of_toSequence {e : Evaluated} {w : Value} {ps : Pulls}
    (hv : e.toValue.outcome = .ok w) (hs : e.toSequence.outcome = .ok ps) :
    ps.yields = Yields.ofList w.elements := by
  cases e with
  | pulls qs =>
    cases hs
    rw [outcome_toValue_of_yields rfl] at hv
    cases hc : Yields.collect ps.yields with
    | error e =>
      rw [hc] at hv
      cases hv
    | ok vs =>
      rw [hc] at hv
      cases hv
      exact Yields.eq_ofList_of_collect hc
  | value u =>
    cases hv
    cases w with
    | list vs =>
      cases hs
      exact Pulls.yields_ofList vs
    | text s =>
      cases hs
      exact yields_characters s
    | _ => cases hs

end Evaluated

theorem Yields.keep_ofList {test : Value → Outcome Bool} {p : Value → Bool} {vs : List Value}
    (h : ∀ v ∈ vs, test v = .ok (p v)) : keep test (ofList vs) = ofList (vs.filter p) := by
  induction vs with
  | nil => rfl
  | cons v vs ih =>
    have hv := h v List.mem_cons_self
    have hrest := ih fun w hw => h w (List.mem_cons_of_mem _ hw)
    simp only [ofList_cons, keep, hv, hrest]
    cases hp : p v
    · simp [hp]
    · simp [hp]

namespace Term

variable {input : Input} {scope : Scope}

private theorem outcome_and {id : Nat} {lhs rhs : Term} {a b : Bool}
    (hl : lhs.outcome input scope = .ok (.bool a)) (hr : rhs.outcome input scope = .ok (.bool b)) :
    (step id lhs (.binary .and rhs)).outcome input scope = .ok (.bool (a && b)) := by
  rw [outcome_eq, eval_connective rfl, hl, hr]
  cases a <;> rfl

/-- A predicate whose conjuncts are all boolean holds when all of them do. -/
theorem outcome_of_conjuncts {t : Term}
    (h : ∀ c ∈ t.conjuncts, ∃ b, c.outcome input scope = .ok (.bool b)) :
    t.outcome input scope = .ok (.bool (t.conjuncts.all (·.isTrue input scope))) := by
  induction t using conjuncts.induct with
  | case1 id lhs rhs ihl ihr =>
    simp only [conjuncts, List.mem_append] at h
    have hl := ihl fun c hc => h c (.inl hc)
    have hr := ihr fun c hc => h c (.inr hc)
    rw [conjuncts, List.all_append]
    exact outcome_and hl hr
  | case2 t ht =>
    have hc : t.conjuncts = [t] := conjuncts_eq_singleton ht
    obtain ⟨b, hb⟩ := h t (by simp [hc])
    simp [hc, hb, isTrue_of_outcome hb]

/-- The sequence that a step over a term goes through. -/
def sequence (input : Input) (scope : Scope) (t : Term) : Outcome Pulls := do
  (← (t.eval input scope).outcome).toSequence.outcome

theorem yields_of_sequence {t : Term} {w : Value} {ps : Pulls}
    (hw : t.outcome input scope = .ok w) (hs : t.sequence input scope = .ok ps) :
    ps.yields = Yields.ofList w.elements := by
  rw [outcome_eq] at hw
  unfold sequence at hs
  cases he : (t.eval input scope).outcome with
  | error e =>
    rw [he] at hw
    cases hw
  | ok e =>
    rw [he] at hw hs
    exact Evaluated.yields_of_toSequence hw hs

/-- Whether a predicate holds of an element. -/
def test (input : Input) (scope : Scope) (predicate : Term) (v : Value) : Run Bool := do
  let b ← (← predicate.eval input (v :: scope)).toValue
  b.toBool

theorem eval_filter (id : Nat) (subject predicate : Term) :
    ((step id subject (.filter predicate)).eval input scope).outcome = (do
      let ps ← subject.sequence input scope
      pure (.pulls (ps.map (Pull.keepIf (predicate.test input scope))))) := by
  simp only [eval, Step.act, Run.outcome_bind, sequence]
  cases (subject.eval input scope).outcome with
  | error e => rfl
  | ok e => rfl

theorem sequence_filter (id : Nat) (subject predicate : Term) :
    (step id subject (.filter predicate)).sequence input scope = (do
      let ps ← subject.sequence input scope
      pure (ps.map (Pull.keepIf (predicate.test input scope)))) := by
  rw [sequence, eval_filter]
  cases subject.sequence input scope <;> rfl

/-- What a filter keeps of elements on which its conjuncts are boolean. -/
theorem yields_filter {predicate : Term} {vs : List Value} {ps : Pulls}
    (hps : ps.yields = Yields.ofList vs)
    (h : ∀ v ∈ vs, ∀ c ∈ predicate.conjuncts, ∃ b,
      c.outcome input (v :: scope) = .ok (.bool b)) :
    Pulls.yields (ps.map (Pull.keepIf (predicate.test input scope))) =
      Yields.ofList (vs.filter fun v => predicate.conjuncts.all (·.isTrue input (v :: scope))) := by
  rw [Pulls.yields_map_keepIf, hps]
  refine Yields.keep_ofList fun v hv => ?_
  rw [test, outcome_operand, outcome_of_conjuncts (h v hv)]
  rfl

theorem all_filter_and_all_filter_not {α : Type} (keep p : α → Bool) (xs : List α) :
    ((xs.filter fun x => !keep x).all p && (xs.filter keep).all p) = xs.all p := by
  induction xs with
  | nil => rfl
  | cons x xs ih =>
    rw [List.all_cons, ← ih]
    cases hk : keep x <;> simp [hk, Bool.and_assoc, Bool.and_left_comm]

/-- Two filters that share out the conjuncts of one yield what the one does. -/
theorem eval_split_filter_related {T : Tolerance} {subject predicate kept left : Term}
    {w : Value} {keep : Term → Bool} (id id₁ id₂ : Nat)
    (hw : subject.outcome input scope = .ok w)
    (hb : ∀ v ∈ w.elements, ∀ c ∈ predicate.conjuncts, ∃ b,
      c.outcome input (v :: scope) = .ok (.bool b))
    (hk : kept.conjuncts = predicate.conjuncts.filter keep)
    (hl : left.conjuncts = predicate.conjuncts.filter fun c => !keep c) :
    Outcome.Related T (Evaluated.Related T)
      ((step id subject (.filter predicate)).eval input scope).outcome
      ((step id₂ (step id₁ subject (.filter kept)) (.filter left)).eval input scope).outcome := by
  rw [eval_filter, eval_filter, sequence_filter]
  cases hs : subject.sequence input scope with
  | error e => exact .error (T.pairs_refl e)
  | ok ps =>
    have hps := yields_of_sequence hw hs
    have hbk : ∀ v ∈ w.elements, ∀ c ∈ kept.conjuncts, ∃ b,
        c.outcome input (v :: scope) = .ok (.bool b) := fun v hv c hc =>
      hb v hv c (List.mem_of_mem_filter (hk ▸ hc))
    have hbl : ∀ v ∈ w.elements, ∀ c ∈ left.conjuncts, ∃ b,
        c.outcome input (v :: scope) = .ok (.bool b) := fun v hv c hc =>
      hb v hv c (List.mem_of_mem_filter (hl ▸ hc))
    have hlower := yields_filter hps hbk
    have hupper := yields_filter hlower fun v hv => hbl v (List.mem_of_mem_filter hv)
    refine .ok (.sequence rfl rfl ?_)
    rw [yields_filter hps hb, hupper, List.filter_filter, hk, hl]
    simp only [all_filter_and_all_filter_not]
    exact .refl _

theorem outcome_filter {id : Nat} {subject predicate : Term} {w : Value} {ps : Pulls}
    (hw : subject.outcome input scope = .ok w) (hs : subject.sequence input scope = .ok ps)
    (hb : ∀ v ∈ w.elements, ∀ c ∈ predicate.conjuncts, ∃ b,
      c.outcome input (v :: scope) = .ok (.bool b)) :
    (step id subject (.filter predicate)).outcome input scope = .ok (.list
      (w.elements.filter fun v => predicate.conjuncts.all (·.isTrue input (v :: scope)))) := by
  rw [outcome_eq, eval_filter, hs]
  change (Evaluated.toValue _).outcome = _
  rw [Evaluated.outcome_toValue_of_yields rfl, yields_filter (yields_of_sequence hw hs) hb,
    Yields.collect_ofList]
  rfl

/-- A filter that has a value goes through a sequence. -/
theorem sequence_of_outcome_filter {id : Nat} {subject predicate : Term} {v : Value}
    (h : (step id subject (.filter predicate)).outcome input scope = .ok v) :
    ∃ ps, subject.sequence input scope = .ok ps := by
  rw [outcome_eq, eval_filter] at h
  cases hs : subject.sequence input scope with
  | error e =>
    rw [hs] at h
    cases h
  | ok ps => exact ⟨ps, rfl⟩

/-- A part of a predicate that may be empty was allocated in an arena. -/
def AllocatedPart (a : Arena) (part : Option Term) : Prop := ∀ t, part = some t → t.Allocated a

theorem AllocatedPart.mono {a b : Arena} {part : Option Term} (h : AllocatedPart a part)
    (hab : a.size ≤ b.size) : AllocatedPart b part := fun t ht => (h t ht).mono hab

theorem allocatedPart_none (a : Arena) : AllocatedPart a none := fun _ h => by cases h

theorem allocatedPart_some {a : Arena} {t : Term} (h : t.Allocated a) :
    AllocatedPart a (some t) := fun _ hu => by
  cases hu
  exact h

theorem conjoin_allocated {lhs rhs : Option Term} {a : Arena} (hl : AllocatedPart a lhs)
    (hr : AllocatedPart a rhs) :
    a.size ≤ (conjoin lhs rhs a).2.size ∧
      AllocatedPart (conjoin lhs rhs a).2 (conjoin lhs rhs a).1 := by
  cases lhs with
  | none => exact ⟨Nat.le_refl _, hr⟩
  | some l => cases rhs with
    | none => exact ⟨Nat.le_refl _, hl⟩
    | some r =>
      have h : conjoin (some l) (some r) a =
          (some (alloc (step · l (.binary .and r)) a).1,
            (alloc (step · l (.binary .and r)) a).2) := rfl
      rw [h]
      refine ⟨by simp, ?_⟩
      rintro t ⟨⟩
      refine (hl l rfl).step fun c hc => ?_
      obtain rfl := List.mem_singleton.1 hc
      exact hr r rfl

theorem partition_allocated (keep : Term → Bool) {t : Term} {a : Arena} (h : t.Allocated a) :
    a.size ≤ (t.partition keep a).2.size ∧
      AllocatedPart (t.partition keep a).2 (t.partition keep a).1.1 ∧
      AllocatedPart (t.partition keep a).2 (t.partition keep a).1.2 := by
  induction t using conjuncts.induct generalizing a with
  | case1 id lhs rhs ihl ihr =>
    have hl := ihl (a := a) h.subject
    rcases hp : lhs.partition keep a with ⟨⟨lk, ll⟩, a₁⟩
    rw [hp] at hl
    obtain ⟨hl₁, hlk, hll⟩ := hl
    have hr := ihr (a := a₁) ((h.operand (c := (rhs, 0)) List.mem_cons_self).mono hl₁)
    rcases hq : rhs.partition keep a₁ with ⟨⟨rk, rl⟩, a₂⟩
    rw [hq] at hr
    obtain ⟨hr₁, hrk, hrl⟩ := hr
    have hsize : a.size ≤ a₂.size := Nat.le_trans hl₁ hr₁
    simp only [partition, bind, StateT.bind, hp, hq]
    by_cases hleft : (ll.isNone && rl.isNone) = true
    · rw [if_pos hleft]
      exact ⟨hsize, allocatedPart_some (h.mono hsize), allocatedPart_none _⟩
    · rw [if_neg hleft]
      by_cases hkept : (lk.isNone && rk.isNone) = true
      · rw [if_pos hkept]
        exact ⟨hsize, allocatedPart_none _, allocatedPart_some (h.mono hsize)⟩
      · rw [if_neg hkept]
        obtain ⟨hk₁, hk⟩ := conjoin_allocated (hlk.mono hr₁) hrk
        obtain ⟨hl₂, hl⟩ := conjoin_allocated ((hll.mono hr₁).mono hk₁) (hrl.mono hk₁)
        exact ⟨Nat.le_trans hsize (Nat.le_trans hk₁ hl₂), hk.mono hl₂, hl⟩
  | case2 t ht =>
    have hp : t.partition keep = pure (if keep t then (some t, none) else (none, some t)) :=
      partition_eq_pure ht
    rw [hp]
    by_cases hk : keep t = true
    · rw [if_pos hk]
      exact ⟨Nat.le_refl _, allocatedPart_some h, allocatedPart_none _⟩
    · rw [if_neg hk]
      exact ⟨Nat.le_refl _, allocatedPart_none _, allocatedPart_some h⟩

theorem orTrue_allocated {part : Option Term} {a : Arena} (h : AllocatedPart a part) :
    a.size ≤ (orTrue part a).2.size ∧ (orTrue part a).1.Allocated (orTrue part a).2 := by
  cases part with
  | some t => exact ⟨Nat.le_refl _, h t rfl⟩
  | none =>
    exact ⟨by simp [orTrue], ordered_literal _ _, by simp [orTrue, id]⟩

/-- Both parts of a split predicate were allocated in the arena that comes out. -/
theorem split_allocated (keep : Term → Bool) {t : Term} {a : Arena} (h : t.Allocated a) :
    a.size ≤ (t.split keep a).2.size ∧ (t.split keep a).1.1.Allocated (t.split keep a).2 ∧
      (t.split keep a).1.2.Allocated (t.split keep a).2 := by
  obtain ⟨hp, hk, hl⟩ := partition_allocated keep h
  obtain ⟨hk₁, hkept⟩ := orTrue_allocated hk
  obtain ⟨hl₁, hleft⟩ := orTrue_allocated (hl.mono hk₁)
  exact ⟨Nat.le_trans hp (Nat.le_trans hk₁ hl₁), hkept.mono hl₁, hleft⟩

/-- The references of a predicate are those of its conjuncts. -/
theorem references_iff_conjuncts {P : Nat → Nat → Prop} {level : Nat} {t : Term} :
    t.References P level ↔ ∀ c ∈ t.conjuncts, c.References P level := by
  induction t using conjuncts.induct with
  | case1 id lhs rhs ihl ihr =>
    simp only [conjuncts, List.mem_append]
    constructor
    · rintro h c (hc | hc)
      · exact ihl.1 h.subject c hc
      · exact ihr.1 (h.operand (c := (rhs, 0)) List.mem_cons_self) c hc
    · intro h
      have hl := ihl.2 fun c hc => h c (.inl hc)
      have hr := ihr.2 fun c hc => h c (.inr hc)
      refine .node (fun _ _ ht => by cases ht) fun c hc => ?_
      rcases List.mem_cons.1 hc with rfl | hc
      · exact hl
      · obtain rfl := List.mem_singleton.1 hc
        exact hr
  | case2 t ht => simp [conjuncts_eq_singleton ht]

end Term

end QueryPushdown
