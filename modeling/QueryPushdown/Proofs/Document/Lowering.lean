import QueryPushdown.Proofs.Document.Predicates

/-!
# Predicates lowered to filters

Lowering a predicate keeps its truth in every reading, as long as no two conjuncts negate the same
field.
-/

namespace QueryPushdown

namespace Term

/-- As a filter, the predicate has a condition under `$not` on the field. -/
def Negates (t : Term) (path : String) : Prop :=
  ∃ (e : Filter.Element) (f : Filter), t.filterOf e = .ok f ∧ f.denies path = true

/-- Predicates that do not both negate one field. -/
def Apart (c d : Term) : Prop := ∀ path, c.Negates path → ¬ d.Negates path

/-- Conjuncts are apart in all conjunctions of a predicate. -/
def Separate : Term → Prop
  | step _ lhs (.binary .and rhs) =>
    Separate lhs ∧ Separate rhs ∧ ∀ c ∈ lhs.conjuncts, ∀ d ∈ rhs.conjuncts, c.Apart d
  | step _ lhs (.binary .or rhs) => Separate lhs ∧ Separate rhs
  | step _ subject (.unary .not) => Separate subject
  | _ => True

theorem separate_iff_conjuncts {t : Term} : t.Separate ↔
    (∀ c ∈ t.conjuncts, c.Separate) ∧ t.conjuncts.Pairwise Apart := by
  induction t using conjuncts.induct with
  | case1 id lhs rhs ihl ihr =>
    rw [Separate, ihl, ihr, conjuncts, List.forall_mem_append, List.pairwise_append]
    constructor
    · rintro ⟨⟨hl, hlp⟩, ⟨hr, hrp⟩, hlr⟩
      exact ⟨⟨hl, hr⟩, hlp, hrp, hlr⟩
    · rintro ⟨⟨hl, hr⟩, hlp, hrp, hlr⟩
      exact ⟨⟨hl, hlp⟩, ⟨hr, hrp⟩, hlr⟩
  | case2 t ht => simp [conjuncts_eq_singleton ht]

end Term

namespace Filter

variable {e : Element} {input : Input} {v : Value} {f : Filter}

/-- A filter that says on every element what a predicate says. -/
def Expresses (f : Filter) (input : Input) (t : Term) : Prop :=
  Formed f ∧ ∀ (R : Reading) (v : Value), truth R v f = t.truth input v R

theorem scalarPath?_eq_some {t : Term} {path : String} (h : e.scalarPath? t = some path) :
    t.path? = some path := by
  unfold Element.scalarPath? at h
  obtain ⟨p, hp, h⟩ := Option.bind_eq_some_iff.1 h
  obtain ⟨ty, -, h⟩ := Option.bind_eq_some_iff.1 h
  split at h
  · cases h
    exact hp
  · cases h

theorem scalarLiteral?_eq_some {t : Term} {w : Value} (h : t.scalarLiteral? = some w) :
    w.isScalar = true ∧ ∃ id, t = .literal id w := by
  unfold Term.scalarLiteral? at h
  split at h
  · split at h
    · rename_i hw
      cases h
      exact ⟨hw, _, rfl⟩
    · cases h
  · cases h

/-- A comparison with a scalar literal on the right, as a condition. -/
theorem condition?_sound {op : BinaryOp} {w : Value} {content : Bson} (hw : w.isScalar = true)
    (h : condition? op (.ofValue w) = some content) :
    Condition content ∧ ∀ (R : Reading) (v : Value), condition R v content =
      .ofOutcome (do (← Operator.binary op v w).toBool) := by
  have hordered : ∀ {name : String} {test : Ordering → Bool}, name ∈ conditionOperators →
      isOperator name = true → name ≠ "$not" →
      (∀ v, meets v name (.ofValue w) = ordered test v (.ofValue w)) →
      (∀ v, Operator.binary op v w = (do pure (.bool (test (← v.compare? w))))) →
      Condition (operator name (.ofValue w)) ∧ ∀ (R : Reading) (v : Value),
        condition R v (operator name (.ofValue w)) =
          .ofOutcome (do (← Operator.binary op v w).toBool) := by
    intro name test hmem hname hnot hmeets hbinary
    refine ⟨.operator hmem hnot (.ofValue hw), fun R v => ?_⟩
    rw [condition_operator hname, operatorTruth, if_neg hnot, hmeets,
      (Operand.ofValue hw).ordered, hbinary]
    cases v.compare? w <;> rfl
  cases op with
  | eq =>
    cases h
    exact ⟨.scalar hw, fun R v => condition_scalar hw⟩
  | ne =>
    cases h
    refine ⟨.operator (by decide) (by decide) (.ofValue hw), fun R v => ?_⟩
    rw [condition_operator rfl, operatorTruth_ne, (Operand.ofValue hw).equals]
    rfl
  | lt | le | gt | ge =>
    cases h
    exact hordered (by decide) rfl (by decide) (fun _ => rfl) fun _ => rfl
  | _ => cases h

/-- Exchanging the sides of a comparison with a scalar makes no difference to what is found. -/
theorem flip_sound {op : BinaryOp} {w : Value} {content : Bson} (hw : w.isScalar = true)
    (h : condition? (flip op) (.ofValue w) = some content) (v : Value) :
    Truth.ofOutcome (do (← Operator.binary (flip op) v w).toBool) =
      .ofOutcome (do (← Operator.binary op w v).toBool) := by
  have hordered : ∀ {test test' : Ordering → Bool}, (∀ o, test' o = test o.swap) →
      Truth.ofOutcome (do
        (← (do pure (.bool (test' (← v.compare? w))) : Outcome Value)).toBool) =
      .ofOutcome (do (← (do pure (.bool (test (← w.compare? v))) : Outcome Value)).toBool) := by
    intro test test' htest
    cases hc : v.compare? w with
    | ok o =>
      rw [Value.compare?_swap hc]
      exact congrArg some (htest o)
    | error e =>
      cases hc' : w.compare? v with
      | ok o =>
        rw [Value.compare?_swap hc'] at hc
        cases hc
      | error e' => rfl
  cases op with
  | eq =>
    change some (v.isEq w) = some (w.isEq v)
    rw [Value.isEq_comm_of_isScalar hw]
  | ne =>
    change some (!v.isEq w) = some (!w.isEq v)
    rw [Value.isEq_comm_of_isScalar hw]
  | lt | le | gt | ge => exact hordered fun o => by cases o <;> rfl
  | _ => cases h

theorem expresses_path {t : Term} {path : String} {content : Bson} (hpath : isOperator path = false)
    (hc : Condition content) (h : ∀ (R : Reading) (v : Value),
      condition R (v.atPath path) content = t.truth input v R) :
    Expresses (single path content) input t :=
  ⟨formed_single hpath hc, fun R v => by rw [truth_path hpath, h]⟩

theorem comparison_sound {node id : Nat} {op : BinaryOp} {lhs rhs : Term}
    (ht : (Term.step id lhs (.binary op rhs)).IsElementary)
    (h : comparison e node op lhs rhs = .ok f) :
    Expresses f input (.step id lhs (.binary op rhs)) := by
  unfold comparison at h
  dsimp only at h
  split at h
  · rename_i g hg
    cases h
    obtain ⟨⟨path, op', w⟩, hsides, hg⟩ := Option.bind_eq_some_iff.1 hg
    obtain ⟨content, hcontent, hg⟩ := Option.bind_eq_some_iff.1 hg
    cases hg
    have hmatching : op' = .matching → False := by
      rintro rfl
      cases hcontent
    unfold comparison? at hsides
    split at hsides
    · rename_i hl hr
      cases hsides
      obtain ⟨hw, j, rfl⟩ := scalarLiteral?_eq_some hr
      have hpath := scalarPath?_eq_some hl
      obtain ⟨hc, htruth⟩ := condition?_sound hw hcontent
      refine expresses_path (Term.isOperator_path hpath) hc fun R v => ?_
      rw [htruth, Term.truth_elementary ht,
        Term.probe_binary id lhs _ (fun hop => (hmatching hop).elim), Term.reading_path hpath]
      rfl
    · split at hsides
      · rename_i hr hl
        cases hsides
        obtain ⟨hw, j, rfl⟩ := scalarLiteral?_eq_some hl
        have hpath := scalarPath?_eq_some hr
        obtain ⟨hc, htruth⟩ := condition?_sound hw hcontent
        have hop : op = .matching → False := by
          rintro rfl
          exact hmatching rfl
        refine expresses_path (Term.isOperator_path hpath) hc fun R v => ?_
        rw [htruth, flip_sound hw hcontent, Term.truth_elementary ht,
          Term.probe_binary id _ rhs (fun h => (hop h).elim), Term.reading_literal,
          Term.reading_path hpath]
        rfl
      · cases hsides
  · cases h

theorem matching_sound {node id : Nat} {lhs rhs : Term} (h : matching e node lhs rhs = .ok f) :
    Expresses f input (.step id lhs (.binary .matching rhs)) := by
  have ht : (Term.step id lhs (.binary .matching rhs)).IsElementary :=
    ⟨fun _ _ _ h => (by cases h), fun _ _ _ h => (by cases h), fun _ _ h => (by cases h)⟩
  unfold matching at h
  split at h
  · cases h
  · rename_i path hl
    have hpath := scalarPath?_eq_some hl
    split at h
    · rename_i j pattern
      split at h
      · rename_i text hexact
        cases h
        refine expresses_path (Term.isOperator_path hpath) (.scalar (w := .text text) rfl)
          fun R v => ?_
        have hcondition : condition R (v.atPath path) (.text text) =
            some ((v.atPath path).isEq (.text text)) := condition_scalar (w := .text text) rfl
        have hterm : Pattern.Anchored.ofTerm? (.literal j (.text pattern)) = some (.exact text) :=
          hexact
        rw [hcondition, Term.truth_elementary ht, Term.probe_exact id lhs hterm,
          Term.reading_path hpath]
        rfl
      · rename_i text hleading
        cases h
        have hpattern : "^" ++ text = pattern := by
          have hchars := (Pattern.Anchored.toList_of_ofText? hleading).1
          rw [← String.toList_inj, String.toList_append, hchars]
          simp [Pattern.Anchored.plain, Pattern.Anchored.closing]
        rw [hpattern]
        refine expresses_path (Term.isOperator_path hpath)
          (.operator (by decide) (by decide) (.ofValue (v := .text pattern) rfl)) fun R v => ?_
        have hmeets : operatorTruth R (v.atPath path) "$regex" (.text pattern) =
            .ofOutcome (matchesPattern (v.atPath path) (.text pattern)) := rfl
        rw [condition_operator rfl, hmeets, Term.truth_elementary ht,
          Term.probe_binary id lhs _ (fun _ text hexact => ?_), Term.reading_path hpath,
          Term.reading_literal]
        · cases v.atPath path with
          | text s =>
            change Truth.ofOutcome (Operator.matching s pattern) = .ofOutcome
              ((Operator.matching s pattern >>= fun b => pure (Value.bool b)) >>= Value.toBool)
            cases Operator.matching s pattern <;> rfl
          | _ => rfl
        · rw [Pattern.Anchored.ofTerm?, hleading] at hexact
          cases hexact
      · cases h
    · cases h

theorem flag_sound {id : Nat} {subject : Term} {name : String}
    (h : flag e (.step id subject (.field name)) = .ok f) :
    Expresses f input (.step id subject (.field name)) := by
  unfold flag at h
  split at h
  · rename_i path hpath _
    cases h
    refine expresses_path (Term.isOperator_path hpath) (.scalar (w := .bool true) rfl) fun R v => ?_
    have hcondition : condition R (v.atPath path) (.bool true) =
        some ((v.atPath path).isEq (.bool true)) := condition_scalar (w := .bool true) rfl
    rw [hcondition, Term.truth_elementary ⟨fun _ _ _ h => (by cases h), fun _ _ _ h => (by cases h),
      fun _ _ h => (by cases h)⟩, Term.probe]
    · rw [hpath]
      rfl
    · exact fun _ _ _ _ h => by cases h
  · cases h

theorem constant_sound {node id : Nat} {w : Value} (h : constant node w = .ok f) :
    Expresses f input (.literal id w) := by
  unfold constant at h
  split at h
  · cases h
    exact ⟨formed_nil, fun R v => rfl⟩
  · cases h
    refine ⟨formed_listed rfl fun g hg => List.mem_singleton.1 hg ▸ formed_nil, fun R v => ?_⟩
    rw [never, truth_listed_nor]
    exact R.meet_true _
  · cases h

end Filter

namespace Term

variable {e : Filter.Element} {input : Input}

/-- An elementary predicate that is made a filter is a literal, a field, a pattern or a comparison. -/
theorem filterOf_elementary {t : Term} {f : Filter} (ht : t.IsElementary)
    (h : t.filterOf e = .ok f) :
    (∃ id w, t = literal id w ∧ Filter.constant id w = .ok f) ∨
    (∃ id subject name, t = step id subject (.field name) ∧ Filter.flag e t = .ok f) ∨
    (∃ id lhs rhs, t = step id lhs (.binary .matching rhs) ∧
      Filter.matching e id lhs rhs = .ok f) ∨
    ∃ id op lhs rhs, t = step id lhs (.binary op rhs) ∧
      Filter.comparison e id op lhs rhs = .ok f := by
  cases t with
  | literal id w => exact .inl ⟨id, w, rfl, h⟩
  | step id subject action =>
    cases action with
    | field name => exact .inr (.inl ⟨id, subject, name, rfl, h⟩)
    | unary op =>
      cases op with
      | not => exact (ht.not_not _ _ rfl).elim
      | neg => cases h
    | binary op rhs =>
      cases op with
      | and => exact (ht.not_and _ _ _ rfl).elim
      | or => exact (ht.not_or _ _ _ rfl).elim
      | matching => exact .inr (.inr (.inl ⟨id, subject, rhs, rfl, h⟩))
      | eq | ne | lt | le | gt | ge => exact .inr (.inr (.inr ⟨id, _, subject, rhs, rfl, h⟩))
      | _ => cases h
    | _ => cases h
  | _ => cases h

/-- A predicate as a filter says what the predicate says, and negates only what a conjunct does. -/
theorem filterOf_sound {t : Term} {f : Filter} (h : t.filterOf e = .ok f) (hs : t.Separate) :
    f.Expresses input t ∧
      ∀ path, f.denies path = true → ∃ c ∈ t.conjuncts, c.Negates path := by
  induction t using predicate_induction generalizing f with
  | and id lhs rhs ihl ihr =>
    obtain ⟨hl, hr, hapart⟩ := hs
    obtain ⟨g, hg, h⟩ := Refusal.bind_eq_ok h
    obtain ⟨g', hg', h⟩ := Refusal.bind_eq_ok h
    cases h
    obtain ⟨⟨hformed, htruth⟩, hnegates⟩ := ihl hg hl
    obtain ⟨⟨hformed', htruth'⟩, hnegates'⟩ := ihr hg' hr
    have hclash : ∀ path, g.denies path = true → g'.denies path = false := by
      intro path hd
      obtain ⟨c, hc, hcn⟩ := hnegates path hd
      cases hd' : g'.denies path with
      | false => rfl
      | true =>
        obtain ⟨d, hd, hdn⟩ := hnegates' path hd'
        exact absurd hdn (hapart c hc d hd path hcn)
    obtain ⟨hand, hdenies, hmeet⟩ := hformed.and hformed' hclash
    refine ⟨⟨hand, fun R v => ?_⟩, fun path hd => ?_⟩
    · rw [hmeet, htruth, htruth', truth]
    · rw [conjuncts]
      rcases hdenies path hd with hd | hd
      · obtain ⟨c, hc, hcn⟩ := hnegates path hd
        exact ⟨c, List.mem_append_left _ hc, hcn⟩
      · obtain ⟨c, hc, hcn⟩ := hnegates' path hd
        exact ⟨c, List.mem_append_right _ hc, hcn⟩
  | or id lhs rhs ihl ihr =>
    refine ⟨?_, fun path hd => ⟨_, List.mem_singleton_self _, e, f, h, hd⟩⟩
    obtain ⟨hl, hr⟩ := hs
    obtain ⟨g, hg, h⟩ := Refusal.bind_eq_ok h
    obtain ⟨g', hg', h⟩ := Refusal.bind_eq_ok h
    cases h
    obtain ⟨⟨hformed, htruth⟩, -⟩ := ihl hg hl
    obtain ⟨⟨hformed', htruth'⟩, -⟩ := ihr hg' hr
    exact ⟨hformed.or hformed', fun R v => by
      rw [Filter.truth_or hformed hformed', htruth, htruth', truth]⟩
  | not id subject ih =>
    refine ⟨?_, fun path hd => ⟨_, List.mem_singleton_self _, e, f, h, hd⟩⟩
    obtain ⟨g, hg, h⟩ := Refusal.bind_eq_ok h
    cases h
    obtain ⟨⟨hformed, htruth⟩, -⟩ := ih hg hs
    obtain ⟨hnegated, hneg⟩ := hformed.negated
    exact ⟨hnegated, fun R v => by rw [hneg, htruth, truth]⟩
  | elementary t ht =>
    refine ⟨?_, fun path hd => ⟨t, ?_, e, f, h, hd⟩⟩
    · rcases filterOf_elementary ht h with ⟨id, w, rfl, hf⟩ | ⟨id, subject, name, rfl, hf⟩ |
        ⟨id, lhs, rhs, rfl, hf⟩ | ⟨id, op, lhs, rhs, rfl, hf⟩
      · exact Filter.constant_sound hf
      · exact Filter.flag_sound hf
      · exact Filter.matching_sound hf
      · exact Filter.comparison_sound ht hf
    · rw [conjuncts_eq_singleton ht.not_and]
      exact List.mem_singleton_self t

end Term

end QueryPushdown
