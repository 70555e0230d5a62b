import QueryPushdown.Engine.Execution
import QueryPushdown.Proofs.Engine.Planning
import QueryPushdown.Proofs.Typing.Scoping

/-!
# Sound execution

Whatever prefix a backend takes over, the answer is the one of the interpreter, as long as the
backend answers what it compiled as the interpreter would.
-/

namespace QueryPushdown

/-- A backend answers every request that it compiles as the interpreter does, where that one has an
answer. -/
def Backend.Faithful (b : Backend) (schema : Schema) (input : Input) : Prop :=
  ∀ (p : Request) (fragment : Fragment) (w : Value), b.compile schema p = .ok fragment →
    p.eval input [] = .ok w → (b.run fragment).outcome = .ok w

/-- Every prefix of a chain has a value, and the conjuncts of its filters are boolean on the elements
that each filter goes through. -/
structure Term.Smooth (input : Input) (t : Term) : Prop where
  evaluates : ∀ entry ∈ t.chain, ∃ w, entry.outcome input [] = .ok w
  boolean : ∀ (id : Nat) (subject predicate : Term) (w : Value),
    .step id subject (.filter predicate) ∈ t.chain → subject.outcome input [] = .ok w →
      ∀ v ∈ w.elements, ∀ c ∈ predicate.conjuncts, ∃ b, c.outcome input [v] = .ok (.bool b)

namespace Term.Smooth

variable {input : Input} {t : Term}

theorem value (h : t.Smooth input) : ∃ w, t.outcome input [] = .ok w :=
  h.evaluates t (mem_chain.2 t.self_mem_spine)

theorem of_mem_spine (h : t.Smooth input) {entry : Term} (he : entry ∈ t.spine) :
    entry.Smooth input :=
  ⟨fun e hm => h.evaluates e (mem_chain.2 (spine_subset_of_mem he (mem_chain.1 hm))),
    fun id s p w hm => h.boolean id s p w (mem_chain.2 (spine_subset_of_mem he (mem_chain.1 hm)))⟩

theorem subject {id : Nat} {subject : Term} {action : Step}
    (h : (step id subject action).Smooth input) : subject.Smooth input :=
  h.of_mem_spine (List.mem_cons_of_mem _ subject.self_mem_spine)

/-- A filter with fewer conjuncts is as smooth. -/
theorem fewer {id : Nat} {subject predicate : Term}
    (h : (step id subject (.filter predicate)).Smooth input) (id' : Nat) {kept : Term}
    (hk : kept.conjuncts ⊆ predicate.conjuncts) :
    (step id' subject (.filter kept)).Smooth input := by
  obtain ⟨w, hw⟩ := h.subject.value
  obtain ⟨v, hv⟩ := h.value
  obtain ⟨ps, hs⟩ := sequence_of_outcome_filter hv
  have hboolean : ∀ v ∈ w.elements, ∀ c ∈ kept.conjuncts, ∃ b,
      c.outcome input [v] = .ok (.bool b) := fun v hv c hc =>
    h.boolean id subject predicate w (mem_chain.2 (self_mem_spine _)) hw v hv c (hk hc)
  constructor
  · intro entry he
    rcases List.mem_cons.1 (mem_chain.1 he) with rfl | he
    · exact ⟨_, outcome_filter hw hs hboolean⟩
    · exact h.subject.evaluates entry (mem_chain.2 he)
  · intro id'' s p u he hu
    rcases List.mem_cons.1 (mem_chain.1 he) with he | he
    · cases he
      rw [hw] at hu
      cases hu
      exact hboolean
    · exact h.subject.boolean id'' s p u (mem_chain.2 he) hu

end Term.Smooth

theorem Outcome.Related.eq_ok {α : Type} {a : α} {y : Outcome α}
    (h : Outcome.Related .kinds Eq (.ok a) y) : y = .ok a := by
  cases h with
  | ok h => rw [h]
  | second h => exact h.elim

theorem Term.References.filter {P : Nat → Nat → Prop} {level : Nat} {subject predicate : Term}
    (id : Nat) (hs : subject.References P level) (hp : predicate.References P (level + 1)) :
    (Term.step id subject (.filter predicate)).References P level := by
  refine .node (fun _ _ ht => by cases ht) fun c hc => ?_
  rcases List.mem_cons.1 hc with rfl | hc
  · exact hs
  · obtain rfl := List.mem_singleton.1 hc
    exact hp

/-- A property of prefixes that survives the planner's way down. -/
structure Prefixes (input : Input) (Good : Term → Prop) : Prop where
  smooth : ∀ t, Good t → t.Smooth input
  subject : ∀ id subject action, Good (.step id subject action) → Good subject
  fewer : ∀ id id' subject predicate kept, Good (.step id subject (.filter predicate)) →
    kept.conjuncts.Sublist predicate.conjuncts → Good (.step id' subject (.filter kept))

theorem Prefixes.of_mem_spine {input : Input} {Good : Term → Prop} (hg : Prefixes input Good)
    {t entry : Term} (h : Good t) (he : entry ∈ t.spine) : Good entry :=
  Term.holds_of_mem_spine (P := Good) hg.subject h he

namespace Position

variable {input : Input} {Good : Term → Prop} {v : Value}

/-- What holds of every position on the way down from a request with a type and a value. -/
structure Answers (input : Input) (Good : Term → Prop) (v : Value) (p : Position) : Prop where
  closed : p.request.root.References (fun level up => up < level) 0
  answer : p.request.eval input [] = .ok v
  good : Good p.marker

/-- Splitting a filter leaves a closed request closed. -/
theorem Placed.closed_split {r : Request} {p next : Position} {keep : Term → Bool} {id : Nat}
    {subject : Term} {action : Step} (h : p.Placed r)
    (hclosed : p.request.root.References (fun level up => up < level) 0)
    (he : .step id subject action ∈ p.marker.spine)
    (hs : p.request.splitFilter? keep (.step id subject action) =
      some (next.request, next.marker)) :
    next.request.root.References (fun level up => up < level) 0 := by
  obtain ⟨id', subject', predicate, heq, hk, hl, hpushed, hroot, -⟩ :=
    Request.splitFilter?_eq_some hs
  cases heq
  have href := hclosed.of_mem_spine (Term.spine_subset_of_mem h.onChain he)
  have hpredicate := Term.references_iff_conjuncts.1
    (href.operand (c := (predicate, 1)) List.mem_cons_self)
  rw [hroot, hpushed]
  refine Term.rebase_references hclosed (.filter _ (.filter _ href.subject ?_) ?_)
  · exact Term.references_iff_conjuncts.2 fun c hc =>
      hpredicate c (List.mem_of_mem_filter (hk ▸ hc))
  · exact Term.references_iff_conjuncts.2 fun c hc =>
      hpredicate c (List.mem_of_mem_filter (hl ▸ hc))

private theorem Answers.split {r : Request} {p next : Position} {keep : Term → Bool} {id : Nat}
    {subject : Term} {action : Step} (hg : Prefixes input Good) (h : p.Answers input Good v)
    (hp : p.Placed r) (he : .step id subject action ∈ p.marker.spine)
    (hs : p.request.splitFilter? keep (.step id subject action) =
      some (next.request, next.marker)) : next.Answers input Good v := by
  obtain ⟨id', subject', predicate, heq, hk, hl, hpushed, hroot, -⟩ :=
    Request.splitFilter?_eq_some hs
  cases heq
  have hgood := hg.of_mem_spine h.good he
  have hsmooth := hg.smooth _ hgood
  have hchain := Term.spine_subset_of_mem hp.onChain he
  refine ⟨hp.closed_split h.closed he hs, ?_, ?_⟩
  · obtain ⟨w, hw⟩ := hsmooth.subject.value
    have hboolean := hsmooth.boolean id subject predicate w
      (Term.mem_chain.2 (Term.self_mem_spine _)) hw
    have hfind := hp.ordered.ordered.find?_spine hchain
    have hsame : Outcome.Related .kinds Eq (p.request.eval input []) (next.request.eval input []) := by
      refine Outcome.Related.outcome ?_
      rw [hroot]
      refine Term.rebase_related (n := 0) Tolerance.kinds_namesPair hfind ?_
        (fun _ _ action _ b _ => action.shift_zero_agree b) (Nat.zero_le _)
      rw [hpushed]
      exact Term.eval_split_filter_related _ _ _ hw hboolean hk hl
    rw [h.answer] at hsame
    exact hsame.eq_ok
  · rw [hpushed]
    exact hg.fewer id _ subject predicate _ hgood (hk ▸ List.filter_sublist)

/-- A retreat keeps the answer. -/
theorem Answers.retreat {r : Request} {p next : Position} {keep : Term → Bool} {refused : Nat}
    (hg : Prefixes input Good) (h : p.Answers input Good v) (hp : p.Placed r)
    (hn : p.retreat? keep refused = some next) : next.Answers input Good v := by
  obtain ⟨id, subject, action, he, hnext | hnext⟩ := retreat?_cases hn
  · rw [hnext]
    exact ⟨h.closed, h.answer, hg.of_mem_spine h.good (Term.subject_mem_spine he)⟩
  · exact h.split hg hp he hnext

/-- A request is cut at the end of a placed prefix. -/
theorem Placed.cut {r : Request} {p : Position} (h : p.Placed r) :
    ∃ c, p.request.cut p.marker.id = .ok c ∧ c.before = { p.request with root := p.marker } := by
  have hfound : p.request.onChain? p.marker.id = some p.marker :=
    h.ordered.ordered.find?_spine h.onChain
  unfold Request.cut
  rw [hfound]
  exact ⟨_, rfl, rfl⟩

end Position

namespace Db

variable {db : Db} {b : Backend} {r : Request} {v : Value} {Good : Term → Prop}

/-- A plan gives the answer when the backend answers its prefix as the interpreter does. -/
theorem runPlan_answers (hg : Prefixes db.input Good) {plan : Plan}
    (hp : Position.Placed r ⟨plan.request, plan.marker⟩)
    (ha : Position.Answers db.input Good v ⟨plan.request, plan.marker⟩)
    (hrun : ∀ w, plan.marker.outcome db.input [] = .ok w →
      (b.run plan.fragment).outcome = .ok w) :
    ∃ e, (db.runPlan b r plan).outcome = .ok e ∧ e.value = v := by
  unfold runPlan
  by_cases hid : plan.marker.id = r.root.id
  · rw [if_pos hid]
    have hwhole : (⟨plan.request, plan.marker⟩ : Position) = ⟨r, r.root⟩ := by
      rcases hp.whole with hw | hw
      · exact hw
      · exact absurd hid (hw plan.marker plan.marker.self_mem_spine)
    have hrequest : plan.request = r := congrArg Position.request hwhole
    have hmarker : plan.marker = r.root := congrArg Position.marker hwhole
    have hv : plan.marker.outcome db.input [] = .ok v := by
      rw [hmarker, ← hrequest]
      exact ha.answer
    rw [Run.outcome_bind, hrun v hv]
    exact ⟨⟨.pushed, v, some plan.fragment.text⟩, rfl, rfl⟩
  · rw [if_neg hid]
    obtain ⟨w, hw⟩ := (hg.smooth _ ha.good).value
    obtain ⟨c, hc, hbefore⟩ := hp.cut
    have hafter : c.after.eval db.input [w] = .ok v := by
      have hsame : Outcome.Related .kinds Eq (plan.request.eval db.input [])
          (c.after.eval db.input [w]) :=
        Request.cut_after_related Tolerance.kinds_namesPair hp.ordered hc
          (ha.closed.mono fun level up hup => Scope.carries_of_lt [] [w] 1 hup)
          (Term.eval_related_of_outcome (by rw [hbefore]; exact hw))
      rw [ha.answer] at hsame
      exact hsame.eq_ok
    refine ⟨⟨.partialCut, v, some plan.fragment.text⟩, ?_, rfl⟩
    have hrest : (c.after.run db.input [w]).outcome = .ok v := hafter
    rw [Run.outcome_bind, Run.outcome_lift, hc]
    change Run.outcome (_ >>= _) = _
    rw [Run.outcome_bind, hrun w hw]
    change Run.outcome (_ >>= _) = _
    rw [Run.outcome_bind, hrest]
    rfl

/-- Without a plan there is nothing to push; with one, the answer is the interpreter's. -/
theorem push?_answers {ty : Ty} (hg : Prefixes db.input Good) (hr : r.Ordered)
    (hbackend : ∀ (b : Backend) (p : Request) (fragment : Fragment) (w : Value),
      db.backend? r.root = some b → Good p.root → b.compile db.schema p = .ok fragment →
        p.eval db.input [] = .ok w → (b.run fragment).outcome = .ok w)
    (hty : r.root.infer db.schema [] = .ok ty) (hv : r.eval db.input [] = .ok v)
    (hgood : Good r.root) :
    (db.push? r).outcome = .ok none ∨
      ∃ e, (db.push? r).outcome = .ok (some e) ∧ e.value = v := by
  unfold push?
  cases hb : db.backend? r.root with
  | none => exact .inl rfl
  | some b =>
    cases hplan : b.plan db.schema r with
    | none =>
      simp only [hplan]
      exact .inl rfl
    | some plan =>
      simp only [hplan]
      obtain ⟨⟨hp, ha⟩, hc⟩ := Backend.planFrom_induction
        (P := fun p => p.Placed r ∧ p.Answers db.input Good v)
        (fun p next refused h hn => ⟨h.1.retreat hr hn, h.2.retreat hg h.1 hn⟩)
        ⟨.start hr, Term.references_of_infer hty, hv, hgood⟩ hplan
      obtain ⟨e, he, hvalue⟩ := runPlan_answers hg hp ha fun w hw =>
        hbackend b _ _ w hb ha.good hc hw
      refine .inr ⟨e, ?_, hvalue⟩
      rw [Run.outcome_bind, he]
      rfl

/-- Without point lookups, what is not pushed is interpreted. -/
theorem outcome_execute {ty : Ty} (hty : r.root.infer db.schema [] = .ok ty)
    (hlookups : db.settings.pointLookups = false) :
    (db.execute r).outcome = (do
      match ← (attempt db.settings.pushdown (db.push? r)).outcome with
      | some e => pure e
      | none => (db.interpret r).outcome) := by
  unfold execute
  rw [Run.outcome_bind, Run.outcome_lift, hty, hlookups]
  change Run.outcome (attempt db.settings.pushdown (db.push? r) >>= _) = _
  rw [Run.outcome_bind]
  congr 1
  funext o
  cases o <;> rfl

theorem outcome_interpret (hv : r.eval db.input [] = .ok v) :
    (db.interpret r).outcome = .ok ⟨.fullFallback, v, none⟩ := by
  have hrun : (r.run db.input []).outcome = .ok v := hv
  rw [interpret, Run.outcome_bind, hrun]
  rfl

/-- Execution answers as the interpreter does when the backend of the sources answers every good
prefix as the interpreter does. -/
theorem execute_answers {ty : Ty} (hg : Prefixes db.input Good) (hr : r.Ordered)
    (hlookups : db.settings.pointLookups = false)
    (hbackend : ∀ (b : Backend) (p : Request) (fragment : Fragment) (w : Value),
      db.backend? r.root = some b → Good p.root → b.compile db.schema p = .ok fragment →
        p.eval db.input [] = .ok w → (b.run fragment).outcome = .ok w)
    (hty : r.root.infer db.schema [] = .ok ty) (hv : r.eval db.input [] = .ok v)
    (hgood : Good r.root) : ∃ e, (db.execute r).outcome = .ok e ∧ e.value = v := by
  rw [outcome_execute hty hlookups]
  cases db.settings.pushdown with
  | false => exact ⟨_, outcome_interpret hv, rfl⟩
  | true =>
    rcases push?_answers hg hr hbackend hty hv hgood with hnone | ⟨e, he, hvalue⟩
    · rw [attempt, if_pos rfl, hnone]
      exact ⟨_, outcome_interpret hv, rfl⟩
    · rw [attempt, if_pos rfl, he]
      exact ⟨e, rfl, hvalue⟩

theorem smooth_prefixes (input : Input) : Prefixes input (Term.Smooth input) where
  smooth _ h := h
  subject _ _ _ h := h.subject
  fewer _ id' _ _ _ h hk := h.fewer id' hk.subset

/-- Execution is sound over every faithful backend: it gives the value of the interpreter, and
whatever the backend refuses, the request that planning ends with can be cut at its marker. -/
theorem execute_sound {ty : Ty} (hr : r.Ordered) (hlookups : db.settings.pointLookups = false)
    (hbackend : ∀ b, db.backend? r.root = some b → b.Faithful db.schema db.input)
    (hty : r.root.infer db.schema [] = .ok ty) (hv : r.eval db.input [] = .ok v)
    (hsmooth : r.root.Smooth db.input) :
    (∃ e, (db.execute r).outcome = .ok e ∧ e.value = v) ∧
      ∀ (b : Backend) (plan : Plan), b.plan db.schema r = some plan →
        plan.marker ∈ plan.request.root.chain ∧ ∃ c, plan.request.cut plan.marker.id = .ok c := by
  refine ⟨?_, fun b plan hplan => ?_⟩
  · exact execute_answers (smooth_prefixes db.input) hr hlookups
      (fun b p fragment w hb _ hc hw => hbackend b hb p fragment w hc hw) hty hv hsmooth
  · obtain ⟨hp, -⟩ := Backend.planFrom_induction (P := Position.Placed r)
      (fun p next refused h hn => h.retreat hr hn) (.start hr) hplan
    obtain ⟨c, hc, -⟩ := hp.cut
    exact ⟨Term.mem_chain.2 hp.onChain, c, hc⟩

end Db

/-- A backend that answers what it compiles by interpreting it. -/
def Backend.interpreting (supports : Term → Bool) (input : Input) : Backend where
  store := "interpreter"
  supports := supports
  compile := fun _ p => .ok (.select ⟨p.text, [], .column .any, .value⟩ p)
  run
    | .select _ p => p.run input []
    | .find _ => .fail (.stated "fragment was not compiled by an interpreter")

theorem Backend.interpreting_faithful (supports : Term → Bool) (schema : Schema) (input : Input) :
    (interpreting supports input).Faithful schema input := by
  rintro p fragment w ⟨⟩ hw
  exact hw

/-- Two elements of one source. -/
def Input.pair : Input := fun name =>
  if "items" = name then .ok [.mapping [("a", .int 1)], .mapping [("a", .int 7)]]
  else .error (.invalid (.unknownSource name))

/-- Two elements in a store that takes over everything but orders. -/
def Db.unordered : Db where
  schema := ⟨[("items", ⟨"items", [("a", .i64)], []⟩)]⟩
  sources := [("items", {
    collection := ⟨"items", [("a", .i64)], []⟩
    all := .ok [.mapping [("a", .int 1)], .mapping [("a", .int 7)]]
    canLookup := false
    lookup := fun _ => Source.noLookup ⟨"items", [("a", .i64)], []⟩
    backend? := some (Backend.interpreting
      (fun t => t.nodes.all fun | .step _ _ (.binary .lt _) => false | _ => true) Input.pair) })]
  settings := { pointLookups := false }

theorem Db.unordered_input : unordered.input = Input.pair := by
  funext name
  simp only [input, source?, unordered, Fields.get?, Input.pair]
  by_cases h : "items" = name
  · simp only [h, if_true]
  · simp only [h, if_false]

/-- How many elements equal one and are below five. -/
def Request.smallOnes : Request :=
  let a := (Request.context 0).wrap (.field "a")
  let one := a.combine (.literal (.int 1)) (.binary .eq)
  let small := a.combine (.literal (.int 5)) (.binary .lt)
  ((Request.source "items").combine (one.combine small (.binary .and)) .filter).wrap
    (.aggregate .len)

theorem Request.smallOnes_root : smallOnes.root =
    .step 11 (.step 10 (.source 0 "items") (.filter
      (.step 9 (.step 4 (.step 2 (.context 1 0) (.field "a")) (.binary .eq (.literal 3 (.int 1))))
        (.binary .and (.step 8 (.step 6 (.context 5 0) (.field "a"))
          (.binary .lt (.literal 7 (.int 5)))))))) (.aggregate .len) := rfl

theorem Request.smallOnes_ordered : smallOnes.Ordered :=
  ⟨by simp [smallOnes_root, Term.ordered_step, Step.operands, Term.id], by decide⟩

theorem Request.smallOnes_smooth : smallOnes.root.Smooth Input.pair := by
  rw [smallOnes_root]
  constructor
  · intro entry he
    simp only [Term.mem_chain, Term.spine, List.mem_cons, List.not_mem_nil, or_false] at he
    rcases he with rfl | rfl | rfl <;> exact ⟨_, rfl⟩
  · intro id subject predicate w he hw v hv c hc
    simp only [Term.mem_chain, Term.spine, List.mem_cons, List.not_mem_nil, or_false, Term.step.injEq,
      reduceCtorEq, and_false, false_or] at he
    obtain ⟨rfl, rfl, he⟩ := he
    cases he
    cases hw
    simp only [Term.conjuncts, List.singleton_append, List.mem_cons, List.not_mem_nil,
      or_false] at hc
    simp only [Value.elements, List.mem_cons, List.not_mem_nil, or_false] at hv
    rcases hv with rfl | rfl <;> rcases hc with rfl | rfl <;> exact ⟨_, rfl⟩

theorem Db.unordered_execute_sound :
    (∃ e, (unordered.execute .smallOnes).outcome = .ok e ∧ e.value = .int 1) ∧
      ∀ (b : Backend) (plan : Plan), b.plan unordered.schema .smallOnes = some plan →
        plan.marker ∈ plan.request.root.chain ∧ ∃ c, plan.request.cut plan.marker.id = .ok c := by
  refine execute_sound Request.smallOnes_ordered rfl ?_ rfl rfl ?_
  · rintro b ⟨⟩
    rw [unordered_input]
    exact Backend.interpreting_faithful _ _ _
  · rw [unordered_input]
    exact Request.smallOnes_smooth

end QueryPushdown
