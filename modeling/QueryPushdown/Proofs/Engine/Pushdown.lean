import QueryPushdown.Proofs.Engine.Documents
import QueryPushdown.Proofs.Engine.Soundness

/-!
# Pushing requests down to document stores

Whatever prefix of a request a document store takes over, execution answers as the interpreter does
or fails: a find looks at every element, where the interpreter stops when it has what it needs.
Execution does not fail where the elementary tests of all filters can be made on all elements.
-/

namespace QueryPushdown

namespace Term

variable {input : Input} {t : Term}

theorem head_of_mem_spine {entry : Term} (h : entry ∈ t.spine) : entry.head = t.head :=
  holds_of_mem_spine (P := fun e => e.head = t.head) (fun _ _ _ hs => hs) rfl h

/-- The elementary tests of the filters of stored elements can be made on all of these. -/
def Testable (input : Input) (t : Term) : Prop :=
  ∀ id name rows, t.head = .source id name → input name = .ok rows →
    ∀ v ∈ rows, ∀ c ∈ t.gathered, ∀ d ∈ c.tests, ∃ b, d.outcome input [v] = .ok (.bool b)

theorem Testable.mono {s : Term} (h : t.Testable input) (hg : s.gathered.Sublist t.gathered)
    (hh : s.head = t.head) : s.Testable input :=
  fun id name rows hs hr v hv c hc => h id name rows (hh ▸ hs) hr v hv c (hg.subset hc)

/-- A chain over a source that has a value reads the source. -/
theorem rows_of_eager {id : Nat} {name : String} {v : Value} (hhead : t.head = .source id name)
    (h : t.eager input = .ok v) : ∃ rows, input name = .ok rows := by
  induction t using spine.induct generalizing v with
  | case1 id subject action ih =>
    obtain ⟨w, hw, -⟩ := Outcome.bind_eq_ok.1 h
    exact ih hhead hw
  | case2 t ht =>
    have ht : t = .source id name := by
      rw [← hhead]
      cases t with
      | step id subject action => exact absurd rfl (ht id subject action)
      | _ => rfl
    subst ht
    cases hinput : input name with
    | ok rows => exact ⟨rows, rfl⟩
    | error e =>
      have heval : ((source id name).eval input []).outcome = .error e := by
        rw [eval, Run.outcome_bind, Input.scan, Run.outcome_accessing, hinput]
        rfl
      rw [eager, outcome_eq, heval] at h
      · cases h
      · exact ht

end Term

namespace Find

variable {schema : Schema} {q : Find} {t : Term}

theorem compile_head (h : compile schema t = .ok q) : ∃ id, t.head = .source id q.collection := by
  obtain ⟨body, p, hp, hsub, hq, -⟩ := ofTerm_eq_ok .empty (compile_eq_ok h)
  obtain ⟨⟨id, hhead⟩, -⟩ := ofList_shape hp
  refine ⟨id, ?_⟩
  rw [← Term.head_of_mem_spine hsub, hhead, hq]

end Find

namespace Position

variable {input : Input} {v : Value} {r : Request} {p next : Position} {keep : Term → Bool}

/-- What holds of every position on the way down from a request with an eager value. -/
structure Keeps (input : Input) (r : Request) (v : Value) (p : Position) : Prop where
  closed : p.request.root.References (fun level up => up < level) 0
  eager : p.request.root.eager input = .ok v
  combinable : p.marker.Combinable input
  head : p.marker.head = r.root.head

private theorem Keeps.split {id : Nat} {subject : Term} {action : Step} (h : p.Keeps input r v)
    (hp : p.Placed r) (he : .step id subject action ∈ p.marker.spine)
    (hs : p.request.splitFilter? keep (.step id subject action) =
      some (next.request, next.marker)) : next.Keeps input r v := by
  obtain ⟨id', subject', predicate, heq, hk, hl, hpushed, hroot, -⟩ :=
    Request.splitFilter?_eq_some hs
  cases heq
  have hfind := hp.ordered.ordered.find?_spine (Term.spine_subset_of_mem hp.onChain he)
  refine ⟨hp.closed_split h.closed he hs, ?_, ?_, ?_⟩
  · rw [hroot]
    refine (Term.eager_rebase _ hfind ?_).trans h.eager
    rw [hpushed]
    exact Term.eager_split_filter _ _ _ hk hl
  · rw [hpushed]
    exact (h.combinable.of_mem_spine he).fewer _ (hk ▸ List.filter_sublist)
  · rw [hpushed, ← h.head, ← Term.head_of_mem_spine he]
    rfl

/-- A retreat keeps the eager value. -/
theorem Keeps.retreat {refused : Nat} (h : p.Keeps input r v) (hp : p.Placed r)
    (hn : p.retreat? keep refused = some next) : next.Keeps input r v := by
  obtain ⟨id, subject, action, he, hnext | hnext⟩ := retreat?_cases hn
  · have hsub := Term.subject_mem_spine he
    rw [hnext]
    exact ⟨h.closed, h.eager, h.combinable.of_mem_spine hsub,
      (Term.head_of_mem_spine hsub).trans h.head⟩
  · exact h.split hp he hnext

end Position

namespace Db

variable {c : Store.Catalog} {settings : Settings} {dialect : Sql.Dialect} {db : Db} {r : Request}
  {b : Backend} {v : Value}

/-- What the backend of a request compiled for a prefix is a find over what the interpreter reads. -/
theorem run_compiled (hdb : ofSources c.sources settings dialect = .ok db)
    (hdocuments : c.IsDocuments) (hb : db.backend? r.root = some b)
    {p : Request} {fragment : Fragment} (hhead : p.root.head = r.root.head)
    (hc : b.compile db.schema p = .ok fragment) :
    ∃ (q : Find) (documents : List Document) (id : Nat),
      Find.compile db.schema p.root = .ok q ∧ r.root.head = .source id q.collection ∧
      db.input q.collection = documents.mapM Document.toValue ∧ documents.length < 2 ^ 64 ∧
      (b.run fragment).outcome = q.answer documents := by
  obtain ⟨store, rfl, hentries⟩ :=
    Store.Catalog.documentBackend_of_backend? hdb hdocuments hb
  obtain ⟨q, hq, hc⟩ := Refusal.bind_eq_ok hc
  cases hc
  obtain ⟨id, hsource⟩ := Find.compile_head hq
  rw [hhead] at hsource
  obtain ⟨e, he, hname, hstore⟩ := hentries q.collection
    (Term.mem_sources_of_mem_nodes (hsource ▸ r.root.head_mem_nodes))
  obtain ⟨documents, hinput, hlen, hrun⟩ := Store.Catalog.runFind_eq hdb hdocuments he hname
  rw [hstore] at hrun
  exact ⟨q, documents, id, hq, hsource, hinput, hlen, hrun⟩

/-- Whatever part of a request a document store takes over, an answer is the eager value. -/
theorem runPlan_eager (hdb : ofSources c.sources settings dialect = .ok db)
    (hdocuments : c.IsDocuments) (hb : db.backend? r.root = some b)
    {plan : Plan} (hp : Position.Placed r ⟨plan.request, plan.marker⟩)
    (hkeeps : Position.Keeps db.input r v ⟨plan.request, plan.marker⟩)
    (hc : b.compile db.schema { plan.request with root := plan.marker } = .ok plan.fragment)
    (hroot : r.root.eager db.input = .ok v) {e : Execution}
    (he : (db.runPlan b r plan).outcome = .ok e) : e.value = v := by
  obtain ⟨q, documents, id, hq, hhead, hinput, hlen, hrun⟩ :=
    run_compiled (p := { plan.request with root := plan.marker }) hdb hdocuments hb hkeeps.head hc
  obtain ⟨rows, hrows⟩ := Term.rows_of_eager hhead hroot
  have hdocs := hinput.symm.trans hrows
  have hanswer : ∀ w, (b.run plan.fragment).outcome = .ok w →
      plan.marker.eager db.input = .ok w := fun w hw =>
    Find.eager_of_answer hq hdocs hrows (by rwa [Outcome.length_of_mapM hdocs]) hkeeps.combinable
      (hrun.symm.trans hw)
  unfold runPlan at he
  by_cases hid : plan.marker.id = r.root.id
  · rw [if_pos hid] at he
    have hwhole : (⟨plan.request, plan.marker⟩ : Position) = ⟨r, r.root⟩ := by
      rcases hp.whole with hw | hw
      · exact hw
      · exact absurd hid (hw plan.marker plan.marker.self_mem_spine)
    have hmarker : plan.marker = r.root := congrArg Position.marker hwhole
    rw [Run.outcome_bind] at he
    obtain ⟨w, hw, he⟩ := Outcome.bind_eq_ok.1 he
    cases he
    have hsame := hanswer w hw
    rw [hmarker, hroot] at hsame
    cases hsame
    rfl
  · rw [if_neg hid] at he
    rw [Run.outcome_bind] at he
    obtain ⟨cut, hcut, he⟩ := Outcome.bind_eq_ok.1 he
    rw [Run.outcome_bind] at he
    obtain ⟨w, hw, he⟩ := Outcome.bind_eq_ok.1 he
    rw [Run.outcome_bind] at he
    obtain ⟨u, hu, he⟩ := Outcome.bind_eq_ok.1 he
    cases he
    obtain ⟨cut', hcut', hbefore⟩ := hp.cut
    rw [Run.outcome_lift] at hcut
    obtain rfl : cut' = cut := Except.ok.inj (hcut'.symm.trans hcut)
    have heager := Request.eager_of_cut_after hp.ordered hcut' hkeeps.closed
      (by rw [hbefore]; exact hanswer w hw) hu
    rw [hkeeps.eager] at heager
    cases heager
    rfl

/-- An answer that pushing down gives is the eager value. -/
theorem push?_eager {ty : Ty} (hdb : ofSources c.sources settings dialect = .ok db)
    (hdocuments : c.IsDocuments) (hr : r.Ordered)
    (hty : r.root.infer db.schema [] = .ok ty) (hroot : r.root.eager db.input = .ok v)
    (hc : r.root.Combinable db.input) {e : Execution}
    (he : (db.push? r).outcome = .ok (some e)) : e.value = v := by
  unfold push? at he
  cases hb : db.backend? r.root with
  | none =>
    rw [hb] at he
    cases he
  | some b =>
    rw [hb] at he
    cases hplan : b.plan db.schema r with
    | none =>
      simp only [hplan] at he
      cases he
    | some plan =>
      simp only [hplan] at he
      obtain ⟨⟨hp, hkeeps⟩, hcompile⟩ := Backend.planFrom_induction
        (P := fun p => p.Placed r ∧ p.Keeps db.input r v)
        (fun p next refused h hn => ⟨h.1.retreat hr hn, h.2.retreat h.1 hn⟩)
        ⟨.start hr, Term.references_of_infer hty, hroot, hc, rfl⟩ hplan
      rw [Run.outcome_bind] at he
      obtain ⟨e', he', h⟩ := Outcome.bind_eq_ok.1 he
      cases h
      exact runPlan_eager hdb hdocuments hb hp hkeeps hcompile hroot he'

/-- The elementary tests of a request can be made on everything that its find is going to test. -/
theorem testable_prefixes (input : Input) (head : Term) : Prefixes input fun t =>
    t.Smooth input ∧ t.Combinable input ∧ t.Testable input ∧ t.head = head where
  smooth _ h := h.1
  subject id t action h := ⟨h.1.subject, h.2.1.subject,
    h.2.2.1.mono (Term.gathered_sublist id t action) rfl, h.2.2.2⟩
  fewer id id' t _ _ h hk := ⟨h.1.fewer id' hk.subset, h.2.1.fewer id' hk,
    h.2.2.1.mono (Term.gathered_fewer id id' t hk) rfl, h.2.2.2⟩

/-- Pushing a request down to document stores never gives another answer than interpreting it, and
it gives an answer where every entry of the chain and every elementary test has a value. -/
theorem pushdown_preserves_answer {ty : Ty}
    (hdb : ofSources c.sources settings dialect = .ok db) (hdocuments : c.IsDocuments)
    (hlookups : settings.pointLookups = false) (hr : r.Ordered)
    (hty : r.root.infer db.schema [] = .ok ty) (hv : r.eval db.input [] = .ok v)
    (hc : r.root.Combinable db.input) :
    (∀ e, (db.execute r).outcome = .ok e → e.value = v) ∧
      (r.root.Smooth db.input → r.root.Testable db.input →
        ∃ e, (db.execute r).outcome = .ok e ∧ e.value = v) := by
  have hsettings : db.settings.pointLookups = false := by
    rw [(Store.Catalog.nodup_of_ofSources hdb).2.2, hlookups]
  have hroot : r.root.eager db.input = .ok v := Term.eager_of_outcome hv
  constructor
  · intro e he
    rw [outcome_execute hty hsettings, outcome_interpret hv] at he
    cases hpush : (attempt db.settings.pushdown (db.push? r)).outcome with
    | error err =>
      rw [hpush] at he
      cases he
    | ok o =>
      rw [hpush] at he
      cases o with
      | none =>
        cases he
        rfl
      | some e' =>
        cases he
        unfold attempt at hpush
        split at hpush
        · exact push?_eager hdb hdocuments hr hty hroot hc hpush
        · cases hpush
  · intro hsmooth htestable
    refine execute_answers (testable_prefixes db.input r.root.head) hr hsettings ?_ hty hv
      ⟨hsmooth, hc, htestable, rfl⟩
    intro b p fragment w hb hgood hcompile hw
    obtain ⟨hsmooth, hc, htestable, hhead⟩ := hgood
    obtain ⟨q, documents, id, hq, hsource, hinput, hlen, hrun⟩ :=
      run_compiled hdb hdocuments hb hhead hcompile
    obtain ⟨rows, hrows⟩ := Term.rows_of_eager hsource hroot
    have hdocs := hinput.symm.trans hrows
    rw [hrun]
    refine Find.answer_of_outcome hq hdocs hrows (by rwa [Outcome.length_of_mapM hdocs]) hc
      (fun entry he => hsmooth.evaluates entry (Term.mem_chain.2 he)) ?_ hw
    exact htestable id _ rows (hhead.trans hsource) hrows

end Db

/-- A store with one table of documents. -/
def Store.Catalog.items (documents : List Document) : Catalog :=
  [⟨"main", .documents {
    collection := ⟨"items", [("a", .i64)], []⟩
    rows := documents.mapIdx fun i d => ([.int (Int64.ofNat (i + 1))], d) }⟩]

/-- The database over that store. It makes no point lookups. -/
def Db.overItems (documents : List Document) : Db where
  schema := ⟨[("items", ⟨"items", [("a", .i64)], []⟩)]⟩
  sources := Fields.ofList ((Store.Catalog.items documents).map fun e =>
    (e.name, (Store.Catalog.items documents).source e))
  settings := { pointLookups := false }

theorem Db.ofSources_items (documents : List Document) :
    ofSources (Store.Catalog.items documents).sources { pointLookups := false } .sqlite =
      .ok (overItems documents) := rfl

/-- The largest element below five. -/
def Request.largestSmall : Request :=
  let a := (Request.context 0).wrap (.field "a")
  let small := a.combine (.literal (.int 5)) (.binary .lt)
  (((Request.source "items").combine small .filter).sort [(a, true)]).wrap (.index 0)

theorem Request.largestSmall_root : largestSmall.root =
    .step 9 (.step 8 (.step 5 (.source 0 "items") (.filter
      (.step 4 (.step 2 (.context 1 0) (.field "a")) (.binary .lt (.literal 3 (.int 5))))))
      (.sort [(.step 7 (.context 6 0) (.field "a"), true)])) (.index 0) := rfl

theorem Request.largestSmall_ordered : largestSmall.Ordered :=
  ⟨by simp [largestSmall_root, Term.ordered_step, Step.operands, Term.id], by decide⟩

/-- Documents that hold one, seven and three. -/
def Db.oneSevenThree : Db :=
  overItems [[("a", .int64 1)], [("a", .int64 7)], [("a", .int64 3)]]

theorem Db.oneSevenThree_input {rows : List Value} (h : oneSevenThree.input "items" = .ok rows) :
    rows = [.mapping [("a", .int 1)], .mapping [("a", .int 7)], .mapping [("a", .int 3)]] := by
  cases h
  rfl

theorem Request.largestSmall_gathered : largestSmall.root.gathered =
    [.step 4 (.step 2 (.context 1 0) (.field "a")) (.binary .lt (.literal 3 (.int 5)))] := rfl

theorem Request.largestSmall_combinable :
    largestSmall.root.Combinable Db.oneSevenThree.input := by
  constructor
  · rw [largestSmall_gathered]
    intro c hc
    obtain rfl := List.mem_singleton.1 hc
    trivial
  · rw [largestSmall_gathered]
    exact List.pairwise_singleton _ _
  · intro id name rows hhead hrows path hpath
    cases hhead
    obtain rfl := Db.oneSevenThree_input hrows
    have hpaths : largestSmall.root.sortPaths = ["a"] := rfl
    rw [hpaths] at hpath
    obtain rfl := List.mem_singleton.1 hpath
    refine Value.rankedBy_of_ints fun v hv => ?_
    simp only [List.mem_cons, List.not_mem_nil, or_false] at hv
    rcases hv with rfl | rfl | rfl <;> exact ⟨_, rfl⟩

theorem Request.largestSmall_smooth : largestSmall.root.Smooth Db.oneSevenThree.input := by
  constructor
  · intro entry he
    rw [largestSmall_root] at he
    simp only [Term.mem_chain, Term.spine, List.mem_cons, List.not_mem_nil, or_false] at he
    rcases he with rfl | rfl | rfl | rfl <;> exact ⟨_, rfl⟩
  · intro id subject predicate w he hw v hv c hc
    rw [largestSmall_root] at he
    simp only [Term.mem_chain, Term.spine, List.mem_cons, List.not_mem_nil, or_false,
      Term.step.injEq, reduceCtorEq, and_false, false_or] at he
    obtain ⟨rfl, rfl, he⟩ := he
    cases he
    cases hw
    obtain rfl := List.mem_singleton.1 hc
    change v ∈ [.mapping [("a", .int 1)], .mapping [("a", .int 7)], .mapping [("a", .int 3)]] at hv
    simp only [List.mem_cons, List.not_mem_nil, or_false] at hv
    rcases hv with rfl | rfl | rfl <;> exact ⟨_, rfl⟩

theorem Request.largestSmall_testable : largestSmall.root.Testable Db.oneSevenThree.input := by
  intro id name rows hhead hrows v hv c hc d hd
  cases hhead
  obtain rfl := Db.oneSevenThree_input hrows
  rw [largestSmall_gathered] at hc
  obtain rfl := List.mem_singleton.1 hc
  obtain rfl := List.mem_singleton.1 hd
  simp only [List.mem_cons, List.not_mem_nil, or_false] at hv
  rcases hv with rfl | rfl | rfl <;> exact ⟨_, rfl⟩

theorem Db.largestSmall_pushdown_preserves_answer :
    (∀ e, (oneSevenThree.execute .largestSmall).outcome = .ok e →
      e.value = .mapping [("a", .int 3)]) ∧
      ∃ e, (oneSevenThree.execute .largestSmall).outcome = .ok e ∧
        e.value = .mapping [("a", .int 3)] := by
  have hdocuments : (Store.Catalog.items [[("a", .int64 1)], [("a", .int64 7)],
      [("a", .int64 3)]]).IsDocuments := by
    intro e he
    obtain rfl := List.mem_singleton.1 he
    exact ⟨_, rfl, by decide⟩
  obtain ⟨hsame, hanswers⟩ := pushdown_preserves_answer (ofSources_items _) hdocuments rfl
    Request.largestSmall_ordered rfl rfl Request.largestSmall_combinable
  exact ⟨hsame, hanswers Request.largestSmall_smooth Request.largestSmall_testable⟩

/-- The first element below five. -/
def Request.firstSmall : Request :=
  let a := (Request.context 0).wrap (.field "a")
  let small := a.combine (.literal (.int 5)) (.binary .lt)
  ((Request.source "items").combine small .filter).wrap (.index 0)

/-- Documents that hold one and null. -/
def Db.oneAndNull : Db := overItems [[("a", .int64 1)], [("a", .null)]]

theorem Db.firstSmall_plan : ((Store.Catalog.items [[("a", .int64 1)], [("a", .null)]]).documentBackend
    "main").plan oneAndNull.schema .firstSmall = some ⟨.firstSmall, Request.firstSmall.root, .find {
      collection := "items"
      filter := [("a", .document [("$lt", .int64 5)])]
      single := some (.index 0) }⟩ := by
  rw [Backend.plan, Backend.planFrom]
  rfl

/-- A find looks at elements that the interpreter never comes to, and fails on them. -/
theorem Db.firstSmall_execute_fails :
    ofSources (Store.Catalog.items [[("a", .int64 1)], [("a", .null)]]).sources
        { pointLookups := false } .sqlite = .ok oneAndNull ∧
      Request.firstSmall.root.infer oneAndNull.schema [] =
        .ok (.mapping [("a", .i64)] (some "items")) ∧
      Request.firstSmall.eval oneAndNull.input [] = .ok (.mapping [("a", .int 1)]) ∧
      ¬ ∃ e, (oneAndNull.execute .firstSmall).outcome = .ok e := by
  refine ⟨rfl, rfl, rfl, ?_⟩
  rintro ⟨e, he⟩
  rw [outcome_execute rfl rfl] at he
  have hbackend : oneAndNull.backend? Request.firstSmall.root = some ((Store.Catalog.items
      [[("a", .int64 1)], [("a", .null)]]).documentBackend "main") := rfl
  have hpush : ∃ err, (oneAndNull.push? .firstSmall).outcome = .error err := by
    rw [push?, hbackend]
    simp only [firstSmall_plan]
    exact ⟨_, rfl⟩
  obtain ⟨err, hpush⟩ := hpush
  change (attempt true (oneAndNull.push? .firstSmall)).outcome >>= _ = _ at he
  rw [attempt, if_pos rfl, hpush] at he
  cases he

end QueryPushdown
