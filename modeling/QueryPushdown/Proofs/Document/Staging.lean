import QueryPushdown.Proofs.Document.Answers

/-!
# The fixed order of stages

A find filters before it sorts, sorts once, cuts out one window and projects last, whatever the order
of the request. When nothing in the request fails on any row and the filter document says what the
predicates say, the find answers as the interpreter does, down to the errors of a missing element.
-/

namespace QueryPushdown

namespace Term

/-- Predicates of the filters of a chain. -/
def predicates : Term → List Term
  | step _ subject (.filter predicate) => predicates subject ++ [predicate]
  | step _ subject _ => predicates subject
  | _ => []

/-- Keys of the sorts of a chain. -/
def sortTerms : Term → List Term
  | step _ subject (.sort keys) => sortTerms subject ++ keys.map Prod.fst
  | step _ subject _ => sortTerms subject
  | _ => []

/-- Transforms of the maps of a chain. -/
def transforms : Term → List Term
  | step _ subject (.map transform) => transforms subject ++ [transform]
  | step _ subject _ => transforms subject
  | _ => []

/-- Whether all filters of a chain keep an element. -/
def holds (input : Input) (t : Term) (v : Value) : Bool :=
  t.predicates.all (·.isTrue input [v])

/-- Everything in a chain can be evaluated on all rows: the predicates to booleans, and the values of
each sort key have an order. -/
structure Decides (input : Input) (rows : List Value) (t : Term) : Prop where
  predicates : ∀ p ∈ t.predicates, ∀ v ∈ rows, ∃ b, p.outcome input [v] = .ok (.bool b)
  keys : ∀ k ∈ t.sortTerms, ∀ v ∈ rows, ∃ w, k.outcome input [v] = .ok w
  transforms : ∀ f ∈ t.transforms, ∀ v ∈ rows, ∃ w, f.outcome input [v] = .ok w
  ranked : ∀ k ∈ t.sortTerms, Sorting.Ranks (fun a b : Value =>
    (k.outcome input [a]).orNull.totalCompare (k.outcome input [b]).orNull) rows

theorem Decides.subject {input : Input} {rows : List Value} {id : Nat} {t : Term} {action : Step}
    (h : (step id t action).Decides input rows) : t.Decides input rows := by
  have hpredicates : t.predicates ⊆ (step id t action).predicates := by
    cases action with
    | filter p => exact List.subset_append_left _ _
    | _ => exact List.Subset.refl _
  have hkeys : t.sortTerms ⊆ (step id t action).sortTerms := by
    cases action with
    | sort keys => exact List.subset_append_left _ _
    | _ => exact List.Subset.refl _
  have htransforms : t.transforms ⊆ (step id t action).transforms := by
    cases action with
    | map f => exact List.subset_append_left _ _
    | _ => exact List.Subset.refl _
  exact ⟨fun p hp => h.predicates p (hpredicates hp), fun k hk => h.keys k (hkeys hk),
    fun f hf => h.transforms f (htransforms hf), fun k hk => h.ranked k (hkeys hk)⟩

/-- The values that a list of sort keys evaluates to. -/
theorem evalKeys_eq_ok {input : Input} {v : Value} {keys : List (Term × Bool)}
    (h : ∀ k ∈ keys, ∃ w, k.1.outcome input [v] = .ok w) :
    (evalKeys input [v] keys).outcome = .ok (Find.keysOf input keys v) := by
  induction keys with
  | nil => rfl
  | cons k rest ih =>
    obtain ⟨w, hw⟩ := h k List.mem_cons_self
    have hrest := ih fun k hk => h k (List.mem_cons_of_mem _ hk)
    rw [outcome_evalKeys_cons, hw, hrest, Find.keysOf, Find.keysOf, List.map_cons,
      reading_of_outcome hw]
    rfl

end Term

namespace Find

variable {schema : Schema} {input : Input} {rows : List Value} {q : Find} {t : Term}

/-- What is known of the find of a list whose request can be evaluated on all rows. -/
structure Stages (q : Find) (input : Input) (t : Term) (rows : List Value) : Prop where
  ranked : ∀ path ∈ Fields.names q.sort, Value.RankedBy path rows
  projects : ∀ p, q.projection = some p → ∀ v ∈ rows, ∃ w, p.apply v = .ok w
  outcome : t.outcome input [] = .ok (.list
    ((q.window (sorted q.sort (rows.filter (t.holds input)))).map q.image))

theorem Stages.reorderable {node : Nat} {step : String} {x : Unit} (h : q.Stages input t rows)
    (hc : checkReorderable node step q = .ok x) :
    t.outcome input [] = .ok (.list (sorted q.sort (rows.filter (t.holds input)))) := by
  obtain ⟨hprojection, hwindow⟩ := of_checkReorderable hc
  rw [h.outcome, map_image_of_isNone hprojection, hwindow]

theorem stages_source {id : Nat} {name : String} (hrows : input name = .ok rows) :
    Stages { collection := name } input (.source id name) rows := by
  refine ⟨fun path hp => (by cases hp), fun p hp => (by cases hp), ?_⟩
  have hall : rows.filter ((Term.source id name).holds input) = rows :=
    List.filter_eq_self.2 fun v _ => rfl
  rw [map_image_of_isNone rfl, hall]
  exact Term.outcome_source id hrows

theorem Stages.filter {id : Nat} {predicate : Term} {f : Filter} {x : Unit}
    (h : q.Stages input t rows) (hc : checkReorderable id "filter" q = .ok x)
    (hd : (Term.step id t (.filter predicate)).Decides input rows) :
    Stages { q with filter := q.filter.and f } input (.step id t (.filter predicate)) rows := by
  obtain ⟨hprojection, hwindow⟩ := of_checkReorderable hc
  have hwindow' : ∀ vs, window { q with filter := q.filter.and f } vs = vs := hwindow
  have himage := map_image_of_isNone (q := { q with filter := q.filter.and f }) hprojection
  refine ⟨h.ranked, h.projects, ?_⟩
  have htests : ∀ v ∈ sorted q.sort (rows.filter (t.holds input)),
      predicate.outcome input [v] = .ok (.bool (predicate.isTrue input [v])) := fun v hv =>
    Term.outcome_of_isTrue (hd.predicates predicate (by simp [Term.predicates]) v
      (List.mem_of_mem_filter (mem_sorted.1 hv)))
  have hholds : ∀ v, (Term.step id t (.filter predicate)).holds input v =
      (predicate.isTrue input [v] && t.holds input v) := fun v => by
    simp [Term.holds, Term.predicates, Bool.and_comm]
  have hfilter : rows.filter ((Term.step id t (.filter predicate)).holds input) =
      (rows.filter (t.holds input)).filter fun v => predicate.isTrue input [v] := by
    rw [List.filter_filter]
    exact List.filter_congr fun v _ => hholds v
  rw [Term.outcome_filter_list (h.reorderable hc) htests, himage, hwindow', hfilter,
    filter_sorted fun path hp => (h.ranked path hp).mono fun v hv => List.mem_of_mem_filter hv]

theorem Stages.sort {id : Nat} {ts : List (Term × Bool)} {keys : Document} {x : Unit}
    (h : q.Stages input t rows) (hc : checkReorderable id "sort" q = .ok x)
    (hk : sortKeys ts = .ok keys) (hd : (Term.step id t (.sort ts)).Decides input rows) :
    Stages { q with sort := addSortKeys (addSortKeys [] keys) q.sort } input
      (.step id t (.sort ts)) rows := by
  obtain ⟨hprojection, hwindow⟩ := of_checkReorderable hc
  have hmem : ∀ k ∈ ts, k.1 ∈ (Term.step id t (.sort ts)).sortTerms := fun k hk =>
    List.mem_append_right _ (List.mem_map.2 ⟨k, hk, rfl⟩)
  have hkeys : ∀ path ∈ Fields.names keys, Value.RankedBy path rows := by
    intro path hp
    obtain ⟨k, hkt, hpath⟩ := path_of_sortKeys hk hp
    have hread : ∀ v ∈ rows, (k.1.outcome input [v]).orNull = v.atPath path := fun v hv => by
      obtain ⟨w, hw⟩ := hd.keys k.1 (hmem k hkt) v hv
      rw [hw, Term.atPath_of_outcome hpath hw]
      rfl
    have hranked := hd.ranked k.1 (hmem k hkt)
    constructor
    · intro a ha b hb
      rw [← hread a ha, ← hread b hb]
      exact hranked.swap a ha b hb
    · intro a ha b hb d hd
      rw [← hread a ha, ← hread b hb, ← hread d hd]
      exact hranked.trans a ha b hb d hd
  refine ⟨fun path hp => ?_, h.projects, ?_⟩
  · rcases names_addSortKeys hp with hp | hp
    · rcases names_addSortKeys hp with hp | hp
      · cases hp
      · exact hkeys path hp
    · exact h.ranked path hp
  · have hsub : rows.filter (t.holds input) ⊆ rows := fun v hv =>
      List.mem_of_mem_filter hv
    have hevaluated : ∀ v ∈ sorted q.sort (rows.filter (t.holds input)),
        (evalKeys input [v] ts).outcome = .ok (keysOf input ts v) := fun v hv =>
      Term.evalKeys_eq_ok fun k hk => hd.keys k.1 (hmem k hk) v (hsub (mem_sorted.1 hv))
    have hwindow' : ∀ vs, window { q with sort := addSortKeys (addSortKeys [] keys) q.sort } vs = vs :=
      hwindow
    have himage := map_image_of_isNone
      (q := { q with sort := addSortKeys (addSortKeys [] keys) q.sort }) hprojection
    have hholds : (Term.step id t (.sort ts)).holds input = t.holds input := rfl
    rw [Term.outcome_sort_list (h.reorderable hc) hevaluated, himage, hwindow', hholds,
      ← sorted_sorted (fun path hp => (hkeys path hp).mono hsub)
        fun path hp => (h.ranked path hp).mono hsub,
      rows_keysOf hk fun path hp => (hkeys path hp).mono fun v hv => hsub (mem_sorted.1 hv)]

theorem Stages.slice {id : Nat} {start stop : Option Int64} (h : q.Stages input t rows)
    (hforward : Step.isForward start stop = true) (hlen : rows.length < 2 ^ 64) :
    Stages (q.slice start stop) input (.step id t (.slice start stop)) rows := by
  refine ⟨h.ranked, h.projects, ?_⟩
  have hlen' : (sorted q.sort (rows.filter (t.holds input))).length < 2 ^ 64 := by
    rw [length_sorted]
    exact Nat.lt_of_le_of_lt (List.length_filter_le _ _) hlen
  rw [Term.outcome_slice_list h.outcome hforward]
  change Except.ok (Value.list (Window.between start stop _)) = _
  rw [Window.map_between, ← window_slice hlen']
  rfl

theorem Stages.map {id : Nat} {transform : Term} {projection : Option Projection}
    (h : q.Stages input t rows) (hnone : q.projection = none)
    (hp : projection? transform = .ok projection)
    (hd : (Term.step id t (.map transform)).Decides input rows) :
    Stages { q with projection := projection } input (.step id t (.map transform)) rows := by
  have hvalue : ∀ v ∈ rows, ∃ w, transform.outcome input [v] = .ok w :=
    hd.transforms transform (by simp [Term.transforms])
  refine ⟨h.ranked, fun p hproj v hv => ?_, ?_⟩
  · have hproj : projection = some p := hproj
    rw [apply_of_projection? (hproj ▸ hp)]
    exact hvalue v hv
  · have houtcome := h.outcome
    rw [map_image_of_isNone hnone] at houtcome
    have hsub : ∀ v ∈ q.window (sorted q.sort (rows.filter (t.holds input))), v ∈ rows :=
      fun v hv => List.mem_of_mem_filter (mem_sorted.1 (mem_window hv))
    rw [image_of_projection? hp]
    refine Term.outcome_map_list houtcome fun v hv => ?_
    obtain ⟨w, hw⟩ := hvalue v (hsub v hv)
    rw [hw]
    rfl

/-- The elements of a request that compiles to a find, when it can be evaluated on all rows. -/
theorem ofList_stages (h : ofList schema t = .ok q) (hrows : input q.collection = .ok rows)
    (hlen : rows.length < 2 ^ 64) (hd : t.Decides input rows) : q.Stages input t rows := by
  refine ofList_induction (P := fun t q => input q.collection = .ok rows →
    t.Decides input rows → q.Stages input t rows) ?_ ?_ ?_ ?_ ?_ h hrows hd
  · intro id name _ hrows _
    exact stages_source hrows
  · intro id t q predicate e f x _ ih hx _ hrows hd
    exact (ih hrows hd.subject).filter hx hd
  · intro id t q ts keys x _ ih hx hkeys hrows hd
    exact (ih hrows hd.subject).sort hx hkeys hd
  · intro id t q start stop _ ih hforward hrows hd
    exact (ih hrows hd.subject).slice hforward hlen
  · intro id t q transform projection _ ih hnone hp hrows hd
    exact (ih hrows hd.subject).map hnone hp hd

theorem choose_one (missing : Option Value) (context : String) (vs : List Value) :
    (Single.one missing context).choose vs = Value.only context
      (match missing with
        | some v => .ok v
        | none => .error (.ofCause (.emptyResult context))) vs := by
  rcases vs with - | ⟨v, - | ⟨u, vs⟩⟩ <;> cases missing <;> rfl

/-- A whole request compiles to the find of a list and the choice of an element or a count, which is
what the interpreter chooses or counts. -/
theorem ofTerm_outcome (input : Input) (h : ofTerm schema t = .ok q) :
    ∃ (body : Term) (p : Find), ofList schema body = .ok p ∧
      q = { p with count := q.count, single := q.single } ∧
      (∀ rows, t.Decides input rows → body.Decides input rows) ∧
      t.predicates = body.predicates ∧
      ∀ vs, body.outcome input [] = .ok (.list vs) → q.finish vs = t.outcome input [] := by
  unfold ofTerm at h
  split at h
  · rename_i id body
    obtain ⟨p, hp, h⟩ := Refusal.bind_eq_ok h
    cases h
    refine ⟨body, p, hp, rfl, fun rows hd => hd.subject, rfl, fun vs hvs => ?_⟩
    rw [finish_single (ofList_shape hp).2.2.1, Term.outcome_one_list hvs, choose_one]
  · rename_i id body default
    split at h
    · rename_i literal d
      obtain ⟨p, hp, h⟩ := Refusal.bind_eq_ok h
      cases h
      refine ⟨body, p, hp, rfl, fun rows hd => hd.subject, rfl, fun vs hvs => ?_⟩
      rw [finish_single (ofList_shape hp).2.2.1, Term.outcome_oneOr_list hvs, choose_one]
      rfl
    · cases h
  · rename_i id body position
    dsimp only at h
    split at h
    · cases h
    · rename_i hposition
      obtain ⟨p, hp, h⟩ := Refusal.bind_eq_ok h
      cases h
      refine ⟨body, p, hp, rfl, fun rows hd => hd.subject, rfl, fun vs hvs => ?_⟩
      have hforward : 0 ≤ position := by simpa using hposition
      rw [finish_single (ofList_shape hp).2.2.1, Term.outcome_index_list hvs hforward,
        choose_index hforward]
  · rename_i id body
    split at h
    · cases h
    · split at h
      · obtain ⟨p, hp, h⟩ := Refusal.bind_eq_ok h
        cases h
        refine ⟨body, p, hp, rfl, fun rows hd => hd.subject, rfl, fun vs hvs => ?_⟩
        rw [Term.outcome_len_list hvs]
        rfl
      · cases h
  · refine ⟨t, q, h, rfl, fun rows hd => hd, rfl, fun vs hvs => ?_⟩
    obtain ⟨-, -, hcount, hsingle⟩ := ofList_shape h
    rw [hvs, finish, hcount, hsingle]
    rfl

theorem matched_of_accepts {f : Filter} {documents : List Document} {keep : Value → Bool}
    (hrows : documents.mapM Document.toValue = .ok rows)
    (h : ∀ v ∈ rows, Filter.accepts v f = .ok (keep v)) :
    matched f documents = .ok (rows.filter keep) := by
  replace hrows := Outcome.mapM_eq_ok.1 hrows
  induction hrows with
  | nil => rfl
  | @cons d v documents others hv _ ih =>
    obtain ⟨hfirst, hothers⟩ := List.forall_mem_cons.1 h
    simp only [matched, hv, hfirst, ih hothers, bind, Except.bind]
    rw [List.filter_cons]
    rfl

theorem projected_of_image {vs : List Value}
    (h : ∀ p, q.projection = some p → ∀ v ∈ vs, ∃ w, p.apply v = .ok w) :
    projected q.projection vs = .ok (vs.map q.image) := by
  obtain ⟨ws, hws⟩ := projected_of_apply h
  rw [hws, projected_eq_ok hws]

/-- A compiled find answers as the interpreter does, with a value or with an error, when everything in
the request can be evaluated on all rows and the filter accepts the rows on which all predicates
hold. -/
theorem answer_eq_eval {r : Request} {documents : List Document}
    (h : compile schema r.root = .ok q) (hrows : documents.mapM Document.toValue = .ok rows)
    (hinput : input q.collection = .ok rows) (hlen : documents.length < 2 ^ 64)
    (hd : r.root.Decides input rows)
    (hfilter : ∀ v ∈ rows, Filter.accepts v q.filter = .ok (r.root.holds input v)) :
    q.answer documents = r.eval input [] := by
  obtain ⟨body, p, hp, hq, hdecides, hpredicates, hfinish⟩ := ofTerm_outcome input (compile_eq_ok h)
  have hlen' : rows.length < 2 ^ 64 := by rwa [Outcome.length_of_mapM hrows]
  rw [hq] at hinput
  have hstages := ofList_stages hp hinput hlen' (hdecides rows hd)
  have hholds : r.root.holds input = body.holds input := by
    unfold Term.holds
    rw [hpredicates]
  have hmatched : matched q.filter documents = .ok (rows.filter (body.holds input)) := by
    refine matched_of_accepts hrows fun v hv => ?_
    rw [← hholds]
    exact hfilter v hv
  have hprojected : projected q.projection (q.window (sorted q.sort
      (rows.filter (body.holds input)))) = .ok ((p.window (sorted p.sort
        (rows.filter (body.holds input)))).map p.image) := by
    rw [hq]
    exact projected_of_image fun p' hp' v hv =>
      hstages.projects p' hp' v (List.mem_of_mem_filter (mem_sorted.1 (mem_window hv)))
  have hanswer : q.answer documents = q.finish ((p.window (sorted p.sort
      (rows.filter (body.holds input)))).map p.image) := by
    change (do
      let kept ← matched q.filter documents
      let ws ← projected q.projection (q.window (sorted q.sort kept))
      q.finish ws : Outcome Value) = _
    rw [hmatched]
    change (projected q.projection (q.window (sorted q.sort _)) >>= q.finish) = _
    rw [hprojected]
    rfl
  rw [hanswer, hfinish _ hstages.outcome]
  rfl

end Find

/-- A collection of numbered flags. -/
def Schema.flags : Schema := ⟨[("items", ⟨"items", [("n", .i64), ("flag", .bool)], []⟩)]⟩

def Input.flags (rows : List Value) : Input := Input.ofFields [("items", rows)]

/-- The second number, from the greatest on, of those that are flagged. -/
def Request.secondFlagged : Request :=
  let n := (Request.context 0).wrap (.field "n")
  let flagged := (Request.context 0).wrap (.field "flag")
  ((((Request.source "items").combine flagged .filter).sort [(n, true)]).combine n .map).wrap
    (.index 1)

theorem Request.secondFlagged_decides : secondFlagged.root.Decides
    (Input.flags [.mapping [("n", .int 1), ("flag", .bool true)],
      .mapping [("n", .int 2), ("flag", .bool false)]])
    [.mapping [("n", .int 1), ("flag", .bool true)],
      .mapping [("n", .int 2), ("flag", .bool false)]] := by
  have hpredicates : secondFlagged.root.predicates =
      [.step 2 (.context 1 0) (.field "flag")] := rfl
  have hkeys : secondFlagged.root.sortTerms = [.step 5 (.context 4 0) (.field "n")] := rfl
  have htransforms : secondFlagged.root.transforms = [.step 8 (.context 7 0) (.field "n")] := rfl
  refine ⟨?_, ?_, ?_, ?_⟩
  · rw [hpredicates]
    simp only [forall_eq, List.mem_cons, List.not_mem_nil, or_false]
    rintro v (rfl | rfl) <;> exact ⟨_, rfl⟩
  · rw [hkeys]
    simp only [forall_eq, List.mem_cons, List.not_mem_nil, or_false]
    rintro v (rfl | rfl) <;> exact ⟨_, rfl⟩
  · rw [htransforms]
    simp only [forall_eq, List.mem_cons, List.not_mem_nil, or_false]
    rintro v (rfl | rfl) <;> exact ⟨_, rfl⟩
  · rw [hkeys]
    simp only [List.mem_singleton, forall_eq]
    constructor
    · simp only [List.mem_cons, List.not_mem_nil, or_false]
      rintro a (rfl | rfl) b (rfl | rfl) <;> rfl
    · simp only [List.mem_cons, List.not_mem_nil, or_false]
      rintro a (rfl | rfl) b (rfl | rfl) d (rfl | rfl) <;>
        first | exact fun _ _ => rfl | exact fun _ h => h | exact fun h _ => h

namespace Find

def secondFlagged : Find where
  collection := "items"
  filter := .single "flag" (.bool true)
  sort := [("n", .int32 (-1))]
  projection := some (.path "n")
  single := some (.index 1)

/-- There is one flagged number, so that there is no second one for the find either. -/
theorem secondFlagged_answer : compile .flags Request.secondFlagged.root = .ok secondFlagged ∧
    secondFlagged.answer [[("n", .int64 1), ("flag", .bool true)],
      [("n", .int64 2), ("flag", .bool false)]] =
      .error (.ofCause (.indexOutOfRange 1 1)) := by
  have hcompile : compile .flags Request.secondFlagged.root = .ok secondFlagged := rfl
  refine ⟨hcompile, ?_⟩
  refine (answer_eq_eval hcompile rfl rfl (by decide) Request.secondFlagged_decides ?_).trans rfl
  simp only [List.mem_cons, List.not_mem_nil, or_false]
  rintro v (rfl | rfl) <;> rfl

end Find

/-- Numbers that are flagged. -/
def Request.allFlagged : Request :=
  (Request.source "items").combine ((Request.context 0).wrap (.field "flag")) .filter

namespace Find

/-- A predicate whose value is null keeps no row of a find, but stops the interpreter, although it can
be evaluated on every row. -/
theorem nullFlag_answer_differs : ∃ q rows, compile .flags Request.allFlagged.root = .ok q ∧
    [[("n", Bson.int64 1), ("flag", .null)]].mapM Document.toValue = .ok rows ∧
    (∀ p ∈ Request.allFlagged.root.predicates, ∀ v ∈ rows,
      ∃ w, p.outcome (Input.flags rows) [v] = .ok w) ∧
    Request.allFlagged.root.sortTerms = [] ∧ Request.allFlagged.root.transforms = [] ∧
    (∀ v ∈ rows, Filter.accepts v q.filter =
      .ok (Request.allFlagged.root.holds (Input.flags rows) v)) ∧
    q.answer [[("n", .int64 1), ("flag", .null)]] = .ok (.list []) ∧
    Request.allFlagged.eval (Input.flags rows) [] =
      .error (.fault (.booleanRequired .null)) := by
  refine ⟨_, [.mapping [("n", .int 1), ("flag", .null)]], rfl, rfl, ?_, rfl, rfl, ?_, rfl, rfl⟩
  · have hpredicates : Request.allFlagged.root.predicates =
        [.step 2 (.context 1 0) (.field "flag")] := rfl
    rw [hpredicates]
    simp only [List.mem_singleton, forall_eq]
    exact ⟨.null, rfl⟩
  · simp only [List.mem_singleton, forall_eq]
    rfl

end Find

end QueryPushdown
