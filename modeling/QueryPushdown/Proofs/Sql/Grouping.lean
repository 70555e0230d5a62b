import QueryPushdown.Proofs.Sql.Decoding
import QueryPushdown.Proofs.Sql.Meaning
import QueryPushdown.Proofs.Sql.Settled

/-!
# Compiled groups

The rows of a select that stands for a list decode to what comes back of the elements, in the order that
the store gives the rows. So the groups of a request come back from its select.
-/

namespace QueryPushdown

namespace Sql

variable {d : Dialect} {schema : Schema} {input : Input} {q : Query} {rows : List (List Value)}

/-- The place of a whole request. -/
def Place.outermost (input : Input) (next : Nat) : Place := ⟨input, next, [], none⟩

theorem Around.outermost {target : Target} (hinput : input.Stores target.schema) (next : Nat) :
    Around target (.outermost input next) [] [] :=
  ⟨hinput, fun _ hb => (nomatch hb), .nil, .nil⟩

namespace Relation.Renders

variable {r : Relation} {p : Place} {m node : Nat} {isOrdered : Bool} {vs : List Value}

/-- The rows that are selected for a relation hold the elements that it stands for. -/
theorem cells_selected (h : r.Renders p m isOrdered (Yields.ofList vs)) (hsound : r.Sound)
    (hp : p.row = []) {columns : List (Expr × String)} (hcolumns : r.shape.selected = .ok columns) :
    List.Forall₂ (fun row v => row = Sql.cells v ∧ ∃ current, r.shape.Holds ((p.upto m).on current) v)
      (({ r.select with columns := columns } : Select).cells p.input) vs := by
  obtain ⟨es, hes⟩ := Shape.columns_of_selected hcolumns
  have hrows : ({ r.select with columns := columns } : Select).rows p.input p.row =
      (r.windowRows p.input p.row).map fun row => evalColumns p.input [] row columns :=
    rows_eq_windowRows h.ungrouped ((any_selected hcolumns).trans hsound.shape.plain) fun _ a b => by
      rw [cellsOn, cellsOn, hes]
      exact sameColumns_selected hcolumns hes a b
  rw [Select.cells, ← hp, hrows, List.map_map]
  refine List.forall₂_map_left_iff.2 ((h.backed fun _ => ⟨es, hes⟩).forall₂.imp fun row v hv => ?_)
  refine ⟨?_, row, hv⟩
  exact (congrArg _ (hv.evalColumns hcolumns (Place.admits_on []))).trans (map_snd_numbered _ _ _)

/-- The rows of the query for a relation decode to what comes back of the elements. -/
theorem decode (h : r.Renders p m isOrdered (Yields.ofList vs)) (hsound : r.Sound)
    (hp : p.row = []) (hq : Gives (Query.project node r.select r.shape .list) q) (d : Dialect)
    (hrows : rows.Perm (q.select.cells p.input)) :
    ∃ ws, (q.fragment d).decode rows = .ok (.list ws) ∧ ws.Perm (vs.map r.item.settle) ∧
      ∀ v ∈ vs, v.Distinct := by
  obtain ⟨layout, hlayout, hq⟩ := hq.bind
  obtain ⟨columns, hcolumns, hq⟩ := hq.bind
  obtain rfl := hq.pure
  obtain ⟨es, hes⟩ := Shape.columns_of_selected hcolumns.orRefuse
  obtain ⟨us, hus, hperm⟩ :=
    List.perm_comp_forall₂ hrows (h.cells_selected hsound hp hcolumns.orRefuse)
  have hread : rows.mapM layout.readRow = .ok (us.map r.item.settle) := by
    refine Outcome.mapM_eq_ok.2 (List.forall₂_map_right_iff.2 (hus.imp fun row u hu => ?_))
    obtain ⟨rfl, _, hholds⟩ := hu
    exact hholds.readRow hsound.shape.fits hlayout.orRefuse
  refine ⟨us.map r.item.settle, ?_, hperm.map _, fun v hv => ?_⟩
  · change (do Cardinality.list.assemble (← rows.mapM layout.readRow)) = _
    rw [hread]
    rfl
  · obtain ⟨_, -, -, _, hholds⟩ := exists_of_mem_left hus.flip (hperm.mem_iff.2 hv)
    exact hholds.distinct hsound.shape.fits hsound.shape.distinct hes

end Relation.Renders

section

variable {target : Target} {p : Place} {bs : List Binding} {scope : Scope} {subject key : Term}
  {aggregates : List (String × Term)} {sty ty : Ty} {id m : Nat} {r : Relation} {vs : List Value}

theorem infer_groupby {frames : Frames}
    (h : (Step.groupby key aggregates).infer schema frames sty = .ok ty) :
    ∃ item, ty = .list item := by
  obtain ⟨item, -, h⟩ := Outcome.bind_eq_ok.1 h
  obtain ⟨keyTy, -, h⟩ := Outcome.bind_eq_ok.1 h
  split at h
  · exact ⟨_, (Except.ok.inj h).symm⟩
  · obtain ⟨tys, -, h⟩ := Outcome.bind_eq_ok.1 h
    exact ⟨_, (Except.ok.inj h).symm⟩

/-- The query for groups is the query of a relation. -/
theorem Query.gives_groupby
    (hty : (Term.step id subject (.groupby key aggregates)).infer target.schema [] = .ok ty)
    (h : Gives (Query.ofTerm target (.step id subject (.groupby key aggregates))) q) :
    ∃ r, Gives (relationOf target [] (.step id subject (.groupby key aggregates))) r ∧
      Gives (project id r.select r.shape .list) q := by
  change Gives (do
    if (← typeOf target [] (.step id subject (.groupby key aggregates))).isList then
      let r ← relationOf target [] (.step id subject (.groupby key aggregates))
      project id r.select r.shape .list
    else project id {} (← shapeOf target [] (.step id subject (.groupby key aggregates))) .value) q at h
  obtain ⟨ty', hty', h⟩ := h.bind
  obtain rfl := Except.ok.inj (hty.symm.trans hty'.typeOf)
  obtain ⟨sty, -, haction⟩ := Outcome.bind_eq_ok.1 hty
  obtain ⟨item, rfl⟩ := infer_groupby haction
  exact h.bind

/-- A select of groups stands for the groups that the interpreter finds, when these do not depend on
orders that the select is not given. -/
theorem ToRelation.renders_found (hschema : target.schema.Distinct)
    (h : Occurs target p bs scope subject sty)
    (hregular : (Step.groupby key aggregates).Regular target.schema (boundsOf bs) sty ty)
    (hranked : (Step.groupby key aggregates).Ranked p.input scope subject)
    (hr : ToRelation target bs (.step id subject (.groupby key aggregates)) p.next r m)
    (hv : (Term.step id subject (.groupby key aggregates)).outcome p.input scope = .ok (.list vs))
    (hsorted : subject.isOrdered = true → ∀ us, subject.Takes p.input scope us → ∃ ws,
      (Step.groupby key aggregates).outcome p.input scope subject (.list us) = .ok (.list ws) ∧
        ws.Perm vs) :
    ∃ ws, r.Renders p m false (Yields.ofList ws) ∧ ws.Perm vs := by
  obtain ⟨f, hf, -⟩ := Term.eval_of_outcome hv
  obtain ⟨e, he, hf⟩ := Term.eval_step hf
  have hyields : ∃ us, e.yields? = some (Yields.ofList us) := by
    cases hr with
    | groupby _ hne hr =>
      obtain ⟨ys, hys, -⟩ := (meant hschema subject).relation h hr he
      obtain ⟨us, ks, ws, rfl, -⟩ := Step.yields_groupby hys hne hf
      exact ⟨us, hys⟩
  obtain ⟨us, hys⟩ := hyields
  obtain ⟨us', htakes, hgroups⟩ := hr.renders_groups hschema (meant hschema subject)
    (fun c _ => meant hschema c.1) h hregular hranked he hys
  obtain ⟨ws, hws, hperm⟩ : ∃ ws, (Step.groupby key aggregates).outcome p.input scope subject
      (.list us') = .ok (.list ws) ∧ ws.Perm vs := by
    cases ho : subject.isOrdered with
    | true => exact hsorted ho us' htakes
    | false =>
      obtain ⟨us, hus, -, hsame⟩ := htakes
      obtain rfl := hsame ho
      exact ⟨vs, (Term.outcome_step _ hus).symm.trans hv, .refl _⟩
  obtain ⟨ws', hlist, hrenders⟩ := hgroups _ hws
  cases hlist
  exact ⟨ws, hrenders, hperm⟩

/-- The rows of the select that a grouped list compiles to decode to the groups that the interpreter
finds, in whatever order the store gives them. -/
theorem groupby_preserves_groups {request : Request} (hschema : schema.Distinct)
    (hinput : input.Stores schema)
    (hroot : request.root = .step id subject (.groupby key aggregates))
    (hdistinct : request.root.Distinct) (htidy : request.root.Tidy schema [])
    (hsubject : subject.Ranked input [])
    (hranked : (Step.groupby key aggregates).Ranked input [] subject)
    (hq : query d schema request.root = .ok q) (hv : request.eval input [] = .ok (.list vs))
    (hsorted : subject.isOrdered = true → ∀ us, subject.Takes input [] us → ∃ ws,
      (Step.groupby key aggregates).outcome input [] subject (.list us) = .ok (.list ws) ∧ ws.Perm vs)
    (hrows : rows.Perm (q.select.cells input)) :
    ∃ item ws, request.root.infer schema [] = .ok (.list item) ∧
      (q.fragment d).decode rows = .ok (.list ws) ∧ ws.Perm (vs.map item.settle) ∧
      ((∀ v ∈ vs, v.WithoutNaN ∧ item.Precise v) → Value.SameUpToOrder ws vs) := by
  change request.root.outcome input [] = _ at hv
  obtain ⟨ty, hty, h⟩ := gives_of_query hq
  rw [hroot] at hdistinct htidy hv hty h ⊢
  have hregular : (Term.step id subject (.groupby key aggregates)).Regular (d.target schema).schema
    (boundsOf []) ty := ⟨hdistinct, htidy, hty⟩
  obtain ⟨sty, hs, haction⟩ := hregular.step
  obtain ⟨r, ⟨n, m, hr⟩, h⟩ := Query.gives_groupby hregular.infer h
  have hrelation := (reached (d.target schema) _).relation hr
  have haround : Around (d.target schema) (.outermost input n) [] [] := .outermost hinput n
  obtain ⟨-, rfl, hsound⟩ := (fitted hschema _).relation haround.sound hregular hrelation
  obtain ⟨found, hrenders, hfound⟩ := hrelation.renders_found hschema ⟨haround, hs, hsubject⟩ haction
    hranked hv hsorted
  obtain ⟨ws, hdecode, hws, hdistinct⟩ := hrenders.decode hsound rfl h d hrows
  have hperm := hws.trans (hfound.map r.item.settle)
  refine ⟨r.item, ws, hty, hdecode, hperm, fun hexact => ?_⟩
  exact Value.sameUpToOrder_settle hperm fun v hv => ⟨hdistinct v (hfound.mem_iff.2 hv), hexact v hv⟩

end

end Sql

/-- How many things there are of each name, and what they cost together. The key has a record without
columns in it. -/
def Request.pricesByName : Request :=
  let name := (Request.context 0).wrap (.field "name")
  let price := (Request.context 0).wrap (.field "price")
  (Request.source "items").groupby (Request.record [("name", name), ("kind", Request.record [])])
    [("count", (Request.context 0).wrap (.aggregate .len)),
      ("total", ((Request.context 0).combine price .map).wrap (.aggregate .sum))]

theorem Request.pricesByName_root : pricesByName.root = .step 12 (.source 0 "items") (.groupby
    (.record 4 [("name", .step 2 (.context 1 0) (.field "name")), ("kind", .record 3 [])])
    [("count", .step 6 (.context 5 0) (.aggregate .len)),
      ("total", .step 11 (.step 10 (.context 7 0) (.map (.step 9 (.context 8 0) (.field "price"))))
        (.aggregate .sum))]) := rfl

def Input.pricesTwice : List Value :=
  [.mapping [("name", .text "cup"), ("price", .int 4)],
    .mapping [("name", .text "pen"), ("price", .int 7)],
    .mapping [("name", .text "cup"), ("price", .int 5)]]

def Value.priceGroup (name : String) (count total : Int64) : Value :=
  .mapping [("key", .mapping [("name", .text name), ("kind", .mapping [])]), ("count", .int count),
    ("total", .int total)]

def Ty.priceGroup : Ty :=
  .mapping [("key", .mapping [("name", .string), ("kind", .mapping [] none)] none), ("count", .i64),
    ("total", .i64)] none

theorem Value.priceGroup_exact (name : String) (count total : Int64) :
    (priceGroup name count total).WithoutNaN ∧ Ty.priceGroup.Precise (priceGroup name count total) := by
  have hkey : (Value.mapping [("name", .text name), ("kind", .mapping [])]).WithoutNaN :=
    .mapping (List.forall_mem_cons.2
      ⟨.text name, List.forall_mem_singleton.2 (.mapping (List.forall_mem_nil _))⟩)
  refine ⟨.mapping (List.forall_mem_cons.2 ⟨hkey, List.forall_mem_cons.2 ⟨.int count,
    List.forall_mem_singleton.2 (.int total)⟩⟩), ?_⟩
  exact ⟨⟨trivial, trivial, trivial⟩, trivial, trivial, trivial⟩

theorem Input.prices_stores {rows : List Value} (hlength : rows.length < 2 ^ 63)
    (hrows : ∀ row ∈ rows, ∃ (name : String) (price : Int64),
      row = .mapping [("name", .text name), ("price", .int price)]) :
    (Input.prices rows).Stores .prices := by
  intro name c hc
  obtain ⟨rfl, rfl⟩ := Prod.mk.inj (List.mem_singleton.1 (Fields.mem_of_get? hc))
  refine ⟨rfl, rows, rfl, hlength, fun row hrow => ?_⟩
  obtain ⟨name, price, rfl⟩ := hrows row hrow
  exact ⟨_, rfl, .cons ⟨rfl, .text name⟩ (.cons ⟨rfl, .int price⟩ .nil)⟩

/-- The groups come back in whatever order the store gives them. -/
theorem Sql.pricesByName_preserves_groups : ∃ q,
    Sql.query .sqlite .prices Request.pricesByName.root = .ok q ∧
      ∀ rows, rows.Perm (q.select.cells (.prices Input.pricesTwice)) → ∃ ws,
        (q.fragment .sqlite).decode rows = .ok (.list ws) ∧
        Value.SameUpToOrder ws [.priceGroup "cup" 2 9, .priceGroup "pen" 1 7] := by
  have hinput : (Input.prices Input.pricesTwice).Stores .prices := by
    refine Input.prices_stores (by decide) ?_
    simp [Input.pricesTwice]
  have hdistinct : Request.pricesByName.root.Distinct := by
    rw [Request.pricesByName_root]
    simp [Term.distinct_step, Step.operands, Term.distinct_source, Term.distinct_context,
      Term.distinct_record, Fields.names]
  have htidy : Request.pricesByName.root.Tidy .prices [] := by
    rw [Request.pricesByName_root]
    refine ⟨trivial, fun ty hty => ⟨fun item hitem => ⟨?_, fun keyTy hkey => ?_⟩, ?_⟩⟩
    · simp [Term.Tidy, Step.Tidy, fieldsTidy]
    · cases hty
      cases hitem
      cases hkey
      rfl
    · simp [Term.Tidy, Step.Tidy, fieldsTidy]
  have hv : Request.pricesByName.eval (.prices Input.pricesTwice) [] =
      .ok (.list [.priceGroup "cup" 2 9, .priceGroup "pen" 1 7]) := rfl
  have hty : Request.pricesByName.root.infer .prices [] = .ok (.list .priceGroup) := rfl
  obtain ⟨q, hq⟩ : ∃ q, Sql.query .sqlite .prices Request.pricesByName.root = .ok q := by
    rw [Request.pricesByName_root]
    exact ⟨_, rfl⟩
  refine ⟨q, hq, fun rows hrows => ?_⟩
  obtain ⟨item, ws, hitem, hdecode, -, hsame⟩ := Sql.groupby_preserves_groups Schema.prices_distinct
    hinput Request.pricesByName_root hdistinct htidy trivial
    (Step.ranked_of_unsorted _ _ _ _ rfl) hq hv (fun h => (by cases h)) hrows
  refine ⟨ws, hdecode, hsame ?_⟩
  obtain rfl := Ty.list.inj (Except.ok.inj (hitem.symm.trans hty))
  exact List.forall_mem_cons.2 ⟨Value.priceGroup_exact _ _ _,
    List.forall_mem_singleton.2 (Value.priceGroup_exact _ _ _)⟩

/-- How many things there are, in one group for all. -/
def Request.pricesCounted : Request :=
  (Request.source "items").groupby (Request.record [])
    [("count", (Request.context 0).wrap (.aggregate .len))]

/-- A key without columns leaves no `GROUP BY` to the select, which then has a row without elements. -/
theorem Sql.pricesCounted_of_nothing : ∃ q,
    Sql.query .sqlite .prices Request.pricesCounted.root = .ok q ∧
      Request.pricesCounted.eval (.prices []) [] = .ok (.list []) ∧
      (q.fragment .sqlite).decode (q.select.cells (.prices [])) =
        .ok (.list [.mapping [("key", .mapping []), ("count", .int 0)]]) ∧
      ¬ Value.SameUpToOrder [.mapping [("key", .mapping []), ("count", .int 0)]] [] := by
  refine ⟨_, rfl, rfl, rfl, ?_⟩
  rintro ⟨us, hus, hperm⟩
  rw [List.perm_nil.1 hperm] at hus
  cases hus

/-- How many things there are of each name, once for every thing. -/
def Request.pricesRecounted : Request :=
  (Request.source "items").groupby ((Request.context 0).wrap (.field "name"))
    [("counts", (Request.source "items").combine ((Request.context 1).wrap (.aggregate .len)) .map)]

/-- A group that is read under a further binder is counted in the select of that binder. -/
example : ∃ q, Sql.query .postgresql .prices Request.pricesRecounted.root = .ok q ∧
    Request.pricesRecounted.eval (.prices Input.pricesTwice) [] = .ok (.list
      [.mapping [("key", .text "cup"), ("counts", .list [.int 2, .int 2, .int 2])],
        .mapping [("key", .text "pen"), ("counts", .list [.int 1, .int 1, .int 1])]]) ∧
    (q.fragment .postgresql).decode (q.select.cells (.prices Input.pricesTwice)) = .ok (.list
      [.mapping [("key", .text "cup"), ("counts", .list [.int 3])],
        .mapping [("key", .text "pen"), ("counts", .list [.int 3])]]) := ⟨_, rfl, rfl, rfl⟩

end QueryPushdown
