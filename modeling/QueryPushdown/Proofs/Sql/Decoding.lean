import QueryPushdown.Proofs.Sql.Representation
import QueryPushdown.Proofs.Store.Tables

/-!
# Decoded pipelines

The select of a relation that stands for a list has one row for each element, and the layout of its
shape reads the elements back. So the query for a pipeline, or for the only element of one, decodes
its rows to what the interpreter finds.
-/

namespace QueryPushdown

namespace Sql

namespace Relation.Meaning

variable {input : Input} {P : Value → Prop} {r : Relation} (m : Meaning input P r)

/-- The rows that are selected for a relation hold the elements that it stands for. -/
theorem cells?_selected (hitem : r.item.Distinct) {columns : List (Expr × String)}
    (hcolumns : r.shape.selected = .ok columns) :
    ({ r.select with columns := columns } : Select).cells? input = some (m.elements.map cells) := by
  obtain ⟨es, hes⟩ := Shape.columns_of_selected hcolumns
  have hrows := m.rows?_eq (fun p => numbered Shape.columnName 0 (cells p.2))
    (fun p hp => (m.reads p hp).selected hcolumns) fun _ p hp q hq => by
      rw [sameColumns, map_snd_numbered, map_snd_numbered]
      exact (m.reads p hp).isEq_cells (m.reads q hq) hitem hes
  rw [Select.cells?, hrows, elements, Option.map_some, List.map_map, List.map_map]
  simp only [Function.comp_def, map_snd_numbered]

/-- Selected rows are read back as the elements. -/
theorem readRows {layout : Layout} (hlayout : r.shape.layout = .ok layout) :
    (m.elements.map cells).mapM layout.readRow = .ok m.elements := by
  refine Outcome.mapM_eq_ok.2 (List.forall₂_map_left_iff.2 (List.forall₂_same.2 fun v hv => ?_))
  obtain ⟨p, hp, rfl⟩ := List.mem_map.1 hv
  exact (m.reads p (m.mem_kept hp)).readRow hlayout

end Relation.Meaning

namespace Query

variable {target : Target} {input : Input} {q : Query} {node : Nat} {cardinality : Cardinality}

/-- The query of a relation decodes its rows to the elements that it stands for. -/
theorem decode_project {P : Value → Prop} {r : Relation} (m : Relation.Meaning input P r) (d : Dialect)
    (hitem : r.item.Distinct) (h : Gives (project node r.select r.shape cardinality) q) :
    ∃ rows, q.select.cells? input = some rows ∧
      (q.fragment d).decode rows = cardinality.assemble m.elements := by
  obtain ⟨layout, hlayout, h⟩ := h.bind
  obtain ⟨columns, hcolumns, h⟩ := h.bind
  obtain rfl := h.pure
  refine ⟨_, m.cells?_selected hitem hcolumns.orRefuse, ?_⟩
  change (do cardinality.assemble (← (m.elements.map cells).mapM layout.readRow)) = _
  rw [m.readRows hlayout.orRefuse]
  rfl

/-- What stands in for the only element of a list that has none. -/
def standIn (default : Option Value) (context : String) : Outcome Value :=
  match default with
  | some v => .ok v
  | none => .error (.ofCause (.emptyResult context))

theorem assemble_one (default : Option Value) (context : String) (vs : List Value) :
    (Cardinality.one default context).assemble (vs.take 2) =
      Value.only context (standIn default context) vs := by
  rcases vs with - | ⟨v, - | ⟨u, vs⟩⟩ <;> cases default <;> rfl

variable {d : Dialect} {subject : Term} {rows : List Value} {lowered : Lowering Relation}

/-- Two rows are enough to tell the only element of a list. -/
theorem decode_single {default : Option Value}
    (hsubject : ∀ r, Gives lowered r → r.StandsFor target.schema input rows subject)
    (h : Gives (single node subject default lowered) q) :
    ∃ vs cells, subject.outcome input [] = .ok (.list vs) ∧ q.select.cells? input = some cells ∧
      (q.fragment d).decode cells =
        Value.only subject.oneContext (standIn default subject.oneContext) vs := by
  obtain ⟨r, hr, h⟩ := h.bind
  obtain ⟨-, hitem, m, houtcome⟩ := hsubject r hr
  obtain ⟨cells, hcells, hdecode⟩ := decode_project (m.slice none (some 2)) d hitem h
  refine ⟨m.elements, cells, houtcome, hcells, ?_⟩
  rw [hdecode, m.elements_slice rfl]
  exact assemble_one default subject.oneContext m.elements

end Query

theorem Query.ofTerm_of_pipeline {target : Target} {name : String} {t : Term}
    (ht : t.Pipeline name) : Query.ofTerm target t = (do
      if (← typeOf target [] t).isList then
        let r ← relationOf target [] t
        project t.id r.select r.shape .list
      else project t.id {} (← shapeOf target [] t) .value) := by
  cases ht <;> rfl

theorem gives_of_query {d : Dialect} {schema : Schema} {t : Term} {q : Query}
    (h : query d schema t = .ok q) : ∃ ty, t.infer schema [] = .ok ty ∧
      Gives (Query.ofTerm (d.target schema) t) q := by
  unfold query at h
  split at h
  · cases h
  · rename_i ty hty
    obtain ⟨⟨q', after⟩, hq, h⟩ := Refusal.bind_eq_ok h
    cases h
    exact ⟨ty, hty, 0, after, hq⟩

/-- The rows of the select that a pipeline compiles to decode to what the interpreter finds, in the
same order. No table is longer than words can count. -/
theorem query_preserves_answer {d : Dialect} {schema : Schema} {c : Collection} {r : Request}
    {input : Input} {rows : List Value} {q : Query} (hschema : schema.Distinct)
    (hc : schema.find? c.name = some c) (hrows : input c.name = .ok rows)
    (hrow : ∀ row ∈ rows, c.HasRow row) (hlength : rows.length < 2 ^ 63)
    (hr : r.root.Relational c.name) (hd : r.root.Distinct) (hcarry : r.root.CarriesAll input rows)
    (hq : query d schema r.root = .ok q) : ∃ cells, q.select.cells? input = some cells ∧
      (q.fragment d).decode cells = r.eval input [] := by
  change ∃ cells, _ ∧ _ = r.root.outcome input []
  obtain ⟨ty, hty, h⟩ := gives_of_query hq
  have hrun : ∀ {t : Term}, t.Pipeline c.name →
      Relation.Represents (d.target schema) input rows t :=
    Relation.represents_of_pipeline hschema hc hrows hrow hlength
  generalize r.root = t at *
  cases hr with
  | list ht =>
    rw [Query.ofTerm_of_pipeline ht] at h
    obtain ⟨ty', hty', h⟩ := h.bind
    split at h
    · obtain ⟨r, hr, h⟩ := h.bind
      obtain ⟨-, hitem, m, houtcome⟩ := hrun ht hd hcarry ty hty r hr
      rw [houtcome]
      exact Query.decode_project m d hitem h
    · rename_i hlist
      exact absurd (ht.isList hty'.typeOf) hlist
  | one id ht =>
    obtain ⟨vs, cells, houtcome, hcells, hdecode⟩ :=
      Query.decode_single ((hrun ht).subject hd hcarry hty) h
    refine ⟨cells, hcells, ?_⟩
    rw [hdecode, Term.outcome_one_list houtcome]
    rfl
  | oneOr id default v ht =>
    obtain ⟨vs, cells, houtcome, hcells, hdecode⟩ :=
      Query.decode_single ((hrun ht).subject hd hcarry hty) h
    refine ⟨cells, hcells, ?_⟩
    rw [hdecode, Term.outcome_oneOr_list houtcome]
    rfl

end Sql

/-- Things and what they cost. -/
def Collection.prices : Collection := ⟨"items", [("name", .string), ("price", .i64)], []⟩

def Schema.prices : Schema := ⟨[("items", .prices)]⟩

def Input.prices (rows : List Value) : Input := Input.ofFields [("items", rows)]

theorem Schema.prices_distinct : prices.Distinct := by
  intro name c hc
  obtain ⟨-, rfl⟩ := Prod.mk.inj (List.mem_singleton.1 (Fields.mem_of_get? hc))
  refine .list (.mapping (by decide) fun f hf => ?_)
  rcases List.mem_cons.1 hf with rfl | hf
  · exact .string
  · exact List.mem_singleton.1 hf ▸ .i64

/-- The names of the things under nine among the two dearest. -/
def Request.nearlyDearest : Request :=
  let price := (Request.context 0).wrap (.field "price")
  let name := (Request.context 0).wrap (.field "name")
  ((((Request.source "items").sort [(price, true)]).wrap (.slice none (some 2))).combine
    (price.combine (Request.literal (.int 9)) (.binary .lt)) .filter).combine name .map

theorem Request.nearlyDearest_root : nearlyDearest.root = .step 12 (.step 9 (.step 4 (.step 3
    (.source 0 "items") (.sort [(.step 2 (.context 1 0) (.field "price"), true)]))
    (.slice none (some 2))) (.filter (.step 8 (.step 6 (.context 5 0) (.field "price"))
    (.binary .lt (.literal 7 (.int 9)))))) (.map (.step 11 (.context 10 0) (.field "name"))) := rfl

theorem Request.nearlyDearest_relational : nearlyDearest.root.Relational "items" := by
  rw [nearlyDearest_root]
  refine .list (.map _ (.filter _ (.slice _ _ _ (.sort _ (.source _) ?_)) ?_) ?_)
  · exact List.forall_mem_singleton.2 (.field _ _ (.element _))
  · exact .comparison _ rfl (.field _ _ (.element _)) (.literal _ rfl)
  · exact .field _ _ (.element _)

theorem Request.nearlyDearest_distinct : nearlyDearest.root.Distinct := by
  have hnine : (Term.literal 7 (.int 9)).Distinct := Term.distinct_literal.2 (.int 9)
  rw [nearlyDearest_root]
  simp [Term.distinct_step, Step.operands, Term.distinct_source, Term.distinct_context, hnine]

def Input.threePrices : List Value :=
  [.mapping [("name", .text "lamp"), ("price", .int 30)],
    .mapping [("name", .text "cup"), ("price", .int 4)],
    .mapping [("name", .text "pen"), ("price", .int 7)]]

/-- The filter stands above a slice, so the sorted select is a derived table. -/
theorem Sql.nearlyDearest_preserves_answer : ∃ q cells,
    Sql.query .sqlite .prices Request.nearlyDearest.root = .ok q ∧
      q.select.cells? (.prices Input.threePrices) = some cells ∧
      (q.fragment .sqlite).decode cells = .ok (.list [.text "pen"]) := by
  have hrow : ∀ row ∈ Input.threePrices, Collection.prices.HasRow row := by
    simp only [Input.threePrices, List.forall_mem_cons]
    refine ⟨⟨_, rfl, ?_⟩, ⟨_, rfl, ?_⟩, ⟨_, rfl, ?_⟩, by simp⟩ <;>
      exact .cons ⟨rfl, fun _ => rfl⟩ (.cons ⟨rfl, fun _ => rfl⟩ .nil)
  have hcarry : Request.nearlyDearest.root.CarriesAll (.prices Input.threePrices)
      Input.threePrices := by
    simp only [Term.CarriesAll, Input.threePrices, List.forall_mem_cons]
    exact ⟨⟨_, rfl⟩, ⟨_, rfl⟩, ⟨_, rfl⟩, by simp⟩
  obtain ⟨q, hq⟩ : ∃ q, Sql.query .sqlite .prices Request.nearlyDearest.root = .ok q := ⟨_, rfl⟩
  obtain ⟨cells, hcells, hdecode⟩ := Sql.query_preserves_answer Schema.prices_distinct rfl rfl hrow
    (by decide) Request.nearlyDearest_relational Request.nearlyDearest_distinct hcarry hq
  exact ⟨q, cells, hq, hcells, hdecode.trans rfl⟩

end QueryPushdown
