import QueryPushdown.Engine.Execution
import QueryPushdown.Proofs.Engine.Documents
import QueryPushdown.Proofs.Store.Tables
import QueryPushdown.Proofs.Transform.Isolating
import QueryPushdown.Proofs.Typing.Scoping

/-!
# Point lookups

A filter that pins down the identity of a source keeps at most the element that a look-up finds. What
the rest of the request makes of it is what the interpreter finds, which reads the elements one by
one and may stop before it reaches one that the predicate fails on.
-/

namespace QueryPushdown

namespace Schema

variable {s s' : Schema} {c : Collection} {cs : List Collection}

theorem find?_add (h : s.add c = .ok s') : s'.find? c.name = some c ∧
    ∀ name d, s.find? name = some d → s'.find? name = some d := by
  obtain ⟨-, hnew⟩ := names_add h
  unfold add at h
  split at h
  · cases h
  · split at h
    · cases h
    · cases h
      refine ⟨Fields.get?_insert_same _ _ _, fun name d hd => ?_⟩
      have hne : name ≠ c.name := by
        rintro rfl
        exact hnew (Fields.has_iff_mem_names.1 (by rw [Fields.has, show Fields.get? _ _ = _ from hd]; rfl))
      exact (Fields.get?_insert_other _ _ hne).trans hd

theorem find?_foldlM (h : cs.foldlM add s = .ok s') :
    (∀ c ∈ cs, s'.find? c.name = some c) ∧
      ∀ name d, s.find? name = some d → s'.find? name = some d := by
  induction cs generalizing s with
  | nil =>
    cases h
    exact ⟨fun _ hc => (by cases hc), fun _ _ hd => hd⟩
  | cons c cs ih =>
    rw [List.foldlM_cons] at h
    obtain ⟨s₁, hadd, h⟩ := Outcome.bind_eq_ok.1 h
    obtain ⟨hc, hkeep⟩ := find?_add hadd
    obtain ⟨hcs, hkeep'⟩ := ih h
    exact ⟨List.forall_mem_cons.2 ⟨hkeep' _ _ hc, hcs⟩, fun name d hd => hkeep' name d (hkeep name d hd)⟩

/-- A schema has the collections that it was made of. -/
theorem find?_of_mem (h : ofCollections cs = .ok s) (hc : c ∈ cs) : s.find? c.name = some c :=
  (find?_foldlM h).1 c hc

end Schema

namespace Term

variable {schema : Schema} {frames : Frames} {input : Input} {scope : Scope} {t c : Term}

/-- The first step of a chain acts on its head. -/
theorem step_of_chain {head subject : Term} {id : Nat} {action : Step} {rest : List Term}
    (h : t.chain = head :: step id subject action :: rest) : step id head action ∈ t.spine := by
  have hspine : t.spine = rest.reverse ++ [step id subject action, head] := by
    rw [← List.reverse_reverse t.spine]
    change t.chain.reverse = _
    simp [h]
  clear h
  generalize rest.reverse = above at hspine
  induction t using spine.induct generalizing above with
  | case1 i s a ih =>
    rw [spine] at hspine ⊢
    cases above with
    | nil =>
      obtain ⟨hstep, hs⟩ := List.cons.inj hspine
      cases hstep
      have hhead := subject.self_mem_spine
      rw [hs, List.mem_singleton] at hhead
      rw [hhead]
      exact List.mem_cons_self
    | cons x above => exact List.mem_cons_of_mem _ (ih above (List.cons.inj hspine).2)
  | case2 t ht =>
    rw [spine_eq_singleton ht] at hspine
    have := congrArg List.length hspine
    simp at this

theorem Distinct.of_mem_spine {entry : Term} (h : t.Distinct) (he : entry ∈ t.spine) :
    entry.Distinct :=
  holds_of_mem_spine (P := Distinct) (fun _ _ _ hs => (distinct_step.1 hs).1) h he

theorem infer_of_mem_spine {entry : Term} {ty : Ty} (h : t.infer schema frames = .ok ty)
    (he : entry ∈ t.spine) : ∃ ty, entry.infer schema frames = .ok ty := by
  refine holds_of_mem_spine (P := fun e => ∃ ty, e.infer schema frames = .ok ty) ?_ ⟨ty, h⟩ he
  rintro id subject action ⟨ty, hty⟩
  obtain ⟨sty, hs, -⟩ := Outcome.bind_eq_ok.1 hty
  exact ⟨sty, hs⟩

theorem infer_of_mem_conjuncts {ty : Ty} (h : t.infer schema frames = .ok ty)
    (hc : c ∈ t.conjuncts) : ∃ ty, c.infer schema frames = .ok ty := by
  induction t using conjuncts.induct generalizing ty with
  | case1 id lhs rhs ihl ihr =>
    obtain ⟨lty, hl, h⟩ := Outcome.bind_eq_ok.1 h
    obtain ⟨rty, hr, -⟩ := Outcome.bind_eq_ok.1 h
    exact (List.mem_append.1 hc).elim (ihl hl) (ihr hr)
  | case2 t ht =>
    rw [conjuncts_eq_singleton ht, List.mem_singleton] at hc
    exact ⟨ty, hc ▸ h⟩

theorem infer_filter_source {collection : Collection} {id sourceId : Nat} {name : String}
    {predicate : Term} {ty : Ty} (hc : schema.find? name = some collection)
    (h : (step id (source sourceId name) (.filter predicate)).infer schema frames = .ok ty) :
    ∃ ty, predicate.infer schema (collection.itemTy :: frames) = .ok ty := by
  obtain ⟨sty, hs, h⟩ := Outcome.bind_eq_ok.1 h
  rw [infer, hc] at hs
  cases hs
  obtain ⟨item, hitem, h⟩ := Outcome.bind_eq_ok.1 h
  cases hitem
  obtain ⟨ty, hty, -⟩ := Outcome.bind_eq_ok.1 h
  exact ⟨ty, hty⟩

/-- A conjunct that has a type binds no field but those of the element. -/
theorem has_of_bound? {collection : Collection} {ty : Ty} {f : String × Value}
    (h : c.infer schema (collection.itemTy :: frames) = .ok ty) (hbound : c.bound? = some f) :
    Fields.has collection.fields f.1 = true := by
  have hfield : ∀ {i j : Nat} {ty : Ty}, (step i (context j 0) (.field f.1)).infer schema
      (collection.itemTy :: frames) = .ok ty → Fields.has collection.fields f.1 = true := by
    intro i j ty h
    obtain ⟨ety, hcontext, h⟩ := Outcome.bind_eq_ok.1 h
    cases hcontext
    change Typing.field collection.itemTy f.1 = .ok ty at h
    unfold Collection.itemTy Typing.field at h
    dsimp only at h
    split at h
    · rename_i fty hget
      rw [Fields.has, hget]
      rfl
    · cases h
  unfold bound? at hbound
  split at hbound
  · rename_i id lhs rhs
    obtain ⟨lty, hl, h⟩ := Outcome.bind_eq_ok.1 h
    obtain ⟨rty, hr, -⟩ := Outcome.bind_eq_ok.1 h
    cases hlhs : binding? lhs rhs with
    | some g =>
      rw [hlhs] at hbound
      cases hbound
      obtain ⟨i, j, k, rfl, rfl⟩ := binding?_eq_some hlhs
      exact hfield hl
    | none =>
      rw [hlhs] at hbound
      obtain ⟨i, j, k, rfl, rfl⟩ := binding?_eq_some hbound
      exact hfield hr
  · cases hbound

end Term

namespace Isolated

variable {i : Isolated} {input : Input} {identity fields : List String} {values : List Value}
  {element : Value}

theorem forall₂_of_pinned? {P : String → Value → Prop} (h : i.pinned? fields = some values) :
    List.Forall₂ P fields values ↔
      ∀ name ∈ fields, ∀ v, Fields.get? i.bindings name = some v → P name v := by
  unfold pinned? at h
  induction fields generalizing values with
  | nil =>
    cases h
    exact ⟨fun _ _ hn => (by cases hn), fun _ => .nil⟩
  | cons name fields ih =>
    rw [List.mapM_cons] at h
    obtain ⟨v, hv, h⟩ := Option.bind_eq_some_iff.1 h
    obtain ⟨vs, hvs, h⟩ := Option.bind_eq_some_iff.1 h
    cases h
    rw [List.forall₂_cons, ih hvs, List.forall_mem_cons, hv]
    simp

/-- Bindings outside of an identity are tested one after the other. -/
theorem all_of_bindingsHold {bindings : Fields Value} {b : Bool}
    (h : bindingsHold identity element bindings = .ok b) :
    (bindings.all fun f => identity.contains f.1 || element.binds f) = b := by
  induction bindings with
  | nil =>
    cases h
    rfl
  | cons f rest ih =>
    obtain ⟨name, v⟩ := f
    rw [bindingsHold] at h
    rw [List.all_cons]
    cases hname : identity.contains name with
    | true =>
      rw [hname, if_pos rfl] at h
      rw [ih h]
      rfl
    | false =>
      rw [hname, if_neg (by decide)] at h
      obtain ⟨w, hw, h⟩ := Outcome.bind_eq_ok.1 h
      have hbinds : element.binds (name, v) = w.isEq v := by
        rw [Value.binds, hw]
      rw [hbinds]
      cases hwv : w.isEq v with
      | true =>
        rw [hwv, if_pos rfl] at h
        rw [ih h]
        rfl
      | false =>
        rw [hwv, if_neg (by decide)] at h
        cases h
        rfl

theorem bindingsHold_eq_ok (identity : List String) {bindings : Fields Value}
    (h : ∀ f ∈ bindings, ∃ w, element.field f.1 = .ok w) :
    ∃ b, bindingsHold identity element bindings = .ok b := by
  induction bindings with
  | nil => exact ⟨true, rfl⟩
  | cons f rest ih =>
    obtain ⟨name, v⟩ := f
    obtain ⟨⟨w, hw⟩, hrest⟩ := List.forall_mem_cons.1 h
    rw [bindingsHold]
    split
    · exact ih hrest
    · rw [show element.field name = .ok w from hw]
      change ∃ b, (if w.isEq v = true then _ else _) = _
      split
      · exact ih hrest
      · exact ⟨false, rfl⟩

/-- An element with the pinned identity has all bindings when it has those outside of it. -/
theorem all_binds_of_pinned? (h : i.pinned? identity = some values)
    (hb : List.Forall₂ (fun name v => element.binds (name, v) = true) identity values)
    (hn : (Fields.names i.bindings).Nodup) :
    i.bindings.all element.binds =
      i.bindings.all fun f => identity.contains f.1 || element.binds f := by
  rw [Bool.eq_iff_iff, List.all_eq_true, List.all_eq_true]
  refine forall₂_congr fun f hf => ?_
  rw [Bool.or_eq_true_iff, List.contains_iff_mem]
  refine ⟨.inr, fun hor => hor.elim (fun hname => ?_) id⟩
  exact (forall₂_of_pinned? h).1 hb f.1 hname f.2 (Fields.get?_of_mem hn hf)

theorem outcome_holds : (i.holds input identity element).outcome = (do
    if ← bindingsHold identity element i.bindings then
      i.remainder.root.decision input [element]
    else pure false) := by
  unfold holds
  rw [Run.outcome_bind, Run.outcome_lift]
  congr 1
  funext b
  cases b with
  | false => rfl
  | true =>
    rw [if_pos rfl, if_pos rfl, Run.outcome_bind]
    rfl

end Isolated

/-- A source that reads the elements of a table and looks them up there. -/
structure Source.Reads (s : Source) (t : Store.Table) : Prop where
  collection : s.collection = t.collection
  all : s.all = t.all
  lookup : ∀ values, values.length = t.collection.identity.length →
    (s.lookup values).outcome = t.find values

namespace Db

variable {db : Db} {s : Source} {t : Store.Table} {p : Request} {rows : List Value}

/-- Whether all conjuncts of a predicate are true of an element. -/
def passes (db : Db) (p : Request) (v : Value) : Bool :=
  p.root.conjuncts.all (·.isTrue db.input [v])

section Pinned

variable (ht : t.Keyed) (hid : t.collection.identity ≠ []) (hp : p.root.Distinct)
  (hrows : t.all = .ok rows)

include ht hid hp hrows

theorem holds_eq_passes {element : Value} {values : List Value} {b : Bool}
    (hsat : p.isolate.isUnsatisfiable = false)
    (hpinned : p.isolate.pinned? t.collection.identity = some values)
    (hfound : t.find values = .ok (some element))
    (hb : (p.isolate.holds db.input t.collection.identity element).outcome = .ok b) :
    db.passes p element = b := by
  obtain ⟨-, ⟨identity, hstored⟩, hbinds⟩ := ht.of_find hid hrows hfound
  rw [Isolated.outcome_holds] at hb
  obtain ⟨x, hx, hb⟩ := Outcome.bind_eq_ok.1 hb
  have hall := Isolated.all_of_bindingsHold hx
  rw [← Isolated.all_binds_of_pinned? hpinned hbinds (Request.nodup_bindings hsat)] at hall
  cases x with
  | true =>
    rw [passes, Request.isTrue_of_isolate hp hstored.distinct hsat hb, hall]
    rfl
  | false =>
    cases hb
    refine Bool.eq_false_iff.2 fun hpass => ?_
    have hbindings := Request.binds_of_isTrue hp hstored.distinct hsat hpass
    rw [List.all_eq_true.2 hbindings] at hall
    cases hall

/-- The elements that are pinned down are those that the filter keeps. -/
theorem pinnedElements?_eq_filter (hs : s.Reads t) {elements : List Value}
    (h : (db.pinnedElements? s p.isolate).outcome = .ok (some elements)) :
    elements = rows.filter (db.passes p) := by
  unfold pinnedElements? at h
  split at h
  · rename_i hunsat
    cases h
    refine (List.filter_eq_nil_iff.2 fun v hv => ?_).symm
    exact Bool.eq_false_iff.1
      (Request.isTrue_of_isUnsatisfiable hp (ht.distinct_of_mem hrows hv) hunsat)
  · rename_i hsat
    have hsat := eq_false_of_ne_true hsat
    rw [hs.collection] at h
    cases hpinned : p.isolate.pinned? t.collection.identity with
    | none =>
      rw [hpinned] at h
      cases h
    | some values =>
      simp only [hpinned] at h
      have hlength : values.length = t.collection.identity.length :=
        ((Isolated.forall₂_of_pinned? (P := fun _ _ => True) hpinned).2
          fun _ _ _ _ => trivial).length_eq.symm
      rw [Run.outcome_bind, hs.lookup values hlength] at h
      obtain ⟨found, hfound, h⟩ := Outcome.bind_eq_ok.1 h
      rw [ht.filter_eq hid hrows hfound fun element he hpass => ?_]
      · cases found with
        | none =>
          cases h
          rfl
        | some element =>
          dsimp only at h
          rw [Run.outcome_bind] at h
          obtain ⟨b, hb, h⟩ := Outcome.bind_eq_ok.1 h
          have hpasses := holds_eq_passes ht hid hp hrows hsat hpinned hfound hb
          rw [Option.toList_some, List.filter_cons, hpasses]
          cases b with
          | true =>
            cases h
            rfl
          | false =>
            cases h
            rfl
      · refine (Isolated.forall₂_of_pinned? hpinned).2 fun name _ v hv => ?_
        exact Request.binds_of_isTrue hp he hsat hpass _ (Fields.mem_of_get? hv)

/-- An element that a look-up finds is tested when the predicate decides on it. -/
theorem holds_eq_ok {ty : Ty} {schema : Schema} {frames : Frames} {values : List Value}
    {element : Value} {b : Bool} (hsat : p.isolate.isUnsatisfiable = false)
    (hty : p.root.infer schema (t.collection.itemTy :: frames) = .ok ty)
    (hpinned : p.isolate.pinned? t.collection.identity = some values)
    (hfound : t.find values = .ok (some element))
    (hdecides : p.root.decision db.input [element] = .ok b) :
    ∃ b, (p.isolate.holds db.input t.collection.identity element).outcome = .ok b := by
  obtain ⟨-, ⟨identity, hstored⟩, hbinds⟩ := ht.of_find hid hrows hfound
  have hfields : ∀ f ∈ p.isolate.bindings, ∃ w, element.field f.1 = .ok w := by
    intro f hf
    obtain ⟨c, hc, hbound⟩ := Request.bound_of_mem_bindings hsat hf
    obtain ⟨cty, hcty⟩ := Term.infer_of_mem_conjuncts hty hc
    exact hstored.reads _ (Term.has_of_bound? hcty hbound)
  obtain ⟨x, hx⟩ := Isolated.bindingsHold_eq_ok t.collection.identity hfields
  rw [Isolated.outcome_holds, hx]
  cases x with
  | false => exact ⟨false, rfl⟩
  | true =>
    have hall := Isolated.all_of_bindingsHold hx
    rw [← Isolated.all_binds_of_pinned? hpinned hbinds (Request.nodup_bindings hsat),
      List.all_eq_true] at hall
    exact ⟨b, (Request.decision_isolate hp hstored.distinct hsat hall).trans hdecides⟩

/-- Nothing goes wrong when the pinned values have keys and the predicate decides on every element. -/
theorem pinnedElements?_eq_ok (hs : s.Reads t) {ty : Ty} {schema : Schema} {frames : Frames}
    (hty : p.root.infer schema (t.collection.itemTy :: frames) = .ok ty)
    (hkeys : ∀ c ∈ p.root.conjuncts, ∀ f, c.bound? = some f → f.1 ∈ t.collection.identity →
      ∃ key, f.2.key? = some key)
    (hdecides : ∀ v ∈ rows, ∃ b, p.root.decision db.input [v] = .ok b) :
    ∃ o, (db.pinnedElements? s p.isolate).outcome = .ok o := by
  unfold pinnedElements?
  split
  · exact ⟨_, rfl⟩
  · rename_i hsat
    have hsat := eq_false_of_ne_true hsat
    rw [hs.collection]
    cases hpinned : p.isolate.pinned? t.collection.identity with
    | none => exact ⟨none, rfl⟩
    | some values =>
      have hlength : values.length = t.collection.identity.length :=
        ((Isolated.forall₂_of_pinned? (P := fun _ _ => True) hpinned).2
          fun _ _ _ _ => trivial).length_eq.symm
      have hvalues : List.Forall₂ (fun _ v => ∃ key, v.key? = some key) t.collection.identity
          values := (Isolated.forall₂_of_pinned? hpinned).2 fun name hname v hv => by
        obtain ⟨c, hc, hbound⟩ := Request.bound_of_mem_bindings hsat (Fields.mem_of_get? hv)
        exact hkeys c hc _ hbound hname
      obtain ⟨found, hfound⟩ := ht.find_of_keys fun v hv => by
        obtain ⟨-, -, hkey⟩ := exists_of_mem_left hvalues.flip hv
        exact hkey
      dsimp only
      rw [Run.outcome_bind, hs.lookup values hlength, hfound]
      cases found with
      | none => exact ⟨_, rfl⟩
      | some element =>
        obtain ⟨b, hb⟩ := hdecides element (ht.of_find hid hrows hfound).1
        obtain ⟨x, hx⟩ := holds_eq_ok ht hid hp hrows hsat hty hpinned hfound hb
        change ∃ o, (Run.outcome (do
          if ← p.isolate.holds db.input t.collection.identity element then pure (some [element])
          else pure (some [])) : Outcome (Option (List Value))) = .ok o
        rw [Run.outcome_bind, hx]
        cases x with
        | true => exact ⟨_, rfl⟩
        | false => exact ⟨_, rfl⟩

end Pinned

end Db

namespace Term

variable {input : Input} {rows : List Value}

/-- A filter of a source approaches the elements on which all conjuncts are true. -/
theorem eval_filter_source_approaches (id sourceId : Nat) (name : String) (predicate : Term)
    (hrows : input name = .ok rows) :
    Outcome.Related .lenient (Evaluated.Related .lenient)
      ((step id (source sourceId name) (.filter predicate)).eval input []).outcome
      (.ok (.value (.list (rows.filter fun v =>
        predicate.conjuncts.all (·.isTrue input [v]))))) := by
  have hsequence : (source sourceId name).sequence input [] = .ok (Pulls.ofList rows) := by
    rw [sequence, eval, Run.outcome_bind, Input.scan, Run.outcome_accessing, hrows]
    rfl
  have hkeep : Yields.keep (fun v => .ok (predicate.conjuncts.all (·.isTrue input [v])))
      (Yields.ofList rows) = Yields.ofList (rows.filter fun v =>
        predicate.conjuncts.all (·.isTrue input [v])) := Yields.keep_ofList fun _ _ => rfl
  rw [eval_filter, hsequence]
  refine .ok (.sequence rfl rfl ?_)
  rw [Pulls.yields_map_keepIf, Pulls.yields_ofList]
  rw [← hkeep]
  refine (Yields.Related.refl _).keep fun v => .of_ok fun b hb => ?_
  rw [test, outcome_operand] at hb
  exact ⟨_, rfl, (all_isTrue_of_decisions ((decision_eq predicate).symm.trans hb)).symm⟩

end Term

namespace Store.Catalog

variable {c : Catalog} {settings : Settings} {dialect : Sql.Dialect} {db : Db} {name : String}
  {s : Source}

/-- A catalog of document stores that were filled by saving and deleting elements. -/
def IsKept (c : Catalog) : Prop := ∀ e ∈ c, ∃ t, e.contents = .documents t ∧ t.Kept

theorem reads_of_source? (h : Db.ofSources c.sources settings dialect = .ok db) (hc : c.IsKept)
    (hs : db.source? name = some s) : ∃ t : Table, s.Reads t ∧ t.Keyed ∧
      db.input name = t.all ∧ db.schema.find? name = some t.collection ∧
      s.canLookup = !t.collection.identity.isEmpty := by
  obtain ⟨e, he, rfl, rfl⟩ := source?_eq_some h hs
  obtain ⟨t, ht, hkept⟩ := hc e he
  have hcollection : e.collection = t.collection := by rw [Entry.collection, ht]
  have hall : e.all = t.all := by rw [Entry.all, ht]
  refine ⟨t, ⟨hcollection, hall, fun values hlength => ?_⟩, hkept.keyed, ?_, ?_, ?_⟩
  · change (e.lookup values).outcome = _
    rw [Entry.lookup, ht]
    change (Run.outcome (do t.checkWidth values; .accessing (.lookup e.name) (t.find values))) = _
    rw [Run.outcome_bind, Run.outcome_lift, Table.checkWidth, if_pos hlength]
    rfl
  · rw [Db.input, hs]
    exact hall
  · obtain ⟨schema, hschema, h⟩ := Outcome.bind_eq_ok.1 h
    cases h
    have hmem : e.collection ∈ c.sources.map Source.collection :=
      List.mem_map.2 ⟨c.source e, List.mem_map_of_mem he, rfl⟩
    rw [← hcollection]
    exact Schema.find?_of_mem hschema hmem
  · change e.canLookup = _
    rw [Entry.canLookup, hcollection, ht, Bool.and_true]

end Store.Catalog

/-- The first filter of a request pins its source to values that have keys, if to any, and decides on
every element of the source. -/
def Request.PinsSmoothly (r : Request) (db : Db) : Prop :=
  ∀ sourceId name filterId subject predicate rest s rows,
    r.root.chain = .source sourceId name :: .step filterId subject (.filter predicate) :: rest →
    db.source? name = some s → db.input name = .ok rows →
    (∀ c ∈ predicate.conjuncts, ∀ f, c.bound? = some f → f.1 ∈ s.collection.identity →
      ∃ key, f.2.key? = some key) ∧
    ∀ v ∈ rows, ∃ b, predicate.outcome db.input [v] = .ok (.bool b)

namespace Db

variable {c : Store.Catalog} {settings : Settings} {dialect : Sql.Dialect} {db : Db} {r : Request}
  {v : Value}

/-- The rest of a request over the elements that its first filter keeps finds what the interpreter
finds. -/
theorem answer_of_filtered {sourceId filterId : Nat} {name : String} {predicate : Term}
    {rows elements : List Value} (hr : r.Ordered)
    (href : r.root.References (fun level up => up < level) 0)
    (hentry : .step filterId (.source sourceId name) (.filter predicate) ∈ r.root.spine)
    (hrows : db.input name = .ok rows) (hv : r.eval db.input [] = .ok v)
    (he : elements = rows.filter (db.passes { r with root := predicate })) :
    (Run.outcome (do
      let cut ← r.cut filterId
      let v ← cut.after.run db.input [.list elements]
      pure (some { strategy := .pointLookup, value := v })) : Outcome (Option Execution)) =
      .ok (some { strategy := .pointLookup, value := v }) := by
  have hfind : r.onChain? filterId = some (.step filterId (.source sourceId name)
    (.filter predicate)) := hr.ordered.find?_spine hentry
  obtain ⟨cut, hcut⟩ : ∃ cut, r.cut filterId = .ok cut := by
    rw [Request.cut, hfind]
    exact ⟨_, rfl⟩
  obtain ⟨before, hfound, hbefore, -⟩ := Request.cut_eq_ok hcut
  obtain rfl := Option.some.inj (hfind.symm.trans hfound)
  have hrelated : Outcome.Related .lenient Eq (r.eval db.input [])
      (cut.after.eval db.input [.list elements]) := by
    refine Request.cut_after_related Tolerance.lenient_namesPair hr hcut
      (href.mono fun level up hup => Scope.carries_of_lt [] _ 1 hup) ?_
    rw [hbefore, he]
    exact Term.eval_filter_source_approaches filterId sourceId name predicate hrows
  rw [hv] at hrelated
  obtain ⟨w, hw, rfl⟩ := hrelated.ok_of_lenient
  rw [Run.outcome_bind, Run.outcome_lift, hcut]
  change Run.outcome (cut.after.run db.input [.list elements] >>= _) = _
  rw [Run.outcome_bind, show Run.outcome _ = .ok v from hw]
  rfl

/-- A point lookup that answers gives the value that the interpreter finds. It does answer, or
declines, when its pinned values have keys and its predicate decides on every stored element. -/
theorem pointLookup_preserves_answer {ty : Ty}
    (hdb : ofSources c.sources settings dialect = .ok db) (hkept : c.IsKept) (hr : r.Ordered)
    (hdistinct : r.root.Distinct) (hty : r.root.infer db.schema [] = .ok ty)
    (hv : r.eval db.input [] = .ok v) :
    (∀ e, (db.pointLookup? r).outcome = .ok (some e) → e.value = v) ∧
      (r.PinsSmoothly db → ∃ o, (db.pointLookup? r).outcome = .ok o) := by
  unfold pointLookup?
  split
  · rename_i sourceId name filterId subject predicate rest hchain
    have hentry := Term.step_of_chain hchain
    cases hsource : db.source? name with
    | none => exact ⟨fun _ he => (by cases he), fun _ => ⟨none, rfl⟩⟩
    | some s =>
      obtain ⟨t, hs, ht, hinput, hschema, -⟩ :=
        Store.Catalog.reads_of_source? hdb hkept hsource
      dsimp only
      split
      · exact ⟨fun _ he => (by cases he), fun _ => ⟨none, rfl⟩⟩
      · rename_i hcan
        have hid : t.collection.identity ≠ [] := by
          rw [Bool.or_eq_true_iff, not_or, hs.collection] at hcan
          exact fun hnil => hcan.2 (List.isEmpty_iff.2 hnil)
        obtain ⟨rows, hrows⟩ := ht.all_eq_ok
        have hp : predicate.Distinct :=
          (Term.distinct_step.1 (hdistinct.of_mem_spine hentry)).2 (predicate, 1)
            (List.mem_singleton_self _)
        obtain ⟨pty, hpty⟩ := Term.infer_filter_source hschema
          (Term.infer_of_mem_spine hty hentry).choose_spec
        have hanswer := fun elements (ho : (db.pinnedElements? s
            (Request.isolate { r with root := predicate })).outcome = .ok (some elements)) =>
          answer_of_filtered hr (Term.references_of_infer hty) hentry (hinput.trans hrows) hv
            (pinnedElements?_eq_filter ht hid hp hrows hs ho)
        rw [Run.outcome_bind]
        constructor
        · intro e he
          obtain ⟨o, ho, he⟩ := Outcome.bind_eq_ok.1 he
          cases o with
          | none => cases he
          | some elements =>
            dsimp only at he
            rw [hanswer elements ho] at he
            cases he
            rfl
        · intro hpins
          obtain ⟨hkeys, hdecides⟩ :=
            hpins _ _ _ _ _ _ _ _ hchain hsource (hinput.trans hrows)
          have hdecides : ∀ v ∈ rows, ∃ b, predicate.decision db.input [v] = .ok b :=
            fun v hv => (hdecides v hv).imp fun _ => Term.decision_eq_ok.2
          obtain ⟨o, ho⟩ := pinnedElements?_eq_ok (p := { r with root := predicate })
            ht hid hp hrows hs hpty (hs.collection ▸ hkeys) hdecides
          rw [ho]
          cases o with
          | none => exact ⟨none, rfl⟩
          | some elements =>
            exact ⟨_, hanswer elements ho⟩
  · exact ⟨fun _ he => (by cases he), fun _ => ⟨none, rfl⟩⟩

end Db

/-- Numbered parts with their weights, where these are known. -/
def Collection.parts : Collection := ⟨"parts", [("id", .i64), ("weight", .i64)], ["id"]⟩

def Store.Table.parts : Table where
  collection := .parts
  rows := [([.int 1], [("id", .int64 1), ("weight", .null)]),
    ([.int 2], [("id", .int64 2), ("weight", .int64 7)])]

theorem Store.Table.parts_kept : Kept parts := by
  have hdistinct : ∀ (i : Int64) (w : Value), w.Distinct →
      (Value.mapping [("id", .int i), ("weight", w)]).Distinct := by
    intro i w hw
    refine .mapping (by simp [Fields.names]) fun f hf => ?_
    simp only [List.mem_cons, List.not_mem_nil, or_false] at hf
    rcases hf with rfl | rfl
    · exact .int i
    · exact hw
  have hone : Kept { parts with rows := [([.int 1], [("id", .int64 1), ("weight", .null)])] } :=
    .save (.empty .parts) (hdistinct 1 .null .null) rfl
  exact .save hone (hdistinct 2 (.int 7) (.int 7)) rfl

def Store.Catalog.parts : Catalog := [⟨"main", .documents .parts⟩]

theorem Store.Catalog.parts_kept : parts.IsKept := by
  intro e he
  obtain rfl := List.mem_singleton.1 he
  exact ⟨.parts, rfl, Table.parts_kept⟩

def Db.parts : Db where
  schema := ⟨[("parts", .parts)]⟩
  sources := Fields.ofList (Store.Catalog.parts.map fun e => (e.name, Store.Catalog.parts.source e))

theorem Db.ofSources_parts : ofSources Store.Catalog.parts.sources {} .sqlite = .ok parts := rfl

/-- The second part, if it is heavy, named twice by its number. -/
def Request.heavySecond : Request :=
  let id := (Request.context 0).wrap (.field "id")
  let weight := (Request.context 0).wrap (.field "weight")
  let named := (id.combine (.literal (.int 2)) (.binary .eq)).combine
    ((Request.literal (.int 2)).combine id (.binary .eq)) (.binary .and)
  let heavy := weight.combine (.literal (.int 5)) (.binary .gt)
  ((Request.source "parts").combine (named.combine heavy (.binary .and)) .filter).wrap .one

theorem Request.heavySecond_root : heavySecond.root =
    .step 16 (.step 15 (.source 0 "parts") (.filter (.step 14
      (.step 9 (.step 4 (.step 2 (.context 1 0) (.field "id")) (.binary .eq (.literal 3 (.int 2))))
        (.binary .and (.step 8 (.literal 5 (.int 2))
          (.binary .eq (.step 7 (.context 6 0) (.field "id"))))))
      (.binary .and (.step 13 (.step 11 (.context 10 0) (.field "weight"))
        (.binary .gt (.literal 12 (.int 5)))))))) .one := rfl

theorem Request.heavySecond_ordered : heavySecond.Ordered :=
  ⟨by simp [heavySecond_root, Term.ordered_step, Step.operands, Term.id], by decide⟩

theorem Request.heavySecond_distinct : heavySecond.root.Distinct := by
  simp [heavySecond_root, Term.distinct_step, Step.operands, Term.distinct_source,
    Term.distinct_context, Term.distinct_literal, Value.Distinct.int]

theorem Request.heavySecond_pinsSmoothly : heavySecond.PinsSmoothly Db.parts := by
  intro sourceId name filterId subject predicate rest s rows hchain hs hrows
  rw [heavySecond_root] at hchain
  cases hchain
  cases hs
  cases hrows
  constructor
  · intro c hc f hf _
    simp only [Term.conjuncts, List.cons_append, List.nil_append, List.mem_cons, List.not_mem_nil,
      or_false] at hc
    rcases hc with rfl | rfl | rfl
    · cases hf
      exact ⟨_, rfl⟩
    · cases hf
      exact ⟨_, rfl⟩
    · cases hf
  · intro v hv
    change v ∈ [.mapping [("id", .int 1), ("weight", .null)],
      .mapping [("id", .int 2), ("weight", .int 7)]] at hv
    simp only [List.mem_cons, List.not_mem_nil, or_false] at hv
    rcases hv with rfl | rfl
    · exact ⟨false, rfl⟩
    · exact ⟨true, rfl⟩

theorem Db.heavySecond_pointLookup :
    (∀ e, (parts.pointLookup? .heavySecond).outcome = .ok (some e) →
      e.value = .mapping [("id", .int 2), ("weight", .int 7)]) ∧
      ∃ o, (parts.pointLookup? .heavySecond).outcome = .ok o := by
  -- The term is put in place of the request that builds it, which would be built at every node.
  have hty : Request.heavySecond.root.infer parts.schema [] = .ok Collection.parts.itemTy := by
    rw [Request.heavySecond_root]
    rfl
  have hv : Request.heavySecond.eval parts.input [] =
      .ok (.mapping [("id", .int 2), ("weight", .int 7)]) := by
    rw [Request.eval, Request.run, Request.heavySecond_root]
    rfl
  obtain ⟨hsame, hanswers⟩ := pointLookup_preserves_answer ofSources_parts
    Store.Catalog.parts_kept Request.heavySecond_ordered Request.heavySecond_distinct hty hv
  exact ⟨hsame, hanswers Request.heavySecond_pinsSmoothly⟩

/-- None of the first parts, if that one is heavy. -/
def Request.noneOfFirst : Request :=
  let id := (Request.context 0).wrap (.field "id")
  let weight := (Request.context 0).wrap (.field "weight")
  let predicate := (id.combine (.literal (.int 1)) (.binary .eq)).combine
    (weight.combine (.literal (.int 5)) (.binary .gt)) (.binary .and)
  ((Request.source "parts").combine predicate .filter).wrap (.slice (some 0) (some 0))

theorem Request.noneOfFirst_root : noneOfFirst.root =
    .step 11 (.step 10 (.source 0 "parts") (.filter (.step 9
      (.step 4 (.step 2 (.context 1 0) (.field "id")) (.binary .eq (.literal 3 (.int 1))))
      (.binary .and (.step 8 (.step 6 (.context 5 0) (.field "weight"))
        (.binary .gt (.literal 7 (.int 5)))))))) (.slice (some 0) (some 0)) := rfl

/-- A point lookup tests the element that it finds, which the interpreter never comes to. -/
theorem Db.noneOfFirst_pointLookup_fails :
    ofSources Store.Catalog.parts.sources {} .sqlite = .ok parts ∧
      Store.Catalog.parts.IsKept ∧ Request.noneOfFirst.Ordered ∧
      Request.noneOfFirst.root.Distinct ∧
      Request.noneOfFirst.root.infer parts.schema [] = .ok Collection.parts.ty ∧
      Request.noneOfFirst.eval parts.input [] = .ok (.list []) ∧
      (parts.pointLookup? .noneOfFirst).outcome = .error (.fault (.orderKinds .null .i64)) := by
  refine ⟨rfl, Store.Catalog.parts_kept, ⟨?_, by decide⟩, ?_, rfl, rfl, rfl⟩
  · simp [Request.noneOfFirst_root, Term.ordered_step, Step.operands, Term.id]
  · simp [Request.noneOfFirst_root, Term.distinct_step, Step.operands, Term.distinct_source,
      Term.distinct_context, Term.distinct_literal, Value.Distinct.int]

end QueryPushdown
