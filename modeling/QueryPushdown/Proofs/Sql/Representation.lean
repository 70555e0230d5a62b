import QueryPushdown.Proofs.Sql.Pipelines
import QueryPushdown.Proofs.Sql.Relations
import QueryPushdown.Proofs.Typing.Inference
import QueryPushdown.Proofs.Value.Order

/-!
# Lowered pipelines

The relation of a stored table stands for the rows of the table. A step that is lowered over a relation
that stands for the list of its subject gives one that stands for its own list, and so the relation of
a pipeline stands for the list that the pipeline evaluates to.
-/

namespace QueryPushdown

namespace Sql

section Source

variable {table : Nat} {row : Fields Value} {tys : Fields Ty} {fields : Fields Value}

theorem readsFields_of_row
    (h : List.Forall₂ (fun f v => v.1 = f.1 ∧ (f.2.isScalar = true → v.2.ty = f.2)) tys fields)
    (hrow : ∀ f ∈ fields, Fields.get? row f.1 = some f.2) :
    Shape.ReadsFields table row (tys.map fun (name, ty) =>
      (name, if ty.isScalar then .scalar (.column (some table) name) ty else .unreadable ty))
      tys fields := by
  induction h with
  | nil => exact .nil
  | @cons f v _ _ hf _ ih =>
    obtain ⟨name, ty⟩ := f
    obtain ⟨other, v⟩ := v
    obtain ⟨rfl, hty⟩ : other = name ∧ (ty.isScalar = true → v.ty = ty) := hf
    obtain ⟨hv, hrow⟩ := List.forall_mem_cons.1 hrow
    refine .cons ?_ (ih hrow)
    cases hs : ty.isScalar with
    | false => exact .unreadable ty v
    | true =>
      obtain rfl := hty hs
      refine .scalar ?_ hs
      rw [Expr.value?, if_pos rfl]
      exact hv

/-- The columns of a stored table hold the scalars of its rows. -/
theorem Shape.reads_ofCollection {c : Collection} {element : Value} (hc : c.itemTy.Distinct)
    (h : c.HasRow element) : ∃ row, element = .mapping row ∧
      (Shape.ofCollection c table).Reads table row c.itemTy element := by
  obtain ⟨row, rfl, hrow⟩ := h
  refine ⟨row, rfl, .mapping (readsFields_of_row hrow fun f hf => ?_)⟩
  have hnames : ∀ {tys : Fields Ty} {fields : Fields Value}, List.Forall₂ (fun f v =>
      v.1 = f.1 ∧ (f.2.isScalar = true → v.2.ty = f.2)) tys fields →
      Fields.names fields = Fields.names tys := by
    intro tys fields h
    induction h with
    | nil => rfl
    | cons hf _ ih => exact congr (congrArg List.cons hf.1) ih
  cases hc with
  | mapping hn _ => exact Fields.get?_of_mem (hnames hrow ▸ hn) hf

end Source

section Keys

variable {target : Target} {input : Input} {table : Nat} {row : Fields Value} {shape : Shape}
  {item : Ty} {element : Value} {keys : List (Term × Bool)} {orderBy : List (Expr × Bool)}

theorem map_snd_keyColumns {scopes : List Binding}
    (h : Gives (keyColumns target scopes keys) orderBy) :
    orderBy.map Prod.snd = keys.map Prod.snd := by
  induction keys generalizing orderBy with
  | nil =>
    rw [keyColumns] at h
    rw [← h.pure]
    rfl
  | cons k keys ih =>
    rw [keyColumns] at h
    obtain ⟨e, -, h⟩ := h.bind
    obtain ⟨others, hothers, h⟩ := h.bind
    rw [← h.pure, List.map_cons, List.map_cons, ih hothers]

/-- A value of a sort key has the scalar type of the key. -/
def IsKeyValue (schema : Schema) (item : Ty) (key : Term × Bool) (v : Value) : Prop :=
  v.ty.isScalar = true ∧ key.1.infer schema [item] = .ok v.ty

/-- The columns of sort keys hold their values. -/
theorem keyColumns_value? {ks : List Value}
    (h : Gives (keyColumns target [.element shape item] keys) orderBy)
    (hplain : ∀ k ∈ keys, k.1.Plain) (hread : shape.Reads table row item element)
    (hks : (evalKeys input [element] keys).outcome = .ok ks) :
    orderBy.mapM (fun key => key.1.value? table row) = some ks ∧
      List.Forall₂ (IsKeyValue target.schema item) keys ks := by
  induction keys generalizing orderBy ks with
  | nil =>
    rw [keyColumns] at h
    cases hks
    rw [← h.pure]
    exact ⟨rfl, .nil⟩
  | cons k keys ih =>
    obtain ⟨t, descending⟩ := k
    obtain ⟨ht, hplain⟩ := List.forall_mem_cons.1 hplain
    rw [keyColumns] at h
    obtain ⟨e, he, h⟩ := h.bind
    obtain ⟨others, hothers, h⟩ := h.bind
    rw [Term.outcome_evalKeys_cons] at hks
    obtain ⟨v, hv, hks⟩ := Outcome.bind_eq_ok.1 hks
    obtain ⟨vs, hvs, hks⟩ := Outcome.bind_eq_ok.1 hks
    cases hks
    obtain ⟨hvalue, hscalar, hty⟩ := (lowered_of_plain ht hread).column he hv
    obtain ⟨hvalues, htys⟩ := ih hothers hplain hvs
    rw [← h.pure, List.mapM_cons, hvalue, hvalues]
    exact ⟨rfl, .cons ⟨hscalar, hty⟩ htys⟩

/-- Values of the same sort keys are of one scalar type at each place. -/
theorem ty_keyValue {schema : Schema} {ks ls : List Value}
    (hks : List.Forall₂ (IsKeyValue schema item) keys ks)
    (hls : List.Forall₂ (IsKeyValue schema item) keys ls) (j : Nat) :
    (ks[j]?.getD .null).ty.isScalar = true ∧ (ls[j]?.getD .null).ty = (ks[j]?.getD .null).ty := by
  induction hks generalizing ls j with
  | nil =>
    cases hls
    exact ⟨rfl, rfl⟩
  | cons hk _ ih =>
    cases hls with
    | cons hl hls =>
      cases j with
      | zero => exact ⟨hk.1, Except.ok.inj (hl.2.symm.trans hk.2)⟩
      | succ j => exact ih hls j

/-- The values of sort keys are ranked by the order of all values. -/
theorem rankedAt_keyValues {schema : Schema} {vs : List Value} {f : Value → List Value}
    (h : ∀ v ∈ vs, List.Forall₂ (IsKeyValue schema item) keys (f v)) (j : Nat) :
    Sorting.RankedAt (vs.map fun v => ⟨f v, v⟩) j := by
  refine .map (f := fun v => (⟨f v, v⟩ : Row)) ⟨fun a _ b _ => Value.totalCompare_swap _ _, ?_⟩
  intro a ha b hb d hd hab hbd
  have hb := ty_keyValue (h a ha) (h b hb) j
  have hd := ty_keyValue (h a ha) (h d hd) j
  exact Value.totalCompare_trans hb.1 hb.2 hd.2 hab hbd

end Keys

namespace Relation

/-- A relation stands for the list that a term evaluates to, made of what the steps of the term make
of some rows. -/
structure StandsFor (r : Relation) (schema : Schema) (input : Input) (rows : List Value)
    (t : Term) : Prop where
  infer : t.infer schema [] = .ok (.list r.item)
  distinct : r.item.Distinct
  meaning : ∃ m : Meaning input (t.Carries input rows) r,
    t.outcome input [] = .ok (.list m.elements)

section Steps

variable {target : Target} {input : Input} {rows : List Value} {id : Nat} {subject : Term}
  {lowered : Lowering Relation} {r : Relation} {ty : Ty}

theorem standsFor_source {c : Collection} {name : String} (hschema : target.schema.Distinct)
    (hc : target.schema.find? name = some c) (hname : c.name = name) (hrows : input name = .ok rows)
    (hrow : ∀ row ∈ rows, c.HasRow row) (hlength : rows.length < 2 ^ 63)
    (h : Gives (relationOf target [] (.source id name)) r) :
    r.StandsFor target.schema input rows (.source id name) := by
  rw [relationOf, hc] at h
  obtain ⟨table, -, h⟩ := h.bind
  obtain rfl := h.pure
  have hdistinct : c.itemTy.Distinct := by
    cases hschema name c hc with
    | list h => exact h
  have hcarries : ∀ row ∈ rows, (Term.source id name).Carries input rows row :=
    fun row hrow => ⟨row, hrow, rfl⟩
  refine ⟨?_, hdistinct, .ofTable (hname ▸ hrows)
    (fun row hr => Shape.reads_ofCollection hdistinct (hrow row hr)) hcarries hlength, ?_⟩
  · rw [Term.infer, hc]
    rfl
  · rw [Meaning.elements_ofTable]
    exact Term.outcome_source id hrows

/-- A step that keeps the type of its subject keeps the type of the elements. -/
theorem infer_of_keepsType {t : Term} {action : Step} {sty : Ty} (hk : action.keepsType = true)
    (hs : t.infer target.schema [] = .ok sty)
    (h : (Term.step id t action).infer target.schema [] = .ok ty) :
    (Term.step id t action).infer target.schema [] = .ok sty := by
  have haction : action.infer target.schema [] sty = .ok ty := by
    rw [Term.infer, hs] at h
    exact h
  rw [h, Step.infer_of_keepsType hk haction]

variable (hsubject : ∀ r, Gives lowered r → r.StandsFor target.schema input rows subject)

include hsubject

theorem standsFor_filter {predicate : Term} (hp : predicate.Plain)
    (hcarry : (Term.step id subject (.filter predicate)).CarriesAll input rows)
    (hty : (Term.step id subject (.filter predicate)).infer target.schema [] = .ok ty)
    (h : Gives (stepRelation target [] (.step id subject (.filter predicate)) lowered
      (.filter predicate)) r) :
    r.StandsFor target.schema input rows (.step id subject (.filter predicate)) := by
  rw [stepRelation] at h
  obtain ⟨r₀, hr₀, h⟩ := h.bind
  obtain ⟨r₁, hr₁, h⟩ := h.bind
  obtain ⟨e, he, h⟩ := h.bind
  obtain rfl := h.pure
  obtain ⟨hinfer, hdistinct, m₀, houtcome⟩ := hsubject r₀ hr₀
  obtain ⟨m, hm, hitem, hopen⟩ := m₀.opened hdistinct hr₁
  rw [← hitem] at hinfer hdistinct
  rw [← hm] at houtcome
  have htests : ∀ v ∈ m.elements,
      predicate.outcome input [v] = .ok (.bool (predicate.isTrue input [v])) :=
    fun v hv => (hcarry.filter (m.among_elements hv)).1
  have hcolumn : ∀ p ∈ m.kept,
      e.value? m.table p.1 = some (.bool (predicate.isTrue input [p.2])) := fun p hm =>
    ((lowered_of_plain hp (m.reads p hm)).column he (hcarry.filter (m.among p hm)).1).1
  have hkept : ∀ p ∈ (m.filter (fun v => predicate.isTrue input [v]) hcolumn).kept,
      (Term.step id subject (.filter predicate)).Carries input rows p.2 := by
    intro p hp
    obtain ⟨hp, htrue⟩ := List.mem_filter.1 hp
    exact (hcarry.filter (m.among p hp)).2 htrue
  refine ⟨infer_of_keepsType rfl hinfer hty, hdistinct, (m.filter _ hcolumn).mono hkept, ?_⟩
  rw [Term.outcome_filter_list houtcome htests]
  exact congrArg _ (congrArg _ (m.elements_filter hopen hcolumn).symm)

theorem standsFor_map {transform : Term} (hf : transform.Plain)
    (hdistinct : ∀ item, (Term.step id subject (.map transform)).infer target.schema [] =
      .ok (.list item) → item.Distinct)
    (hcarry : (Term.step id subject (.map transform)).CarriesAll input rows)
    (h : Gives (stepRelation target [] (.step id subject (.map transform)) lowered
      (.map transform)) r) :
    r.StandsFor target.schema input rows (.step id subject (.map transform)) := by
  rw [stepRelation] at h
  obtain ⟨r₀, hr₀, h⟩ := h.bind
  obtain ⟨r₁, hr₁, h⟩ := h.ite_bind
  obtain ⟨shape, hshape, h⟩ := h.bind
  obtain ⟨item, hitem, h⟩ := h.bind
  obtain rfl := h.pure
  obtain ⟨hinfer, hsdistinct, m₀, houtcome⟩ := hsubject r₀ hr₀
  rw [← ite_not] at hr₁
  obtain ⟨m, hm, hritem, hkept⟩ := m₀.wrapped hsdistinct hr₁
  have hnot : r₁.select.distinct = false := by
    rcases hkept with ⟨rfl, hkeep⟩ | hopen
    · simpa using hkeep
    · exact distinct_of_isOpen hopen
  rw [← hritem] at hinfer
  rw [← hm] at houtcome
  obtain ⟨ty, hty, hitem⟩ := hitem.itemTypeOf
  have hstep : (do pure (.list (← transform.infer target.schema [r₁.item]))) =
      (.ok ty : Outcome Ty) := by
    rw [List.map_nil, Term.infer, hinfer] at hty
    exact hty
  obtain ⟨tty, htty, hstep⟩ := Outcome.bind_eq_ok.1 hstep
  obtain rfl : .list tty = ty := Except.ok.inj hstep
  obtain rfl : tty = item := Option.some.inj hitem
  have hreads : ∀ p ∈ m.kept,
      shape.Reads m.table p.1 tty (transform.outcome input [p.2]).orNull := by
    intro p hp
    obtain ⟨tty', htty', hread⟩ := lowered_of_plain hf (m.reads p hp) shape _ hshape
      (hcarry.map (m.among p hp)).1
    cases htty.symm.trans htty'
    exact hread
  have hcarries : ∀ p ∈ m.kept, (Term.step id subject (.map transform)).Carries input rows
      (transform.outcome input [p.2]).orNull := fun p hp => (hcarry.map (m.among p hp)).2
  have htransforms : ∀ v ∈ m.elements,
      transform.outcome input [v] = .ok (transform.outcome input [v]).orNull :=
    fun v hv => (hcarry.map (m.among_elements hv)).1
  refine ⟨hty, hdistinct tty hty,
    m.map (f := fun v => (transform.outcome input [v]).orNull) hreads hcarries, ?_⟩
  rw [Term.outcome_map_list houtcome htransforms]
  exact congrArg _ (congrArg _ (m.elements_map hnot hreads hcarries).symm)

theorem standsFor_slice {start stop : Option Int64}
    (hcarry : (Term.step id subject (.slice start stop)).CarriesAll input rows)
    (hty : (Term.step id subject (.slice start stop)).infer target.schema [] = .ok ty)
    (h : Gives (stepRelation target [] (.step id subject (.slice start stop)) lowered
      (.slice start stop)) r) :
    r.StandsFor target.schema input rows (.step id subject (.slice start stop)) := by
  rw [stepRelation] at h
  split at h
  · exact h.refuse.elim
  rename_i hforward
  have hforward : Step.isForward start stop = true := by simpa using hforward
  obtain ⟨r₀, hr₀, h⟩ := h.bind
  obtain rfl := h.pure
  obtain ⟨hinfer, hdistinct, m, houtcome⟩ := hsubject r₀ hr₀
  have hcarries : ∀ p ∈ m.kept, (Term.step id subject (.slice start stop)).Carries input rows p.2 :=
    fun p hp => hcarry.passes rfl (m.among p hp)
  refine ⟨infer_of_keepsType rfl hinfer hty, hdistinct, (m.slice start stop).mono hcarries, ?_⟩
  rw [Term.outcome_slice_list houtcome hforward]
  exact congrArg _ (congrArg _ (m.elements_slice hforward).symm)

theorem standsFor_distinct
    (hcarry : (Term.step id subject .distinct).CarriesAll input rows)
    (hty : (Term.step id subject .distinct).infer target.schema [] = .ok ty)
    (h : Gives (stepRelation target [] (.step id subject .distinct) lowered .distinct) r) :
    r.StandsFor target.schema input rows (.step id subject .distinct) := by
  rw [stepRelation] at h
  obtain ⟨r₀, hr₀, h⟩ := h.bind
  obtain ⟨r₁, hr₁, h⟩ := h.ite_bind
  obtain ⟨hinfer, hdistinct, m₀, houtcome⟩ := hsubject r₀ hr₀
  obtain ⟨m, hm, hitem, hkept⟩ := m₀.wrapped hdistinct hr₁
  have hbounds : r₁.select.isUnbounded = true := by
    rcases hkept with ⟨rfl, hkeep⟩ | hopen
    · exact hkeep
    · exact isUnbounded_of_isOpen hopen
  rw [← hitem] at hinfer hdistinct
  rw [← hm] at houtcome
  change Gives (if _ then _ else _) r at h
  split at h
  · exact h.refuse.elim
  rename_i horder
  have horder : r₁.select.orderBy = [] := by simpa using horder
  obtain rfl := h.pure
  have hcarries : ∀ p ∈ m.kept, (Term.step id subject .distinct).Carries input rows p.2 :=
    fun p hp => hcarry.passes rfl (m.among p hp)
  refine ⟨infer_of_keepsType rfl hinfer hty, hdistinct, (m.distinct horder).mono hcarries, ?_⟩
  rw [Term.outcome_distinct_list houtcome, Seen.fresh_eq_firsts]
  exact congrArg _ (congrArg _ (m.elements_distinct horder hbounds).symm)

theorem standsFor_sort {keys : List (Term × Bool)} (hk : ∀ k ∈ keys, k.1.Plain)
    (hcarry : (Term.step id subject (.sort keys)).CarriesAll input rows)
    (hty : (Term.step id subject (.sort keys)).infer target.schema [] = .ok ty)
    (h : Gives (stepRelation target [] (.step id subject (.sort keys)) lowered (.sort keys)) r) :
    r.StandsFor target.schema input rows (.step id subject (.sort keys)) := by
  rw [stepRelation] at h
  obtain ⟨r₀, hr₀, h⟩ := h.bind
  obtain ⟨r₁, hr₁, h⟩ := h.bind
  obtain ⟨orderBy, horderBy, h⟩ := h.bind
  obtain rfl := h.pure
  obtain ⟨hinfer, hdistinct, m₀, houtcome⟩ := hsubject r₀ hr₀
  obtain ⟨m, hm, hitem, hopen⟩ := m₀.opened hdistinct hr₁
  rw [← hitem] at hinfer hdistinct
  rw [← hm] at houtcome
  have hnot := distinct_of_isOpen hopen
  have hkeys := fun p (hp : p ∈ m.kept) => keyColumns_value? horderBy hk (m.reads p hp)
    (hcarry.sort (m.among p hp)).1
  have hvalues := fun p hp => (hkeys p hp).1
  have hranked : ∀ j, Sorting.RankedAt ((m.kept.map Prod.snd).map fun v =>
      ⟨Term.keyValues input keys v, v⟩) j := rankedAt_keyValues fun v hv => by
    obtain ⟨p, hp, rfl⟩ := List.mem_map.1 hv
    exact (hkeys p hp).2
  have hcarries : ∀ p ∈ m.kept, (Term.step id subject (.sort keys)).Carries input rows p.2 :=
    fun p hp => (hcarry.sort (m.among p hp)).2
  have hevaluated : ∀ v ∈ m.elements,
      (evalKeys input [v] keys).outcome = .ok (Term.keyValues input keys v) :=
    fun v hv => (hcarry.sort (m.among_elements hv)).1
  refine ⟨infer_of_keepsType rfl hinfer hty, hdistinct,
    (m.sort hvalues hranked hnot).mono hcarries, ?_⟩
  rw [Term.outcome_sort_list houtcome hevaluated, ← map_snd_keyColumns horderBy]
  exact congrArg _ (congrArg _ (m.elements_sort hvalues hranked hopen hnot).symm)

end Steps

section Run

variable {target : Target} {input : Input} {rows : List Value} {t : Term}

/-- Whatever relation a term is lowered to stands for the list that the term evaluates to. -/
def Represents (target : Target) (input : Input) (rows : List Value) (t : Term) : Prop :=
  t.Distinct → t.CarriesAll input rows → ∀ ty, t.infer target.schema [] = .ok ty →
    ∀ r, Gives (relationOf target [] t) r → r.StandsFor target.schema input rows t

theorem Represents.subject {id : Nat} {action : Step} {ty : Ty} (h : Represents target input rows t)
    (hd : (Term.step id t action).Distinct) (hcarry : (Term.step id t action).CarriesAll input rows)
    (hty : (Term.step id t action).infer target.schema [] = .ok ty) :
    ∀ r, Gives (relationOf target [] t) r → r.StandsFor target.schema input rows t := by
  obtain ⟨sty, hsty, -⟩ := Outcome.bind_eq_ok.1 hty
  exact h (Term.distinct_step.1 hd).1 hcarry.subject sty hsty

theorem represents_of_pipeline {c : Collection} (hschema : target.schema.Distinct)
    (hc : target.schema.find? c.name = some c) (hrows : input c.name = .ok rows)
    (hrow : ∀ row ∈ rows, c.HasRow row) (hlength : rows.length < 2 ^ 63) (ht : t.Pipeline c.name) :
    Represents target input rows t := by
  induction ht with
  | source id => exact fun _ _ _ _ _ h => standsFor_source hschema hc rfl hrows hrow hlength h
  | filter id _ hp ih =>
    intro hd hcarry ty hty r h
    rw [relationOf] at h
    exact standsFor_filter (ih.subject hd hcarry hty) hp hcarry hty h
  | map id _ hf ih =>
    intro hd hcarry ty hty r h
    rw [relationOf] at h
    refine standsFor_map (ih.subject hd hcarry hty) hf (fun item hitem => ?_) hcarry h
    cases Term.infer_distinct hschema _ hd [] _ (fun _ hf => nomatch hf) hitem with
    | list hitem => exact hitem
  | sort id _ hk ih =>
    intro hd hcarry ty hty r h
    rw [relationOf] at h
    exact standsFor_sort (ih.subject hd hcarry hty) hk hcarry hty h
  | slice id start stop _ ih =>
    intro hd hcarry ty hty r h
    rw [relationOf] at h
    exact standsFor_slice (ih.subject hd hcarry hty) hcarry hty h
  | distinct id _ ih =>
    intro hd hcarry ty hty r h
    rw [relationOf] at h
    exact standsFor_distinct (ih.subject hd hcarry hty) hcarry hty h

end Run

end Relation

end Sql

end QueryPushdown
