import QueryPushdown.Proofs.Eval.Ranking
import QueryPushdown.Proofs.Sql.Aggregates
import QueryPushdown.Proofs.Typing.Soundness

/-!
# Scopes at a place

The bindings around a term stand for a scope at a place when the elements in scope are what their shapes
hold at the row of the place, and the rows of the place stand for the members of the innermost group.
An occurrence of a term has all that its value and what it is lowered to depend on.
-/

namespace QueryPushdown

/-- The tables of a schema are there, each under its own name. A row has the declared fields in their
order, and there are no more rows than words can count. -/
def Input.Stores (input : Input) (schema : Schema) : Prop :=
  ∀ name c, schema.find? name = some c → c.name = name ∧ ∃ rows, input name = .ok rows ∧
    rows.length < 2 ^ 63 ∧ ∀ row ∈ rows, ∃ fields, row = .mapping fields ∧
      Fields.Inhabit c.fields fields

theorem Input.Stores.holds {input : Input} {schema : Schema} (h : input.Stores schema)
    (hschema : schema.Distinct) : input.Holds schema := by
  intro name c hc
  obtain ⟨-, rows, hrows, -, hfields⟩ := h name c hc
  refine ⟨rows, hrows, fun row hrow => ?_⟩
  obtain ⟨fields, rfl, hfields⟩ := hfields row hrow
  cases hschema name c hc with
  | list hitem => cases hitem with
    | mapping hn _ => exact hfields.mapping (hfields.names_eq ▸ hn) _

/-- What a typed sequence passes is of the type of its elements. -/
theorem Evaluated.Has.of_mem {e : Evaluated} {item : Ty} {ys : Yields} {v : Value}
    (h : e.Has (.list item)) (hys : e.yields? = some ys) (hv : .ok v ∈ ys) : item.Inhabits v := by
  have hps := h.toPulls rfl
  obtain ⟨ps, hp, rfl⟩ := Evaluated.toPulls_of_yields hys
  rw [hp] at hps
  exact hps.2 _ hv

namespace Sql

/-- The shape of an element in scope holds it. -/
def Binding.Reads (p : Place) : Binding → Value → Prop
  | .element s _, v => s.Holds p v
  | .group _ _, _ => True

abbrev Elements (p : Place) : List Binding → Scope → Prop := List.Forall₂ (Binding.Reads p)

section

variable {p q : Place} {bs : List Binding} {scope : Scope}

theorem Elements.leads (h : Elements p bs scope) (hpq : p.Leads q) : Elements q bs scope :=
  h.imp fun b v hv => by
    cases b with
    | element s ty => exact Shape.Holds.leads hv hpq
    | group => trivial

/-- The shape of an element of a scope holds it. -/
theorem Elements.holds (h : Elements p bs scope) {up : Nat} {s : Shape} {ty : Ty} {v : Value}
    (hb : bs[up]? = some (.element s ty)) (hv : scope[up]? = some v) : s.Holds p v := by
  obtain ⟨hlt, hb⟩ := List.getElem?_eq_some_iff.1 hb
  obtain ⟨hlt', hv⟩ := List.getElem?_eq_some_iff.1 hv
  have hread := List.Forall₂.get h hlt hlt'
  rw [List.get_eq_getElem, List.get_eq_getElem] at hread
  change (bs[up]).Reads p scope[up] at hread
  rwa [hb, hv] at hread

/-- The elements of a scope are read off the row of a place, and are of the types of the bindings. -/
structure Scoped (p : Place) (bs : List Binding) (scope : Scope) : Prop where
  typed : List.Forall₂ (fun b v => Ty.Inhabits b.ty v) bs scope
  elements : Elements (p.on p.row) bs scope

/-- The innermost scope, if it is a group, has the rows of the group for its members. -/
def HasMembers (p : Place) (bs : List Binding) (scope : Scope) : Prop :=
  match bs with
  | .group member _ :: bs => ∃ rows vs outer, p.group = some rows ∧ scope = .list vs :: outer ∧
      List.Forall₂ (fun row v => member.Holds (p.on row) v) rows vs ∧
      ∀ row ∈ rows, Elements (p.on row) bs outer
  | _ => True

namespace Scoped

theorem on_admitted (h : Scoped p bs scope) {members : List Current} {row : Current}
    (ha : p.Admits members row) : Scoped (p.on row) bs scope := by
  refine ⟨h.typed, h.elements.leads ?_⟩
  unfold Place.Admits at ha
  cases hg : p.group with
  | none =>
    rw [hg] at ha
    exact .of_agree rfl rfl (Nat.le_refl _) ha
  | some rows =>
    rw [hg] at ha
    rw [ha.2]
    exact .refl _

theorem upto (h : Scoped p bs scope) {n : Nat} (hn : p.next ≤ n) : Scoped (p.upto n) bs scope :=
  ⟨h.typed, h.elements.leads (Place.Leads.upto (p := p.on p.row) hn)⟩

theorem frames (h : Scoped p bs scope) : List.Forall₂ Ty.Inhabits (boundsOf bs).frames scope := by
  rw [frames_boundsOf]
  exact List.forall₂_map_left_iff.2 h.typed

end Scoped

theorem HasMembers.upto (h : HasMembers p bs scope) {n : Nat} (hn : p.next ≤ n) :
    HasMembers (p.upto n) bs scope := by
  cases bs with
  | nil => trivial
  | cons b bs => cases b with
    | element => trivial
    | group member ty =>
      obtain ⟨rows, vs, outer, hrows, hscope, hmembers, hothers⟩ := h
      have hleads : ∀ row, (p.on row).Leads ((p.upto n).on row) := fun row =>
        Place.Leads.upto (p := p.on row) hn
      exact ⟨rows, vs, outer, hrows, hscope, hmembers.imp fun row v hv => hv.leads (hleads row),
        fun row hrow => (hothers row hrow).leads (hleads row)⟩

end

/-- The elements around a group are read off each of its rows. -/
theorem HasMembers.elements {p : Place} {bs : List Binding} {scope : Scope} {rows : List Current}
    {row : Current} (h : HasMembers p bs scope) (hbs : (boundsOf bs).isGrouped = true)
    (hrows : p.group = some rows) (hrow : row ∈ rows) : Elements (p.on row) bs scope := by
  cases bs with
  | nil => cases hbs
  | cons b bs => cases b with
    | element => cases hbs
    | group member ty =>
      obtain ⟨rows', vs, outer, hrows', rfl, -, hothers⟩ := h
      obtain rfl := Option.some.inj (hrows'.symm.trans hrows)
      exact .cons trivial (hothers row hrow)

/-- Sound bindings stand for a scope at a place, and the tables of the schema are stored. -/
structure Around (target : Target) (p : Place) (bs : List Binding) (scope : Scope) : Prop where
  stored : p.input.Stores target.schema
  sound : ∀ b ∈ bs, b.Sound
  inScope : Scoped p bs scope

/-- A term occurs at a place with the type `ty`. -/
structure Occurs (target : Target) (p : Place) (bs : List Binding) (scope : Scope) (t : Term)
    (ty : Ty) : Prop extends Around target p bs scope where
  regular : t.Regular target.schema (boundsOf bs) ty
  ranked : t.Ranked p.input scope

section

variable {target : Target} {p : Place} {bs : List Binding} {scope : Scope} {t subject : Term}
  {ty item : Ty} {id k : Nat} {action : Step} {v : Value}

namespace Around

theorem upto (h : Around target p bs scope) {n : Nat} (hn : p.next ≤ n) :
    Around target (p.upto n) bs scope := ⟨h.stored, h.sound, h.inScope.upto hn⟩

theorem on_admitted (h : Around target p bs scope) {members : List Current} {row : Current}
    (ha : p.Admits members row) : Around target (p.on row) bs scope :=
  ⟨h.stored, h.sound, h.inScope.on_admitted ha⟩

/-- Rows that agree with the row of a place on the aliases that are taken have its elements. -/
theorem elements_on (h : Around target p bs scope) (hk : p.next ≤ k) {row : Current}
    (hrow : p.row.AgreeBelow p.next row) : Elements ((p.upto k).on row) bs scope :=
  h.inScope.elements.leads (.of_agree rfl rfl hk hrow)

/-- Under an element, at a row that it is read off. -/
theorem element {s : Shape} {row : Current} (h : Around target p bs scope) (hs : s.Plain item)
    (hothers : Elements ((p.upto k).on row) bs scope) (hread : s.Holds ((p.upto k).on row) v)
    (hv : item.Inhabits v) :
    Around target ((p.upto k).on row) (.element s item :: bs) (v :: scope) where
  stored := h.stored
  sound := sound_element hs h.sound
  inScope := ⟨.cons hv h.inScope.typed, .cons hread hothers⟩

/-- Under a group, at the place of the rows that its members are read off. -/
theorem group {s : Shape} {rows : List Current} {vs : List Value} {n : Nat}
    (h : Around target p bs scope) (hs : s.Plain item) (hk : p.next ≤ k) (hn : k ≤ n)
    (hrows : ∀ row ∈ rows, p.row.AgreeBelow p.next row)
    (hread : List.Forall₂ (fun row v => s.Holds ((p.upto k).on row) v) rows vs)
    (hvs : ∀ v ∈ vs, item.Inhabits v) :
    Around target ((p.upto n).grouped rows) (.group s item :: bs) (.list vs :: scope) ∧
      HasMembers ((p.upto n).grouped rows) (.group s item :: bs) (.list vs :: scope) := by
  have hothers : ∀ row, p.row.AgreeBelow p.next row → Elements ((p.upto n).on row) bs scope :=
    fun _ => h.elements_on (Nat.le_trans hk hn)
  have hhead : p.row.AgreeBelow p.next (rows.headD p.row) := by
    cases rows with
    | nil => exact .refl _ _
    | cons row rows => exact hrows row List.mem_cons_self
  refine ⟨⟨h.stored, sound_group hs h.sound, .cons (.list hvs) h.inScope.typed,
    .cons trivial (hothers _ hhead)⟩, rows, vs, scope, rfl, rfl, hread.imp fun row v hv => ?_,
    fun row hrow => hothers row (hrows row hrow)⟩
  exact hv.leads (Relation.Renders.leads_on p row hn)

end Around

namespace Occurs

theorem on_admitted (h : Occurs target p bs scope t ty) {members : List Current} {row : Current}
    (ha : p.Admits members row) : Occurs target (p.on row) bs scope t ty :=
  ⟨h.toAround.on_admitted ha, h.regular, h.ranked⟩

/-- The subject of a step occurs where the step does. -/
theorem step (h : Occurs target p bs scope (.step id subject action) ty) : ∃ sty,
    Occurs target p bs scope subject sty ∧
      action.Regular target.schema (boundsOf bs) sty ty ∧
      action.Ranked p.input scope subject ∧ action.Settles p.input scope subject := by
  obtain ⟨sty, hsubject, haction⟩ := h.regular.step
  exact ⟨sty, ⟨h.toAround, hsubject, h.ranked.1⟩, haction, h.ranked.2⟩

section Typed

variable (hschema : target.schema.Distinct) (h : Occurs target p bs scope t ty)

include hschema h

theorem has {e : Evaluated} (he : (t.eval p.input scope).outcome = .ok e) : e.Has ty := by
  have hsound := t.typed hschema (h.stored.holds hschema) h.regular.distinct _ _ _ h.inScope.frames
    (List.forall_mem_map.2 (distinct_boundsOf h.sound)) h.regular.infer
  rw [he] at hsound
  exact hsound

theorem inhabits (hv : t.outcome p.input scope = .ok v) : ty.Inhabits v := by
  have hsound := (t.typed hschema (h.stored.holds hschema) h.regular.distinct).outcome
    h.inScope.frames (List.forall_mem_map.2 (distinct_boundsOf h.sound)) h.regular.infer
  rw [hv] at hsound
  exact hsound

end Typed

/-- A list passes elements of the type of its items. -/
theorem inhabits_of_passes (hschema : target.schema.Distinct)
    (h : Occurs target p bs scope t (.list item)) (hv : t.Passes p.input scope v) :
    item.Inhabits v := by
  obtain ⟨e, ys, he, hys, hv⟩ := hv
  exact (h.has hschema he).of_mem hys hv

end Occurs

end

end Sql

end QueryPushdown
