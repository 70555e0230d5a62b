import QueryPushdown.Proofs.Sql.Lowers
import QueryPushdown.Proofs.Sql.Pipelines
import QueryPushdown.Proofs.Sql.Tidy

/-!
# Lowered terms fit their types

The shape that a tidy term is lowered to has the columns of its type, whether or not the rows hold
anything, and takes aliases from the free ones only. It uses aggregates in no place but the columns of
a grouped select, so every other select has one row for each row that it keeps.
-/

namespace QueryPushdown.Sql

/-- A shape that has the columns of a type and uses no aggregates. -/
structure Shape.Plain (s : Shape) (ty : Ty) : Prop where
  fits : s.Fits ty
  plain : s.aggregates = false
  distinct : ty.Distinct

namespace Binding

def shape : Binding → Shape
  | element s _ | group s _ => s

def item : Binding → Ty
  | element _ ty | group _ ty => ty

def bound : Binding → Bound
  | element _ ty => .element ty
  | group _ ty => .group (.list ty)

/-- The shape of an element or member is plain. -/
def Sound (b : Binding) : Prop := b.shape.Plain b.item

theorem ty_bound (b : Binding) : b.bound.ty = b.ty := by
  cases b <;> rfl

end Binding

def boundsOf (bs : List Binding) : Bounds := bs.map Binding.bound

theorem frames_boundsOf (bs : List Binding) : (boundsOf bs).frames = bs.map Binding.ty := by
  rw [Bounds.frames, boundsOf, List.map_map]
  exact List.map_congr_left fun b _ => b.ty_bound

theorem distinct_boundsOf {bs : List Binding} (hbs : ∀ b ∈ bs, b.Sound) :
    ∀ b ∈ boundsOf bs, b.ty.Distinct := by
  refine List.forall_mem_map.2 fun b hb => ?_
  cases b with
  | element s ty => exact (hbs _ hb).distinct
  | group s ty => exact .list (hbs _ hb).distinct

/-- A relation with plain columns. -/
structure Relation.Sound (r : Relation) : Prop where
  shape : r.shape.Plain r.item
  keys : ∀ key ∈ r.select.orderBy, key.1.aggregates = false

/-- A lowered shape fits the type of its term and, outside of groups, uses no aggregates. -/
structure Shape.Lowered (bs : List Binding) (ty : Ty) (n : Nat) (s : Shape) (m : Nat) : Prop where
  grows : n ≤ m
  fits : s.Fits ty
  plain : (boundsOf bs).isGrouped = false → s.aggregates = false

/-- A lowered relation has the elements of the type of its term. -/
structure Relation.Lowered (ty : Ty) (n : Nat) (r : Relation) (m : Nat) : Prop where
  grows : n ≤ m
  ty_eq : ty = .list r.item
  sound : r.Sound

/-- Members of a group have the type of their term, and stand directly in the aggregates over it. -/
structure Members.Lowered (bs : List Binding) (ty : Ty) (n : Nat) (members : Members) (m : Nat) :
    Prop where
  grows : n ≤ m
  ty_eq : ty = .list members.item
  plain : members.shape.Plain members.item
  grouped : (boundsOf bs).isGrouped = true

section

variable {target : Target} {bs : List Binding} {n k m : Nat} {ty : Ty} {r r' : Relation}

theorem Relation.Opens.grows {keep : Bool} (h : r.Opens keep n r' m) : n ≤ m := by
  cases h with
  | kept => exact Nat.le_refl _
  | derived => exact Nat.le_succ _

theorem Relation.Opens.item_eq {keep : Bool} (h : r.Opens keep n r' m) : r'.item = r.item := by
  cases h with
  | kept => rfl
  | derived => rfl

/-- Hidden keys are columns. -/
theorem Relation.aggregates_hiddenKeys {number start : Nat} {orderBy : List (Expr × Bool)} :
    ∀ key ∈ hiddenKeys number start orderBy, key.1.aggregates = false := by
  intro key hkey
  obtain ⟨⟨⟨e, descending⟩, i⟩, _, rfl⟩ := List.mem_map.1 hkey
  rfl

theorem Relation.sound_derived (hr : r.shape.Fits r.item) (hd : r.item.Distinct)
    (columns : List (Expr × String)) (number : Nat) : (r.derived columns number).Sound where
  shape := ⟨hr.rebaseFrom number 0, Shape.aggregates_rebaseFrom r.shape number 0, hd⟩
  keys := aggregates_hiddenKeys

theorem Relation.Opens.sound {keep : Bool} (h : r.Opens keep n r' m) (hr : r.Sound) : r'.Sound := by
  cases h with
  | kept => exact hr
  | derived => exact sound_derived hr.shape.fits hr.shape.distinct _ _

theorem sound_element {s : Shape} {item : Ty} (h : s.Plain item) (hbs : ∀ b ∈ bs, b.Sound) :
    ∀ b ∈ Binding.element s item :: bs, b.Sound := List.forall_mem_cons.2 ⟨h, hbs⟩

theorem sound_group {s : Shape} {item : Ty} (h : s.Plain item) (hbs : ∀ b ∈ bs, b.Sound) :
    ∀ b ∈ Binding.group s item :: bs, b.Sound := List.forall_mem_cons.2 ⟨h, hbs⟩

/-- The stored columns fit the fields of a collection. -/
theorem Shape.fits_ofCollection (c : Collection) (table : Nat) :
    (ofCollection c table).Fits c.itemTy ∧ (ofCollection c table).aggregates = false := by
  have hfields : ∀ tys : List (String × Ty),
      FieldsFit (tys.map fun f => (f.1, if f.2.isScalar then
        scalar (.column (some table) f.1) f.2 else unreadable f.2)) tys ∧
      fieldsAggregate (tys.map fun f => (f.1, if f.2.isScalar then
        scalar (.column (some table) f.1) f.2 else unreadable f.2)) = false := by
    intro tys
    induction tys with
    | nil => exact ⟨.nil, rfl⟩
    | cons f tys ih =>
      obtain ⟨name, ty⟩ := f
      have hfits : (if ty.isScalar then scalar (.column (some table) name) ty
          else unreadable ty).Fits ty := by split <;> constructor
      have hplain : (if ty.isScalar then scalar (.column (some table) name) ty
          else unreadable ty).aggregates = false := by split <;> rfl
      rw [List.map_cons, fieldsAggregate, hplain, ih.2]
      exact ⟨.cons hfits ih.1, rfl⟩
  exact ⟨.mapping (hfields c.fields).1 _, (hfields c.fields).2⟩

mutual

/-- The columns of a literal fit its type. -/
theorem literalShape_fits {id : Nat} (v : Value) {n m : Nat} {s : Shape}
    (h : Lowers (literalShape id v) n s m) :
    n = m ∧ s.Fits v.ty ∧ s.aggregates = false := by
  cases v with
  | mapping fields =>
    rw [literalShape] at h
    obtain ⟨shapes, k, hshapes, h⟩ := h.bind
    obtain ⟨rfl, rfl⟩ := h.pure
    obtain ⟨hn, hfit, hplain⟩ := literalFields_fit fields hshapes
    exact ⟨hn, .mapping hfit none, hplain⟩
  | list items =>
    rw [literalShape] at h
    exact h.refuse.elim
  | _ =>
    rw [literalShape] at h
    · obtain ⟨rfl, rfl⟩ := h.pure
      exact ⟨rfl, .scalar _ _, rfl⟩
    all_goals exact fun _ he => nomatch he

theorem literalFields_fit {id : Nat} (fields : List (String × Value)) {n m : Nat}
    {shapes : List (String × Shape)} (h : Lowers (literalFields id fields) n shapes m) :
    n = m ∧ Shape.FieldsFit shapes (Value.fieldTys fields) ∧ fieldsAggregate shapes = false := by
  cases fields with
  | nil =>
    rw [literalFields] at h
    obtain ⟨rfl, rfl⟩ := h.pure
    exact ⟨rfl, .nil, rfl⟩
  | cons f fields =>
    rw [literalFields] at h
    obtain ⟨s, k, hs, h⟩ := h.bind
    obtain ⟨others, k', hothers, h⟩ := h.bind
    obtain ⟨rfl, rfl⟩ := h.pure
    obtain ⟨rfl, hfits, hplain⟩ := literalShape_fits f.2 hs
    obtain ⟨rfl, hfitsRest, hplainRest⟩ := literalFields_fit fields hothers
    refine ⟨rfl, .cons hfits hfitsRest, ?_⟩
    rw [fieldsAggregate, hplain, hplainRest]
    rfl

end

theorem ty_unique {t : Term} {ty' : Ty} (h : Infers target bs t ty')
    (ht : t.Regular target.schema (boundsOf bs) ty) : ty' = ty := by
  have hty := ht.infer
  rw [frames_boundsOf] at hty
  exact Except.ok.inj (h.symm.trans hty)

theorem ty_of_context {id up : Nat} {b : Binding} (hb : bs[up]? = some b)
    (ht : (Term.context id up).Regular target.schema (boundsOf bs) ty) : ty = b.ty := by
  have hty := ht.infer
  rw [frames_boundsOf, Term.infer, Frames.read, List.getElem?_map, hb] at hty
  split at hty
  · cases hty
  · exact (Except.ok.inj hty).symm

/-- A group is read by its aggregates themselves. -/
theorem isGrouped_of_context {id up : Nat} {member : Shape} {item : Ty}
    (hb : bs[up]? = some (.group member item))
    (ht : (Term.context id up).Regular target.schema (boundsOf bs) ty) :
    (boundsOf bs).isGrouped = true := by
  have hbound : (boundsOf bs)[up]? = some (.group (.list item)) := by
    rw [boundsOf, List.getElem?_map, hb]
    rfl
  obtain rfl : up = 0 := ht.tidy _ hbound rfl
  cases bs with
  | nil => cases hb
  | cons b bs =>
    obtain rfl : b = .group member item := Option.some.inj hb
    rfl

theorem aggregates_matchingExpr (e : Expr) (pattern : Pattern.Anchored) :
    (matchingExpr e pattern).aggregates = e.aggregates := by
  cases pattern with
  | leading start => rw [matchingExpr, Expr.aggregates]
  | exact text => rw [matchingExpr, Expr.aggregates, Expr.aggregates, Bool.or_false]

/-- An expression of two columns uses aggregates when they do. -/
theorem Combines.plain {op : BinaryOp} {rhs : Term} {a b e : Expr} (h : Combines ty a b op rhs e)
    (ha : a.aggregates = false) (hb : b.aggregates = false) : e.aggregates = false := by
  cases h <;> simp [Expr.aggregates, anyAggregates, ha, hb]

theorem Shape.Lowered.scalar {e : Expr} {ety ty' : Ty} {e' : Expr}
    (h : (Shape.scalar e ety).Lowered bs ty n m) (he : e.aggregates = false → e'.aggregates = false) :
    (Shape.scalar e' ty').Lowered bs ty' n m :=
  ⟨h.grows, .scalar _ _, fun hbs => by
    rw [Shape.aggregates]
    exact he ((Shape.aggregates.eq_1 e ety).symm.trans (h.plain hbs))⟩

/-- A field of a mapping fits the type of the field. -/
theorem Shape.Lowered.field {shapes : List (String × Shape)} {name : String} {s : Shape} {fty : Ty}
    (h : (Shape.mapping shapes).Lowered bs ty n m) (hs : Fields.get? shapes name = some s)
    (hty : Typing.field ty name = .ok fty) : s.Lowered bs fty n m := by
  refine ⟨h.grows, ?_, fun hbs => fieldsAggregate_eq_false.1 (h.plain hbs) _ (Fields.mem_of_get? hs)⟩
  cases h.fits with
  | mapping hfits source =>
    have hget := (Shape.fieldsFit_iff.1 hfits).get? name
    rw [hs] at hget
    rw [Typing.field] at hty
    cases hget' : Fields.get? _ name <;> rw [hget'] at hget hty <;> cases hget
    cases hty
    assumption

/-- One mapping extended by another fits the type of their sum. -/
theorem Shape.Lowered.merged {as more : List (String × Shape)} {rty sum : Ty}
    (h : (Shape.mapping as).Lowered bs ty n k) (h' : (Shape.mapping more).Lowered bs rty k m)
    (hty : Typing.binary .add ty rty = .ok sum) :
    (Shape.mapping (Fields.extend as more)).Lowered bs sum n m := by
  refine ⟨Nat.le_trans h.grows h'.grows, ?_, fun hbs => fieldsAggregate_eq_false.2 fun f hf => ?_⟩
  · cases h.fits with
    | mapping hfits source =>
      cases h'.fits with
      | mapping hfits' source' =>
        cases hty
        exact .mapping (Shape.fieldsFit_iff.2 ((Shape.fieldsFit_iff.1 hfits).extend
          (Shape.fieldsFit_iff.1 hfits'))) none
  · exact (Fields.mem_of_mem_extend hf).elim (fieldsAggregate_eq_false.1 (h.plain hbs) f)
      (fieldsAggregate_eq_false.1 (h'.plain hbs) f)

theorem Relation.Sound.restricted (hr : r.Sound) (e : Expr) : (r.restricted e).Sound :=
  ⟨hr.shape, hr.keys⟩

theorem Relation.Sound.orderedBy (hr : r.Sound) {orderBy : List (Expr × Bool)}
    (h : ∀ key ∈ orderBy, key.1.aggregates = false) : (r.orderedBy orderBy).Sound :=
  ⟨hr.shape, fun key hkey => (List.mem_append.1 hkey).elim (h key) (hr.keys key)⟩

theorem Relation.Lowered.opened {keep : Bool} (h : r.Lowered ty n k)
    (hopen : r.Opens keep k r' m) : r'.Lowered ty n m :=
  ⟨Nat.le_trans h.grows hopen.grows, h.ty_eq.trans (congrArg Ty.list hopen.item_eq.symm),
    hopen.sound h.sound⟩

/-- Whatever a term is lowered to fits its type. -/
structure Fitted (target : Target) (t : Term) : Prop where
  shape : ∀ {bs ty n s m}, (∀ b ∈ bs, Binding.Sound b) →
    t.Regular target.schema (boundsOf bs) ty → ToShape target bs t n s m → s.Lowered bs ty n m
  relation : ∀ {bs ty n r m}, (∀ b ∈ bs, Binding.Sound b) →
    t.Regular target.schema (boundsOf bs) ty → ToRelation target bs t n r m → r.Lowered ty n m
  members : ∀ {bs ty n members m}, (∀ b ∈ bs, Binding.Sound b) →
    t.Regular target.schema (boundsOf bs) ty → ToMembers target bs t n members m →
    members.Lowered bs ty n m

theorem ToRelation.lowered_source (hschema : target.schema.Distinct) {id : Nat} {name : String}
    (ht : (Term.source id name).Regular target.schema (boundsOf bs) ty)
    (h : ToRelation target bs (.source id name) n r m) : r.Lowered ty n m := by
  cases h with
  | @source _ _ c _ _ hc =>
    have hty := ht.infer
    rw [Term.infer, hc] at hty
    cases hty
    have hdistinct : c.itemTy.Distinct := by
      cases hschema name c hc with
      | list h => exact h
    obtain ⟨hfits, hplain⟩ := Shape.fits_ofCollection c n
    exact ⟨Nat.le_succ _, rfl, ⟨hfits, hplain, hdistinct⟩, fun _ hkey => by cases hkey⟩

section

variable (hbs : ∀ b ∈ bs, b.Sound)

include hbs

theorem ToFields.lowered {fields : List (String × Term)} {shapes : List (String × Shape)}
    {tys : List (String × Ty)} (hf : ∀ f ∈ fields, Fitted target f.2)
    (h : ToFields target bs fields n shapes m)
    (ht : Fields.Paired (Term.Regular target.schema (boundsOf bs)) fields tys) :
    n ≤ m ∧ Shape.FieldsFit shapes tys ∧
      ((boundsOf bs).isGrouped = false → fieldsAggregate shapes = false) := by
  induction fields generalizing n shapes tys with
  | nil =>
    cases h
    cases ht
    exact ⟨Nat.le_refl _, .nil, fun _ => rfl⟩
  | cons f fields ih =>
    obtain ⟨name, t⟩ := f
    obtain ⟨hfirst, hf⟩ := List.forall_mem_cons.1 hf
    cases h with
    | cons h hrest =>
      cases ht with
      | @cons _ g _ _ hty htys =>
        obtain ⟨other, ty⟩ := g
        obtain ⟨rfl, ht⟩ := hty
        have hs := hfirst.shape hbs ht h
        obtain ⟨hgrows, hfit, hplain⟩ := ih hf hrest htys
        refine ⟨Nat.le_trans hs.grows hgrows, .cons hs.fits hfit, fun hg => ?_⟩
        rw [fieldsAggregate, hs.plain hg, hplain hg]
        rfl

theorem ToKeys.lowered {keys : List (Term × Bool)} {orderBy : List (Expr × Bool)}
    (hk : ∀ k ∈ keys, Fitted target k.1) (h : ToKeys target bs keys n orderBy m)
    (ht : ∀ k ∈ keys, ∃ ty, k.1.Regular target.schema (boundsOf bs) ty) :
    n ≤ m ∧ ((boundsOf bs).isGrouped = false → ∀ key ∈ orderBy, key.1.aggregates = false) := by
  induction keys generalizing n orderBy with
  | nil =>
    cases h
    exact ⟨Nat.le_refl _, fun _ _ hkey => nomatch hkey⟩
  | cons key keys ih =>
    obtain ⟨hfirst, hkeys⟩ := List.forall_mem_cons.1 hk
    obtain ⟨⟨ty, ht⟩, htRest⟩ := List.forall_mem_cons.1 ht
    cases h with
    | cons h hrest =>
      have hs := hfirst.shape hbs ht h
      obtain ⟨hgrows, hplain⟩ := ih hkeys hrest htRest
      exact ⟨Nat.le_trans hs.grows hgrows, fun hg =>
        List.forall_mem_cons.2 ⟨hs.plain hg, hplain hg⟩⟩

section Steps

variable {id : Nat} {subject : Term} {action : Step}
  (ht : (Term.step id subject action).Regular target.schema (boundsOf bs) ty)
  (hs : Fitted target subject) (ho : ∀ c ∈ action.operands, Fitted target c.1)

include ht hs ho

theorem ToRelation.lowered_step (hschema : target.schema.Distinct)
    (h : ToRelation target bs (.step id subject action) n r m) : r.Lowered ty n m := by
  obtain ⟨sty, hsubject, haction⟩ := ht.step
  cases h with
  | filter _ h hopen hp =>
    obtain ⟨hgrows, rfl, hsound⟩ := (hs.relation hbs hsubject h).opened hopen
    obtain ⟨rfl, pty, hpredicate⟩ := haction.filter
    have hp := (ho _ List.mem_cons_self).shape (sound_element hsound.shape hbs) hpredicate hp
    exact ⟨Nat.le_trans hgrows hp.grows, rfl, hsound.restricted _⟩
  | map _ h hopen hf hty hitem =>
    obtain rfl := ty_unique hty ht
    obtain ⟨hgrows, rfl, hsound⟩ := (hs.relation hbs hsubject h).opened hopen
    obtain ⟨result, rfl, htransform⟩ := haction.map
    obtain rfl := Option.some.inj hitem
    have hbs := sound_element hsound.shape hbs
    have hf := (ho _ List.mem_cons_self).shape hbs htransform hf
    exact ⟨Nat.le_trans hgrows hf.grows, rfl, ⟨hf.fits, hf.plain rfl,
      htransform.distinct_ty hschema (distinct_boundsOf hbs)⟩, hsound.keys⟩
  | sort _ h hopen hk =>
    obtain ⟨hgrows, rfl, hsound⟩ := (hs.relation hbs hsubject h).opened hopen
    obtain ⟨rfl, hkeys⟩ := haction.sort
    obtain ⟨hgrows', hplain⟩ := hk.lowered (sound_element hsound.shape hbs)
      (fun k hk => ho (k.1, 1) (List.mem_map.2 ⟨k, hk, rfl⟩)) hkeys
    exact ⟨Nat.le_trans hgrows hgrows', rfl, hsound.orderedBy (hplain rfl)⟩
  | slice _ h hforward =>
    obtain ⟨hgrows, rfl, hsound⟩ := hs.relation hbs hsubject h
    obtain rfl := Step.infer_of_keepsType rfl haction.infer
    exact ⟨hgrows, rfl, hsound.shape, hsound.keys⟩
  | distinct _ h hopen horder =>
    obtain ⟨hgrows, rfl, hsound⟩ := (hs.relation hbs hsubject h).opened hopen
    obtain rfl := Step.infer_of_keepsType rfl haction.infer
    exact ⟨hgrows, rfl, hsound.shape, hsound.keys⟩
  | groupby _ hne h hopen hk hcolumns hf hty hitem hselected =>
    obtain rfl := ty_unique hty ht
    have hdistinct := ht.distinct_ty hschema (distinct_boundsOf hbs)
    obtain ⟨hgrows, rfl, hsound⟩ := (hs.relation hbs hsubject h).opened hopen
    obtain ⟨keyTy, tys, rfl, hkey, -, hfields⟩ := haction.groupby hne
    obtain rfl := Option.some.inj hitem
    have hk := (ho _ List.mem_cons_self).shape (sound_element hsound.shape hbs) hkey hk
    obtain ⟨hgrows', hfit, -⟩ := hf.lowered (sound_group hsound.shape hbs)
      (fun f hf => ho (f.2, 1) (List.mem_cons_of_mem _ (List.mem_map.2 ⟨f, hf, rfl⟩))) hfields
    have hfits : Fields.Paired Shape.Fits [("key", _)] [("key", keyTy)] := .cons ⟨rfl, hk.fits⟩ .nil
    refine ⟨Nat.le_succ_of_le (Nat.le_trans hgrows (Nat.le_trans hk.grows hgrows')), rfl,
      Relation.sound_derived (.mapping (Shape.fieldsFit_iff.2
        (hfits.extend (Shape.fieldsFit_iff.1 hfit))) none) ?_ _ _⟩
    cases hdistinct with
    | list h => exact h

theorem ToMembers.lowered_step (hschema : target.schema.Distinct) {members : Members}
    (h : ToMembers target bs (.step id subject action) n members m) :
    members.Lowered bs ty n m := by
  obtain ⟨sty, hsubject, haction⟩ := ht.step
  cases h with
  | filter _ h hp =>
    obtain ⟨hgrows, rfl, hplain, hgrouped⟩ := hs.members hbs hsubject h
    obtain ⟨rfl, pty, hpredicate⟩ := haction.filter
    have hp := (ho _ List.mem_cons_self).shape (sound_element hplain hbs) hpredicate hp
    exact ⟨Nat.le_trans hgrows hp.grows, rfl, hplain, hgrouped⟩
  | map _ h hf hty hitem =>
    obtain rfl := ty_unique hty ht
    obtain ⟨hgrows, rfl, hplain, hgrouped⟩ := hs.members hbs hsubject h
    obtain ⟨result, rfl, htransform⟩ := haction.map
    obtain rfl := Option.some.inj hitem
    have hbs := sound_element hplain hbs
    have hf := (ho _ List.mem_cons_self).shape hbs htransform hf
    exact ⟨Nat.le_trans hgrows hf.grows, rfl, ⟨hf.fits, hf.plain rfl,
      htransform.distinct_ty hschema (distinct_boundsOf hbs)⟩, hgrouped⟩

/-- The columns of a step fit its type; those of an array are found by its rows. -/
theorem ToShape.lowered_step {s : Shape}
    (hrelation : ∀ {n r m}, ToRelation target bs (.step id subject action) n r m →
      r.Lowered ty n m)
    (h : ToShape target bs (.step id subject action) n s m) : s.Lowered bs ty n m := by
  obtain ⟨sty, hsubject, haction⟩ := ht.step
  cases h with
  | array hty h hr =>
    obtain rfl := ty_unique hty ht
    exact ⟨(hrelation h).grows, .scalar _ _, fun _ => rfl⟩
  | field _ h hget => exact (hs.shape hbs hsubject h).field hget haction.infer
  | not _ hty h =>
    obtain rfl := ty_unique hty ht
    exact (hs.shape hbs hsubject h).scalar fun he => he
  | neg _ hty h =>
    obtain rfl := ty_unique hty ht
    exact (hs.shape hbs hsubject h).scalar fun he => he
  | combined _ hty hl hr he =>
    obtain rfl := ty_unique hty ht
    obtain ⟨rty, hrhs, -⟩ := haction.binary
    have hl := hs.shape hbs hsubject hl
    have hr := (ho _ List.mem_cons_self).shape hbs hrhs hr
    exact ⟨Nat.le_trans hl.grows hr.grows, .scalar _ _, fun hg => he.plain (hl.plain hg) (hr.plain hg)⟩
  | matching _ _ h hp =>
    obtain ⟨rty, -, hty⟩ := haction.binary
    obtain ⟨_, _, hty⟩ := Outcome.bind_eq_ok.1 hty
    obtain ⟨_, _, hty⟩ := Outcome.bind_eq_ok.1 hty
    cases hty
    exact (hs.shape hbs hsubject h).scalar fun he => (aggregates_matchingExpr _ _).trans he
  | merged _ hl hr =>
    obtain ⟨rty, hrhs, hty⟩ := haction.binary
    exact (hs.shape hbs hsubject hl).merged ((ho _ List.mem_cons_self).shape hbs hrhs hr) hty
  | ofMembers _ hty h harg =>
    obtain rfl := ty_unique hty ht
    have h := hs.members hbs hsubject h
    refine ⟨h.grows, .scalar _ _, fun hg => ?_⟩
    rw [h.grouped] at hg
    cases hg
  | length _ hty hsty h =>
    obtain rfl := ty_unique hty ht
    exact (hs.shape hbs hsubject h).scalar fun he => by
      rw [Expr.aggregates, anyAggregates, anyAggregates, he]
      rfl
  | count _ hty h =>
    obtain rfl := ty_unique hty ht
    exact ⟨(hs.shape hbs hsubject h).grows, .scalar _ _, fun _ => rfl⟩
  | aggregate _ hty h hopen harg =>
    obtain rfl := ty_unique hty ht
    exact ⟨((hs.relation hbs hsubject h).opened hopen).grows, .scalar _ _, fun _ => rfl⟩

end Steps

end

end

open Term in
/-- Lowered terms fit their types. -/
theorem fitted {target : Target} (hschema : target.schema.Distinct) (t : Term) :
    Fitted target t := by
  induction t using children_induction with
  | h t ih =>
    cases t with
    | source id name =>
      refine ⟨fun hbs ht h => ?_, fun hbs ht h => h.lowered_source hschema ht,
        fun _ _ h => (nomatch h)⟩
      cases h with
      | array hty h hr =>
        obtain rfl := ty_unique hty ht
        exact ⟨(h.lowered_source hschema ht).grows, .scalar _ _, fun _ => rfl⟩
    | literal id v =>
      refine ⟨fun hbs ht h => ?_, fun _ _ h => (nomatch h), fun _ _ h => (nomatch h)⟩
      cases h with
      | array hty h hr => cases h
      | literal h =>
        obtain ⟨rfl, hfits, hplain⟩ := literalShape_fits v h
        obtain rfl := Except.ok.inj ht.infer
        exact ⟨Nat.le_refl _, hfits, fun _ => hplain⟩
    | context id up =>
      refine ⟨fun hbs ht h => ?_, fun _ _ h => (nomatch h), fun hbs ht h => ?_⟩
      · cases h with
        | array hty h hr => cases h
        | context _ _ h =>
          obtain rfl := ty_of_context h ht
          have hsound := hbs _ (List.mem_of_getElem? h)
          exact ⟨Nat.le_refl _, hsound.fits, fun _ => hsound.plain⟩
      · cases h with
        | context _ _ h =>
          exact ⟨Nat.le_refl _, ty_of_context h ht, hbs _ (List.mem_of_getElem? h),
            isGrouped_of_context h ht⟩
    | record id fields =>
      refine ⟨fun hbs ht h => ?_, fun _ _ h => (nomatch h), fun _ _ h => (nomatch h)⟩
      cases h with
      | array hty h hr => cases h
      | record _ h =>
        obtain ⟨tys, rfl, htys⟩ := ht.record
        obtain ⟨hgrows, hfit, hplain⟩ := h.lowered hbs
          (fun f hf => ih (f.2, 0) (List.mem_map.2 ⟨f, hf, rfl⟩)) htys
        exact ⟨hgrows, .mapping hfit none, hplain⟩
    | step id subject action =>
      have hs := ih (subject, 0) List.mem_cons_self
      have ho : ∀ c ∈ action.operands, Fitted target c.1 :=
        fun c hc => ih c (List.mem_cons_of_mem _ hc)
      exact ⟨fun hbs ht => ToShape.lowered_step hbs ht hs ho
          (ToRelation.lowered_step hbs ht hs ho hschema),
        fun hbs ht => ToRelation.lowered_step hbs ht hs ho hschema,
        fun hbs ht => ToMembers.lowered_step hbs ht hs ho hschema⟩

end QueryPushdown.Sql
