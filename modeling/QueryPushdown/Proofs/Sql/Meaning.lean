import QueryPushdown.Proofs.Eval.Partition
import QueryPushdown.Proofs.Sql.Holding
import QueryPushdown.Proofs.Sql.Scopes

/-!
# What lowered terms mean

The columns that a term is lowered to hold its value, wherever the term occurs, and the rows that it is
lowered to stand for the sequence that it yields. There is one case for each way to lower a term. What
takes further aliases is read at the place where these are taken.
-/

namespace QueryPushdown.Sql

variable {target : Target} {p : Place} {bs : List Binding} {scope : Scope} {t subject : Term}
  {ty item : Ty} {id k m n : Nat} {action : Step} {v w : Value} {e : Evaluated} {ys : Yields}
  {r r' : Relation}

/-- Rows of a group stand for a sequence of its members, those that pass the filters. -/
def Members.Renders (members : Members) (p : Place) (m : Nat) (rows : List Current) (ys : Yields) :
    Prop :=
  ys.Backed (fun row v => members.shape.Holds ((p.upto m).on row) v)
    (rows.filter fun row => members.filter.all fun e => (e.eval p.input rows row).holds)

/-- The rows that a term is lowered to stand for the sequence that it yields. -/
def RowsMeant (target : Target) (t : Term) : Prop :=
  ∀ ⦃p bs scope ty r m e⦄, Occurs target p bs scope t ty → ToRelation target bs t p.next r m →
    (t.eval p.input scope).outcome = .ok e →
    ∃ ys, e.yields? = some ys ∧ r.Renders p m t.isOrdered ys

/-- Whatever a term is lowered to stands for what it evaluates to. -/
structure Meant (target : Target) (t : Term) : Prop where
  shape : ∀ ⦃p bs scope ty s m v⦄, Occurs target p bs scope t ty → HasMembers p bs scope →
    ToShape target bs t p.next s m → t.outcome p.input scope = .ok v → s.Holds (p.upto m) v
  relation : RowsMeant target t
  members : ∀ ⦃p bs scope ty members m e⦄, Occurs target p bs scope t ty →
    HasMembers p bs scope → ToMembers target bs t p.next members m →
    (t.eval p.input scope).outcome = .ok e →
    ∃ rows ys, p.group = some rows ∧ e.yields? = some ys ∧ members.Renders p m rows ys

section Elements

variable {s s' : Shape} {row : Current} {t' : Term} {ty' : Ty}

/-- What a term under an element is lowered to holds its value, read at a row of the element. -/
theorem Meant.under_element (hschema : target.schema.Distinct) (ht : Meant target t')
    (h : Occurs target p bs scope subject (.list item)) (hs : s.Plain item)
    (hothers : Elements ((p.upto k).on row) bs scope) (hread : s.Holds ((p.upto k).on row) v)
    (hv : subject.Passes p.input scope v)
    (hregular : t'.Regular target.schema (.element item :: boundsOf bs) ty')
    (hranked : ∀ v, subject.Passes p.input scope v → t'.Ranked p.input (v :: scope))
    (hshape : ToShape target (.element s item :: bs) t' k s' m)
    (hw : t'.outcome p.input (v :: scope) = .ok w) : s'.Holds ((p.upto m).on row) w :=
  ht.shape (p := (p.upto k).on row)
    ⟨h.toAround.element hs hothers hread (h.inhabits_of_passes hschema hv), hregular, hranked v hv⟩
    trivial hshape hw

end Elements

section Lists

variable (hschema : target.schema.Distinct)

include hschema

/-- The columns of fields hold what the fields evaluate to. -/
theorem ToFields.holds {fields : List (String × Term)} {shapes : List (String × Shape)}
    {tys : List (String × Ty)} {out : List (String × Value)}
    (hf : ∀ f ∈ fields, Meant target f.2) (h : Around target p bs scope)
    (hm : HasMembers p bs scope)
    (ht : Fields.Paired (Term.Regular target.schema (boundsOf bs)) fields tys)
    (hranked : fieldsRanked p.input scope fields)
    (hs : ToFields target bs fields p.next shapes m)
    (hout : (evalFields p.input scope fields).outcome = .ok out) :
    Shape.FieldsHold (p.upto m) shapes out := by
  induction fields generalizing p shapes tys out with
  | nil =>
    cases hs
    cases hout
    exact .nil
  | cons f fields ih =>
    obtain ⟨name, t⟩ := f
    obtain ⟨hfirst, hf⟩ := List.forall_mem_cons.1 hf
    obtain ⟨hrank, hranked⟩ := hranked
    rw [Term.outcome_evalFields_cons] at hout
    obtain ⟨v, hv, hout⟩ := Outcome.bind_eq_ok.1 hout
    obtain ⟨others, hothers, hout⟩ := Outcome.bind_eq_ok.1 hout
    cases hout
    cases hs with
    | @cons _ _ k _ _ _ _ _ _ hs hrest =>
      cases ht with
      | @cons _ g _ _ hty htys =>
        obtain ⟨other, ty⟩ := g
        obtain ⟨rfl, ht⟩ := hty
        have hk := ((fitted hschema t).shape h.sound ht hs).grows
        have hgrows := (hrest.lowered h.sound (fun f _ => fitted hschema f.2) htys).1
        refine .cons ((hfirst.shape ⟨h, ht, hrank⟩ hm hs hv).leads ?_)
          (ih (p := p.upto k) hf (h.upto hk) (hm.upto hk) htys hranked hrest hothers)
        exact Place.Leads.upto (p := p.upto k) hgrows

/-- The columns of sort keys denote what the keys evaluate to. -/
theorem ToKeys.denote {keys : List (Term × Bool)} {orderBy : List (Expr × Bool)} {ks : List Value}
    (hk : ∀ k ∈ keys, Meant target k.1) (h : Around target p bs scope)
    (hm : HasMembers p bs scope)
    (ht : ∀ k ∈ keys, ∃ ty, k.1.Regular target.schema (boundsOf bs) ty)
    (hranked : keysRanked p.input scope keys) (hs : ToKeys target bs keys p.next orderBy m)
    (hks : (evalKeys p.input scope keys).outcome = .ok ks) :
    List.Forall₂ (fun key k => key.1.Denotes (p.upto m) k) orderBy ks := by
  induction keys generalizing p orderBy ks with
  | nil =>
    cases hs
    cases hks
    exact .nil
  | cons key keys ih =>
    obtain ⟨t, descending⟩ := key
    obtain ⟨hfirst, hk⟩ := List.forall_mem_cons.1 hk
    obtain ⟨⟨ty, ht⟩, htRest⟩ := List.forall_mem_cons.1 ht
    obtain ⟨hrank, hranked⟩ := hranked
    rw [Term.outcome_evalKeys_cons] at hks
    obtain ⟨v, hv, hks⟩ := Outcome.bind_eq_ok.1 hks
    obtain ⟨others, hothers, hks⟩ := Outcome.bind_eq_ok.1 hks
    cases hks
    cases hs with
    | @cons _ _ k _ _ _ _ _ _ _ hs hrest =>
      have hgrows := ((fitted hschema t).shape h.sound ht hs).grows
      have hgrows' := (hrest.lowered h.sound (fun k _ => fitted hschema k.1) htRest).1
      have hholds := hfirst.shape ⟨h, ht, hrank⟩ hm hs hv
      cases hholds with
      | scalar he _ _ =>
        exact .cons (he.leads (Place.Leads.upto (p := p.upto k) hgrows'))
          (ih (p := p.upto k) hk (h.upto hgrows) (hm.upto hgrows) htRest hranked hrest hothers)

end Lists

theorem ToKeys.map_snd {keys : List (Term × Bool)} {orderBy : List (Expr × Bool)}
    (hs : ToKeys target bs keys n orderBy m) : orderBy.map Prod.snd = keys.map Prod.snd := by
  induction keys generalizing n orderBy with
  | nil =>
    cases hs
    rfl
  | cons key keys ih =>
    cases hs with
    | cons _ hrest => exact congrArg _ (ih hrest)

/-- The rows of a relation stand for the elements that a term yields. -/
structure Listed (target : Target) (p : Place) (bs : List Binding) (scope : Scope) (subject : Term)
    (r : Relation) (k : Nat) (e : Evaluated) (ys : Yields) : Prop where
  occurs : Occurs target p bs scope subject (.list r.item)
  eval : (subject.eval p.input scope).outcome = .ok e
  yields : e.yields? = some ys
  renders : r.Renders p k subject.isOrdered ys
  sound : r.Sound
  grows : p.next ≤ k

theorem RowsMeant.listed (hschema : target.schema.Distinct) (hs : RowsMeant target subject)
    (h : Occurs target p bs scope subject ty) (hr : ToRelation target bs subject p.next r k)
    (he : (subject.eval p.input scope).outcome = .ok e) :
    ty = .list r.item ∧ ∃ ys, Listed target p bs scope subject r k e ys := by
  obtain ⟨hgrows, rfl, hsound⟩ := (fitted hschema subject).relation h.sound h.regular hr
  obtain ⟨ys, hys, hrenders⟩ := hs h hr he
  exact ⟨rfl, ys, h, he, hys, hrenders, hsound, hgrows⟩

namespace Listed

theorem passes (h : Listed target p bs scope subject r k e ys) (hv : .ok v ∈ ys) :
    subject.Passes p.input scope v := ⟨e, ys, h.eval, h.yields, hv⟩

theorem outcome {vs : List Value} (h : Listed target p bs scope subject r k e (Yields.ofList vs)) :
    subject.outcome p.input scope = .ok (.list vs) := Term.outcome_of_yields h.eval h.yields

/-- A derived table stands for the same elements. -/
theorem opened {keep : Bool} (h : Listed target p bs scope subject r k e ys)
    (hopen : r.Opens keep k r' m) :
    r.item = r'.item ∧ Listed target p bs scope subject r' m e ys := by
  refine ⟨hopen.item_eq.symm, ?_, h.eval, h.yields, h.renders.opened h.sound hopen h.grows,
    hopen.sound h.sound, Nat.le_trans h.grows hopen.grows⟩
  rw [hopen.item_eq]
  exact h.occurs

section

variable {s : Shape} {t' : Term} {ty' : Ty}

/-- A term under an element is lowered to columns that hold its value on the row of the element. -/
theorem element (hschema : target.schema.Distinct)
    (h : Listed target p bs scope subject r k e ys) (ht : Meant target t')
    (hregular : t'.Regular target.schema (.element r.item :: boundsOf bs) ty')
    (hranked : ∀ v, subject.Passes p.input scope v → t'.Ranked p.input (v :: scope))
    (hshape : ToShape target (r.element :: bs) t' k s m) :
    ∀ row ∈ r.select.kept p.input p.row, ∀ v, .ok v ∈ ys →
      r.shape.Holds ((p.upto k).on row) v → ∀ w, t'.outcome p.input (v :: scope) = .ok w →
      s.Holds ((p.upto m).on row) w := fun row hrow _ hv hread _ hw =>
  ht.under_element hschema h.occurs h.sound.shape
    (h.occurs.elements_on h.grows (h.renders.agree row hrow)) hread (h.passes hv) hregular hranked
    hshape hw

end

end Listed

/-- Keys that are denoted on a row are read there. -/
theorem evalOrder_of_denote {q : Place} {orderBy : List (Expr × Bool)} {ks : List Value}
    {members : List Current} {row : Current}
    (h : List.Forall₂ (fun key k => key.1.Denotes q k) orderBy ks) (ha : q.Admits members row) :
    evalOrder q.input members row orderBy = ks := by
  rw [evalOrder_eq]
  induction h with
  | nil => rfl
  | cons hk _ ih => rw [List.map_cons, hk members row ha, ih]

section Relations

variable {f : Evaluated}

namespace Listed

variable (hschema : target.schema.Distinct) (h : Listed target p bs scope subject r k e ys)

include hschema h

theorem filter {predicate : Term} {x : Expr} {ety pty : Ty} (hopen : r.isOpen = true)
    (ht : Meant target predicate)
    (hregular : predicate.Regular target.schema (.element r.item :: boundsOf bs) pty)
    (hranked : (Step.filter predicate).Ranked p.input scope subject)
    (hp : ToShape target (r.element :: bs) predicate k (.scalar x ety) m)
    (hf : ((Step.filter predicate).act p.input scope subject e).outcome = .ok f) :
    ∃ ys', f.yields? = some ys' ∧ (r.restricted x).Renders p m subject.isOrdered ys' := by
  have hkm := ((fitted hschema predicate).shape (sound_element h.sound.shape h.occurs.sound)
    hregular hp).grows
  refine ⟨_, Step.yields_filter h.yields hf,
    h.renders.restricted hopen hkm fun row hrow v hv hread b hb => ?_⟩
  obtain ⟨w, hw, hb⟩ := Outcome.bind_eq_ok.1 hb
  obtain rfl := Term.toBool_eq_ok hb
  cases h.element hschema ht hregular hranked hp row hrow v hv hread _ hw with
  | scalar hx _ _ => exact hx

theorem map {transform : Term} {shape : Shape} {result : Ty} (item : Ty)
    (hdistinct : r.select.distinct = false) (ht : Meant target transform)
    (hregular : transform.Regular target.schema (.element r.item :: boundsOf bs) result)
    (hranked : (Step.map transform).Ranked p.input scope subject)
    (hshape : ToShape target (r.element :: bs) transform k shape m)
    (hf : ((Step.map transform).act p.input scope subject e).outcome = .ok f) :
    ∃ ys', f.yields? = some ys' ∧
      ({ r with shape := shape, item := item } : Relation).Renders p m subject.isOrdered ys' :=
  ⟨_, Step.yields_map h.yields hf,
    h.renders.mapped hdistinct (h.element hschema ht hregular hranked hshape)⟩

theorem sort {keys : List (Term × Bool)} {orderBy : List (Expr × Bool)} (hopen : r.isOpen = true)
    (ht : ∀ k ∈ keys, Meant target k.1)
    (hregular : ∀ k ∈ keys, ∃ kty, k.1.Regular target.schema (.element r.item :: boundsOf bs) kty)
    (hranked : (Step.sort keys).Ranked p.input scope subject)
    (hk : ToKeys target (r.element :: bs) keys k orderBy m)
    (hf : ((Step.sort keys).act p.input scope subject e).outcome = .ok f) :
    ∃ ys', f.yields? = some ys' ∧ (r.orderedBy orderBy).Renders p m true ys' := by
  obtain ⟨vs, ks, rfl, hks, hys'⟩ := Step.yields_sort h.yields hf
  have hkm := (hk.lowered (sound_element h.sound.shape h.occurs.sound)
    (fun k _ => fitted hschema k.1) hregular).1
  have hkeys : ∀ row ∈ r.select.kept p.input p.row, ∀ v ∈ vs,
      r.shape.Holds ((p.upto k).on row) v → evalOrder p.input [] row orderBy = ks v := by
    intro row hrow v hv hread
    have hpasses := h.passes (Yields.ok_mem_ofList.2 hv)
    have haround := h.occurs.element h.sound.shape
      (h.occurs.elements_on h.grows (h.renders.agree row hrow)) hread
      (h.occurs.inhabits_of_passes hschema hpasses)
    exact evalOrder_of_denote (q := (p.upto m).on row)
      (hk.denote (p := (p.upto k).on row) hschema ht haround trivial hregular
        (hranked.1 v hpasses) (hks v hv)) (Place.admits_on [])
  rw [← hk.map_snd] at hys'
  refine ⟨_, hys', h.renders.orderedBy hopen hkm
    hkeys (fun v hv => ?_) (hranked.2 vs ks h.outcome hks)⟩
  rw [Term.length_evalKeys (hks v hv), hk.map_snd, List.length_map]

/-- Groups go by the keys of the elements, which are read off the first row of each group, and their
aggregates are read at the place of the group. The elements are taken in the order of the rows. -/
theorem groups {key : Term} {aggregates : List (String × Term)} {keyShape : Shape} {k₁ : Nat}
    {groupBy : List Expr} {fields : List (String × Shape)} {columns : List (Expr × String)}
    {keyTy item : Ty} {tys : List (String × Ty)} {us ws : List Value} {ks : Value → Value}
    (hopen : r.isOpen = true) (ht : Meant target key) (ha : ∀ f ∈ aggregates, Meant target f.2)
    (hregular : key.Regular target.schema (.element r.item :: boundsOf bs) keyTy)
    (hcolumn : keyTy.hasColumn = true)
    (hfields : Fields.Paired (Term.Regular target.schema (.group (.list r.item) :: boundsOf bs))
      aggregates tys)
    (hranked : (Step.groupby key aggregates).Ranked p.input scope subject)
    (hk : ToShape target (r.element :: bs) key k keyShape k₁)
    (hcolumns : keyShape.columns = .ok groupBy)
    (hs : ToFields target (.group r.shape r.item :: bs) aggregates k₁ fields m)
    (hselected : (r.grouped groupBy keyShape fields item).shape.selected = .ok columns)
    (htakes : subject.Takes p.input scope us)
    (hkept : List.Forall₂ (fun row v => r.shape.Holds ((p.upto k).on row) v)
      (r.select.kept p.input p.row) us)
    (hus : ∀ v ∈ us, .ok v ∈ ys) (hks : ∀ v ∈ us, key.outcome p.input (v :: scope) = .ok (ks v))
    (hws : List.Forall₂ (fun (g : Value × List Value) w => ∃ out,
      (evalFields p.input (.list g.2 :: scope) aggregates).outcome = .ok out ∧
      w = .mapping (Fields.extend [("key", g.1)] out))
      (gather Value.isEq (us.map fun v => (ks v, v))) ws) :
    ((r.grouped groupBy keyShape fields item).derived columns m).Renders p (m + 1) false
      (Yields.ofList ws) := by
  have hsound := sound_element h.sound.shape h.occurs.sound
  have hkey := (fitted hschema key).shape hsound hregular hk
  have hgrows := (hs.lowered (sound_group h.sound.shape h.occurs.sound)
    (fun f _ => fitted hschema f.2) hfields).1
  have hmembers : ∀ g ∈ gather Value.isEq (us.map fun v => (ks v, v)), ∀ v ∈ g.2,
      r.item.Inhabits v := by
    intro g hg v hv
    have hmem := (flatMap_gather_perm (us.map fun v => (ks v, v))).mem_iff.1
      (List.mem_flatMap.2 ⟨g, hg, hv⟩)
    rw [List.map_map, show (Prod.snd ∘ fun v => (ks v, v)) = id from rfl, List.map_id] at hmem
    exact h.occurs.inhabits_of_passes hschema (h.passes (hus v hmem))
  refine h.renders.grouped hopen hkept hcolumns (hkey.fits.columns_ne_nil hcolumn hcolumns)
    hkey.fits (hregular.distinct_ty hschema (distinct_boundsOf hsound)) (fun row hrow v hv hread =>
      h.element hschema ht hregular hranked.1 hk row hrow v (hus v hv) hread _ (hks v hv))
    hselected (Nat.le_trans h.grows hkey.grows) hgrows ?_
  refine ((List.forall₂_and_left (R := _) (p := (· ∈ gather Value.isEq (us.map fun v => (ks v, v))))
    _ _).2 ⟨fun _ hg => hg, hws⟩).imp fun g w hg => ?_
  obtain ⟨hg, out, hout, rfl⟩ := hg
  refine ⟨out, rfl, fun rows hrows hread => ?_⟩
  obtain ⟨haround, hhas⟩ := h.occurs.group h.sound.shape h.grows hkey.grows
    (fun row hrow => h.renders.agree row (hrows row hrow)) hread (hmembers g hg)
  exact hs.holds (p := (p.upto k₁).grouped rows) hschema ha haround hhas hfields
    (hranked.2 us ks htakes hks g hg) hout

end Listed

/-- A select takes the elements in some order and makes the groups of that. -/
theorem ToRelation.renders_groups {key : Term} {aggregates : List (String × Term)} {sty : Ty}
    {vs : List Value} (hschema : target.schema.Distinct) (hs : Meant target subject)
    (ho : ∀ c ∈ (Step.groupby key aggregates).operands, Meant target c.1)
    (h : Occurs target p bs scope subject sty)
    (hregular : (Step.groupby key aggregates).Regular target.schema (boundsOf bs) sty ty)
    (hranked : (Step.groupby key aggregates).Ranked p.input scope subject)
    (hr : ToRelation target bs (.step id subject (.groupby key aggregates)) p.next r m)
    (he : (subject.eval p.input scope).outcome = .ok e)
    (hys : e.yields? = some (Yields.ofList vs)) :
    ∃ us, subject.Takes p.input scope us ∧ ∀ w,
      (Step.groupby key aggregates).outcome p.input scope subject (.list us) = .ok w →
      ∃ ws, w = .list ws ∧ r.Renders p m false (Yields.ofList ws) := by
  cases hr with
  | groupby _ hne hr hopens hk hcolumns hfs hty hitem' hselected =>
    obtain ⟨rfl, ys, hlist⟩ := hs.relation.listed hschema h hr he
    obtain rfl := Option.some.inj (hlist.yields.symm.trans hys)
    obtain ⟨hitem, hlist⟩ := hlist.opened hopens
    rw [hitem] at hregular
    obtain ⟨keyTy, tys, rfl, hkey, hcolumn, hfields⟩ := hregular.groupby hne
    obtain ⟨us, hperm, horder, hkept⟩ := hlist.renders.kept_forall₂ hopens.isOpen
    have htakes : subject.Takes p.input scope us := ⟨vs, hlist.outcome, hperm, horder⟩
    refine ⟨us, htakes, fun w hw => ?_⟩
    obtain ⟨ks, ws, rfl, hks, hws⟩ := Step.outcome_groupby_eq_ok hne hw
    exact ⟨ws, rfl, hlist.groups hschema hopens.isOpen (ho _ List.mem_cons_self)
      (fun f hf => ho (f.2, 1) (List.mem_cons_of_mem _ (List.mem_map.2 ⟨f, hf, rfl⟩))) hkey hcolumn
      hfields hranked hk hcolumns hfs hselected htakes hkept
      (fun v hv => Yields.ok_mem_ofList.2 (hperm.mem_iff.1 hv)) hks hws⟩

/-- The rows of a stored table stand for its elements. -/
theorem RowsMeant.source (hschema : target.schema.Distinct) (id : Nat) (name : String) :
    RowsMeant target (.source id name) := by
  intro p bs scope ty r m e h hr he
  cases hr with
  | @source _ _ c _ _ hc =>
    obtain ⟨hname, rows, hrows, hlength, hfields⟩ := h.stored name c hc
    have hdistinct : c.itemTy.Distinct := by
      cases hschema name c hc with
      | list h => exact h
    rw [Term.eval, Run.outcome_bind, Input.scan, Run.outcome_accessing, hrows] at he
    cases he
    exact ⟨_, rfl, .ofCollection (hname ▸ hrows) hfields hdistinct hlength (Nat.lt_succ_self _)⟩

/-- Row operations on the rows of a subject go with the step on its elements. -/
theorem RowsMeant.step (hschema : target.schema.Distinct) (hs : Meant target subject)
    (ho : ∀ c ∈ action.operands, Meant target c.1) :
    RowsMeant target (.step id subject action) := by
  intro p bs scope ty r m f h hr hf
  obtain ⟨sty, hsubject, hregular, hranked, hsettles⟩ := h.step
  have hrows := hr
  obtain ⟨e, he, hf⟩ := Term.eval_step hf
  cases hr with
  | filter _ hr hopens hp =>
    obtain ⟨rfl, ys, hlist⟩ := hs.relation.listed hschema hsubject hr he
    obtain ⟨hitem, hlist⟩ := hlist.opened hopens
    rw [hitem] at hregular
    obtain ⟨rfl, pty, hpredicate⟩ := hregular.filter
    exact hlist.filter hschema hopens.isOpen (ho _ List.mem_cons_self) hpredicate hranked hp hf
  | map _ hr hopens hshape hty hitem' =>
    obtain ⟨rfl, ys, hlist⟩ := hs.relation.listed hschema hsubject hr he
    obtain ⟨hitem, hlist⟩ := hlist.opened hopens
    rw [hitem] at hregular
    obtain ⟨result, rfl, htransform⟩ := hregular.map
    exact hlist.map hschema _ hopens.distinct_eq_false (ho _ List.mem_cons_self) htransform hranked
      hshape hf
  | sort _ hr hopens hk =>
    obtain ⟨rfl, ys, hlist⟩ := hs.relation.listed hschema hsubject hr he
    obtain ⟨hitem, hlist⟩ := hlist.opened hopens
    rw [hitem] at hregular
    obtain ⟨rfl, hkeys⟩ := hregular.sort
    exact hlist.sort hschema hopens.isOpen
      (fun k hk => ho (k.1, 1) (List.mem_map.2 ⟨k, hk, rfl⟩)) hkeys hranked hk hf
  | slice _ hr hforward =>
    obtain ⟨ys, hys, hrenders⟩ := hs.relation hsubject hr he
    exact ⟨_, Step.yields_slice hys hforward hf, hrenders.sliced hforward⟩
  | distinct _ hr hopens horder =>
    obtain ⟨rfl, ys, hlist⟩ := hs.relation.listed hschema hsubject hr he
    obtain ⟨-, hlist⟩ := hlist.opened hopens
    exact ⟨_, Step.yields_distinct hlist.yields hf, hlist.renders.deduplicated hopens.isUnbounded
      horder hlist.sound.shape.fits hlist.sound.shape.distinct⟩
  | groupby _ hne hr =>
    obtain ⟨ys, hys, -⟩ := hs.relation hsubject hr he
    obtain ⟨vs, ks, ws, rfl, -, -, hws⟩ := Step.yields_groupby hys hne hf
    obtain ⟨us, htakes, hgroups⟩ :=
      hrows.renders_groups hschema hs ho hsubject hregular hranked he hys
    -- The order in which the groups were made is not to matter.
    have hsame := hsettles us htakes _ (Term.outcome_of_yields he hys)
    have hlist : (Term.step id subject (.groupby _ _)).outcome p.input scope = .ok (.list ws) :=
      Term.outcome_of_yields (by rw [Term.eval, Run.outcome_bind, he]; exact hf) hws
    have hvalue : (Step.groupby _ _).outcome p.input scope subject (.list vs) = .ok (.list ws) :=
      (Term.outcome_step _ (Term.outcome_of_yields he hys)).symm.trans hlist
    obtain ⟨ws', hws', hrenders⟩ := hgroups _ (hsame.trans hvalue)
    cases hws'
    exact ⟨_, hws, hrenders⟩

end Relations

section Groups

variable {members : Members} {rows : List Current} {f : Evaluated}

/-- A term under a member is lowered to columns that hold its value on the row of the member. -/
theorem ToMembers.under_member {t' : Term} {ty' : Ty} {s : Shape}
    (hschema : target.schema.Distinct) (hmembers : ToMembers target bs subject p.next members k)
    (h : Occurs target p bs scope subject (.list members.item)) (hm : HasMembers p bs scope)
    (he : (subject.eval p.input scope).outcome = .ok e) (hys : e.yields? = some ys)
    (hrows : p.group = some rows) (ht : Meant target t')
    (hregular : t'.Regular target.schema (.element members.item :: boundsOf bs) ty')
    (hranked : ∀ v, subject.Passes p.input scope v → t'.Ranked p.input (v :: scope))
    (hshape : ToShape target (.element members.shape members.item :: bs) t' k s m) :
    ∀ row ∈ rows, ∀ v, .ok v ∈ ys → members.shape.Holds ((p.upto k).on row) v →
      ∀ w, t'.outcome p.input (v :: scope) = .ok w → s.Holds ((p.upto m).on row) w := by
  intro row hrow v hv hread w hw
  obtain ⟨hgrows, -, hplain, hgrouped⟩ :=
    (fitted hschema subject).members h.sound h.regular hmembers
  have hothers := (hm.elements hgrouped hrows hrow).leads (Place.Leads.upto (p := p.on row) hgrows)
  exact ht.under_element hschema h hplain hothers hread ⟨e, ys, he, hys, hv⟩ hregular hranked
    hshape hw

/-- The rows of members that pass a further filter. -/
theorem filter_members (members : Members) (x : Expr) (input : Input) (rows : List Current) :
    (rows.filter fun row => (members.filter ++ [x]).all
      fun e => (e.eval input rows row).holds) =
    (rows.filter fun row => members.filter.all fun e => (e.eval input rows row).holds).filter
      fun row => (x.eval input rows row).holds := by
  rw [List.filter_filter]
  refine List.filter_congr fun row _ => ?_
  rw [List.all_append, List.all_cons, List.all_nil, Bool.and_true, Bool.and_comm]

/-- Rows of a group stand for what its members are filtered and mapped to. -/
theorem ToMembers.renders_step (hschema : target.schema.Distinct) (hs : Meant target subject)
    (ho : ∀ c ∈ action.operands, Meant target c.1)
    (h : Occurs target p bs scope (.step id subject action) ty) (hm : HasMembers p bs scope)
    (hmembers : ToMembers target bs (.step id subject action) p.next members m)
    (hf : ((Term.step id subject action).eval p.input scope).outcome = .ok f) :
    ∃ rows ys, p.group = some rows ∧ f.yields? = some ys ∧ members.Renders p m rows ys := by
  obtain ⟨sty, hsubject, hregular, hranked, -⟩ := h.step
  obtain ⟨e, he, hf⟩ := Term.eval_step hf
  cases hmembers with
  | @filter _ _ k _ _ _ before x _ _ hbefore hp =>
    obtain ⟨rows, ys, hrows, hys, hback⟩ := hs.members hsubject hm hbefore he
    obtain ⟨-, rfl, hplain, -⟩ :=
      (fitted hschema subject).members h.sound hsubject.regular hbefore
    obtain ⟨rfl, pty, hpredicate⟩ := hregular.filter
    have hkm := ((fitted hschema _).shape (sound_element hplain h.sound) hpredicate hp).grows
    have hread := hbefore.under_member hschema hsubject hm he hys hrows (ho _ List.mem_cons_self)
      hpredicate hranked hp
    refine ⟨rows, _, hrows, Step.yields_filter hys hf, ?_⟩
    rw [Members.Renders, filter_members]
    refine (hback.keep fun row hrow v hv hholds b hb => ?_).imp
      fun row _ v _ hholds => hholds.leads (Relation.Renders.leads_on p row hkm)
    obtain ⟨w, hw, hb⟩ := Outcome.bind_eq_ok.1 hb
    obtain rfl := Term.toBool_eq_ok hb
    cases hread row (List.mem_of_mem_filter hrow) v hv hholds _ hw with
    | scalar hx _ _ =>
      rw [show x.eval p.input rows row = .bool b from hx.eval_on (p := p.upto m) rows]
      cases b <;> rfl
  | map _ hbefore hshape hty hitem =>
    obtain ⟨rows, ys, hrows, hys, hback⟩ := hs.members hsubject hm hbefore he
    obtain ⟨-, rfl, -, -⟩ :=
      (fitted hschema subject).members h.sound hsubject.regular hbefore
    obtain ⟨result, rfl, htransform⟩ := hregular.map
    have hread := hbefore.under_member hschema hsubject hm he hys hrows (ho _ List.mem_cons_self)
      htransform hranked hshape
    exact ⟨rows, _, hrows, Step.yields_map hys hf,
      hback.mapWith fun row hrow => hread row (List.mem_of_mem_filter hrow)⟩

/-- The group itself. -/
theorem ToMembers.renders_context (h : Occurs target p bs scope (.context id n) ty)
    (hm : HasMembers p bs scope) (hmembers : ToMembers target bs (.context id n) p.next members m)
    (hf : ((Term.context id n).eval p.input scope).outcome = .ok f) :
    ∃ rows ys, p.group = some rows ∧ f.yields? = some ys ∧ members.Renders p m rows ys := by
  cases hmembers with
  | @context _ _ member item _ _ hb =>
    have hbound : (boundsOf bs)[n]? = some (.group (.list item)) := by
      rw [boundsOf, List.getElem?_map, hb]
      rfl
    obtain rfl : n = 0 := h.regular.tidy _ hbound rfl
    cases bs with
    | nil => cases hb
    | cons b bs =>
      obtain rfl : b = .group member item := Option.some.inj hb
      obtain ⟨rows, vs, outer, hrows, rfl, hread, -⟩ := hm
      cases hf
      have hall : (rows.filter fun row => ([] : List Expr).all
          fun e => (e.eval p.input rows row).holds) = rows := List.filter_eq_self.2 fun _ _ => rfl
      refine ⟨rows, _, hrows, rfl, ?_⟩
      rw [Members.Renders, hall]
      exact .ofList hread

end Groups

section Columns

variable {s : Shape} {x arg : Expr} {ety : Ty}

/-- What a list is lowered to stands for its elements on every row that is admitted. -/
theorem RowsMeant.listed_admitted (ht : RowsMeant target t) (hschema : target.schema.Distinct)
    (h : Occurs target p bs scope t ty) (hr : ToRelation target bs t p.next r m)
    (he : (t.eval p.input scope).outcome = .ok e) (hys : e.yields? = some ys)
    {members : List Current} {row : Current} (ha : (p.upto n).Admits members row)
    (hn : p.next ≤ n) : Listed target (p.on row) bs scope t r m e ys := by
  have ha := (Place.Leads.upto hn).admits members row ha
  obtain ⟨-, ys', hlist⟩ := ht.listed (p := p.on row) hschema (h.on_admitted ha) hr he
  obtain rfl := Option.some.inj (hlist.yields.symm.trans hys)
  exact hlist

/-- An array of the rows that a list is lowered to. -/
theorem RowsMeant.holds_array (ht : RowsMeant target t) (hschema : target.schema.Distinct)
    (h : Occurs target p bs scope t ty) (hr : ToRelation target bs t p.next r m)
    (hshape : r.shape = .scalar x ety) (name : String)
    (hv : t.outcome p.input scope = .ok v) :
    (Shape.scalar (.array { r.select with columns := [(x, name)] }) ty).Holds (p.upto m) v := by
  have hty := h.inhabits hschema hv
  obtain ⟨e, he, -⟩ := Term.eval_of_outcome hv
  obtain ⟨-, ys, hlist⟩ := ht.listed hschema h hr he
  obtain ⟨vs, rfl, rfl⟩ := Term.eq_list_of_yields he hlist.yields hv
  have hplain : x.aggregates = false := by
    have hplain := hlist.sound.shape.plain
    rwa [hshape, Shape.aggregates] at hplain
  refine .scalar (fun members row ha => ?_) (Value.areFlat_iff.2 ?_) hty
  · have hadmitted := ht.listed_admitted hschema h hr he hlist.yields ha hlist.grows
    exact hadmitted.renders.array hshape hplain name members
  · have hback := (hlist.renders.backed fun _ => ⟨[x], by rw [hshape]; rfl⟩).forall₂
    rw [hshape] at hback
    exact isFlat_of_forall₂ hback

/-- An aggregate over the rows that a list is lowered to. -/
theorem Meant.holds_aggregate {op : AggregateOp} (hschema : target.schema.Distinct)
    (hs : Meant target subject) (h : Occurs target p bs scope subject ty)
    (hr : ToRelation target bs subject p.next r k) (hopens : r.Opens r.isOpen k r' m)
    (harg : op = .len ∨ ∃ aty, r'.shape = .scalar arg aty)
    (hsettles : (Step.aggregate op).OrderFree p.input scope subject) {rty : Ty}
    (hty : rty.Inhabits v)
    (hv : (Term.step id subject (.aggregate op)).outcome p.input scope = .ok v) :
    (Shape.scalar (r'.total (reduce op arg none)) rty).Holds (p.upto m) v := by
  obtain ⟨w, hw, hv⟩ := Term.outcome_aggregate_eq_ok hv
  obtain ⟨e, he, -⟩ := Term.eval_of_outcome hw
  obtain ⟨-, ys, hlist⟩ := hs.relation.listed hschema h hr he
  obtain ⟨vs, rfl, rfl⟩ := Term.eq_list_of_yields he hlist.yields hw
  have hgrows := Nat.le_trans hlist.grows hopens.grows
  refine .scalar (fun members row ha => ?_) (Value.isFlat_aggregate hv (harg.imp_right ?_)) hty
  · have hadmitted := hs.relation.listed_admitted hschema h hr he hlist.yields ha hgrows
    obtain ⟨-, hadmitted⟩ := hadmitted.opened hopens
    obtain ⟨us, hperm, horder, hkept⟩ := hadmitted.renders.kept_forall₂ hopens.isOpen
    have hus : (Value.list us).aggregate op = .ok v := by
      have hsame := hsettles us ⟨vs, hlist.outcome, hperm, horder⟩ _ hlist.outcome
      rw [Step.outcome_aggregate, Step.outcome_aggregate] at hsame
      exact hsame.trans hv
    exact hadmitted.renders.total hopens.isOpen hkept hus harg members
  · rintro ⟨aty, hshape⟩
    have hback := ((hlist.opened hopens).2.renders.backed_of_isOpen hopens.isOpen).forall₂
    rw [hshape] at hback
    exact isFlat_of_forall₂ hback

/-- An aggregate over the members of the group of a place. -/
theorem Meant.holds_ofMembers {op : AggregateOp} {members : Members} (hs : Meant target subject)
    (h : Occurs target p bs scope subject ty) (hm : HasMembers p bs scope)
    (hmembers : ToMembers target bs subject p.next members m)
    (harg : op = .len ∨ ∃ aty, members.shape = .scalar arg aty) {rty : Ty} (hty : rty.Inhabits v)
    (hv : (Term.step id subject (.aggregate op)).outcome p.input scope = .ok v) :
    (Shape.scalar (reduce op arg members.restriction) rty).Holds (p.upto m) v := by
  obtain ⟨w, hw, hv⟩ := Term.outcome_aggregate_eq_ok hv
  obtain ⟨e, he, -⟩ := Term.eval_of_outcome hw
  obtain ⟨rows, ys, hrows, hys, hback⟩ := hs.members h hm hmembers he
  obtain ⟨vs, rfl, rfl⟩ := Term.eq_list_of_yields he hys hw
  have hpairs := hback.forall₂
  rw [← ranged_restriction] at hpairs
  refine .scalar (fun others row ha => ?_) (Value.isFlat_aggregate hv (harg.imp_right ?_)) hty
  · unfold Place.Admits at ha
    rw [Place.group_upto, hrows] at ha
    obtain ⟨rfl, -⟩ := ha
    refine eval_reduce hv hpairs.length_eq (harg.imp_right ?_)
    rintro ⟨aty, hshape⟩
    rw [hshape] at hpairs
    exact map_eval_of_forall₂ hpairs _
  · rintro ⟨aty, hshape⟩
    rw [hshape] at hpairs
    exact isFlat_of_forall₂ hpairs

/-- What the operands of a binary operator are lowered to, one after the other. -/
theorem Occurs.operand {op : BinaryOp} {rhs : Term} {sty : Ty} (hschema : target.schema.Distinct)
    (h : Occurs target p bs scope subject sty) (hm : HasMembers p bs scope)
    (hregular : (Step.binary op rhs).Regular target.schema (boundsOf bs) sty ty)
    (hranked : rhs.Ranked p.input scope) (hs : Meant target subject) (hr : Meant target rhs)
    {s' : Shape} (hl : ToShape target bs subject p.next s k) (hrs : ToShape target bs rhs k s' m) :
    (∀ u, subject.outcome p.input scope = .ok u → s.Holds (p.upto m) u) ∧
      ∀ w, rhs.outcome p.input scope = .ok w → s'.Holds (p.upto m) w := by
  obtain ⟨rty, hrhs, -⟩ := hregular.binary
  have hgrows := ((fitted hschema subject).shape h.sound h.regular hl).grows
  have hmore := ((fitted hschema rhs).shape h.sound hrhs hrs).grows
  refine ⟨fun u hu => (hs.shape h hm hl hu).leads (Place.Leads.upto (p := p.upto k) hmore),
    fun w hw => ?_⟩
  exact hr.shape (p := p.upto k) ⟨h.toAround.upto hgrows, hrhs, hranked⟩ (hm.upto hgrows) hrs hw

/-- The columns of a step hold its value. -/
theorem ToShape.holds_step (hschema : target.schema.Distinct) (hs : Meant target subject)
    (ho : ∀ c ∈ action.operands, Meant target c.1)
    (h : Occurs target p bs scope (.step id subject action) ty) (hm : HasMembers p bs scope)
    (hshape : ToShape target bs (.step id subject action) p.next s m)
    (hv : (Term.step id subject action).outcome p.input scope = .ok v) : s.Holds (p.upto m) v := by
  have hinhabits := h.inhabits hschema hv
  obtain ⟨sty, hsubject, hregular, hranked, hsettles⟩ := h.step
  cases hshape with
  | array hty hr hshape =>
    obtain rfl := ty_unique hty h.regular
    exact (RowsMeant.step hschema hs ho).holds_array hschema h hr hshape _ hv
  | field _ hshape hget =>
    obtain ⟨w, hw, hv⟩ := Term.outcome_of_takesValue rfl hv
    rw [Step.outcome_field] at hv
    exact (hs.shape hsubject hm hshape hw).field hget hv
  | not _ hty hshape =>
    obtain rfl := ty_unique hty h.regular
    obtain ⟨w, hw, hv⟩ := Term.outcome_of_takesValue rfl hv
    rw [Step.outcome_unary] at hv
    exact (hs.shape hsubject hm hshape hw).not hinhabits hv
  | neg _ hty hshape =>
    obtain rfl := ty_unique hty h.regular
    obtain ⟨w, hw, hv⟩ := Term.outcome_of_takesValue rfl hv
    rw [Step.outcome_unary] at hv
    exact (hs.shape hsubject hm hshape hw).neg hinhabits hv
  | combined _ hty hl hr he =>
    obtain rfl := ty_unique hty h.regular
    obtain ⟨ha, hb⟩ := hsubject.operand hschema hm hregular hranked hs (ho _ List.mem_cons_self) hl hr
    exact he.holds hinhabits ha hb hv
  | matching _ literal hl hp =>
    obtain ⟨w, hw, hv⟩ := Term.outcome_of_takesValue rfl hv
    rw [Step.outcome_binary (by decide) (by decide)] at hv
    exact (hs.shape hsubject hm hl hw).matching hp hv
  | merged _ hl hr =>
    obtain ⟨ha, hb⟩ := hsubject.operand hschema hm hregular hranked hs (ho _ List.mem_cons_self) hl hr
    obtain ⟨u, hu, hv⟩ := Term.outcome_of_takesValue rfl hv
    rw [Step.outcome_binary (by decide) (by decide)] at hv
    obtain ⟨w, hw, hv⟩ := Outcome.bind_eq_ok.1 hv
    exact (ha u hu).merged (hb w hw) hv
  | ofMembers _ hty hmembers harg =>
    obtain rfl := ty_unique hty h.regular
    exact hs.holds_ofMembers hsubject hm hmembers harg hinhabits hv
  | length _ hty hsty hl =>
    obtain rfl := ty_unique hty h.regular
    obtain rfl := ty_unique hsty hsubject.regular
    obtain ⟨w, hw, hv⟩ := Term.outcome_aggregate_eq_ok hv
    exact (hs.shape hsubject hm hl hw).length (hsubject.inhabits hschema hw) hinhabits hv
  | count _ hty hl =>
    obtain rfl := ty_unique hty h.regular
    obtain ⟨w, hw, hv⟩ := Term.outcome_aggregate_eq_ok hv
    exact (hs.shape hsubject hm hl hw).count hinhabits hv
  | aggregate _ hty hr hopens harg =>
    obtain rfl := ty_unique hty h.regular
    exact hs.holds_aggregate hschema hsubject hr hopens harg hsettles hinhabits hv

end Columns

open Term in
/-- Lowered terms mean what the terms evaluate to. -/
theorem meant (hschema : target.schema.Distinct) (t : Term) : Meant target t := by
  induction t using children_induction with
  | h t ih =>
    cases t with
    | source id name =>
      refine ⟨fun p bs scope ty s m v h _ hs hv => ?_, .source hschema id name,
        fun _ _ _ _ _ _ _ _ _ hm _ => (nomatch hm)⟩
      cases hs with
      | array hty hr hshape =>
        obtain rfl := ty_unique hty h.regular
        exact (RowsMeant.source hschema id name).holds_array hschema h hr hshape _ hv
    | literal id u =>
      refine ⟨fun p bs scope ty s m v h _ hs hv => ?_, fun _ _ _ _ _ _ _ _ hr _ => (nomatch hr),
        fun _ _ _ _ _ _ _ _ _ hm _ => (nomatch hm)⟩
      cases hs with
      | array hty hr hshape => cases hr
      | literal hl =>
        cases hv
        exact literalShape_holds u _ hl
    | context id up =>
      refine ⟨fun p bs scope ty s m v h _ hs hv => ?_, fun _ _ _ _ _ _ _ _ hr _ => (nomatch hr),
        fun p bs scope ty members m e h hm hmembers he => hmembers.renders_context h hm he⟩
      cases hs with
      | array hty hr hshape => cases hr
      | context _ _ hb =>
        exact (h.inScope.elements.holds hb (outcome_context_eq_ok hv)).leads
          (Place.Leads.of_plain p)
    | record id fields =>
      refine ⟨fun p bs scope ty s m v h hm hs hv => ?_, fun _ _ _ _ _ _ _ _ hr _ => (nomatch hr),
        fun _ _ _ _ _ _ _ _ _ hm _ => (nomatch hm)⟩
      cases hs with
      | array hty hr hshape => cases hr
      | record _ hs =>
        obtain ⟨tys, rfl, htys⟩ := h.regular.record
        rw [outcome_record] at hv
        obtain ⟨out, hout, hv⟩ := Outcome.bind_eq_ok.1 hv
        cases hv
        exact .mapping (hs.holds hschema (fun f hf => ih (f.2, 0) (List.mem_map.2 ⟨f, hf, rfl⟩))
          h.toAround hm htys h.ranked hout)
    | step id subject action =>
      have hs := ih (subject, 0) List.mem_cons_self
      have ho : ∀ c ∈ action.operands, Meant target c.1 :=
        fun c hc => ih c (List.mem_cons_of_mem _ hc)
      exact ⟨fun p bs scope ty s m v h hm hshape hv => hshape.holds_step hschema hs ho h hm hv,
        .step hschema hs ho,
        fun p bs scope ty members m e h hm hmembers he =>
          hmembers.renders_step hschema hs ho h hm he⟩

end QueryPushdown.Sql
