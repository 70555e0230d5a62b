import QueryPushdown.Proofs.Fields
import QueryPushdown.Proofs.Typing.Evaluated
import QueryPushdown.Proofs.Typing.Inference
import QueryPushdown.Proofs.Typing.Scoping

/-!
# Soundness of type inference

A term evaluates, in a scope of the types it was typed in, to a value of its type. It may fail, but
never for the want of an enclosing element or of a source.
-/

namespace QueryPushdown

variable {schema : Schema} {input : Input} {frames : Frames} {scope : Scope}

/-- Fields are named like their types and hold values of them. -/
abbrev Fields.Inhabit (tys : List (String × Ty)) (fields : List (String × Value)) : Prop :=
  Fields.Paired Ty.Inhabits tys fields

namespace Fields.Inhabit

variable {tys : List (String × Ty)} {fields : List (String × Value)}

theorem mapping (h : Fields.Inhabit tys fields) (hn : (Fields.names fields).Nodup)
    (source : Option String) : (Ty.mapping tys source).Inhabits (.mapping fields) := by
  refine .mapping hn (fun name => ?_) fun name v ty hv hty => ?_
  · have hrel := h.get? name
    unfold Fields.has
    revert hrel
    generalize Fields.get? tys name = τ
    generalize Fields.get? fields name = f
    intro hrel
    cases hrel <;> rfl
  · have hrel := h.get? name
    rw [hv, hty] at hrel
    cases hrel with
    | some h => exact h

end Fields.Inhabit

namespace Groups

/-- Groups of elements of a type, under values of a type. -/
def Has (keyTy item : Ty) (groups : List (Value × List Value)) : Prop :=
  ∀ g ∈ groups, keyTy.Inhabits g.1 ∧ ∀ v ∈ g.2, item.Inhabits v

variable {keyTy item : Ty} {groups : List (Value × List Value)} {key element : Value}

theorem Has.add (h : Has keyTy item groups) (place : Nat) (hk : keyTy.Inhabits key)
    (hv : item.Inhabits element) : Has keyTy item (add groups place key element) := by
  have hnew : ∀ v ∈ [element], item.Inhabits v := fun v hm => List.mem_singleton.1 hm ▸ hv
  induction groups generalizing place with
  | nil =>
    intro g hg
    exact List.mem_singleton.1 hg ▸ ⟨hk, hnew⟩
  | cons group rest ih =>
    obtain ⟨k, members⟩ := group
    obtain ⟨hfirst, hrest⟩ := List.forall_mem_cons.1 h
    cases place with
    | zero =>
      refine List.forall_mem_cons.2 ⟨⟨hfirst.1, fun v hm => ?_⟩, hrest⟩
      rcases List.mem_append.1 hm with hm | hm
      · exact hfirst.2 v hm
      · exact hnew v hm
    | succ place => exact List.forall_mem_cons.2 ⟨hfirst, ih hrest place⟩

theorem Has.insert {g : Groups} (h : Has keyTy item g.groups) (hk : keyTy.Inhabits key)
    (hv : item.Inhabits element) : Has keyTy item (g.insert key element).groups := by
  unfold Groups.insert
  split
  · split
    · exact h.add _ hk hv
    · exact h.add _ hk hv
  · exact h.add _ hk hv

end Groups

/-- An element that has a type is bound to a value of it. -/
theorem Frames.read_sound {up : Nat} {ty : Ty} (hs : List.Forall₂ Ty.Inhabits frames scope)
    (h : Frames.read frames up = .ok ty) : ∃ v, scope.read up = .ok v ∧ ty.Inhabits v := by
  have hlt := Frames.lt_length_of_read h
  have hlt' : up < scope.length := hs.length_eq ▸ hlt
  unfold Frames.read at h
  split at h
  · cases h
  · rw [List.getElem?_eq_getElem hlt] at h
    cases h
    refine ⟨scope[up], ?_, hs.get hlt hlt'⟩
    rw [Scope.read, List.getElem?_eq_getElem hlt']

/-- In scopes of the types it is typed in, a term evaluates to its type. -/
def Term.Typed (schema : Schema) (input : Input) (t : Term) : Prop :=
  ∀ (frames : Frames) (scope : Scope) (ty : Ty), List.Forall₂ Ty.Inhabits frames scope →
    (∀ τ ∈ frames, τ.Distinct) → t.infer schema frames = .ok ty →
    Outcome.Sound (Evaluated.Has ty) (t.eval input scope).outcome

theorem Term.Typed.outcome {t : Term} {ty : Ty} (h : t.Typed schema input)
    (hs : List.Forall₂ Ty.Inhabits frames scope) (hf : ∀ τ ∈ frames, τ.Distinct)
    (ht : t.infer schema frames = .ok ty) :
    Outcome.Sound ty.Inhabits (t.outcome input scope) := by
  rw [Term.outcome_eq]
  exact (h frames scope ty hs hf ht).bind fun e he => he.toValue

section Operands

variable (hs : List.Forall₂ Ty.Inhabits frames scope) (hf : ∀ τ ∈ frames, τ.Distinct)
include hs hf

theorem evalFields_sound {fields : List (String × Term)} {tys : List (String × Ty)}
    (ht : ∀ f ∈ fields, f.2.Typed schema input)
    (h : inferFields schema frames fields = .ok tys) :
    Outcome.Sound (Fields.Inhabit tys) (evalFields input scope fields).outcome := by
  replace h := inferFields_paired h
  induction h with
  | nil => exact List.Forall₂.nil
  | @cons field g rest others hty _ ih =>
    obtain ⟨name, t⟩ := field
    obtain ⟨hfirst, hothers⟩ := List.forall_mem_cons.1 ht
    rw [evalFields, Term.outcome_operand]
    refine (hfirst.outcome hs hf hty.2).bind fun v hv => ?_
    rw [Run.outcome_bind]
    exact (ih hothers).bind fun vs hvs => List.Forall₂.cons ⟨hty.1.symm, hv⟩ hvs

theorem evalKeys_sound {keys : List (Term × Bool)} (ht : ∀ k ∈ keys, k.1.Typed schema input)
    (h : inferKeys schema frames keys = .ok ()) :
    Outcome.Sound (fun _ => True) (evalKeys input scope keys).outcome := by
  induction keys with
  | nil => trivial
  | cons key rest ih =>
    obtain ⟨t, descending⟩ := key
    rw [inferKeys] at h
    obtain ⟨ty, hty, h⟩ := Outcome.bind_eq_ok.1 h
    rw [evalKeys, Term.outcome_operand]
    refine ((ht _ List.mem_cons_self).outcome hs hf hty).bind fun v hv => ?_
    rw [Run.outcome_bind]
    exact (ih (fun k hm => ht k (List.mem_cons_of_mem _ hm)) h).bind fun vs _ => trivial

end Operands

namespace Step

variable {subject : Term} {e : Evaluated} {sty ty : Ty}

section

variable (hs : List.Forall₂ Ty.Inhabits frames scope) (hf : ∀ τ ∈ frames, τ.Distinct)
include hs hf

private theorem binary_typed {op : BinaryOp} {rhs : Term} (he : e.Has sty) (hd : sty.Distinct)
    (hschema : schema.Distinct) (hr : rhs.Distinct) (ht : rhs.Typed schema input)
    (h : (Step.binary op rhs).infer schema frames sty = .ok ty) :
    Outcome.Sound (Evaluated.Has ty) ((Step.binary op rhs).act input scope subject e).outcome := by
  rw [infer] at h
  obtain ⟨rty, hrty, h⟩ := Outcome.bind_eq_ok.1 h
  have hrhs := ht.outcome hs hf hrty
  have hrd := rhs.infer_distinct hschema hr frames rty hf hrty
  cases op with
  | and | or =>
    obtain ⟨_, _, h⟩ := Outcome.bind_eq_ok.1 h
    obtain ⟨_, _, h⟩ := Outcome.bind_eq_ok.1 h
    cases h
    simp only [act]
    rw [Run.outcome_bind]
    refine he.toValue.bind fun v _ => ?_
    rw [Run.outcome_bind]
    refine v.toBool_sound.bind fun b _ => ?_
    cases b with
    | true | false =>
      simp only [if_true, if_false, Bool.false_eq_true]
      first
        | exact Evaluated.Has.value (.bool _)
        | rw [Term.outcome_operand]
          refine hrhs.bind fun w _ => ?_
          rw [Run.outcome_bind]
          exact w.toBool_sound.bind fun b _ => Evaluated.Has.value (.bool b)
  | _ =>
    simp only [act]
    rw [Run.outcome_bind]
    refine he.toValue.bind fun v hv => ?_
    rw [Term.outcome_operand]
    refine hrhs.bind fun w hw => ?_
    rw [Run.outcome_bind]
    exact (Typing.binary_sound h hv hw hd hrd).bind fun u hu => Evaluated.Has.value hu

private theorem filter_typed {predicate : Term} (he : e.Has sty) (hd : sty.Distinct)
    (ht : predicate.Typed schema input)
    (h : (Step.filter predicate).infer schema frames sty = .ok ty) :
    Outcome.Sound (Evaluated.Has ty) ((Step.filter predicate).act input scope subject e).outcome := by
  rw [infer] at h
  obtain ⟨item, hitem, h⟩ := Outcome.bind_eq_ok.1 h
  obtain ⟨pty, hpty, h⟩ := Outcome.bind_eq_ok.1 h
  obtain ⟨_, _, h⟩ := Outcome.bind_eq_ok.1 h
  cases h
  have hi := Ty.HasItems.of_listItem hitem
  have hinner := List.forall_mem_cons.2 ⟨Typing.listItem_distinct hitem hd, hf⟩
  simp only [act]
  rw [Run.outcome_bind]
  refine (he.toSequence hi.item?).bind fun ps hps => Evaluated.Has.pulls hi ?_
  rw [Pulls.yields_map_keepIf]
  refine hps.keep fun v hv => ?_
  rw [Term.outcome_operand]
  exact (ht.outcome (.cons hv hs) hinner hpty).bind fun b _ => b.toBool_sound

private theorem map_typed {transform : Term} (he : e.Has sty) (hd : sty.Distinct)
    (ht : transform.Typed schema input)
    (h : (Step.map transform).infer schema frames sty = .ok ty) :
    Outcome.Sound (Evaluated.Has ty) ((Step.map transform).act input scope subject e).outcome := by
  rw [infer] at h
  obtain ⟨item, hitem, h⟩ := Outcome.bind_eq_ok.1 h
  obtain ⟨result, hresult, h⟩ := Outcome.bind_eq_ok.1 h
  cases h
  have hi := Ty.HasItems.of_listItem hitem
  have hinner := List.forall_mem_cons.2 ⟨Typing.listItem_distinct hitem hd, hf⟩
  simp only [act]
  rw [Run.outcome_bind]
  refine (he.toSequence hi.item?).bind fun ps hps => Evaluated.Has.pulls (.inl rfl) ?_
  rw [Pulls.yields_map_mapWith]
  exact hps.mapWith fun v hv => ht.outcome (.cons hv hs) hinner hresult

/-- Sorting keeps the elements, whatever the types of the keys. -/
private theorem sort_typed {keys : List (Term × Bool)} (he : e.Has sty) (hd : sty.Distinct)
    (ht : ∀ k ∈ keys, k.1.Typed schema input)
    (h : (Step.sort keys).infer schema frames sty = .ok ty) :
    Outcome.Sound (Evaluated.Has ty) ((Step.sort keys).act input scope subject e).outcome := by
  rw [infer] at h
  obtain ⟨item, hitem, h⟩ := Outcome.bind_eq_ok.1 h
  obtain ⟨_, hkeys, h⟩ := Outcome.bind_eq_ok.1 h
  cases h
  have hi := Ty.HasItems.of_listItem hitem
  have hinner := List.forall_mem_cons.2 ⟨Typing.listItem_distinct hitem hd, hf⟩
  simp only [act]
  rw [Run.outcome_bind]
  refine (he.toSequence hi.item?).bind fun ps hps => ?_
  rw [Run.outcome_bind, Pulls.outcome_foldRun]
  refine (hps.fold (I := fun rows : List Row => ∀ r ∈ rows, item.Inhabits r.value) ?_ ?_).bind ?_
  · intro rows v hrows hv
    rw [Run.outcome_bind]
    refine (evalKeys_sound (.cons hv hs) hinner ht hkeys).bind fun values _ => ?_
    exact List.forall_mem_cons.2 ⟨hv, hrows⟩
  · intro r hr
    cases hr
  · intro rows hrows
    refine Evaluated.Has.value (hi.list fun v hv => ?_)
    obtain ⟨r, hr, rfl⟩ := List.mem_map.1 ((Sorting.rows_perm _ _).mem_iff.1 hv)
    exact hrows r (List.mem_reverse.1 hr)

/-- An aggregate named like the key takes its place in the type and in the value alike. -/
private theorem groupby_typed {key : Term} {aggregates : List (String × Term)} (he : e.Has sty)
    (hd : sty.Distinct) (hk : key.Typed schema input)
    (ht : ∀ f ∈ aggregates, f.2.Typed schema input)
    (h : (Step.groupby key aggregates).infer schema frames sty = .ok ty) :
    Outcome.Sound (Evaluated.Has ty)
      ((Step.groupby key aggregates).act input scope subject e).outcome := by
  rw [infer] at h
  obtain ⟨item, hitem, h⟩ := Outcome.bind_eq_ok.1 h
  obtain ⟨keyTy, hkey, h⟩ := Outcome.bind_eq_ok.1 h
  have hi := Ty.HasItems.of_listItem hitem
  have hinner := List.forall_mem_cons.2 ⟨Typing.listItem_distinct hitem hd, hf⟩
  simp only [act]
  rw [Run.outcome_bind]
  refine (he.toSequence hi.item?).bind fun ps hps => ?_
  rw [Run.outcome_bind, Pulls.outcome_foldRun]
  refine (hps.fold (I := fun g : Groups => Groups.Has keyTy item g.groups) ?_ ?_).bind ?_
  · intro groups v hgroups hv
    rw [Term.outcome_operand]
    exact (hk.outcome (.cons hv hs) hinner hkey).bind fun k hk => hgroups.insert hk hv
  · intro g hg
    cases hg
  · intro groups hgroups
    rw [Run.outcome_bind, Run.outcome_mapM]
    by_cases hempty : aggregates.isEmpty = true
    · simp only [hempty, if_true] at h ⊢
      cases h
      refine (Outcome.Sound.mapM (R := Ty.Inhabits _) fun g hg => ?_).bind fun members hm =>
        Evaluated.Has.value (.list hm)
      have hfields : Fields.Inhabit [("key", keyTy), ("group", sty)]
          [("key", g.1), ("group", .list g.2)] :=
        .cons ⟨rfl, (hgroups g hg).1⟩ (.cons ⟨rfl, hi.list (hgroups g hg).2⟩ .nil)
      exact hfields.mapping (by simp [Fields.names]) none
    · simp only [hempty, if_false, Bool.false_eq_true] at h ⊢
      obtain ⟨tys, htys, h⟩ := Outcome.bind_eq_ok.1 h
      cases h
      refine (Outcome.Sound.mapM (R := Ty.Inhabits _) fun g hg => ?_).bind fun members hm =>
        Evaluated.Has.value (.list hm)
      have hgroup := List.forall_mem_cons.2 ⟨hd, hf⟩
      rw [Run.outcome_bind]
      refine (evalFields_sound (.cons (hi.list (hgroups g hg).2) hs) hgroup ht htys).bind ?_
      intro fields hfields
      have hkeyed : Fields.Inhabit [("key", keyTy)] [("key", g.1)] :=
        .cons ⟨rfl, (hgroups g hg).1⟩ .nil
      exact Fields.Inhabit.mapping (hkeyed.extend hfields)
        (Fields.nodup_names_extend (by simp [Fields.names]) fields) none

private theorem oneOr_typed {default : Term} (he : e.Has sty) (hd : sty.Distinct)
    (ht : default.Typed schema input)
    (h : (Step.oneOr default).infer schema frames sty = .ok ty) :
    Outcome.Sound (Evaluated.Has ty) ((Step.oneOr default).act input scope subject e).outcome := by
  rw [infer] at h
  obtain ⟨item, hitem, h⟩ := Outcome.bind_eq_ok.1 h
  obtain ⟨dty, hdty, h⟩ := Outcome.bind_eq_ok.1 h
  cases h
  have hi := Ty.HasItems.of_listItem hitem
  have hid := Typing.listItem_distinct hitem hd
  simp only [act]
  rw [Run.outcome_bind]
  refine (he.one hi.item? subject (fun v hv => hv.unify_left dty) ?_).bind fun v hv =>
    Evaluated.Has.value hv
  exact (ht.outcome hs hf hdty).mono fun v hv => hv.unify_right hid

end

/-- A step of a typed subject evaluates to its type. -/
theorem act_sound {action : Step} (hschema : schema.Distinct)
    (hs : List.Forall₂ Ty.Inhabits frames scope) (hf : ∀ τ ∈ frames, τ.Distinct)
    (hdistinct : ∀ c ∈ action.operands, c.1.Distinct)
    (ht : ∀ c ∈ action.operands, c.1.Typed schema input) (he : e.Has sty) (hd : sty.Distinct)
    (h : action.infer schema frames sty = .ok ty) :
    Outcome.Sound (Evaluated.Has ty) (action.act input scope subject e).outcome := by
  cases action with
  | field name =>
    simp only [act]
    rw [Run.outcome_bind]
    refine he.toValue.bind fun v hv => ?_
    rw [Run.outcome_bind]
    exact (Typing.field_sound h hv).bind fun w hw => Evaluated.Has.value hw
  | unary op =>
    simp only [act]
    rw [Run.outcome_bind]
    refine he.toValue.bind fun v hv => ?_
    rw [Run.outcome_bind]
    exact (Typing.unary_sound h hv).bind fun w hw => Evaluated.Has.value hw
  | binary op rhs =>
    exact binary_typed hs hf he hd hschema (hdistinct _ List.mem_cons_self)
      (ht _ List.mem_cons_self) h
  | filter predicate => exact filter_typed hs hf he hd (ht _ List.mem_cons_self) h
  | map transform => exact map_typed hs hf he hd (ht _ List.mem_cons_self) h
  | sort keys =>
    exact sort_typed hs hf he hd (fun k hk => ht (k.1, 1) (List.mem_map.2 ⟨k, hk, rfl⟩)) h
  | slice start stop =>
    rw [infer] at h
    obtain ⟨item, hitem, h⟩ := Outcome.bind_eq_ok.1 h
    cases h
    exact he.slice (Ty.item?_of_sequenceItem hitem) start stop
  | index position =>
    simp only [act]
    rw [Run.outcome_bind]
    refine (he.toSequence (Ty.item?_of_sequenceItem h)).bind fun ps hps => ?_
    rw [Run.outcome_bind]
    exact (Window.index_sound position hps).bind fun v hv => Evaluated.Has.value hv
  | groupby key aggregates =>
    refine groupby_typed hs hf he hd (ht (key, 1) List.mem_cons_self) (fun f hm => ?_) h
    exact ht (f.2, 1) (List.mem_cons_of_mem _ (List.mem_map.2 ⟨f, hm, rfl⟩))
  | distinct =>
    rw [infer] at h
    obtain ⟨item, hitem, h⟩ := Outcome.bind_eq_ok.1 h
    cases h
    have hi := Ty.HasItems.of_listItem hitem
    simp only [act]
    rw [Run.outcome_bind]
    refine (he.toSequence hi.item?).bind fun ps hps => Evaluated.Has.pulls hi ?_
    rw [Pulls.yields_distinct]
    exact hps.distinct {}
  | one =>
    have hi := Ty.HasItems.of_listItem h
    simp only [act]
    rw [Run.outcome_bind]
    refine (he.one (P := ty.Inhabits) hi.item? subject (fun v hv => hv) ?_).bind fun v hv =>
      Evaluated.Has.value hv
    rfl
  | oneOr default => exact oneOr_typed hs hf he hd (ht _ List.mem_cons_self) h
  | aggregate op =>
    simp only [act]
    rw [Run.outcome_bind]
    exact (Typing.aggregate_sound h he).bind fun v hv => Evaluated.Has.value hv

end Step

/-- Every collection of the schema is there, and its elements are of the type of its items. -/
def Input.Holds (input : Input) (schema : Schema) : Prop :=
  ∀ name c, schema.find? name = some c →
    ∃ rows, input name = .ok rows ∧ ∀ row ∈ rows, c.itemTy.Inhabits row

/-- A term whose type was inferred evaluates to it. -/
theorem Term.typed (hschema : schema.Distinct) (hinput : input.Holds schema) (t : Term) :
    t.Distinct → t.Typed schema input := by
  induction t using children_induction with
  | h t ih =>
    intro hd frames scope ty hs hf h
    have hchild : ∀ c ∈ t.children, c.1.Typed schema input := fun c hc =>
      ih c hc (hd.child c hc)
    cases t with
    | source id name =>
      rw [infer] at h
      cases hc : schema.find? name with
      | none =>
        rw [hc] at h
        cases h
      | some c =>
        rw [hc] at h
        cases h
        obtain ⟨rows, hrows, hitems⟩ := hinput name c hc
        rw [eval, Run.outcome_bind, Input.scan, Run.outcome_accessing, hrows]
        exact Evaluated.Has.value (.list hitems)
    | literal id value =>
      cases h
      cases hd with
      | node hl _ _ => exact Evaluated.Has.value (hl id value rfl).inhabits_ty.1
    | context id up =>
      obtain ⟨v, hread, hv⟩ := Frames.read_sound hs h
      rw [eval, Run.outcome_bind, hread]
      exact Evaluated.Has.value hv
    | record id fields =>
      rw [infer] at h
      obtain ⟨tys, htys, h⟩ := Outcome.bind_eq_ok.1 h
      cases h
      have hfields := evalFields_sound hs hf
        (fun f hm => hchild (f.2, 0) (List.mem_map.2 ⟨f, hm, rfl⟩)) htys
      cases hd with
      | node _ hr _ =>
        rw [eval, Run.outcome_bind]
        refine hfields.bind fun values hvalues => Evaluated.Has.value (hvalues.mapping ?_ none)
        rw [← hvalues.names_eq, names_of_inferFields htys]
        exact hr id fields rfl
    | step id subject action =>
      rw [infer] at h
      obtain ⟨sty, hsty, h⟩ := Outcome.bind_eq_ok.1 h
      have hsubject := hchild (subject, 0) List.mem_cons_self
      have hoperands := fun c hc => hchild c (List.mem_cons_of_mem _ hc)
      have hsd := subject.infer_distinct hschema (hd.child (subject, 0) List.mem_cons_self)
        frames sty hf hsty
      rw [eval, Run.outcome_bind]
      exact (hsubject frames scope sty hs hf hsty).bind fun e he =>
        Step.act_sound hschema hs hf (Term.distinct_step.1 hd).2 hoperands he hsd h

namespace Request

/-- A request evaluates to a value of the type that was inferred for it, and it does not fail for
the want of an enclosing element or of a source. Mappings are without repeated names throughout. -/
theorem eval_sound {r : Request} {ty : Ty} (hschema : schema.Distinct) (hr : r.root.Distinct)
    (hinput : input.Holds schema) (hf : ∀ τ ∈ frames, τ.Distinct)
    (hs : List.Forall₂ Ty.Inhabits frames scope) (h : r.root.infer schema frames = .ok ty) :
    (∀ v, r.eval input scope = .ok v → ty.Inhabits v) ∧
      ∀ e, r.eval input scope = .error e → e.isUnbound = false := by
  have hsound := (r.root.typed hschema hinput hr).outcome hs hf h
  change Outcome.Sound ty.Inhabits (r.eval input scope) at hsound
  constructor
  · intro v hv
    rw [hv] at hsound
    exact hsound
  · intro e he
    rw [he] at hsound
    exact hsound

/-- Measures are floats, which may be whole. -/
def measures : Schema :=
  ⟨[("items", { name := "items", fields := [("a", .f64)], identity := [] })]⟩

theorem measures_distinct : measures.Distinct := by
  intro name c hc
  obtain ⟨_, rfl⟩ := List.mem_singleton.1 (Fields.mem_of_get? hc)
  refine .list (.mapping (by decide) fun f hf => ?_)
  exact List.mem_singleton.1 hf ▸ .f64

theorem measures_holds {v : Value} (h : Ty.f64.Inhabits v) :
    (Input.ofFields [("items", [.mapping [("a", v)]])]).Holds measures := by
  intro name c hc
  obtain ⟨rfl, rfl⟩ := Prod.mk.inj (List.mem_singleton.1 (Fields.mem_of_get? hc))
  refine ⟨_, rfl, fun row hrow => List.mem_singleton.1 hrow ▸ ?_⟩
  exact Fields.Inhabit.mapping (.cons ⟨rfl, h⟩ .nil) (by simp [Fields.names]) _

/-- The measures of a collection, each times the element around. -/
def scaled : Request :=
  (source "items").combine
    (((context 0).wrap (.field "a")).combine (context 1) (.binary .mul)) .map

theorem scaled_distinct : scaled.root.Distinct := by
  change (Term.step 5 (.source 0 "items") (.map (.step 4 (.step 2 (.context 1 0) (.field "a"))
    (.binary .mul (.context 3 1))))).Distinct
  simp [Term.distinct_step, Step.operands, Term.distinct_source, Term.distinct_context]

theorem scaled_eval_sound :
    scaled.eval (.ofFields [("items", [.mapping [("a", .int 3)]])]) [.int 2] =
        .ok (.list [.int 6]) ∧ (Ty.list .f64).Inhabits (.list [.int 6]) := by
  have hscope : List.Forall₂ Ty.Inhabits [.i64] [.int 2] := .cons (.int 2) .nil
  have hframes : ∀ τ ∈ [Ty.i64], τ.Distinct := fun τ hτ => List.mem_singleton.1 hτ ▸ .i64
  exact ⟨rfl, (eval_sound measures_distinct scaled_distinct (measures_holds (.widened 3)) hframes
    hscope rfl).1 _ rfl⟩

end Request

end QueryPushdown
