import QueryPushdown.Proofs.Typing.Inhabits
import QueryPushdown.Proofs.Typing.Scoping

/-!
# Inferred types

The mapping types that are inferred for a term have distinct names when the schema, the frames and
the term itself keep names apart.
-/

namespace QueryPushdown

/-- The names inside a record, and inside every literal, differ. -/
inductive Term.Distinct : Term → Prop
  | node {t : Term} (hl : ∀ id v, t = literal id v → v.Distinct)
    (hr : ∀ id fields, t = record id fields → (Fields.names fields).Nodup)
    (h : ∀ c ∈ t.children, Distinct c.1) : Distinct t

theorem Term.Distinct.child {t : Term} (h : t.Distinct) : ∀ c ∈ t.children, c.1.Distinct := by
  cases h with
  | node _ _ h => exact h

theorem Term.distinct_source (id : Nat) (name : String) : (source id name).Distinct :=
  .node (fun _ _ h => nomatch h) (fun _ _ h => nomatch h) fun _ hc => nomatch hc

theorem Term.distinct_context (id up : Nat) : (context id up).Distinct :=
  .node (fun _ _ h => nomatch h) (fun _ _ h => nomatch h) fun _ hc => nomatch hc

theorem Term.distinct_literal {id : Nat} {v : Value} : (literal id v).Distinct ↔ v.Distinct := by
  constructor
  · rintro ⟨hl, -, -⟩
    exact hl _ _ rfl
  · intro h
    exact .node (fun _ _ he => by cases he; exact h) (fun _ _ he => nomatch he)
      fun _ hc => nomatch hc

theorem Term.distinct_step {id : Nat} {subject : Term} {action : Step} :
    (step id subject action).Distinct ↔
      subject.Distinct ∧ ∀ c ∈ action.operands, c.1.Distinct := by
  constructor
  · intro h
    exact List.forall_mem_cons.1 h.child
  · rintro ⟨hs, ho⟩
    refine .node (fun _ _ h => nomatch h) (fun _ _ h => nomatch h) ?_
    exact List.forall_mem_cons.2 ⟨hs, ho⟩

theorem Term.distinct_record {id : Nat} {fields : List (String × Term)} :
    (record id fields).Distinct ↔ (Fields.names fields).Nodup ∧ ∀ f ∈ fields, f.2.Distinct := by
  constructor
  · intro h
    refine ⟨?_, fun f hf => h.child (f.2, 0) (List.mem_map.2 ⟨f, hf, rfl⟩)⟩
    cases h with
    | node _ hr _ => exact hr _ _ rfl
  · rintro ⟨hn, hf⟩
    refine .node (fun _ _ h => nomatch h) (fun _ _ h => by cases h; exact hn) ?_
    exact List.forall_mem_map.2 hf

/-- The names of the fields of every collection differ, at every depth. -/
def Schema.Distinct (schema : Schema) : Prop :=
  ∀ name c, schema.find? name = some c → c.ty.Distinct

namespace Ty

theorem distinct_extend {fields more : Fields Ty} (hn : (Fields.names fields).Nodup)
    (h : ∀ f ∈ fields, f.2.Distinct) (hm : ∀ f ∈ more, f.2.Distinct) (source : Option String) :
    (Ty.mapping (Fields.extend fields more) source).Distinct :=
  .mapping (Fields.nodup_names_extend hn more) fun f hf =>
    (Fields.mem_of_mem_extend hf).elim (h f) (hm f)

end Ty

namespace Typing

variable {ty t a b : Ty}

theorem listItem_distinct {op : String} (h : listItem op ty = .ok t) (hd : ty.Distinct) :
    t.Distinct := by
  cases hd <;> cases h <;> first | assumption | exact .any

theorem sequenceItem_distinct {op : String} (h : sequenceItem op ty = .ok t) (hd : ty.Distinct) :
    t.Distinct := by
  cases hd <;> cases h <;> first | assumption | exact .any | exact .string

theorem field_distinct {name : String} (h : field ty name = .ok t) (hd : ty.Distinct) :
    t.Distinct := by
  cases hd with
  | any =>
    cases h
    exact .any
  | @mapping fields source hn hf =>
    simp only [field] at h
    cases hget : Fields.get? fields name with
    | none =>
      rw [hget] at h
      cases h
    | some u =>
      rw [hget] at h
      cases h
      exact hf _ (Fields.mem_of_get? hget)
  | _ => cases h

theorem unary_distinct {op : UnaryOp} (h : unary op ty = .ok t) : t.Distinct := by
  cases op <;> cases ty <;> cases h <;> constructor

theorem arithmetic_distinct {op : BinaryOp} (h : arithmetic op a b = .ok t) (ha : a.Distinct)
    (hb : b.Distinct) : t.Distinct := by
  unfold arithmetic at h
  split at h
  · cases h
    exact .any
  · cases h
    exact .any
  · cases h
    split <;> constructor
  · cases h
    exact .string
  · cases h
    cases ha with
    | list ha =>
      cases hb with
      | list hb => exact .list (ha.unify hb)
  · cases h
    cases ha with
    | mapping hn ha =>
      cases hb with
      | mapping _ hb => exact Ty.distinct_extend hn ha hb none
  · split at h
    · cases h
      exact .f64
    · cases h

theorem binary_distinct {op : BinaryOp} (h : binary op a b = .ok t) (ha : a.Distinct)
    (hb : b.Distinct) : t.Distinct := by
  cases op with
  | eq | ne | ge | gt | le | lt =>
    cases h
    exact .bool
  | and | or | matching =>
    obtain ⟨_, _, h⟩ := Outcome.bind_eq_ok.1 h
    obtain ⟨_, _, h⟩ := Outcome.bind_eq_ok.1 h
    cases h
    exact .bool
  | _ => exact arithmetic_distinct h ha hb

theorem aggregate_distinct {op : AggregateOp} (h : aggregate op ty = .ok t) (hd : ty.Distinct) :
    t.Distinct := by
  cases op with
  | len => cases ty <;> cases h <;> exact .i64
  | sum =>
    obtain ⟨item, hitem, h⟩ := Outcome.bind_eq_ok.1 h
    cases item <;> cases h <;> constructor
  | min | max => exact listItem_distinct h hd

end Typing

variable {schema : Schema} {frames : Frames}

theorem names_of_inferFields {fields : List (String × Term)} {tys : List (String × Ty)}
    (h : inferFields schema frames fields = .ok tys) : Fields.names tys = Fields.names fields :=
  (inferFields_paired h).names_eq.symm

/-- The types of a term are distinct, whichever distinct frames it is typed in. -/
def Term.InfersDistinct (schema : Schema) (t : Term) : Prop :=
  ∀ (frames : Frames) (ty : Ty), (∀ τ ∈ frames, τ.Distinct) → t.infer schema frames = .ok ty →
    ty.Distinct

theorem inferFields_distinct {fields : List (String × Term)} {tys : List (String × Ty)}
    (hd : ∀ f ∈ fields, f.2.InfersDistinct schema) (hf : ∀ τ ∈ frames, τ.Distinct)
    (h : inferFields schema frames fields = .ok tys) : ∀ f ∈ tys, f.2.Distinct := by
  replace h := inferFields_paired h
  induction h with
  | nil => exact fun f hm => by cases hm
  | cons hty _ ih =>
    obtain ⟨hfirst, hrest⟩ := List.forall_mem_cons.1 hd
    exact List.forall_mem_cons.2 ⟨hfirst frames _ hf hty.2, ih hrest⟩

private theorem frames_distinct {τ : Ty} (hτ : τ.Distinct) (hf : ∀ τ ∈ frames, τ.Distinct) :
    ∀ σ ∈ τ :: frames, σ.Distinct := by
  intro σ hσ
  rcases List.mem_cons.1 hσ with rfl | hσ
  · exact hτ
  · exact hf σ hσ

theorem Step.infer_distinct {action : Step} {subject ty : Ty} (hs : subject.Distinct)
    (hf : ∀ τ ∈ frames, τ.Distinct) (ha : ∀ c ∈ action.operands, c.1.InfersDistinct schema)
    (h : action.infer schema frames subject = .ok ty) : ty.Distinct := by
  cases action with
  | field name => exact Typing.field_distinct h hs
  | unary op => exact Typing.unary_distinct h
  | binary op rhs =>
    rw [infer] at h
    obtain ⟨rty, hr, h⟩ := Outcome.bind_eq_ok.1 h
    exact Typing.binary_distinct h hs (ha _ List.mem_cons_self frames rty hf hr)
  | filter predicate =>
    rw [infer] at h
    obtain ⟨_, _, h⟩ := Outcome.bind_eq_ok.1 h
    obtain ⟨_, _, h⟩ := Outcome.bind_eq_ok.1 h
    obtain ⟨_, _, h⟩ := Outcome.bind_eq_ok.1 h
    cases h
    exact hs
  | map transform =>
    rw [infer] at h
    obtain ⟨item, hitem, h⟩ := Outcome.bind_eq_ok.1 h
    obtain ⟨t, ht, h⟩ := Outcome.bind_eq_ok.1 h
    cases h
    exact .list (ha _ List.mem_cons_self _ t
      (frames_distinct (Typing.listItem_distinct hitem hs) hf) ht)
  | sort keys =>
    rw [infer] at h
    obtain ⟨_, _, h⟩ := Outcome.bind_eq_ok.1 h
    obtain ⟨_, _, h⟩ := Outcome.bind_eq_ok.1 h
    cases h
    exact hs
  | slice start stop =>
    rw [infer] at h
    obtain ⟨_, _, h⟩ := Outcome.bind_eq_ok.1 h
    cases h
    exact hs
  | index position => exact Typing.sequenceItem_distinct h hs
  | groupby key aggregates =>
    rw [infer] at h
    obtain ⟨item, hitem, h⟩ := Outcome.bind_eq_ok.1 h
    obtain ⟨keyTy, hkey, h⟩ := Outcome.bind_eq_ok.1 h
    have hk : keyTy.Distinct := ha (key, 1) List.mem_cons_self _ keyTy
      (frames_distinct (Typing.listItem_distinct hitem hs) hf) hkey
    split at h
    · cases h
      refine .list (.mapping (by simp [Fields.names]) fun f hf => ?_)
      rcases List.mem_cons.1 hf with rfl | hf
      · exact hk
      · exact List.mem_singleton.1 hf ▸ hs
    · obtain ⟨tys, hfields, h⟩ := Outcome.bind_eq_ok.1 h
      cases h
      refine .list (Ty.distinct_extend (by simp [Fields.names]) ?_ ?_ none)
      · exact fun f hf => List.mem_singleton.1 hf ▸ hk
      · refine inferFields_distinct (fun f hm => ?_) (frames_distinct hs hf) hfields
        exact ha (f.2, 1) (List.mem_cons_of_mem _ (List.mem_map.2 ⟨f, hm, rfl⟩))
  | distinct =>
    rw [infer] at h
    obtain ⟨_, _, h⟩ := Outcome.bind_eq_ok.1 h
    cases h
    exact hs
  | one => exact Typing.listItem_distinct h hs
  | oneOr default =>
    rw [infer] at h
    obtain ⟨item, hitem, h⟩ := Outcome.bind_eq_ok.1 h
    obtain ⟨dty, hdty, h⟩ := Outcome.bind_eq_ok.1 h
    cases h
    exact (Typing.listItem_distinct hitem hs).unify (ha _ List.mem_cons_self frames dty hf hdty)
  | aggregate op => exact Typing.aggregate_distinct h hs

/-- Inference keeps the names of mappings apart. -/
theorem Term.infer_distinct (hschema : schema.Distinct) (t : Term) :
    t.Distinct → t.InfersDistinct schema := by
  induction t using children_induction with
  | h t ih =>
    intro ht frames ty hf h
    have hchild : ∀ c ∈ t.children, c.1.InfersDistinct schema := fun c hc =>
      ih c hc (ht.child c hc)
    cases t with
    | source id name =>
      rw [infer] at h
      cases hc : schema.find? name with
      | none =>
        rw [hc] at h
        cases h
      | some c =>
        rw [hc] at h
        cases h
        exact hschema name c hc
    | literal id value =>
      cases h
      cases ht with
      | node hl _ _ => exact (hl id value rfl).inhabits_ty.2
    | context id up =>
      rw [infer, Frames.read] at h
      split at h
      · cases h
      · split at h
        · rename_i τ hget
          cases h
          exact hf _ (List.mem_of_getElem? hget)
        · cases h
    | record id fields =>
      rw [infer] at h
      obtain ⟨tys, hfields, h⟩ := Outcome.bind_eq_ok.1 h
      cases h
      cases ht with
      | node _ hr _ =>
        refine .mapping ?_ (inferFields_distinct (fun f hm => ?_) hf hfields)
        · rw [names_of_inferFields hfields]
          exact hr id fields rfl
        · exact hchild (f.2, 0) (List.mem_map.2 ⟨f, hm, rfl⟩)
    | step id subject action =>
      rw [infer] at h
      obtain ⟨sty, hsubject, h⟩ := Outcome.bind_eq_ok.1 h
      exact Step.infer_distinct (hchild (subject, 0) List.mem_cons_self frames sty hf hsubject) hf
        (fun c hc => hchild c (List.mem_cons_of_mem _ hc)) h

end QueryPushdown
