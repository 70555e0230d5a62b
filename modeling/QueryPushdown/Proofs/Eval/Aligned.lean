import QueryPushdown.Proofs.Eval.Congruence
import QueryPushdown.Proofs.Eval.Windows
import QueryPushdown.Proofs.Fields
import QueryPushdown.Proofs.Transform.Splitting
import QueryPushdown.Proofs.Typing.Inference
import QueryPushdown.Request.Equality

/-!
# Equal terms

Equal terms evaluate to values that are alike, or fail both. Their literals may differ in the signs
of zeros and in the order of fields, which nothing sees but the keys of a sort; so wherever the two
sort, they have to compute the same keys. Records and groups have to name their fields in the same
order, since equality compares the names as a set and the fields by position.
-/

namespace QueryPushdown

variable {input : Input} {scope scope' : Scope} {R : Value → Value → Prop}

-- The equations of evaluation are made here, once for all the proofs below that go by its cases.
attribute [local simp] Term.eval Step.act

namespace Term

/-- The elements that two terms yield at the same place. -/
def Meet (input : Input) (scope scope' : Scope) (s t : Term) (v w : Value) : Prop :=
  ∃ (i : Nat) (ps qs : Pulls), s.sequence input scope = .ok ps ∧ t.sequence input scope' = .ok qs ∧
    ps.yields[i]? = some (.ok v) ∧ qs.yields[i]? = some (.ok w)

/-- Elements that meet are one element where the two terms yield the same. -/
theorem Meet.eq {s t : Term} {v w : Value} (h : Meet input scope scope' s t v w)
    (hst : s.sequence input scope = t.sequence input scope') : v = w := by
  obtain ⟨i, ps, qs, hs, ht, hv, hw⟩ := h
  obtain rfl := Except.ok.inj (hs.symm.trans (hst.trans ht))
  exact Except.ok.inj (Option.some.inj (hv.symm.trans hw))

mutual

/-- Two terms that name the fields of records and groups in the same order and, whenever they sort,
compute the same keys for the elements that meet. -/
inductive Aligned (input : Input) : Scope → Scope → Term → Term → Prop
  | source {scope scope' : Scope} {id id' : Nat} {name name' : String} :
    Aligned input scope scope' (source id name) (source id' name')
  | literal {scope scope' : Scope} {id id' : Nat} {v w : Value} :
    Aligned input scope scope' (literal id v) (literal id' w)
  | context {scope scope' : Scope} {id id' up up' : Nat} :
    Aligned input scope scope' (context id up) (context id' up')
  | record {scope scope' : Scope} {id id' : Nat} {fs gs : List (String × Term)}
    (h : AlignedFields input scope scope' fs gs) :
    Aligned input scope scope' (record id fs) (record id' gs)
  | step {scope scope' : Scope} {id id' : Nat} {s t : Term} {a b : Step}
    (hs : Aligned input scope scope' s t) (h : AlignedStep input scope scope' s t a b) :
    Aligned input scope scope' (step id s a) (step id' t b)

/-- Steps on the subjects `s` and `t`. -/
inductive AlignedStep (input : Input) : Scope → Scope → Term → Term → Step → Step → Prop
  | bare {scope scope' : Scope} {s t : Term} {a b : Step} (ha : a.operands = []) :
    AlignedStep input scope scope' s t a b
  | binary {scope scope' : Scope} {s t p q : Term} {op op' : BinaryOp}
    (h : Aligned input scope scope' p q) :
    AlignedStep input scope scope' s t (.binary op p) (.binary op' q)
  | filter {scope scope' : Scope} {s t p q : Term}
    (h : ∀ v w, Meet input scope scope' s t v w →
      Aligned input (v :: scope) (w :: scope') p q) :
    AlignedStep input scope scope' s t (.filter p) (.filter q)
  | map {scope scope' : Scope} {s t p q : Term}
    (h : ∀ v w, Meet input scope scope' s t v w →
      Aligned input (v :: scope) (w :: scope') p q) :
    AlignedStep input scope scope' s t (.map p) (.map q)
  | sort {scope scope' : Scope} {s t : Term} {ks ls : List (Term × Bool)}
    (h : ∀ v w, Meet input scope scope' s t v w →
      AlignedKeys input (v :: scope) (w :: scope') ks ls)
    (hkeys : ∀ v w, Meet input scope scope' s t v w → ∀ keys keys',
      (evalKeys input (v :: scope) ks).outcome = .ok keys →
      (evalKeys input (w :: scope') ls).outcome = .ok keys' → keys = keys') :
    AlignedStep input scope scope' s t (.sort ks) (.sort ls)
  | groupby {scope scope' : Scope} {s t p q : Term} {fs gs : List (String × Term)}
    (h : ∀ v w, Meet input scope scope' s t v w →
      Aligned input (v :: scope) (w :: scope') p q)
    (hs : ∀ members members', List.Forall₂ (Meet input scope scope' s t) members members' →
      AlignedFields input (.list members :: scope) (.list members' :: scope') fs gs) :
    AlignedStep input scope scope' s t (.groupby p fs) (.groupby q gs)
  | oneOr {scope scope' : Scope} {s t p q : Term} (h : Aligned input scope scope' p q) :
    AlignedStep input scope scope' s t (.oneOr p) (.oneOr q)

/-- Fields by position, under the same names. -/
inductive AlignedFields (input : Input) :
    Scope → Scope → List (String × Term) → List (String × Term) → Prop
  | nil {scope scope' : Scope} : AlignedFields input scope scope' [] []
  | cons {scope scope' : Scope} {name : String} {s t : Term} {fs gs : List (String × Term)}
    (h : Aligned input scope scope' s t) (hs : AlignedFields input scope scope' fs gs) :
    AlignedFields input scope scope' ((name, s) :: fs) ((name, t) :: gs)

/-- Keys by position. -/
inductive AlignedKeys (input : Input) :
    Scope → Scope → List (Term × Bool) → List (Term × Bool) → Prop
  | nil {scope scope' : Scope} : AlignedKeys input scope scope' [] []
  | cons {scope scope' : Scope} {s t : Term} {d d' : Bool} {ks ls : List (Term × Bool)}
    (h : Aligned input scope scope' s t) (hs : AlignedKeys input scope scope' ks ls) :
    AlignedKeys input scope scope' ((s, d) :: ks) ((t, d') :: ls)

end

private theorem alignedFields_self {fs : List (String × Term)} {scope : Scope}
    (h : ∀ f ∈ fs, Aligned input scope scope f.2 f.2) : AlignedFields input scope scope fs fs := by
  induction fs with
  | nil => exact .nil
  | cons f fs ih =>
    obtain ⟨hf, hfs⟩ := List.forall_mem_cons.1 h
    exact .cons hf (ih hfs)

private theorem alignedKeys_self {ks : List (Term × Bool)} {scope : Scope}
    (h : ∀ k ∈ ks, Aligned input scope scope k.1 k.1) : AlignedKeys input scope scope ks ks := by
  induction ks with
  | nil => exact .nil
  | cons k ks ih =>
    obtain ⟨hk, hks⟩ := List.forall_mem_cons.1 h
    exact .cons hk (ih hks)

/-- A term is aligned with itself, whatever it sorts by. -/
theorem Aligned.self (t : Term) : ∀ scope, Aligned input scope scope t t := by
  induction t using children_induction with
  | h t ih =>
    intro scope
    cases t with
    | source => exact .source
    | literal => exact .literal
    | context => exact .context
    | record id fs =>
      exact .record (alignedFields_self fun f hf => ih (f.2, 0) (List.mem_map.2 ⟨f, hf, rfl⟩) scope)
    | step id s a =>
      obtain ⟨hs, ho⟩ := List.forall_mem_cons.1 ih
      have hmeet : ∀ v w, Meet input scope scope s s v w → v = w := fun v w h => h.eq rfl
      have hinside : ∀ p, (p, 1) ∈ a.operands → ∀ v w, Meet input scope scope s s v w →
          Aligned input (v :: scope) (w :: scope) p p := fun p hp v w hvw =>
        hmeet v w hvw ▸ ho (p, 1) hp (v :: scope)
      refine .step (hs scope) ?_
      cases a with
      | binary op p => exact .binary (ho (p, 0) List.mem_cons_self scope)
      | filter p => exact .filter (hinside p List.mem_cons_self)
      | map p => exact .map (hinside p List.mem_cons_self)
      | sort ks =>
        refine .sort (fun v w hvw => ?_) fun v w hvw keys keys' hk hl => ?_
        · obtain rfl := hmeet v w hvw
          exact alignedKeys_self fun k hk => ho (k.1, 1) (List.mem_map.2 ⟨k, hk, rfl⟩) (v :: scope)
        · obtain rfl := hmeet v w hvw
          exact Except.ok.inj (hk.symm.trans hl)
      | groupby p fs =>
        refine .groupby (hinside p List.mem_cons_self) fun members members' hmembers => ?_
        have hsame : members = members' := List.forall₂_eq_eq_eq ▸ hmembers.imp hmeet
        subst hsame
        exact alignedFields_self fun f hf =>
          ho (f.2, 1) (List.mem_cons_of_mem _ (List.mem_map.2 ⟨f, hf, rfl⟩)) _
      | oneOr p => exact .oneOr (ho (p, 0) List.mem_cons_self scope)
      | _ => exact .bare rfl

/-- Two terms whose values are alike, or that fail both. -/
def InLockstep (input : Input) (scope scope' : Scope) (s t : Term) : Prop :=
  Outcome.Lockstep Evaluated.Lockstep (s.eval input scope).outcome (t.eval input scope').outcome

variable {s t : Term}

theorem InLockstep.outcome (h : s.InLockstep input scope scope' t) :
    Outcome.Lockstep Value.Alike (s.outcome input scope) (t.outcome input scope') := by
  rw [outcome_eq, outcome_eq]
  exact Outcome.Related.bind h fun _ _ hef => hef.toValue

/-- Equal terms that are aligned are in lockstep, under scopes that are alike. -/
def KeepsLockstep (input : Input) (s : Term) : Prop :=
  ∀ {scope scope' : Scope} {t : Term}, List.Forall₂ Value.Alike scope scope' → s.same t = true →
    s.Distinct → t.Distinct → Aligned input scope scope' s t → s.InLockstep input scope scope' t

/-- Elements at the same place of two subjects in lockstep meet. -/
theorem sequence_lockstep {e f : Evaluated} (hs : (s.eval input scope).outcome = .ok e)
    (ht : (t.eval input scope').outcome = .ok f) (h : e.Lockstep f) :
    Outcome.Lockstep
      (Pulls.Lockstep fun v w => v.Alike w ∧ Meet input scope scope' s t v w)
      e.toSequence.outcome f.toSequence.outcome := by
  rcases h.toSequence.ok_or_error with ⟨ps, qs, hp, hq, hpq⟩ | ⟨x, y, hx, hy⟩
  · rw [hp, hq]
    refine .ok (List.forall₂_iff_get.2 ⟨List.Forall₂.length_eq hpq, fun i hi hj => ?_⟩)
    have hat := (List.forall₂_iff_get.1 hpq).2 i hi hj
    rcases hat.ok_or_error with ⟨v, w, hv, hw, hvw⟩ | ⟨x, y, hx, hy⟩
    · rw [hv, hw]
      refine .ok ⟨hvw, i, ps, qs, ?_, ?_, ?_, ?_⟩
      · rw [sequence, hs]
        exact hp
      · rw [sequence, ht]
        exact hq
      · rw [List.getElem?_eq_getElem hi]
        exact congrArg some hv
      · rw [List.getElem?_eq_getElem hj]
        exact congrArg some hw
    · rw [hx, hy]
      exact .errors _ _
  · rw [hx, hy]
    exact .errors _ _

end Term

/-- Fields under the same names, by position, with values that are alike. -/
abbrev Fields.Alike : List (String × Value) → List (String × Value) → Prop :=
  Fields.Paired Value.Alike

theorem Value.Alike.of_fields {us vs : List (String × Value)} (h : Fields.Alike us vs)
    (hn : (Fields.names us).Nodup) (hn' : (Fields.names vs).Nodup) :
    (Value.mapping us).Alike (.mapping vs) := by
  refine .mapping hn hn' (fun name => ?_) fun name a b ha hb => ?_
  · exact Bool.eq_iff_iff.2
      (by rw [Fields.has_iff_mem_names, Fields.has_iff_mem_names, h.names_eq])
  · have hrel := h.get? name
    rw [ha, hb] at hrel
    cases hrel with
    | some hab => exact hab

section Operands

variable {fs gs : List (String × Term)} {ks ls : List (Term × Bool)}

theorem evalFields_lockstep (hf : ∀ f ∈ fs, f.2.KeepsLockstep input)
    (hs : List.Forall₂ Value.Alike scope scope') (hsame : Term.sameFields fs gs = true)
    (hd : ∀ f ∈ fs, f.2.Distinct) (hd' : ∀ g ∈ gs, g.2.Distinct)
    (h : Term.AlignedFields input scope scope' fs gs) :
    Outcome.Lockstep (fun us vs => Fields.names us = Fields.names fs ∧
        Fields.names vs = Fields.names gs ∧ Fields.Alike us vs)
      (evalFields input scope fs).outcome (evalFields input scope' gs).outcome := by
  induction fs generalizing gs with
  | nil =>
    cases h
    exact .ok ⟨rfl, rfl, .nil⟩
  | cons f fs ih =>
    cases h with
    | @cons _ _ name s t _ gs hst hrest =>
      rw [Term.sameFields, Bool.and_eq_true_iff] at hsame
      obtain ⟨hsame, hothers⟩ := hsame
      obtain ⟨hd, hds⟩ := List.forall_mem_cons.1 hd
      obtain ⟨hd', hds'⟩ := List.forall_mem_cons.1 hd'
      obtain ⟨hf, hfs⟩ := List.forall_mem_cons.1 hf
      rw [evalFields, evalFields, Term.outcome_operand, Term.outcome_operand]
      refine (hf hs hsame hd hd' hst).outcome.bind fun v w hvw => ?_
      rw [Run.outcome_bind, Run.outcome_bind]
      refine (ih hfs hothers hds hds' hrest).bind fun us vs huv => .ok ?_
      exact ⟨congrArg (List.cons name) huv.1, congrArg (List.cons name) huv.2.1,
        .cons ⟨rfl, hvw⟩ huv.2.2⟩

theorem evalKeys_lockstep (hk : ∀ k ∈ ks, k.1.KeepsLockstep input)
    (hs : List.Forall₂ Value.Alike scope scope') (hsame : Term.sameKeys ks ls = true)
    (hd : ∀ k ∈ ks, k.1.Distinct) (hd' : ∀ l ∈ ls, l.1.Distinct)
    (h : Term.AlignedKeys input scope scope' ks ls) :
    Outcome.Lockstep (List.Forall₂ Value.Alike) (evalKeys input scope ks).outcome
      (evalKeys input scope' ls).outcome := by
  induction ks generalizing ls with
  | nil =>
    cases h
    exact .ok .nil
  | cons k ks ih =>
    cases h with
    | @cons _ _ s t d d' _ ls hst hrest =>
      rw [Term.sameKeys, Bool.and_eq_true_iff, Bool.and_eq_true_iff] at hsame
      obtain ⟨⟨-, hsame⟩, hothers⟩ := hsame
      obtain ⟨hd, hds⟩ := List.forall_mem_cons.1 hd
      obtain ⟨hd', hds'⟩ := List.forall_mem_cons.1 hd'
      obtain ⟨hk, hks⟩ := List.forall_mem_cons.1 hk
      rw [evalKeys, evalKeys, Term.outcome_operand, Term.outcome_operand]
      refine (hk hs hsame hd hd' hst).outcome.bind fun v w hvw => ?_
      rw [Run.outcome_bind, Run.outcome_bind]
      exact (ih hks hothers hds hds' hrest).bind fun us vs huv => .ok (.cons hvw huv)

theorem Term.isEmpty_eq_of_sameFields (h : Term.sameFields fs gs = true) :
    fs.isEmpty = gs.isEmpty := by
  cases fs with
  | nil =>
    cases gs with
    | nil => rfl
    | cons => simp [sameFields] at h
  | cons =>
    cases gs with
    | nil => simp [sameFields] at h
    | cons => rfl

theorem Term.sameKeys_directions (h : Term.sameKeys ks ls = true) :
    ks.map Prod.snd = ls.map Prod.snd := by
  induction ks generalizing ls with
  | nil =>
    cases ls with
    | nil => rfl
    | cons => simp [sameKeys] at h
  | cons k ks ih =>
    cases ls with
    | nil => simp [sameKeys] at h
    | cons l ls =>
      rw [sameKeys, Bool.and_eq_true_iff, Bool.and_eq_true_iff] at h
      obtain ⟨⟨hdirection, -⟩, hothers⟩ := h
      rw [List.map_cons, List.map_cons, ih hothers, beq_iff_eq.1 hdirection]

end Operands

namespace Step

variable {e f : Evaluated} {s t u w : Term}

theorem eq_of_same {a b : Step} (ha : a.operands = []) (h : Term.sameStep a b = true) : a = b := by
  cases a with
  | sort keys =>
    obtain rfl := List.map_eq_nil_iff.1 ha
    cases b with
    | sort keys' =>
      cases keys' with
      | nil => rfl
      | cons => simp [Term.sameStep, Term.sameKeys] at h
    | _ => simp [Term.sameStep] at h
  | binary | filter | map | groupby | oneOr => cases ha
  | slice | field | unary | index | aggregate | distinct | one =>
    cases b <;> simp_all [Term.sameStep]

private theorem wrapped {x y : Run Value} (h : Outcome.Lockstep Value.Alike x.outcome y.outcome) :
    Outcome.Lockstep Evaluated.Lockstep (do pure (.value (← x)) : Run Evaluated).outcome
      (do pure (.value (← y)) : Run Evaluated).outcome := by
  rw [Run.outcome_bind, Run.outcome_bind]
  exact h.bind fun v w hvw => .ok (.value hvw)

private theorem binary_lockstep (op : BinaryOp) (he : e.Lockstep f)
    (h : Outcome.Lockstep Value.Alike (s.outcome input scope) (t.outcome input scope')) :
    Outcome.Lockstep Evaluated.Lockstep ((Step.binary op s).act input scope u e).outcome
      ((Step.binary op t).act input scope' w f).outcome := by
  have hop := fun {v w v' w' : Value} (h : v.Alike w) (h' : v'.Alike w') =>
    Operator.binary_alike op h h'
  cases op with
  | and | or =>
    simp only [act]
    rw [Run.outcome_bind, Run.outcome_bind]
    refine he.toValue.bind fun v w hvw => ?_
    rw [Run.outcome_bind, Run.outcome_bind, hvw.toBool_eq]
    refine (Outcome.Related.refl _).bind_eq fun b => ?_
    cases b with
    | true | false =>
      simp only [if_true, if_false, Bool.false_eq_true]
      first
        | exact .ok (.value (.bool _))
        | rw [Term.outcome_operand, Term.outcome_operand]
          refine h.bind fun v w hvw => ?_
          rw [Run.outcome_bind, Run.outcome_bind, Run.outcome_lift, Run.outcome_lift, hvw.toBool_eq]
          exact (Outcome.Related.refl _).bind_eq fun b => .ok (.value (.bool b))
  | _ =>
    simp only [act]
    rw [Run.outcome_bind, Run.outcome_bind]
    refine he.toValue.bind fun v w hvw => ?_
    rw [Term.outcome_operand, Term.outcome_operand]
    exact h.bind fun v' w' hvw' => wrapped (hop hvw hvw')

section Elements

variable (hp : Outcome.Lockstep (Pulls.Lockstep R) e.toSequence.outcome f.toSequence.outcome)
  (hR : ∀ v w, R v w → v.Alike w)

include hp hR

private theorem filter_lockstep (h : ∀ v w, R v w → Outcome.Lockstep Value.Alike
      (s.outcome input (v :: scope)) (t.outcome input (w :: scope'))) :
    Outcome.Lockstep Evaluated.Lockstep ((Step.filter s).act input scope u e).outcome
      ((Step.filter t).act input scope' w f).outcome := by
  simp only [act]
  rw [Run.outcome_bind, Run.outcome_bind]
  refine hp.bind fun ps qs hpq => .ok (.pulls ?_)
  rw [Pulls.Lockstep, Pulls.yields_map_keepIf, Pulls.yields_map_keepIf]
  refine (Yields.Lockstep.keep hpq fun v w hvw => ?_).mono hR
  rw [Term.outcome_operand, Term.outcome_operand]
  refine (h v w hvw).bind fun b b' hb => ?_
  rw [Run.outcome_lift, Run.outcome_lift, hb.toBool_eq]
  exact .refl _

omit hR in
private theorem map_lockstep (h : ∀ v w, R v w → Outcome.Lockstep Value.Alike
      (s.outcome input (v :: scope)) (t.outcome input (w :: scope'))) :
    Outcome.Lockstep Evaluated.Lockstep ((Step.map s).act input scope u e).outcome
      ((Step.map t).act input scope' w f).outcome := by
  simp only [act]
  rw [Run.outcome_bind, Run.outcome_bind]
  refine hp.bind fun ps qs hpq => .ok (.pulls ?_)
  rw [Pulls.Lockstep, Pulls.yields_map_mapWith, Pulls.yields_map_mapWith]
  exact Yields.Lockstep.mapWith hpq h

private theorem sort_lockstep {ks ls : List (Term × Bool)}
    (hdir : ks.map Prod.snd = ls.map Prod.snd) (h : ∀ v w, R v w → Outcome.Lockstep Eq
      (evalKeys input (v :: scope) ks).outcome (evalKeys input (w :: scope') ls).outcome) :
    Outcome.Lockstep Evaluated.Lockstep ((Step.sort ks).act input scope u e).outcome
      ((Step.sort ls).act input scope' w f).outcome := by
  simp only [act]
  rw [Run.outcome_bind, Run.outcome_bind]
  refine hp.bind fun ps qs hpq => ?_
  rw [Run.outcome_bind, Run.outcome_bind, Pulls.outcome_foldRun, Pulls.outcome_foldRun, hdir]
  refine (Yields.Lockstep.fold hpq (P := List.Forall₂ (Sorting.RowsAgree R)) ?_ .nil).bind
    fun rows rows' hrows => .ok (.value ?_)
  · intro rows rows' v w hrows hvw
    rw [Run.outcome_bind, Run.outcome_bind]
    exact (h v w hvw).bind_eq fun keys => .ok (.cons ⟨rfl, hvw⟩ hrows)
  · have hsorted := Sorting.rows_lockstep (List.rel_reverse hrows) (ls.map Prod.snd)
    exact Value.alike_list.2 (hsorted.imp hR)

private theorem groupby_lockstep {fs gs : List (String × Term)}
    (hk : ∀ v w, R v w → Outcome.Lockstep Value.Alike (s.outcome input (v :: scope))
      (t.outcome input (w :: scope')))
    (hempty : fs.isEmpty = gs.isEmpty)
    (h : ∀ members members', List.Forall₂ R members members' → Outcome.Lockstep Fields.Alike
      (evalFields input (.list members :: scope) fs).outcome
      (evalFields input (.list members' :: scope') gs).outcome) :
    Outcome.Lockstep Evaluated.Lockstep ((Step.groupby s fs).act input scope u e).outcome
      ((Step.groupby t gs).act input scope' w f).outcome := by
  simp only [act]
  rw [Run.outcome_bind, Run.outcome_bind]
  refine hp.bind fun ps qs hpq => ?_
  rw [Run.outcome_bind, Run.outcome_bind, Pulls.outcome_foldRun, Pulls.outcome_foldRun]
  refine (Yields.Lockstep.fold hpq (P := Groups.Lockstep R) ?_ ⟨rfl, .nil⟩).bind
    fun groups groups' hgroups => ?_
  · intro groups groups' v w hgroups hvw
    rw [Term.outcome_operand, Term.outcome_operand]
    exact (hk v w hvw).bind fun k l hkl => .ok (hgroups.insert hkl hvw)
  · rw [Run.outcome_bind, Run.outcome_bind, Run.outcome_mapM, Run.outcome_mapM, hempty]
    refine (Outcome.Lockstep.mapM (R := Value.Alike) hgroups.groups fun a b hab => ?_).bind
      fun rows rows' hrows => .ok (.value (Value.alike_list.2 hrows))
    obtain ⟨k, members⟩ := a
    obtain ⟨l, members'⟩ := b
    obtain ⟨hkl, hmembers⟩ := hab
    by_cases hg : gs.isEmpty = true
    · simp only [hg, if_true]
      have hlist := Value.alike_list.2 (hmembers.imp hR)
      exact .ok (.of_fields (.cons ⟨rfl, hkl⟩ (.cons ⟨rfl, hlist⟩ .nil)) (by simp [Fields.names])
        (by simp [Fields.names]))
    · simp only [hg, if_false, Bool.false_eq_true]
      rw [Run.outcome_bind, Run.outcome_bind]
      refine (h members members' hmembers).bind fun us vs huv => .ok ?_
      have hkey : Fields.Alike [("key", k)] [("key", l)] := .cons ⟨rfl, hkl⟩ .nil
      exact .of_fields (hkey.extend huv) (Fields.nodup_names_extend (by simp [Fields.names]) us)
        (Fields.nodup_names_extend (by simp [Fields.names]) vs)

end Elements

private theorem bare_lockstep {a : Step} (he : e.Lockstep f) (ha : a.operands = []) :
    Outcome.Lockstep Evaluated.Lockstep (a.act input scope u e).outcome
      (a.act input scope' w f).outcome := by
  cases a with
  | field name =>
    simp only [act]
    rw [Run.outcome_bind, Run.outcome_bind]
    exact he.toValue.bind fun v w hvw => wrapped (Value.field_alike hvw name)
  | unary op =>
    simp only [act]
    rw [Run.outcome_bind, Run.outcome_bind]
    exact he.toValue.bind fun v w hvw => wrapped (Operator.unary_alike op hvw)
  | slice start stop => exact he.slice start stop
  | index position =>
    simp only [act]
    rw [Run.outcome_bind, Run.outcome_bind]
    exact he.toSequence.bind fun ps qs hpq => wrapped (Window.index_lockstep position hpq)
  | distinct =>
    simp only [act]
    rw [Run.outcome_bind, Run.outcome_bind]
    refine he.toSequence.bind fun ps qs hpq => .ok (.pulls ?_)
    rw [Pulls.Lockstep, Pulls.yields_distinct, Pulls.yields_distinct]
    exact Yields.Lockstep.distinct (fun _ _ hvw => hvw) ⟨rfl, .nil⟩ hpq
  | one => exact wrapped (he.one (.errors _ _))
  | aggregate op => exact wrapped (he.aggregate op)
  | sort keys =>
    obtain rfl := List.map_eq_nil_iff.1 ha
    exact sort_lockstep he.toSequence (fun _ _ hvw => hvw) rfl fun v w _ => .ok rfl
  | binary | filter | map | groupby | oneOr => cases ha

/-- Equal steps that are aligned act in lockstep. -/
theorem act_lockstep {a b : Step} (ho : ∀ c ∈ a.operands, c.1.KeepsLockstep input)
    (hs : List.Forall₂ Value.Alike scope scope') (hsame : Term.sameStep a b = true)
    (hd : ∀ c ∈ a.operands, c.1.Distinct) (hd' : ∀ c ∈ b.operands, c.1.Distinct)
    (h : Term.AlignedStep input scope scope' s t a b) (he : e.Lockstep f)
    (hp : Outcome.Lockstep
      (Pulls.Lockstep fun v w => v.Alike w ∧ Term.Meet input scope scope' s t v w)
      e.toSequence.outcome f.toSequence.outcome) :
    Outcome.Lockstep Evaluated.Lockstep (a.act input scope s e).outcome
      (b.act input scope' t f).outcome := by
  have hfield : ∀ {key : Term} {fs : List (String × Term)}, ∀ f ∈ fs,
      (f.2, 1) ∈ (Step.groupby key fs).operands := fun f hf =>
    List.mem_cons_of_mem _ (List.mem_map.2 ⟨f, hf, rfl⟩)
  have hkey : ∀ {ks : List (Term × Bool)}, ∀ k ∈ ks, (k.1, 1) ∈ (Step.sort ks).operands :=
    fun k hk => List.mem_map.2 ⟨k, hk, rfl⟩
  -- An operand that the step reads in the scope of an element of each side.
  have hinside : ∀ {p q : Term}, (p, 1) ∈ a.operands → (q, 1) ∈ b.operands → p.same q = true →
      (∀ v w, Term.Meet input scope scope' s t v w →
        Term.Aligned input (v :: scope) (w :: scope') p q) →
      ∀ v w, v.Alike w ∧ Term.Meet input scope scope' s t v w → Outcome.Lockstep Value.Alike
        (p.outcome input (v :: scope)) (q.outcome input (w :: scope')) := by
    intro p q hp hq hpq h v w hvw
    exact (ho _ hp (.cons hvw.1 hs) hpq (hd _ hp) (hd' _ hq) (h v w hvw.2)).outcome
  have halike : ∀ v w, v.Alike w ∧ Term.Meet input scope scope' s t v w → v.Alike w :=
    fun _ _ hvw => hvw.1
  cases h with
  | bare ha =>
    obtain rfl := eq_of_same ha hsame
    exact bare_lockstep he ha
  | @binary _ _ _ _ p q op op' h =>
    rw [Term.sameStep, Bool.and_eq_true_iff, beq_iff_eq] at hsame
    obtain ⟨rfl, hpq⟩ := hsame
    have hrhs := ho (p, 0) List.mem_cons_self hs hpq (hd (p, 0) List.mem_cons_self)
      (hd' (q, 0) List.mem_cons_self) h
    exact binary_lockstep op he hrhs.outcome
  | filter h =>
    rw [Term.sameStep] at hsame
    exact filter_lockstep hp halike (hinside List.mem_cons_self List.mem_cons_self hsame h)
  | map h =>
    rw [Term.sameStep] at hsame
    exact map_lockstep hp (hinside List.mem_cons_self List.mem_cons_self hsame h)
  | sort h hkeys =>
    rw [Term.sameStep] at hsame
    refine sort_lockstep hp halike (Term.sameKeys_directions hsame) fun v w hvw => ?_
    have hlockstep := evalKeys_lockstep (fun k hk => ho _ (hkey k hk)) (.cons hvw.1 hs) hsame
      (fun k hk => hd _ (hkey k hk)) (fun l hl => hd' _ (hkey l hl)) (h v w hvw.2)
    rcases hlockstep.ok_or_error with ⟨keys, keys', hk, hl, -⟩ | ⟨x, y, hx, hy⟩
    · rw [hk, hl]
      exact .ok (hkeys v w hvw.2 keys keys' hk hl)
    · rw [hx, hy]
      exact .errors _ _
  | groupby h hfields =>
    rw [Term.sameStep, Bool.and_eq_true_iff, Bool.and_eq_true_iff] at hsame
    obtain ⟨⟨hpq, hnames⟩, hsame⟩ := hsame
    refine groupby_lockstep hp halike (hinside List.mem_cons_self List.mem_cons_self hpq h) ?_
      fun members members' hmembers => ?_
    · exact Term.isEmpty_eq_of_sameFields hsame
    · have hlist := Value.alike_list.2 (hmembers.imp halike)
      have hrest := evalFields_lockstep (fun f hf => ho _ (hfield f hf)) (.cons hlist hs) hsame
        (fun f hf => hd _ (hfield f hf)) (fun g hg => hd' _ (hfield g hg))
        (hfields members members' (hmembers.imp fun _ _ hvw => hvw.2))
      exact hrest.mono fun _ _ huv => huv.2.2
  | @oneOr _ _ _ _ p q h =>
    rw [Term.sameStep] at hsame
    have hdefault := ho (p, 0) List.mem_cons_self hs hsame (hd (p, 0) List.mem_cons_self)
      (hd' (q, 0) List.mem_cons_self) h
    simp only [act]
    exact wrapped (he.one hdefault.outcome)

end Step

namespace Term

variable {s t : Term}

private theorem context_lockstep {id id' up : Nat} (hs : List.Forall₂ Value.Alike scope scope') :
    (context id up).InLockstep input scope scope' (context id' up) := by
  have hread : Outcome.Lockstep Value.Alike (scope.read up) (scope'.read up) := by
    unfold Scope.read
    by_cases hup : up < scope.length
    · have hup' : up < scope'.length := hs.length_eq ▸ hup
      rw [List.getElem?_eq_getElem hup, List.getElem?_eq_getElem hup']
      exact .ok ((List.forall₂_iff_get.1 hs).2 up hup hup')
    · have hup' : ¬up < scope'.length := hs.length_eq ▸ hup
      rw [List.getElem?_eq_none (Nat.le_of_not_lt hup),
        List.getElem?_eq_none (Nat.le_of_not_lt hup')]
      exact .errors _ _
  simp only [InLockstep, eval]
  rw [Run.outcome_bind, Run.outcome_bind]
  exact hread.bind fun v w hvw => .ok (.value hvw)

private theorem source_lockstep {id id' : Nat} {name : String}
    (hinput : ∀ name items, input name = .ok items → ∀ v ∈ items, v.Distinct) :
    (source id name).InLockstep input scope scope' (source id' name) := by
  simp only [InLockstep, eval, Input.scan]
  rw [Run.outcome_bind, Run.outcome_accessing]
  cases h : input name with
  | error e => exact .errors _ _
  | ok items => exact .ok (.value (.refl (.list (hinput name items h))))

private theorem record_lockstep {id id' : Nat} {fs gs : List (String × Term)}
    (ih : ∀ c ∈ (record id fs).children, c.1.KeepsLockstep input)
    (hs : List.Forall₂ Value.Alike scope scope') (hsame : (record id fs).same (record id' gs) = true)
    (hd : (record id fs).Distinct) (hd' : (record id' gs).Distinct)
    (h : AlignedFields input scope scope' fs gs) :
    (record id fs).InLockstep input scope scope' (record id' gs) := by
  rw [same, Bool.and_eq_true_iff] at hsame
  have hnames : ∀ {id : Nat} {hs : List (String × Term)}, (record id hs).Distinct →
      (Fields.names hs).Nodup := fun h => by
    cases h with
    | node _ hr _ => exact hr _ _ rfl
  have hmem : ∀ {id : Nat} {hs : List (String × Term)}, ∀ f ∈ hs,
      (f.2, 0) ∈ (record id hs).children := fun f hf => List.mem_map.2 ⟨f, hf, rfl⟩
  have hfields := evalFields_lockstep (fun f hf => ih _ (hmem f hf)) hs hsame.2
    (fun f hf => hd.child _ (hmem f hf)) (fun g hg => hd'.child _ (hmem g hg)) h
  simp only [InLockstep, eval]
  rw [Run.outcome_bind, Run.outcome_bind]
  refine hfields.bind fun us vs huv => .ok (.value (.of_fields huv.2.2 ?_ ?_))
  · exact huv.1 ▸ hnames hd
  · exact huv.2.1 ▸ hnames hd'

/-- Equal terms that are aligned evaluate to values that are alike, or fail both. -/
theorem keepsLockstep (hinput : ∀ name items, input name = .ok items → ∀ v ∈ items, v.Distinct)
    (s : Term) : s.KeepsLockstep input := by
  induction s using children_induction with
  | h s ih =>
    intro scope scope' t hs hsame hd hd' h
    cases h with
    | source =>
      rw [same] at hsame
      obtain rfl := beq_iff_eq.1 hsame
      exact source_lockstep hinput
    | literal =>
      rw [same] at hsame
      exact .ok (.value (Value.alike_of_strictEq (distinct_literal.1 hd) (distinct_literal.1 hd')
        hsame))
    | context =>
      rw [same] at hsame
      obtain rfl := beq_iff_eq.1 hsame
      exact context_lockstep hs
    | record h => exact record_lockstep ih hs hsame hd hd' h
    | @step _ _ id id' s t a b hst h =>
      rw [same, Bool.and_eq_true_iff] at hsame
      obtain ⟨hds, hda⟩ := distinct_step.1 hd
      obtain ⟨hdt, hdb⟩ := distinct_step.1 hd'
      obtain ⟨hsubject, hoperands⟩ := List.forall_mem_cons.1 ih
      have hsubject := hsubject hs hsame.1 hds hdt hst
      simp only [InLockstep, eval]
      rw [Run.outcome_bind, Run.outcome_bind]
      rcases Outcome.Lockstep.ok_or_error hsubject with ⟨e, f, he, hf, hef⟩ | ⟨x, y, hx, hy⟩
      · rw [he, hf]
        exact Step.act_lockstep hoperands hs hsame.2 hda hdb h hef (sequence_lockstep he hf hef)
      · rw [hx, hy]
        exact .errors _ _

end Term

namespace Request

/-- Equal requests mean the same. What one evaluates to, the other one evaluates to as well, but for
the signs of zeros and the order of fields; so the two values are equal, unless there is a `NaN` in
them, which equals nothing. If one fails, so does the other. The requests have to be aligned. -/
theorem eval_of_eq {a b : Request} {input : Input} {scope : Scope}
    (hab : (a.root == b.root) = true) (ha : a.root.Distinct) (hb : b.root.Distinct)
    (haligned : Term.Aligned input scope scope a.root b.root)
    (hinput : ∀ name items, input name = .ok items → ∀ v ∈ items, v.Distinct)
    (hscope : ∀ v ∈ scope, v.Distinct) :
    (∀ v, a.eval input scope = .ok v → ∃ w, b.eval input scope = .ok w ∧ v.Alike w ∧
      ((v == v) = true → (v == w) = true)) ∧
    ∀ e, a.eval input scope = .error e → ∃ f, b.eval input scope = .error f := by
  have hs : List.Forall₂ Value.Alike scope scope :=
    List.forall₂_same.2 fun v hv => .refl (hscope v hv)
  have h : Outcome.Lockstep Value.Alike (a.eval input scope) (b.eval input scope) :=
    (Term.keepsLockstep hinput a.root hs hab ha hb haligned).outcome
  constructor
  · intro v hv
    rw [hv] at h
    obtain ⟨w, hw, hvw⟩ := h.of_ok
    exact ⟨w, hw, hvw, fun hself => hvw.strictEq_of_self hself⟩
  · intro e he
    rw [he] at h
    exact h.of_error

/-- The parts heavier than nothing, by weight; the zero may have either sign. -/
def heavierThan (zero : Binary64) : Request :=
  let weight := (Request.context 0).wrap (.field "weight")
  ((Request.source "parts").combine
    (weight.combine (.literal (.float zero)) (.binary .gt)) .filter).sort [(weight, false)]

def heavierParts (zero : Binary64) : Term :=
  .step 5 (.source 0 "parts") (.filter (.step 4 (.step 2 (.context 1 0) (.field "weight"))
    (.binary .gt (.literal 3 (.float zero)))))

theorem heavierThan_root (zero : Binary64) : (heavierThan zero).root =
    .step 8 (heavierParts zero) (.sort [(.step 7 (.context 6 0) (.field "weight"), false)]) := rfl

theorem heavierThan_distinct (zero : Binary64) : (heavierThan zero).root.Distinct := by
  simp [heavierThan_root, heavierParts, Term.distinct_step, Step.operands, Term.distinct_context,
    Term.distinct_source, Term.distinct_literal, Value.Distinct.float]

/-- A part of the weight that these bits stand for. -/
def weighing (bits : UInt64) : Value := .mapping [("weight", .float ⟨bits⟩)]

/-- Parts that weigh two, nothing and one. -/
def weights : Input :=
  .ofFields [("parts", [weighing 0x4000000000000000, weighing 0, weighing 0x3FF0000000000000])]

theorem weighing_distinct (bits : UInt64) : (weighing bits).Distinct :=
  .mapping (by simp [Fields.names]) fun f hf => by
    obtain rfl := List.mem_singleton.1 hf
    exact .float _

theorem weights_distinct (name : String) (items : List Value) (h : weights name = .ok items) :
    ∀ v ∈ items, v.Distinct := by
  unfold weights Input.ofFields at h
  split at h
  · rename_i found
    simp only [Fields.get?] at found
    split at found
    · cases h
      cases found
      simp [weighing_distinct]
    · cases found
  · cases h

def heavierPulls : Pulls :=
  [.yielding (weighing 0x4000000000000000), ⟨[], none⟩, .yielding (weighing 0x3FF0000000000000)]

theorem heavierThan_aligned : Term.Aligned weights [] [] (heavierThan ⟨0⟩).root
    (heavierThan ⟨0x8000000000000000⟩).root := by
  have hkey : ∀ scope scope', Term.Aligned weights scope scope'
      (.step 7 (.context 6 0) (.field "weight")) (.step 7 (.context 6 0) (.field "weight")) :=
    fun _ _ => .step .context (.bare rfl)
  refine .step (.step .source (.filter fun v w _ => ?_)) (.sort (fun v w _ => .cons (hkey _ _) .nil)
    fun v w hvw keys keys' hk hl => ?_)
  · exact .step (.step .context (.bare rfl)) (.binary .literal)
  · have hpositive : (heavierParts ⟨0⟩).sequence weights [] = .ok heavierPulls := rfl
    have hnegative : (heavierParts ⟨0x8000000000000000⟩).sequence weights [] = .ok heavierPulls := rfl
    obtain rfl := hvw.eq (hpositive.trans hnegative.symm)
    exact Except.ok.inj (hk.symm.trans hl)

theorem heavierThan_eval_of_eq :
    let sorted : Value := .list [weighing 0x3FF0000000000000, weighing 0x4000000000000000]
    ((heavierThan ⟨0⟩).root == (heavierThan ⟨0x8000000000000000⟩).root) = true ∧
      (heavierThan ⟨0⟩).eval weights [] = .ok sorted ∧
      ∃ w, (heavierThan ⟨0x8000000000000000⟩).eval weights [] = .ok w ∧ sorted.Alike w ∧
        ((sorted == sorted) = true → (sorted == w) = true) :=
  ⟨by decide +kernel, rfl, (eval_of_eq (by decide +kernel) (heavierThan_distinct _)
    (heavierThan_distinct _) heavierThan_aligned weights_distinct (by simp)).1 _ rfl⟩

/-- The elements under `v`, sorted by the floats under `k`; the second of them is `zero`. -/
def byZeros (zero : Binary64) : Request :=
  let entry (k : Binary64) (v : Int64) : Value := .mapping [("k", .float k), ("v", .int v)]
  let field (name : String) := (Request.context 0).wrap (.field name)
  ((Request.literal (.list [entry ⟨0⟩ 1, entry zero 2])).sort [(field "k", false)]).combine
    (field "v") .map

/-- Infinity less itself. -/
def indefinite : Request :=
  let infinite := Request.literal (.float (Binary64.infinity false))
  infinite.combine infinite (.binary .sub)

/-- Two equal requests that sort zeros differently, and a request whose value equals nothing. -/
theorem eval_of_eq_fails :
    ((byZeros ⟨0x8000000000000000⟩).root == (byZeros ⟨0⟩).root) = true ∧
      (byZeros ⟨0x8000000000000000⟩).eval .empty [] = .ok (.list [.int 2, .int 1]) ∧
      (byZeros ⟨0⟩).eval .empty [] = .ok (.list [.int 1, .int 2]) ∧
      (Value.list [.int 2, .int 1] == .list [.int 1, .int 2]) = false ∧
    (indefinite.root == indefinite.root) = true ∧
      ∃ x : Binary64, indefinite.eval .empty [] = .ok (.float x) ∧
        (Value.float x == .float x) = false := by
  refine ⟨by decide +kernel, rfl, rfl, by decide +kernel, by decide +kernel, ?_⟩
  exact ⟨_, rfl, by decide +kernel⟩

end Request

end QueryPushdown
