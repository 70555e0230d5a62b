import QueryPushdown.Proofs.Request.Arenas
import QueryPushdown.Proofs.Transform.Moving

/-!
# Redirected references

Moving the references of a term allocates nodes, but what it does to the tree of the term is plain:
every reference is read anew, given the scopes around it, and nothing else changes. Two moves in a
row redirect each reference twice, so a move undoes another one exactly when it does so reference by
reference.
-/

namespace QueryPushdown

/-- Entries that are related pairwise become one list when related entries become the same. -/
theorem map_eq_of_forall₂ {α β γ : Type} {R : α → β → Prop} {f : α → γ} {g : β → γ}
    {xs : List α} {ys : List β} (h : List.Forall₂ R xs ys)
    (hR : ∀ x ∈ xs, ∀ y, R x y → f x = g y) : xs.map f = ys.map g := by
  induction h with
  | nil => rfl
  | @cons x y xs ys hxy _ ih =>
    have hrest := ih fun x hx => hR x (List.mem_cons_of_mem _ hx)
    rw [List.map_cons, List.map_cons, hR x List.mem_cons_self y hxy, hrest]

namespace Step

/-- The step on other operands, each changed for the scopes bound around it. -/
def mapScoped (h : Nat → Term → Term) : Step → Step
  | .binary op rhs => .binary op (h 0 rhs)
  | .filter predicate => .filter (h 1 predicate)
  | .map transform => .map (h 1 transform)
  | .sort keys => .sort (keys.map fun (t, descending) => (h 1 t, descending))
  | .groupby key aggregates => .groupby (h 1 key) (aggregates.map fun (name, t) => (name, h 1 t))
  | .oneOr default => .oneOr (h 0 default)
  | .field name => .field name
  | .unary op => .unary op
  | .slice start stop => .slice start stop
  | .index position => .index position
  | .distinct => .distinct
  | .one => .one
  | .aggregate op => .aggregate op

theorem mapOperands_eq_mapScoped (h : Term → Term) (action : Step) :
    action.mapOperands h = action.mapScoped fun _ t => h t := by
  cases action <;> rfl

theorem mapScoped_mapScoped (h k : Nat → Term → Term) (action : Step) :
    (action.mapScoped h).mapScoped k = action.mapScoped fun n t => k n (h n t) := by
  cases action <;> simp [mapScoped]

/-- Steps of one kind become one step when their operands become the same terms. -/
theorem Alike.mapScoped_eq {R : Nat → Term → Term → Prop} {h k : Nat → Term → Term} {a b : Step}
    (hab : Alike R a b) (hR : ∀ n s t, (s, n) ∈ a.operands → R n s t → h n s = k n t) :
    a.mapScoped h = b.mapScoped k := by
  have hsame := hab.mono hR
  cases hsame with
  | bare ha =>
    cases a with
    | sort keys =>
      obtain rfl : keys = [] := by simpa [operands] using ha
      rfl
    | binary _ _ | filter _ | map _ | groupby _ _ | oneOr _ => cases ha
    | _ => rfl
  | binary hst => simp only [mapScoped, hst]
  | filter hst => simp only [mapScoped, hst]
  | map hst => simp only [mapScoped, hst]
  | @sort ks ls hkl =>
    have hkeys : (ks.map fun key => (h 1 key.1, key.2)) = ls.map fun key => (k 1 key.1, key.2) :=
      map_eq_of_forall₂ hkl fun x _ y hxy => Prod.ext_iff.2 hxy
    simp only [mapScoped, hkeys]
  | @groupby s t fs gs hst hfg =>
    have hfields : (fs.map fun f => (f.1, h 1 f.2)) = gs.map fun g => (g.1, k 1 g.2) :=
      map_eq_of_forall₂ hfg fun x _ y hxy => Prod.ext_iff.2 hxy
    simp only [mapScoped, hst, hfields]
  | oneOr hst => simp only [mapScoped, hst]

theorem mapScoped_congr {h k : Nat → Term → Term} {action : Step}
    (hk : ∀ c ∈ action.operands, h c.2 c.1 = k c.2 c.1) :
    action.mapScoped h = action.mapScoped k :=
  (Alike.refl (R := fun n s t => h n s = k n t) hk).mapScoped_eq fun _ _ _ _ hst => hst

end Step

namespace Term

mutual

/-- The tree of a term whose references are read by `f`, given the scopes around them and those they
go outwards. -/
def redirect (f : Nat → Nat → Nat) (level : Nat) : Term → Term
  | source _ name => source 0 name
  | literal _ value => literal 0 value
  | context _ up => context 0 (f level up)
  | record _ fields => record 0 (redirectFields f level fields)
  | step _ subject action => step 0 (redirect f level subject) (redirectStep f level action)

def redirectStep (f : Nat → Nat → Nat) (level : Nat) : Step → Step
  | .binary op rhs => .binary op (redirect f level rhs)
  | .filter predicate => .filter (redirect f (level + 1) predicate)
  | .map transform => .map (redirect f (level + 1) transform)
  | .sort keys => .sort (redirectKeys f (level + 1) keys)
  | .groupby key aggregates =>
    .groupby (redirect f (level + 1) key) (redirectFields f (level + 1) aggregates)
  | .oneOr default => .oneOr (redirect f level default)
  | .field name => .field name
  | .unary op => .unary op
  | .slice start stop => .slice start stop
  | .index position => .index position
  | .distinct => .distinct
  | .one => .one
  | .aggregate op => .aggregate op

def redirectFields (f : Nat → Nat → Nat) (level : Nat) :
    List (String × Term) → List (String × Term)
  | [] => []
  | (name, t) :: rest => (name, redirect f level t) :: redirectFields f level rest

def redirectKeys (f : Nat → Nat → Nat) (level : Nat) : List (Term × Bool) → List (Term × Bool)
  | [] => []
  | (t, descending) :: rest => (redirect f level t, descending) :: redirectKeys f level rest

end

variable {f g h : Nat → Nat → Nat} {level : Nat}

theorem redirectFields_eq (fields : List (String × Term)) : redirectFields f level fields =
    fields.map fun (name, t) => (name, t.redirect f level) := by
  induction fields with
  | nil => rfl
  | cons field rest ih => rw [redirectFields, ih, List.map_cons]

private theorem redirectKeys_eq (keys : List (Term × Bool)) : redirectKeys f level keys =
    keys.map fun (t, descending) => (t.redirect f level, descending) := by
  induction keys with
  | nil => rfl
  | cons key rest ih => rw [redirectKeys, ih, List.map_cons]

theorem redirectStep_eq (action : Step) : redirectStep f level action =
    action.mapScoped fun n t => t.redirect f (level + n) := by
  cases action <;>
    simp only [redirectStep, Step.mapScoped, redirectFields_eq, redirectKeys_eq, Nat.add_zero]

/-- A reference may be redirected twice at once. -/
theorem redirect_redirect {t : Term} (ht : t.References (fun l up => g l (f l up) = h l up) level) :
    (t.redirect f level).redirect g level = t.redirect h level := by
  induction t using children_induction generalizing level with
  | h t ih =>
    have hchild : ∀ c ∈ t.children,
        (c.1.redirect f (level + c.2)).redirect g (level + c.2) = c.1.redirect h (level + c.2) :=
      fun c hc => ih c hc (ht.child c hc)
    cases t with
    | source _ name => rfl
    | literal _ value => rfl
    | context _ up =>
      cases ht with
      | node hup _ => simp only [redirect, hup _ _ rfl]
    | record _ fields =>
      simp only [redirect, redirectFields_eq, List.map_map]
      refine congrArg (record 0) (List.map_congr_left fun field hf => ?_)
      exact congrArg (field.1, ·) (hchild (field.2, 0) (List.mem_map.2 ⟨field, hf, rfl⟩))
    | step _ subject action =>
      have hsubject := hchild (subject, 0) List.mem_cons_self
      have haction : (redirectStep f level action).mapScoped (fun n t => t.redirect g (level + n)) =
          redirectStep h level action := by
        rw [redirectStep_eq, redirectStep_eq, Step.mapScoped_mapScoped]
        exact Step.mapScoped_congr fun c hc => hchild c (List.mem_cons_of_mem _ hc)
      rw [redirect, redirect, redirect, redirectStep_eq, haction]
      exact congrArg (step 0 · _) hsubject

theorem tree_step (id : Nat) (subject : Term) (action : Step) :
    (step id subject action).tree = step 0 subject.tree (action.mapOperands tree) :=
  renumber_eq _ _

theorem tree_record (id : Nat) (fields : List (String × Term)) :
    (record id fields).tree = record 0 (fields.map fun (name, t) => (name, t.tree)) :=
  renumber_eq _ _

/-- References that are read as they are leave the tree. -/
theorem redirect_self (level : Nat) (t : Term) : t.redirect (fun _ up => up) level = t.tree := by
  induction t using children_induction generalizing level with
  | h t ih =>
    cases t with
    | source _ name => rfl
    | literal _ value => rfl
    | context _ up => rfl
    | record _ fields =>
      rw [tree_record, redirect, redirectFields_eq]
      refine congrArg (record 0) (List.map_congr_left fun field hf => ?_)
      exact congrArg (field.1, ·) (ih (field.2, 0) (List.mem_map.2 ⟨field, hf, rfl⟩) level)
    | step _ subject action =>
      rw [tree_step, redirect, redirectStep_eq, Step.mapOperands_eq_mapScoped]
      have hsubject : subject.redirect (fun _ up => up) level = subject.tree :=
        ih (subject, 0) List.mem_cons_self level
      rw [hsubject]
      refine congrArg (step 0 _) (Step.mapScoped_congr fun c hc => ?_)
      exact ih c (List.mem_cons_of_mem _ hc) (level + c.2)

theorem references_of_forall {P : Nat → Nat → Prop} (hP : ∀ l up, P l up) (t : Term) :
    t.References P level := by
  induction t using children_induction generalizing level with
  | h t ih => exact .node (fun _ up _ => hP level up) fun c hc => ih c hc

/-- Redirecting a term redirects its tree. -/
@[simp] theorem redirect_tree (t : Term) : t.tree.redirect f level = t.redirect f level := by
  rw [← redirect_self level]
  exact redirect_redirect (references_of_forall (fun _ _ => rfl) t)

theorem redirect_congr {t : Term} (ht : t.References (fun l up => f l up = g l up) level) :
    t.redirect f level = t.redirect g level := by
  rw [← redirect_tree, ← redirect_self level]
  exact redirect_redirect ht

theorem redirect_eq_tree {t : Term} (ht : t.References (fun l up => f l up = up) level) :
    t.redirect f level = t.tree := (redirect_congr ht).trans (redirect_self level t)

/-- Where a reference points after a move. -/
def movedTo (scopes : Int) (level up : Nat) : Nat := (movedUp? scopes level up).getD up

theorem movedTo_eq (scopes : Int) (level up : Nat) : movedTo scopes level up =
    if level ≤ up ∧ (level : Int) ≤ up + scopes ∧ (up : Int) + scopes < 2 ^ 64 then
      ((up : Int) + scopes).toNat
    else up := by
  rw [movedTo, movedUp?]
  split <;> rfl

/-- A bound reference stays. -/
theorem movedTo_of_lt {scopes : Int} {level up : Nat} (h : up < level) :
    movedTo scopes level up = up := by
  rw [movedTo_eq, if_neg (by omega)]

theorem movedTo_add {n level up : Nat} (h : level ≤ up) (hup : up + n < 2 ^ 64) :
    movedTo n level up = up + n := by
  rw [movedTo_eq, if_pos (by omega)]
  omega

theorem movedTo_sub {n level up : Nat} (h : level + n ≤ up) (hup : up < 2 ^ 64) :
    movedTo (-n) level up = up - n := by
  rw [movedTo_eq, if_pos (by omega)]
  omega

/-- What a moved operand becomes, in whatever arena it was moved. -/
theorem MovedAfter.tree_eq {scopes : Int} {n : Nat} {s t : Term}
    (h : MovedAfter scopes level n s t) (hs : s.Ordered) (hid : s.id < n)
    (ih : ∀ b : Arena, s.Allocated b →
      (s.move scopes level b).1.tree = s.redirect (movedTo scopes) level) :
    t.tree = s.redirect (movedTo scopes) level := by
  obtain ⟨b, hb, rfl⟩ := h
  exact ih b ⟨hs, Nat.lt_of_lt_of_le hid hb⟩

/-- A moved term is the term with its references redirected. -/
theorem tree_move {scopes : Int} {a : Arena} {t : Term} (ht : t.Allocated a) :
    (t.move scopes level a).1.tree = t.redirect (movedTo scopes) level := by
  induction t using children_induction generalizing level a with
  | h t ih =>
    have hchild : ∀ c ∈ t.children, c.1.Ordered ∧ c.1.id < a.size := fun c hc =>
      ⟨ht.ordered.child c hc, Nat.lt_trans (ht.ordered.id_lt c hc) ht.id_lt⟩
    cases t with
    | source _ name => rfl
    | literal _ value => rfl
    | context id up =>
      rw [move, redirect, movedTo]
      cases movedUp? scopes level up <;> rfl
    | record id fields =>
      have hmem : ∀ f ∈ fields, (f.2, 0) ∈ (record id fields).children := fun f hf =>
        List.mem_map.2 ⟨f, hf, rfl⟩
      have hmoved : List.Forall₂ (fun f g => f.1 = g.1 ∧ MovedAfter scopes level a.size f.2 g.2)
        fields (moveFields scopes level fields a).1 := moveFields_moved level fields (Nat.le_refl _)
      have hrecord : ∃ j, ((record id fields).move scopes level a).1 =
        record j (moveFields scopes level fields a).1 := move_record fun f hf => (hchild _ (hmem f hf)).2
      obtain ⟨j, hj⟩ := hrecord
      rw [hj, tree_record, redirect, redirectFields_eq]
      refine congrArg (record 0) (map_eq_of_forall₂ hmoved fun f hf g hfg => ?_).symm
      obtain ⟨ho, hid⟩ := hchild _ (hmem f hf)
      exact Prod.ext_iff.2 ⟨hfg.1, (hfg.2.tree_eq ho hid fun b hb => ih _ (hmem f hf) hb).symm⟩
    | step id subject action =>
      have hoperand : ∀ c ∈ action.operands, c.1.id < a.size := fun c hc =>
        (hchild c (List.mem_cons_of_mem _ hc)).2
      obtain ⟨j, b, hb, hj⟩ : ∃ (j : Nat) (b : Arena), a.size ≤ b.size ∧
          ((step id subject action).move scopes level a).1 =
            step j (subject.move scopes level a).1 (moveStep scopes level action b).1 :=
        move_step (hchild (subject, 0) List.mem_cons_self).2 hoperand
      have hsubject : (subject.move scopes level a).1.tree = subject.redirect (movedTo scopes) level :=
        ih (subject, 0) List.mem_cons_self ht.subject
      rw [hj, tree_step, redirect, Step.mapOperands_eq_mapScoped, redirectStep_eq]
      refine congrArg₂ (step 0) hsubject ((moveStep_moved level action hb).mapScoped_eq ?_).symm
      intro n s t hc hst
      obtain ⟨ho, hid⟩ := hchild _ (List.mem_cons_of_mem _ hc)
      exact (hst.tree_eq ho hid fun b hb => ih _ (List.mem_cons_of_mem _ hc) hb).symm

/-- The operands of a step that was shifted, the subject apart, are those of the step with their
references redirected. -/
theorem tree_shift {id : Nat} {subject : Term} {action : Step} {scopes : Int} {a : Arena}
    (h : (step id subject action).Allocated a) :
    (action.shift scopes a).1.mapOperands tree = redirectStep (movedTo scopes) 0 action := by
  rw [Step.mapOperands_eq_mapScoped, redirectStep_eq]
  unfold Step.shift
  split
  · rename_i hzero
    refine Step.mapScoped_congr fun c _ => (redirect_eq_tree ?_).symm
    refine references_of_forall (fun l up => ?_) c.1
    rw [movedTo_eq, hzero]
    split <;> simp
  · refine ((moveStep_moved 0 action (Nat.le_refl a.size)).mapScoped_eq fun n s t hc hst => ?_).symm
    have hs := h.operand hc
    exact (hst.tree_eq hs.ordered hs.id_lt fun b hb => tree_move hb).symm

end Term

end QueryPushdown
