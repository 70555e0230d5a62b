import QueryPushdown.Proofs.Request.Drafts
import QueryPushdown.Proofs.Transform.Redirecting

/-!
# Cutting and recomposing

Cutting a request and putting the parts together again gives the tree of the request, and cutting
what was put together gives the trees of the parts. The chain is rebuilt twice, and each rebuilding
moves its operands: the second move takes back the first one unless a reference is read at the scope
of the placeholder.
-/

namespace QueryPushdown

namespace Step

theorem operands_mapScoped (h : Nat → Term → Term) (action : Step) :
    (action.mapScoped h).operands = action.operands.map fun c => (h c.2 c.1, c.2) := by
  cases action <;> simp [mapScoped, operands, Function.comp_def]

end Step

namespace Term

variable {level : Nat} {t : Term} {P : Nat → Nat → Prop}

/-- A term reads the element bound `level` scopes outwards from it. -/
inductive Reads : Nat → Term → Prop
  | here (id level : Nat) : Reads level (context id level)
  | child {level : Nat} {t : Term} {c : Term × Nat} (hc : c ∈ t.children)
    (h : Reads (level + c.2) c.1) : Reads level t

theorem refersTo_eq (t : Term) (level : Nat) : t.refersTo level =
    ((match t with
      | context _ up => up == level
      | _ => false) || t.children.any fun c => c.1.refersTo (level + c.2)) := by
  rw [refersTo, walk_eq, List.any_cons, List.any_flatMap]
  cases t <;> rfl

theorem refersTo_iff : t.refersTo level = true ↔ t.Reads level := by
  induction t using children_induction generalizing level with
  | h t ih =>
    rw [refersTo_eq, Bool.or_eq_true_iff, List.any_eq_true]
    constructor
    · rintro (hhere | ⟨c, hc, h⟩)
      · cases t with
        | context id up =>
          rw [eq_of_beq hhere]
          exact .here _ _
        | _ => cases hhere
      · exact .child hc ((ih c hc).1 h)
    · intro h
      cases h with
      | here => exact .inl (beq_self_eq_true _)
      | child hc h => exact .inr ⟨_, hc, (ih _ hc).2 h⟩

theorem not_reads_iff : ¬ t.Reads level ↔ t.References (fun l up => up ≠ l) level := by
  constructor
  · intro h
    induction t using children_induction generalizing level with
    | h t ih =>
      refine .node (fun id up ht hup => h ?_) fun c hc => ih c hc fun hread => h (.child hc hread)
      rw [ht, hup]
      exact .here _ _
  · intro h hread
    induction hread with
    | here id level =>
      cases h with
      | node hup _ => exact hup _ _ rfl rfl
    | child hc _ ih => exact ih (h.child _ hc)

theorem References.and {Q : Nat → Nat → Prop} (hP : t.References P level)
    (hQ : t.References Q level) : t.References (fun l up => P l up ∧ Q l up) level := by
  induction hP with
  | node hup _ ih =>
    cases hQ with
    | node hup' hchild =>
      exact .node (fun id up ht => ⟨hup id up ht, hup' id up ht⟩) fun c hc => ih c hc (hchild c hc)

theorem children_redirect (f : Nat → Nat → Nat) : (t.redirect f level).children =
    t.children.map fun c => (c.1.redirect f (level + c.2), c.2) := by
  cases t with
  | record id fields => simp [redirect, redirectFields_eq, children, Function.comp_def]
  | step id subject action =>
    simp [redirect, redirectStep_eq, children, Step.operands_mapScoped]
  | _ => rfl

/-- The references of a redirected term are those of the term, redirected. -/
theorem references_redirect {f : Nat → Nat → Nat} : (t.redirect f level).References P level ↔
    t.References (fun l up => P l (f l up)) level := by
  induction t using children_induction generalizing level with
  | h t ih =>
    constructor
    · intro h
      refine .node (fun id up ht => ?_) fun c hc => (ih c hc).1 ?_
      · subst ht
        cases h with
        | node hup _ => exact hup _ _ rfl
      · refine h.child (c.1.redirect f (level + c.2), c.2) ?_
        rw [children_redirect]
        exact List.mem_map.2 ⟨c, hc, rfl⟩
    · intro h
      refine .node (fun id up ht => ?_) fun c hc => ?_
      · cases t with
        | context j up' =>
          cases ht
          cases h with
          | node hup _ => exact hup _ _ rfl
        | _ => cases ht
      · rw [children_redirect] at hc
        obtain ⟨d, hd, rfl⟩ := List.mem_map.1 hc
        exact (ih d hd).2 (h.child d hd)

/-- References are read off the tree of a term. -/
theorem references_tree : t.tree.References P level ↔ t.References P level := by
  rw [← redirect_self level]
  exact references_redirect

section Shifts

variable {id : Nat} {subject : Term} {action : Step} {scopes : Int} {a b : Arena}

/-- The operands of a shifted step are those of the step, redirected. -/
theorem exists_of_mem_shift (h : (step id subject action).Allocated a) {c : Term × Nat}
    (hc : c ∈ (action.shift scopes a).1.operands) :
    ∃ d ∈ action.operands, c.2 = d.2 ∧ c.1.tree = d.1.redirect (movedTo scopes) d.2 := by
  have hshift : (action.shift scopes a).1.mapOperands tree =
    redirectStep (movedTo scopes) 0 action := tree_shift h
  have hoperands := congrArg Step.operands hshift
  rw [Step.operands_mapOperands, redirectStep_eq, Step.operands_mapScoped] at hoperands
  have hmem : (c.1.tree, c.2) ∈ (action.shift scopes a).1.operands.map fun c => (c.1.tree, c.2) :=
    List.mem_map.2 ⟨c, hc, rfl⟩
  rw [hoperands] at hmem
  obtain ⟨d, hd, heq⟩ := List.mem_map.1 hmem
  obtain ⟨htree, hscopes⟩ := Prod.ext_iff.1 heq
  refine ⟨d, hd, hscopes.symm, ?_⟩
  rw [Nat.zero_add] at htree
  exact htree.symm

/-- A reference is back where it was after two opposite moves. -/
def MovesBack (scopes : Int) (level up : Nat) : Prop :=
  movedTo (-scopes) level (movedTo scopes level up) = up

/-- The opposite shift takes a shift back if it does so for every reference of the operands. -/
theorem tree_shift_shift {j : Nat} {s : Term} (h : (step id subject action).Allocated a)
    (h' : (step j s (action.shift scopes a).1).Allocated b)
    (hback : ∀ c ∈ action.operands, c.1.References (MovesBack scopes) c.2) :
    ((action.shift scopes a).1.shift (-scopes) b).1.mapOperands tree = action.mapOperands tree := by
  have hstep : (action.shift scopes a).1.mapScoped (fun n t => t.redirect (movedTo (-scopes)) (0 + n)) =
      (redirectStep (movedTo scopes) 0 action).mapScoped
        fun n t => t.redirect (movedTo (-scopes)) (0 + n) := by
    rw [← tree_shift h, Step.mapOperands_eq_mapScoped, Step.mapScoped_mapScoped]
    exact Step.mapScoped_congr fun c _ => (redirect_tree c.1).symm
  rw [tree_shift h', redirectStep_eq, hstep, redirectStep_eq, Step.mapScoped_mapScoped,
    Step.mapOperands_eq_mapScoped]
  refine Step.mapScoped_congr fun c hc => ?_
  have hc' := hback c hc
  rw [← Nat.zero_add c.2] at hc'
  exact (redirect_redirect hc').trans (redirect_self _ c.1)

end Shifts

section Chains

variable {base p entry : Term} {marker : Nat} {scopes : Int} {a b : Arena}

theorem rebase_self (t p : Term) (scopes : Int) (a : Arena) : t.rebase t.id p scopes a = (p, a) := by
  cases t with
  | step id subject action => exact rebase_marker_eq ..
  | _ => rfl

/-- A chain rebuilt on another base, and once more on what stood there at first, has its tree
back. -/
theorem tree_rebase_rebase (ht : t.Allocated a) (hbase : base.id < a.size)
    (hfind : t.spine.find? (·.id == marker) = some entry) (hp : p.tree = entry.tree)
    (hb : (t.rebase marker base scopes a).1.Allocated b)
    (hback : ∀ id subject action, step id subject action ∈ t.spine →
      ∀ c ∈ action.operands, c.1.References (MovesBack scopes) c.2) :
    ((t.rebase marker base scopes a).1.rebase base.id p (-scopes) b).1.tree = t.tree := by
  refine rebase_induction (motive := fun u r => r.1.Allocated b →
    (r.1.rebase base.id p (-scopes) b).1.tree = u.tree) ?_ ?_ hb
  · intro _
    rw [hfind, rebase_self]
    exact hp
  · intro id subject action he s c hs hb
    have hsize : a.size ≤ s.2.size := size_le_rebase subject marker base scopes a
    have hsize' : s.2.size ≤ c.2.size := action.size_le_shift scopes s.2
    have hne : c.2.size ≠ base.id := by omega
    have hsize'' := size_le_rebase s.1 base.id p (-scopes) b
    have haction := tree_shift_shift ((ht.of_mem_spine he).mono hsize) (hb.mono hsize'')
      (hback id subject action he)
    rw [id_alloc, rebase_step_eq _ _ _ _ _ _ _ hne, id_alloc, tree_step, tree_step]
    exact congrArg₂ (step 0) (hs hb.subject) haction

theorem head_rebase (t : Term) (marker : Nat) (base : Term) (scopes : Int) (a : Arena) :
    (t.rebase marker base scopes a).1.head = base.head :=
  rebase_induction (motive := fun _ r => r.1.head = base.head) rfl
    fun _ _ _ _ hs => hs

/-- A rebuilt chain has as many steps above its base as there were above the entry it replaces. -/
theorem spine_rebase (hfind : t.spine.find? (·.id == marker) = some entry) :
    ∃ above, (t.rebase marker base scopes a).1.spine = above ++ base.spine ∧
      above.length + entry.spine.length = t.spine.length := by
  refine rebase_induction (motive := fun u r => ∃ above, r.1.spine = above ++ base.spine ∧
    above.length + entry.spine.length = u.spine.length) ?_ ?_
  · rw [hfind]
    exact ⟨[], rfl, Nat.zero_add _⟩
  · rintro id subject action - s c ⟨above, habove, hlength⟩
    rw [id_alloc, spine, habove, spine]
    refine ⟨_ :: above, rfl, ?_⟩
    rw [List.length_cons, List.length_cons, ← hlength]
    omega

theorem placeholderEscapes_iff : t.placeholderEscapes = true ↔
    ∃ id subject action, step id subject action ∈ t.spine ∧
      ∃ c ∈ action.operands, c.1.Reads c.2 := by
  induction t using spine.induct with
  | case1 id subject action ih =>
    rw [placeholderEscapes, Bool.or_eq_true_iff, ih, List.any_eq_true, spine]
    simp only [refersTo_iff]
    constructor
    · rintro (⟨i, s, act, hmem, hread⟩ | hread)
      · exact ⟨i, s, act, List.mem_cons_of_mem _ hmem, hread⟩
      · exact ⟨id, subject, action, List.mem_cons_self, hread⟩
    · rintro ⟨i, s, act, hmem, hread⟩
      rcases List.mem_cons.1 hmem with heq | hmem
      · cases heq
        exact .inr hread
      · exact .inl ⟨i, s, act, hmem, hread⟩
  | case2 t ht =>
    rw [spine_eq_singleton ht]
    refine iff_of_false ?_ ?_
    · cases t with
      | step id subject action => exact absurd rfl (ht id subject action)
      | _ => exact Bool.false_ne_true
    · rintro ⟨i, s, act, hmem, -⟩
      exact ht i s act (List.mem_singleton.1 hmem).symm

/-- No operand of a rebuilt chain reads the placeholder, if no reference was moved there. -/
theorem not_escapes_rebase (ht : t.Allocated a) (hbase : base.placeholderEscapes = false)
    (href : ∀ id subject action, step id subject action ∈ t.spine →
      ∀ c ∈ action.operands, c.1.References (fun l up => movedTo scopes l up ≠ l) c.2) :
    (t.rebase marker base scopes a).1.placeholderEscapes = false := by
  refine rebase_induction (motive := fun _ r => r.1.placeholderEscapes = false) hbase ?_
  intro id subject action he s b hs
  rw [id_alloc, placeholderEscapes, hs, Bool.false_or, List.any_eq_false]
  intro c hc hread
  have hstep := (ht.of_mem_spine he).mono (size_le_rebase subject marker base scopes a)
  obtain ⟨d, hd, hscopes, htree⟩ := exists_of_mem_shift hstep hc
  refine not_reads_iff.2 ?_ (refersTo_iff.1 hread)
  rw [hscopes, ← references_tree, htree, references_redirect]
  exact href id subject action he d hd

theorem head_mem_spine (t : Term) : t.head ∈ t.spine := by
  induction t using spine.induct with
  | case1 id subject action ih =>
    rw [head, spine]
    exact List.mem_cons_of_mem _ ih
  | case2 t ht =>
    rw [spine_eq_singleton ht]
    cases t with
    | step id subject action => exact absurd rfl (ht id subject action)
    | _ => exact List.mem_singleton.2 rfl

theorem head?_chain (t : Term) : t.chain.head? = some t.head := by
  rw [chain, List.head?_reverse]
  induction t using spine.induct with
  | case1 id subject action ih =>
    rw [spine, head, List.getLast?_cons, ih]
    rfl
  | case2 t ht =>
    rw [spine_eq_singleton ht]
    cases t with
    | step id subject action => exact absurd rfl (ht id subject action)
    | _ => rfl

theorem isPlaceholder_iff : t.isPlaceholder = true ↔ ∃ id, t = context id 0 := by
  constructor
  · intro h
    unfold isPlaceholder at h
    split at h
    · exact ⟨_, rfl⟩
    · cases h
  · rintro ⟨id, rfl⟩
    rfl

/-- An outward move is taken back. -/
theorem movesBack_add {n level up : Nat} (h : up + n < 2 ^ 64) : MovesBack n level up := by
  rcases Nat.lt_or_ge up level with hlt | hle
  · rw [MovesBack, movedTo_of_lt hlt, movedTo_of_lt hlt]
  · rw [MovesBack, movedTo_add hle h, movedTo_sub (by omega) h]
    omega

/-- An inward move is taken back, unless the reference goes to one of the scopes that it leaves
out. -/
theorem movesBack_sub {n level up : Nat} (h : up < level ∨ level + n ≤ up) (hup : up < 2 ^ 64) :
    MovesBack (-n) level up := by
  rcases h with hlt | hle
  · rw [MovesBack, movedTo_of_lt hlt, movedTo_of_lt hlt]
  · rw [MovesBack, movedTo_sub hle hup, Int.neg_neg, movedTo_add (by omega) (by omega)]
    omega

/-- An outward move leaves no reference at the scope that it makes room for. -/
theorem movedTo_one_ne {level up : Nat} (h : up + 1 < 2 ^ 64) : movedTo 1 level up ≠ level := by
  rcases Nat.lt_or_ge up level with hlt | hle
  · rw [movedTo_of_lt hlt]
    exact Nat.ne_of_lt hlt
  · have hmoved : movedTo 1 level up = up + 1 := movedTo_add hle h
    omega

end Chains

end Term

namespace Request

variable {before after r : Request} {marker : Nat} {c : Cut}

theorem recompose_eq_error : (∃ e, before.recompose after = .error e) ↔
    after.root.head.isPlaceholder = false ∨ after.root.placeholderEscapes = true := by
  unfold recompose
  cases after.root.head.isPlaceholder <;> cases after.root.placeholderEscapes <;> simp

theorem recompose_eq_ok (hhead : after.root.head.isPlaceholder = true)
    (hescapes : after.root.placeholderEscapes = false) :
    ∃ r, before.recompose after = .ok r := by
  cases h : before.recompose after with
  | ok r => exact ⟨r, rfl⟩
  | error e =>
    rcases recompose_eq_error.1 ⟨e, h⟩ with hno | hyes
    · rw [hhead] at hno
      cases hno
    · rw [hescapes] at hyes
      cases hyes

theorem root_recompose (h : before.recompose after = .ok r) :
    r.root = (after.root.rebase after.root.head.id (bring before after.arena).1 (-1)
      (bring before after.arena).2).1 := by
  unfold recompose at h
  split at h
  · cases h
  · split at h
    · cases h
    · cases h
      rfl

theorem root_cut (h : r.cut marker = .ok c) : c.after.root =
    (r.root.rebase marker (.context r.arena.size 0) 1 (alloc (.context · 0) r.arena).2).1 := by
  obtain ⟨before, -, -, hafter⟩ := cut_eq_ok h
  rw [hafter]
  rfl

/-- Recomposing fails when there is no placeholder or when its value is read off the chain. -/
theorem recompose_eq_error_iff : (∃ e, before.recompose after = .error e) ↔
    (∀ id, after.root.chain.head? ≠ some (.context id 0)) ∨
      ∃ id subject action, .step id subject action ∈ after.root.chain ∧
        ∃ c ∈ action.operands, c.1.Reads c.2 := by
  rw [recompose_eq_error, Term.placeholderEscapes_iff, Term.head?_chain, Bool.eq_false_iff, Ne,
    Term.isPlaceholder_iff]
  simp only [not_exists, Term.mem_chain, ne_eq, Option.some.injEq]

/-- Operands above a cut are read at the scopes that their steps bind. -/
theorem references_operand {P : Nat → Nat → Prop} (h : r.root.References P 0) {id : Nat}
    {subject : Term} {action : Step} (hmem : .step id subject action ∈ r.root.spine) :
    ∀ d ∈ action.operands, d.1.References P d.2 := by
  intro d hd
  have hd' := (h.of_mem_spine hmem).operand hd
  rwa [Nat.zero_add] at hd'

theorem allocated_alloc (hr : r.Sound) (make : Nat → Term) :
    r.root.Allocated (alloc make r.arena).2 := by
  refine ⟨hr.closed.ordered hr.root, Nat.lt_of_lt_of_le hr.root.id_lt ?_⟩
  rw [Term.size_alloc]
  exact Nat.le_succ _

/-- The rest of a cut request starts with a placeholder that is read nowhere else. -/
theorem recompose_cut_eq_ok (hr : r.Sound)
    (hup : r.root.References (fun _ up => up + 1 < 2 ^ 64) 0) (hc : r.cut marker = .ok c) :
    ∃ s, c.recompose = .ok s := by
  refine recompose_eq_ok ?_ ?_
  · rw [root_cut hc, Term.head_rebase]
    rfl
  · rw [root_cut hc]
    exact Term.not_escapes_rebase (allocated_alloc hr _) rfl fun id subject action hmem d hd =>
      (references_operand hup hmem d hd).mono fun _ _ h => Term.movedTo_one_ne h

/-- The parts of a cut request make up the request. -/
theorem recompose_cut (hr : r.Sound)
    (hup : r.root.References (fun _ up => up + 1 < 2 ^ 64) 0) (hc : r.cut marker = .ok c) :
    ∃ s, c.recompose = .ok s ∧ s.unfold = r.unfold := by
  obtain ⟨⟨hbefore, hsame⟩, hafter, hgrown⟩ := cut_sound hr hc
  obtain ⟨entry, hfound, heq, -⟩ := cut_eq_ok hc
  obtain ⟨s, hs⟩ := recompose_cut_eq_ok hr hup hc
  refine ⟨s, hs, ?_⟩
  have hag : c.after.arena.Agrees c.before.arena := by
    rw [hsame]
    exact hgrown.agrees fun _ => rfl
  have hsound := (recompose_sound hbefore hafter hag hs).1
  obtain ⟨hbring, hhas, htree⟩ := bring_grows hafter.closed hbefore hag
  have hentry : (bring c.before c.after.arena).1.tree = entry.tree := by
    rw [htree, heq]
  have hroom : r.arena.size < (alloc (.context · 0) r.arena).2.size := by
    rw [Term.size_alloc]
    exact Nat.lt_succ_self _
  have hroot := hbring.has hafter.root
  have hhead : c.after.root.head.id = (Term.context r.arena.size 0).id := by
    rw [root_cut hc, Term.head_rebase]
    rfl
  rw [hsound.unfold_eq, hr.unfold_eq, root_recompose hs, hhead, root_cut hc]
  refine congrArg some (Term.tree_rebase_rebase (allocated_alloc hr _) hroom hfound hentry ?_ ?_)
  · rw [← root_cut hc]
    exact ⟨hbring.closed.ordered hroot, hroot.id_lt⟩
  · exact fun id subject action hmem d hd =>
      (references_operand hup hmem d hd).mono fun _ _ h => Term.movesBack_add h

theorem onChain?_of_mem (hr : r.Sound) {node : Term} (h : node ∈ r.root.spine) :
    r.onChain? node.id = some node := (hr.closed.ordered hr.root).find?_spine h

theorem exists_cut (h : ∃ n ∈ r.root.chain, n.id = marker) : ∃ c, r.cut marker = .ok c := by
  obtain ⟨n, hn, hid⟩ := h
  unfold cut
  cases hfind : r.onChain? marker with
  | some entry => exact ⟨_, rfl⟩
  | none =>
    have hnone := List.find?_eq_none.1 hfind n (Term.mem_chain.1 hn)
    exact absurd (beq_iff_eq.2 hid) hnone

/-- A request put together from two parts falls apart into them. -/
theorem cut_recomposed (hb : before.Sound) (ha : after.Sound)
    (hag : after.arena.Agrees before.arena)
    (hup : after.root.References (fun _ up => up < 2 ^ 64) 0)
    (h : before.recompose after = .ok r) :
    ∃ (node : Term) (above : List Term) (c : Cut), r.root.chain = node.chain ++ above ∧
      above.length + 1 = after.root.chain.length ∧ node.tree = before.root.tree ∧
      r.cut node.id = .ok c ∧ c.before.unfold = before.unfold ∧ c.after.unfold = after.unfold := by
  have hno : ¬ (after.root.head.isPlaceholder = false ∨ after.root.placeholderEscapes = true) := by
    rw [← recompose_eq_error, h]
    rintro ⟨e, he⟩
    cases he
  obtain ⟨hhead, hescapes⟩ := not_or.1 hno
  obtain ⟨head, hplaceholder⟩ := Term.isPlaceholder_iff.1 (by simpa using hhead)
  have hr := (recompose_sound hb ha hag h).1
  obtain ⟨hbring, hhas, htree⟩ := bring_grows ha.closed hb hag
  have hrroot := root_recompose h
  generalize (bring before after.arena).1 = node at hhas htree hrroot
  generalize (bring before after.arena).2 = a at hbring hhas htree hrroot
  have hroot := hbring.has ha.root
  have hfind := (ha.closed.ordered ha.root).find?_spine after.root.head_mem_spine
  obtain ⟨steps, hspine, hlength⟩ :
      ∃ steps, (after.root.rebase after.root.head.id node (-1) a).1.spine = steps ++ node.spine ∧
        steps.length + after.root.head.spine.length = after.root.spine.length :=
    Term.spine_rebase hfind
  rw [← hrroot] at hspine
  have hmem : node ∈ r.root.spine := by
    rw [hspine]
    exact List.mem_append_right _ node.self_mem_spine
  obtain ⟨c, hc⟩ := exists_cut ⟨node, Term.mem_chain.2 hmem, rfl⟩
  obtain ⟨⟨hbsound, -⟩, hasound, -⟩ := cut_sound hr hc
  obtain ⟨entry, hentry, hcbefore, -⟩ := cut_eq_ok hc
  rw [onChain?_of_mem hr hmem] at hentry
  cases hentry
  refine ⟨node, steps.reverse, c, ?_, ?_, htree, hc, ?_, ?_⟩
  · rw [Term.chain, Term.chain, hspine, List.reverse_append]
  · rw [hplaceholder] at hlength
    rw [List.length_reverse, Term.chain, List.length_reverse, ← hlength]
    rfl
  · rw [hbsound.unfold_eq, hb.unfold_eq, hcbefore]
    exact congrArg some htree
  · have hplace : (Term.context r.arena.size 0).tree = after.root.head.tree := by
      rw [hplaceholder]
      rfl
    have hcroot : c.after.root = (r.root.rebase node.id (.context r.arena.size 0) (-(-1))
        (alloc (.context · 0) r.arena).2).1 := root_cut hc
    rw [hasound.unfold_eq, ha.unfold_eq, hcroot, hrroot]
    refine congrArg some (Term.tree_rebase_rebase ⟨hbring.closed.ordered hroot, hroot.id_lt⟩
      hhas.id_lt hfind hplace ?_ ?_)
    · rw [← hrroot]
      exact allocated_alloc hr _
    · intro id subject action hmem c hc
      have hfree : ¬ c.1.Reads c.2 := fun hread =>
        hescapes (Term.placeholderEscapes_iff.2 ⟨id, subject, action, hmem, c, hc, hread⟩)
      exact ((Term.not_reads_iff.1 hfree).and (references_operand hup hmem c hc)).mono
        fun _ _ h => Term.movesBack_sub (Nat.lt_or_gt_of_ne h.1) h.2

/-- Cutting and recomposing undo each other. Recomposing fails only where there is no placeholder to
replace, or where the value that it stands for is read off the chain as well. -/
theorem cut_recompose_inverse :
    (∀ (r : Request) (marker : Nat), r.Sound →
      r.root.References (fun _ up => up + 1 < 2 ^ 64) 0 → (∃ n ∈ r.root.chain, n.id = marker) →
      ∃ c s, r.cut marker = .ok c ∧ c.recompose = .ok s ∧ s.unfold = r.unfold) ∧
    (∀ before after : Request, before.Sound → after.Sound → after.arena.Agrees before.arena →
      after.root.References (fun _ up => up < 2 ^ 64) 0 →
      ((∃ e, before.recompose after = .error e) ↔
        (∀ id, after.root.chain.head? ≠ some (.context id 0)) ∨
          ∃ id subject action, .step id subject action ∈ after.root.chain ∧
            ∃ c ∈ action.operands, c.1.Reads c.2) ∧
      ∀ r, before.recompose after = .ok r → ∃ (node : Term) (above : List Term) (c : Cut),
        r.root.chain = node.chain ++ above ∧ above.length + 1 = after.root.chain.length ∧
          node.tree = before.root.tree ∧ r.cut node.id = .ok c ∧
          c.before.unfold = before.unfold ∧ c.after.unfold = after.unfold) := by
  refine ⟨fun r marker hr hup hmarker => ?_, fun before after hb ha hag hup => ⟨?_, ?_⟩⟩
  · obtain ⟨c, hc⟩ := exists_cut hmarker
    obtain ⟨s, hs, hunfold⟩ := recompose_cut hr hup hc
    exact ⟨c, s, hc, hs, hunfold⟩
  · exact recompose_eq_error_iff
  · exact fun r hr => cut_recomposed hb ha hag hup hr

end Request

theorem Term.references_context {P : Nat → Nat → Prop} {level id up : Nat} (h : P level up) :
    (context id up).References P level :=
  .node (fun _ _ heq => by cases heq; exact h) fun _ hc => by cases hc

theorem Term.references_source {P : Nat → Nat → Prop} (level id : Nat) (name : String) :
    (source id name).References P level :=
  .node (fun _ _ heq => by cases heq) fun _ hc => by cases hc

theorem Term.references_step {P : Nat → Nat → Prop} {level id : Nat} {subject : Term}
    {action : Step} (hs : subject.References P level)
    (ha : ∀ c ∈ action.operands, c.1.References P (level + c.2)) :
    (step id subject action).References P level := by
  refine .node (fun _ _ heq => by cases heq) fun c hc => ?_
  rcases List.mem_cons.1 hc with rfl | hc
  · exact hs
  · exact ha c hc

/-- The distinct elements of a source. -/
def Request.distinctItems : Request := (Request.source "items").wrap .distinct

/-- An element of the scope around the one next to it, added to each element of a sequence. -/
def Request.outerOffsets : Request :=
  (Request.context 0).combine ((Request.context 0).combine (Request.context 2) (.binary .add)) .map

theorem Request.distinctItems_sound : distinctItems.Sound :=
  (wrap_becomes (single_sound rfl rfl) rfl).sound

theorem Request.sum_sound (up : Nat) :
    ((Request.context 0).combine (Request.context up) (.binary .add)).Sound := by
  refine (combine_becomes (single_sound rfl rfl) (single_sound rfl rfl) (fun h => by cases h)
    (fun t c hc => ?_) fun _ => rfl).sound
  rw [List.mem_singleton.1 hc]

theorem Request.offsets_sound : offsets.Sound := by
  refine (combine_becomes distinctItems_sound (sum_sound 1) (fun h => by cases h)
    (fun t c hc => ?_) fun _ => rfl).sound
  rw [List.mem_singleton.1 hc]

theorem Request.outerOffsets_sound : outerOffsets.Sound := by
  refine (combine_becomes (single_sound rfl rfl) (sum_sound 2) (fun h => by cases h)
    (fun t c hc => ?_) fun _ => rfl).sound
  rw [List.mem_singleton.1 hc]

theorem Request.sum_references {P : Nat → Nat → Prop} {level i j k up : Nat} (h : P (level + 1) 0)
    (h' : P (level + 1) up) :
    ∀ c ∈ (Step.map (.step i (.context j 0) (.binary .add (.context k up)))).operands,
      c.1.References P (level + c.2) := by
  intro c hc
  rw [List.mem_singleton.1 hc]
  refine Term.references_step (Term.references_context h) fun d hd => ?_
  rw [List.mem_singleton.1 hd]
  exact Term.references_context h'

theorem Request.offsets_references : offsets.root.References (fun _ up => up + 1 < 2 ^ 64) 0 := by
  refine Term.references_step ?_ (sum_references (by decide) (by decide))
  exact Term.references_step (Term.references_source ..) fun _ hc => by cases hc

theorem Request.outerOffsets_references :
    outerOffsets.root.References (fun _ up => up < 2 ^ 64) 0 :=
  Term.references_step (Term.references_context (by decide))
    (sum_references (by decide) (by decide))

theorem Request.offsets_cut_recompose_inverse :
    (∃ c s, offsets.cut 1 = .ok c ∧ c.recompose = .ok s ∧ s.unfold = offsets.unfold) ∧
      ∃ r c, distinctItems.recompose outerOffsets = .ok r ∧ (∃ node : Term,
        node.tree = distinctItems.root.tree ∧ r.cut node.id = .ok c) ∧
        c.before.unfold = distinctItems.unfold ∧ c.after.unfold = outerOffsets.unfold := by
  obtain ⟨hcut, hrecompose⟩ := cut_recompose_inverse
  have hmem : Term.step 1 (.source 0 "items") .distinct ∈ offsets.root.chain :=
    List.mem_cons_of_mem _ List.mem_cons_self
  refine ⟨hcut offsets 1 offsets_sound offsets_references ⟨_, hmem, rfl⟩, ?_⟩
  · obtain ⟨-, hback⟩ := hrecompose distinctItems outerOffsets distinctItems_sound
      outerOffsets_sound (fun h => by cases h) outerOffsets_references
    obtain ⟨node, above, c, -, -, htree, hc, hbefore, hafter⟩ := hback _ rfl
    exact ⟨_, c, rfl, ⟨node, htree, hc⟩, hbefore, hafter⟩

end QueryPushdown
