import QueryPushdown.Proofs.Transform.Moving
import QueryPushdown.Transform.Cut

/-!
# Cut requests

Running the part before a cut first and the rest over its value gives what the whole request
gives. The chain is rebuilt step by step; below the cut a sequence has been drained, above it the
operands are read one scope further in.
-/

namespace QueryPushdown

variable {T : Tolerance} {input : Input} {scope scope' : Scope}

namespace Step

theorem size_le_shift (action : Step) (scopes : Int) (a : Arena) :
    a.size ≤ (action.shift scopes a).2.size := by
  unfold shift
  split
  · exact Nat.le_refl _
  · exact Term.size_le_moveStep scopes 0 action a

/-- A shift by no scope keeps the operands. -/
theorem shift_zero_agree (action : Step) (a : Arena) :
    action.Alike (Term.Agree T input scope scope) (action.shift 0 a).1 :=
  .refl fun c _ => .refl c.2 c.1

/-- Shifted operands agree under the new scopes when each of their references carries over. -/
theorem shift_agree {id : Nat} {subject : Term} {action : Step} {scopes : Int} {a : Arena}
    (hnames : ∀ s t, Evaluated.NamesPair T s t) (hscopes : scopes ≠ 0)
    (ha : (Term.step id subject action).Allocated a)
    (hr : (Term.step id subject action).References (scope.Carries T scope' scopes) 0) :
    action.Alike (Term.Agree T input scope scope') (action.shift scopes a).1 := by
  simp only [shift, hscopes, if_false]
  refine (Term.moveStep_moved 0 action (Nat.le_refl a.size)).mono fun n s t hc hm => ?_
  have hs := ha.operand hc
  have hmoves : Term.Moves T input scope scope' scopes (0 + n) s :=
    Term.moves hnames s (0 + n) hs.ordered (hr.operand hc)
  exact hmoves.agree [] rfl hs.id_lt hm

end Step

namespace Term

theorem rebase_step_eq (id marker : Nat) (subject base : Term) (action : Step)
    (scopes : Int) (a : Arena) (h : id ≠ marker) :
    (step id subject action).rebase marker base scopes a =
      let s := subject.rebase marker base scopes a
      let b := action.shift scopes s.2
      alloc (step · s.1 b.1) b.2 := by
  rw [rebase, if_neg h]
  rfl

theorem rebase_marker_eq (marker : Nat) (subject base : Term) (action : Step)
    (scopes : Int) (a : Arena) :
    (step marker subject action).rebase marker base scopes a = (base, a) := by
  rw [rebase, if_pos rfl]
  rfl

theorem rebase_head_eq {t : Term} (h : ∀ id subject action, t ≠ step id subject action)
    (marker : Nat) (base : Term) (scopes : Int) (a : Arena) :
    t.rebase marker base scopes a = (base, a) := by
  cases t with
  | step id subject action => exact absurd rfl (h id subject action)
  | _ => rfl

theorem head_eq_self {t : Term} (h : ∀ id subject action, t ≠ step id subject action) :
    t.head = t := by
  cases t with
  | step id subject action => exact absurd rfl (h id subject action)
  | _ => rfl

/-- Induction along a chain that is rebuilt: the base stands for the entry of that number, or for the
head if there is none, and each step above it for the one it was built from. -/
theorem rebase_induction {t base : Term} {marker : Nat} {scopes : Int} {a : Arena}
    {motive : Term → Term × Arena → Prop}
    (replaced : motive ((t.spine.find? (·.id == marker)).getD t.head) (base, a))
    (rebuilt : ∀ id subject action, step id subject action ∈ t.spine →
      let s := subject.rebase marker base scopes a
      let b := action.shift scopes s.2
      motive subject s → motive (step id subject action) (alloc (step · s.1 b.1) b.2)) :
    motive t (t.rebase marker base scopes a) := by
  induction t using spine.induct with
  | case1 id subject action ih =>
    by_cases h : id = marker
    · subst h
      rw [spine, List.find?_cons_of_pos (by simp [Term.id])] at replaced
      rw [rebase_marker_eq]
      exact replaced
    · rw [spine, List.find?_cons_of_neg (by simpa [Term.id] using h)] at replaced
      rw [rebase_step_eq _ _ _ _ _ _ _ h]
      refine rebuilt id subject action List.mem_cons_self (ih replaced fun i s act he => ?_)
      exact rebuilt i s act (List.mem_cons_of_mem _ he)
  | case2 t ht =>
    -- the head gives way to the base, whether it was looked for or not
    rw [spine_eq_singleton ht, List.find?_singleton, head_eq_self ht, apply_ite (Option.getD · t)]
      at replaced
    rw [rebase_head_eq ht]
    exact (ite_self t).symm ▸ replaced

theorem size_le_rebase (t : Term) (marker : Nat) (base : Term) (scopes : Int) (a : Arena) :
    a.size ≤ (t.rebase marker base scopes a).2.size := by
  refine rebase_induction (motive := fun _ r => a.size ≤ r.2.size) (Nat.le_refl _) ?_
  intro id subject action _ s b hs
  have hb : s.2.size ≤ b.2.size := action.size_le_shift scopes s.2
  rw [size_alloc]
  exact Nat.le_succ_of_le (Nat.le_trans hs hb)

/-- A chain rebuilt on a base that agrees with the entry it replaces agrees with the chain, if the
operands above that entry agree after their shift. -/
theorem rebase_related {t before base : Term} {marker n : Nat} {scopes : Int} {a : Arena}
    (hnames : ∀ s t, Evaluated.NamesPair T s t)
    (hfind : t.spine.find? (·.id == marker) = some before)
    (hbase : Outcome.Related T (Evaluated.Related T) (before.eval input scope).outcome
      (base.eval input scope').outcome)
    (hshift : ∀ id subject action, step id subject action ∈ t.spine → ∀ b : Arena, n ≤ b.size →
      action.Alike (Agree T input scope scope') (action.shift scopes b).1)
    (hn : n ≤ a.size) :
    Outcome.Related T (Evaluated.Related T) (t.eval input scope).outcome
      ((t.rebase marker base scopes a).1.eval input scope').outcome := by
  refine rebase_induction (motive := fun u r => Outcome.Related T (Evaluated.Related T)
    (u.eval input scope).outcome (r.1.eval input scope').outcome) ?_ ?_
  · rw [hfind]
    exact hbase
  · intro id subject action he s b hs
    refine eval_step_related (hnames _ _) hs (hshift id subject action he _ ?_)
    exact Nat.le_trans hn (size_le_rebase subject marker base scopes a)

section Unshifted

variable {t base : Term} {marker : Nat} {a : Arena}

theorem rebase_allocated (ht : t.Allocated a) (hb : base.Allocated a) :
    (t.rebase marker base 0 a).1.Allocated (t.rebase marker base 0 a).2 := by
  refine rebase_induction (motive := fun _ r => r.1.Allocated r.2) hb ?_
  intro id subject action he s b hs
  exact hs.step fun c hc =>
    ((ht.of_mem_spine he).operand hc).mono (size_le_rebase subject marker base 0 a)

theorem rebase_references {P : Nat → Nat → Prop} {level : Nat} (ht : t.References P level)
    (hb : base.References P level) : (t.rebase marker base 0 a).1.References P level := by
  refine rebase_induction (motive := fun _ r => r.1.References P level) hb ?_
  intro id subject action he s b hs
  refine .node (fun _ _ he => by cases he) fun c hc => ?_
  rcases List.mem_cons.1 hc with rfl | hc
  · exact hs
  · exact (ht.of_mem_spine he).operand hc

theorem mem_spine_rebase {entry : Term} (he : entry ∈ base.spine) :
    entry ∈ (t.rebase marker base 0 a).1.spine :=
  rebase_induction (motive := fun _ r => entry ∈ r.1.spine) he
    fun _ _ _ _ => List.mem_cons_of_mem _

end Unshifted

end Term

namespace Request

theorem cut_eq_ok {r : Request} {marker : Nat} {c : Cut} (h : r.cut marker = .ok c) :
    ∃ before, r.onChain? marker = some before ∧ c.before = { r with root := before } ∧
      c.after = r.rebuild (fun root => do
        let placeholder ← alloc (.context · 0)
        root.rebase marker placeholder 1) := by
  unfold cut at h
  cases hb : r.onChain? marker with
  | none =>
    rw [hb] at h
    cases h
  | some before =>
    rw [hb] at h
    cases h
    exact ⟨before, rfl, rfl, rfl⟩

/-- The rest of a cut request over a value agrees with the request, if that value agrees with the
part before the cut. -/
theorem cut_after_related {r : Request} {marker : Nat} {c : Cut} {v : Value}
    (hnames : ∀ s t, Evaluated.NamesPair T s t) (hr : r.Ordered) (hc : r.cut marker = .ok c)
    (href : r.root.References (scope.Carries T (v :: scope) 1) 0)
    (hv : Outcome.Related T (Evaluated.Related T) (c.before.root.eval input scope).outcome
      (.ok (.value v))) :
    Outcome.Related T Eq (r.eval input scope) (c.after.eval input (v :: scope)) := by
  obtain ⟨before, hfound, hbefore, hafter⟩ := cut_eq_ok hc
  rw [hbefore] at hv
  rw [hafter]
  refine Outcome.Related.outcome (Term.rebase_related (n := r.arena.size) hnames hfound hv ?_ ?_)
  · intro id subject action he b hb
    exact Step.shift_agree hnames (by decide) ((hr.of_mem_spine he).mono hb)
      (href.of_mem_spine he)
  · simp [Arena.size]

end Request

namespace Evaluated

/-- A drained sequence agrees with the list it was drained into. -/
theorem related_of_toValue {e : Evaluated} {v : Value} (h : e.toValue.outcome = .ok v) :
    e.Related T (value v) := by
  cases e with
  | value w =>
    cases h
    exact .value v
  | pulls ps =>
    rw [outcome_toValue_of_yields rfl] at h
    cases hc : Yields.collect ps.yields with
    | error e =>
      rw [hc] at h
      cases h
    | ok vs =>
      rw [hc] at h
      cases h
      exact .sequence rfl rfl (Yields.eq_ofList_of_collect hc ▸ .refl _)

end Evaluated

theorem Term.eval_related_of_outcome {t : Term} {v : Value} (h : t.outcome input scope = .ok v) :
    Outcome.Related T (Evaluated.Related T) (t.eval input scope).outcome (.ok (.value v)) := by
  rw [outcome_eq] at h
  cases he : (t.eval input scope).outcome with
  | error e =>
    rw [he] at h
    cases h
  | ok e =>
    rw [he] at h
    exact .ok (Evaluated.related_of_toValue h)

/-- Errors of one kind stand for each other, whatever their texts say. -/
def Tolerance.kinds : Tolerance where
  pairs e f := e.kind = f.kind
  first _ := False
  second _ := False
  pairs_refl _ := rfl

theorem Tolerance.kinds_namesPair (s t : Term) : Evaluated.NamesPair kinds s t := ⟨rfl, rfl⟩

theorem Outcome.Related.mapError_kind {α : Type} {x y : Outcome α}
    (h : Outcome.Related .kinds Eq x y) : x.mapError Error.kind = y.mapError Error.kind := by
  cases h with
  | ok h => rw [h]
  | error h => exact congrArg Except.error h
  | first h => exact h.elim
  | second h => exact h.elim

/-- References that stay inside the common scopes read alike. -/
theorem Scope.carries_of_lt {T : Tolerance} (scope scope' : Scope) (scopes : Int) {level up : Nat}
    (h : up < level) : scope.Carries T scope' scopes level up := by
  intro frames hf
  have hmoved : movedUp? scopes level up = none := by
    simp only [movedUp?]
    rw [if_neg (by omega)]
  have hlt : up < frames.length := hf ▸ h
  rw [hmoved, Option.getD_none, Scope.read, Scope.read, List.getElem?_append_left hlt,
    List.getElem?_append_left hlt, List.getElem?_eq_getElem hlt]
  exact .refl _

/-- One more scope around a term carries its references, as long as depths fit into a word. -/
theorem Scope.carries_cons (scope : Scope) (v : Value) {level : Nat} (up : Nat)
    (h : scope.length + level + 1 < 2 ^ 64) : scope.Carries .kinds (v :: scope) 1 level up := by
  intro frames hf
  by_cases hup : level ≤ up
  · have hl : (frames ++ scope)[up]? = scope[up - level]? := by
      rw [List.getElem?_append_right (by omega), hf]
    have hr : (frames ++ v :: scope)[up + 1]? = scope[up - level]? := by
      rw [List.getElem?_append_right (by omega), hf, show up + 1 - level = up - level + 1 by omega,
        List.getElem?_cons_succ]
    by_cases hw : up + 1 < 2 ^ 64
    · have hmoved : movedUp? 1 level up = some (up + 1) := by
        simp only [movedUp?]
        rw [if_pos (by omega)]
        simp
      rw [hmoved, Option.getD_some, Scope.read, Scope.read, hl, hr]
      cases scope[up - level]? with
      | none => exact .error rfl
      | some w => exact .refl _
    · have hmoved : movedUp? 1 level up = none := by
        simp only [movedUp?]
        rw [if_neg (by omega)]
      have hn : (frames ++ v :: scope)[up]? = none :=
        List.getElem?_eq_none (by simp only [List.length_append, List.length_cons, hf]; omega)
      have hs : (frames ++ scope)[up]? = none :=
        List.getElem?_eq_none (by simp only [List.length_append, hf]; omega)
      rw [hmoved, Option.getD_none, Scope.read, Scope.read, hs, hn]
      exact .error rfl
  · have hmoved : movedUp? 1 level up = none := by
      simp only [movedUp?]
      rw [if_neg (by omega)]
    rw [hmoved, Option.getD_none, Scope.read, Scope.read,
      List.getElem?_append_left (by omega), List.getElem?_append_left (by omega)]
    cases frames[up]? with
    | none => exact .error rfl
    | some w => exact .refl _

/-- A cut changes no answer: over the value of the part before it, the rest gives the value of the
whole request or an error of the same kind. -/
theorem Request.cut_preserves_answer {r : Request} {marker : Nat} {c : Cut} {input : Input}
    {scope : Scope} {v : Value} (hr : r.Ordered) (hsize : scope.length + r.arena.size < 2 ^ 64)
    (hc : r.cut marker = .ok c) (hv : c.before.eval input scope = .ok v) :
    (c.after.eval input (v :: scope)).mapError Error.kind =
      (r.eval input scope).mapError Error.kind := by
  have hroot := hr.id_lt
  have href : r.root.References (scope.Carries .kinds (v :: scope) 1) 0 :=
    (hr.ordered.references_le (Nat.le_of_eq (Nat.zero_add _))).mono fun level up hlevel =>
      scope.carries_cons v up (by omega)
  exact (cut_after_related Tolerance.kinds_namesPair hr hc href
    (Term.eval_related_of_outcome hv)).mapError_kind.symm

/-- The distinct elements of a source, each added to the element of the scope around. -/
def Request.offsets : Request :=
  ((Request.source "items").wrap .distinct).combine
    ((Request.context 0).combine (Request.context 1) (.binary .add)) .map

theorem Request.offsets_ordered : offsets.Ordered :=
  ⟨by
    change (Term.step 5 (.step 1 (.source 0 "items") .distinct)
      (.map (.step 4 (.context 2 0) (.binary .add (.context 3 1))))).Ordered
    simp [Term.ordered_step, Step.operands, Term.id], by decide⟩

theorem Request.offsets_cut_preserves_answer :
    ∃ c, offsets.cut 1 = .ok c ∧
      c.before.eval (.ofFields [("items", [.int 1, .int 2])]) [.int 10] =
        .ok (.list [.int 1, .int 2]) ∧
      (c.after.eval (.ofFields [("items", [.int 1, .int 2])])
        [.list [.int 1, .int 2], .int 10]).mapError Error.kind =
      (offsets.eval (.ofFields [("items", [.int 1, .int 2])]) [.int 10]).mapError Error.kind :=
  ⟨_, rfl, rfl, cut_preserves_answer offsets_ordered (by decide)
    (show offsets.cut 1 = _ from rfl) rfl⟩

end QueryPushdown
