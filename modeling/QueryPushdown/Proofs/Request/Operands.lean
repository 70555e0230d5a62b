import Mathlib.Data.List.Forall2
import QueryPushdown.Request.Arena

/-!
# Operands of terms

Induction on terms by their operands, steps that are alike except for their operands, the order in
which nodes are allocated, and the references of a term together with the scopes around them.
-/

namespace QueryPushdown

section Induction

variable {P : Term → Prop}

mutual

private theorem term_induction (h : ∀ t, (∀ c ∈ t.children, P c.1) → P t) : ∀ t : Term, P t
  | .source id name => h _ (by simp [Term.children])
  | .literal id value => h _ (by simp [Term.children])
  | .context id up => h _ (by simp [Term.children])
  | .record id fields => h _ fun c hc => by
    obtain ⟨f, hf, rfl⟩ := List.mem_map.1 hc
    exact fields_induction h fields f hf
  | .step id subject action => h _ fun c hc => by
    rcases List.mem_cons.1 hc with rfl | hc
    · exact term_induction h subject
    · exact operands_induction h action c hc

private theorem operands_induction (h : ∀ t, (∀ c ∈ t.children, P c.1) → P t) :
    ∀ a : Step, ∀ c ∈ a.operands, P c.1
  | .binary _ rhs, c, hc => by
    obtain rfl := List.mem_singleton.1 hc
    exact term_induction h rhs
  | .filter predicate, c, hc => by
    obtain rfl := List.mem_singleton.1 hc
    exact term_induction h predicate
  | .map transform, c, hc => by
    obtain rfl := List.mem_singleton.1 hc
    exact term_induction h transform
  | .sort keys, c, hc => by
    obtain ⟨k, hk, rfl⟩ := List.mem_map.1 hc
    exact keys_induction h keys k hk
  | .groupby key aggregates, c, hc => by
    rcases List.mem_cons.1 hc with rfl | hc
    · exact term_induction h key
    · obtain ⟨f, hf, rfl⟩ := List.mem_map.1 hc
      exact fields_induction h aggregates f hf
  | .oneOr default, c, hc => by
    obtain rfl := List.mem_singleton.1 hc
    exact term_induction h default
  | .field _, _, hc | .unary _, _, hc | .slice _ _, _, hc | .index _, _, hc | .distinct, _, hc
  | .one, _, hc | .aggregate _, _, hc => by cases hc

private theorem fields_induction (h : ∀ t, (∀ c ∈ t.children, P c.1) → P t) :
    ∀ fs : List (String × Term), ∀ f ∈ fs, P f.2
  | [], _, hf => by cases hf
  | (_, t) :: rest, f, hf => by
    rcases List.mem_cons.1 hf with rfl | hf
    · exact term_induction h t
    · exact fields_induction h rest f hf

private theorem keys_induction (h : ∀ t, (∀ c ∈ t.children, P c.1) → P t) :
    ∀ ks : List (Term × Bool), ∀ k ∈ ks, P k.1
  | [], _, hk => by cases hk
  | (t, _) :: rest, k, hk => by
    rcases List.mem_cons.1 hk with rfl | hk
    · exact term_induction h t
    · exact keys_induction h rest k hk

end

/-- What holds of a term when it holds of all its operands holds of every term. -/
theorem Term.children_induction (h : ∀ t, (∀ c ∈ t.children, P c.1) → P t) (t : Term) : P t :=
  term_induction h t

end Induction

namespace Step

/-- Steps of one kind whose operands are related, under the scopes that the step binds. -/
inductive Alike (R : Nat → Term → Term → Prop) : Step → Step → Prop
  | bare {a : Step} (h : a.operands = []) : Alike R a a
  | binary {op : BinaryOp} {s t : Term} (h : R 0 s t) : Alike R (.binary op s) (.binary op t)
  | filter {s t : Term} (h : R 1 s t) : Alike R (.filter s) (.filter t)
  | map {s t : Term} (h : R 1 s t) : Alike R (.map s) (.map t)
  | sort {ks ls : List (Term × Bool)}
    (h : List.Forall₂ (fun k l => R 1 k.1 l.1 ∧ k.2 = l.2) ks ls) : Alike R (.sort ks) (.sort ls)
  | groupby {s t : Term} {fs gs : List (String × Term)} (h : R 1 s t)
    (hs : List.Forall₂ (fun f g => f.1 = g.1 ∧ R 1 f.2 g.2) fs gs) :
    Alike R (.groupby s fs) (.groupby t gs)
  | oneOr {s t : Term} (h : R 0 s t) : Alike R (.oneOr s) (.oneOr t)

namespace Alike

variable {R S : Nat → Term → Term → Prop}

theorem mono {a b : Step} (h : Alike R a b)
    (hRS : ∀ n s t, (s, n) ∈ a.operands → R n s t → S n s t) : Alike S a b := by
  cases h with
  | bare h => exact .bare h
  | binary h => exact .binary (hRS _ _ _ (by simp [operands]) h)
  | filter h => exact .filter (hRS _ _ _ (by simp [operands]) h)
  | map h => exact .map (hRS _ _ _ (by simp [operands]) h)
  | @sort ks ls h =>
    have hm : ∀ k ∈ ks, (k.1, 1) ∈ operands (.sort ks) := fun k hk =>
      List.mem_map.2 ⟨k, hk, rfl⟩
    refine .sort (List.forall₂_iff_get.2 ?_)
    obtain ⟨hlen, hget⟩ := List.forall₂_iff_get.1 h
    exact ⟨hlen, fun i hi hj =>
      ⟨hRS _ _ _ (hm _ (List.get_mem _ _)) (hget i hi hj).1, (hget i hi hj).2⟩⟩
  | @groupby s t fs gs h hs =>
    have hm : ∀ f ∈ fs, (f.2, 1) ∈ operands (.groupby s fs) := fun f hf =>
      List.mem_cons_of_mem _ (List.mem_map.2 ⟨f, hf, rfl⟩)
    refine .groupby (hRS _ _ _ (by simp [operands]) h) (List.forall₂_iff_get.2 ?_)
    obtain ⟨hlen, hget⟩ := List.forall₂_iff_get.1 hs
    exact ⟨hlen, fun i hi hj =>
      ⟨(hget i hi hj).1, hRS _ _ _ (hm _ (List.get_mem _ _)) (hget i hi hj).2⟩⟩
  | oneOr h => exact .oneOr (hRS _ _ _ (by simp [operands]) h)

theorem refl {a : Step} (h : ∀ c ∈ a.operands, R c.2 c.1 c.1) : Alike R a a := by
  cases a with
  | binary op rhs => exact .binary (h (rhs, 0) (by simp [operands]))
  | filter predicate => exact .filter (h (predicate, 1) (by simp [operands]))
  | map transform => exact .map (h (transform, 1) (by simp [operands]))
  | sort keys =>
    refine .sort (List.forall₂_same.2 fun k hk => ⟨?_, rfl⟩)
    exact h (k.1, 1) (List.mem_map.2 ⟨k, hk, rfl⟩)
  | groupby key aggregates =>
    refine .groupby (h (key, 1) (by simp [operands])) (List.forall₂_same.2 fun f hf => ⟨rfl, ?_⟩)
    exact h (f.2, 1) (List.mem_cons_of_mem _ (List.mem_map.2 ⟨f, hf, rfl⟩))
  | oneOr default => exact .oneOr (h (default, 0) (by simp [operands]))
  | _ => exact .bare rfl

/-- The sides of a comparison of steps may be exchanged with those of their operands. -/
theorem flip {a b : Step} (h : Alike R a b) : Alike (fun n s t => R n t s) b a := by
  cases h with
  | bare h => exact .bare h
  | binary h => exact .binary h
  | filter h => exact .filter h
  | map h => exact .map h
  | sort h => exact .sort (h.flip.imp fun _ _ hkl => ⟨hkl.1, hkl.2.symm⟩)
  | groupby h hs => exact .groupby h (hs.flip.imp fun _ _ hfg => ⟨hfg.1.symm, hfg.2⟩)
  | oneOr h => exact .oneOr h

end Alike

end Step

namespace Term

/-- Every node was allocated after its operands. -/
inductive Ordered : Term → Prop
  | node {t : Term} (hid : ∀ c ∈ t.children, c.1.id < t.id) (h : ∀ c ∈ t.children, Ordered c.1) :
    Ordered t

theorem Ordered.id_lt {t : Term} (h : t.Ordered) : ∀ c ∈ t.children, c.1.id < t.id := by
  cases h with
  | node hid _ => exact hid

theorem Ordered.child {t : Term} (h : t.Ordered) : ∀ c ∈ t.children, c.1.Ordered := by
  cases h with
  | node _ h => exact h

/-- Every reference of a term is as `P` asks, given the scopes around it and those it goes
outwards. `level` scopes are around the term. -/
inductive References (P : Nat → Nat → Prop) : Nat → Term → Prop
  | node {level : Nat} {t : Term} (hup : ∀ id up, t = context id up → P level up)
    (h : ∀ c ∈ t.children, References P (level + c.2) c.1) : References P level t

theorem References.child {P : Nat → Nat → Prop} {level : Nat} {t : Term}
    (h : t.References P level) : ∀ c ∈ t.children, c.1.References P (level + c.2) := by
  cases h with
  | node _ h => exact h

@[simp] theorem ordered_source (id : Nat) (name : String) : (source id name).Ordered :=
  .node (fun _ hc => by cases hc) (fun _ hc => by cases hc)

@[simp] theorem ordered_literal (id : Nat) (value : Value) : (literal id value).Ordered :=
  .node (fun _ hc => by cases hc) (fun _ hc => by cases hc)

@[simp] theorem ordered_context (id up : Nat) : (context id up).Ordered :=
  .node (fun _ hc => by cases hc) (fun _ hc => by cases hc)

theorem ordered_step {id : Nat} {subject : Term} {action : Step} :
    (step id subject action).Ordered ↔ (subject.Ordered ∧ subject.id < id) ∧
      ∀ c ∈ action.operands, c.1.Ordered ∧ c.1.id < id := by
  constructor
  · intro h
    exact ⟨⟨h.child (subject, 0) List.mem_cons_self, h.id_lt (subject, 0) List.mem_cons_self⟩,
      fun c hc => ⟨h.child c (List.mem_cons_of_mem _ hc), h.id_lt c (List.mem_cons_of_mem _ hc)⟩⟩
  · rintro ⟨⟨hs, hid⟩, ha⟩
    refine .node (fun c hc => ?_) (fun c hc => ?_)
    · rcases List.mem_cons.1 hc with rfl | hc
      · exact hid
      · exact (ha c hc).2
    · rcases List.mem_cons.1 hc with rfl | hc
      · exact hs
      · exact (ha c hc).1

theorem Ordered.subject {id : Nat} {subject : Term} {action : Step}
    (h : (step id subject action).Ordered) : subject.Ordered ∧ subject.id < id :=
  (ordered_step.1 h).1

theorem Ordered.operand {id : Nat} {subject : Term} {action : Step}
    (h : (step id subject action).Ordered) {c : Term × Nat} (hc : c ∈ action.operands) :
    c.1.Ordered ∧ c.1.id < id := (ordered_step.1 h).2 c hc

theorem References.subject {P : Nat → Nat → Prop} {level id : Nat} {subject : Term}
    {action : Step} (h : (step id subject action).References P level) :
    subject.References P level := h.child (subject, 0) List.mem_cons_self

theorem References.operand {P : Nat → Nat → Prop} {level id : Nat} {subject : Term}
    {action : Step} (h : (step id subject action).References P level) {c : Term × Nat}
    (hc : c ∈ action.operands) : c.1.References P (level + c.2) :=
  h.child c (List.mem_cons_of_mem _ hc)

theorem References.mono {P Q : Nat → Nat → Prop} {level : Nat} {t : Term}
    (h : t.References P level) (hPQ : ∀ n up, P n up → Q n up) : t.References Q level := by
  induction h with
  | node hup _ ih => exact .node (fun id up ht => hPQ _ _ (hup id up ht)) ih

theorem children_scopes_le (t : Term) : ∀ c ∈ t.children, c.2 ≤ 1 := by
  intro c hc
  cases t with
  | source id name => cases hc
  | literal id value => cases hc
  | context id up => cases hc
  | record id fields =>
    obtain ⟨f, _, rfl⟩ := List.mem_map.1 hc
    exact Nat.zero_le _
  | step id subject action =>
    rcases List.mem_cons.1 hc with rfl | hc
    · exact Nat.zero_le _
    · cases action with
      | sort keys =>
        obtain ⟨k, _, rfl⟩ := List.mem_map.1 hc
        exact Nat.le_refl _
      | groupby key aggregates =>
        rcases List.mem_cons.1 hc with rfl | hc
        · exact Nat.le_refl _
        · obtain ⟨f, _, rfl⟩ := List.mem_map.1 hc
          exact Nat.le_refl _
      | binary op t | oneOr t =>
        obtain rfl := List.mem_singleton.1 hc
        exact Nat.zero_le _
      | filter t | map t =>
        obtain rfl := List.mem_singleton.1 hc
        exact Nat.le_refl _
      | _ => cases hc

/-- The scopes inside a term are fewer than the nodes allocated before it. -/
theorem Ordered.references_le {t : Term} (h : t.Ordered) {level n : Nat} (hn : level + t.id ≤ n) :
    t.References (fun inner _ => inner ≤ n) level := by
  induction h generalizing level with
  | @node t hid _ ih =>
    refine .node (fun _ _ _ => by omega) fun c hc => ih c hc ?_
    have h₁ := hid c hc
    have h₂ := children_scopes_le t c hc
    omega

theorem self_mem_spine (t : Term) : t ∈ t.spine := by
  cases t <;> simp [spine]

theorem spine_subset_of_mem {t entry : Term} (he : entry ∈ t.spine) : entry.spine ⊆ t.spine := by
  refine holds_of_mem_spine (P := fun e => e.spine ⊆ t.spine) ?_ (fun _ hx => hx) he
  exact fun id subject action h x hx => h (List.mem_cons_of_mem _ hx)

theorem subject_mem_spine {t subject : Term} {id : Nat} {action : Step}
    (he : step id subject action ∈ t.spine) : subject ∈ t.spine :=
  spine_subset_of_mem he (List.mem_cons_of_mem _ subject.self_mem_spine)

theorem mem_chain {t entry : Term} : entry ∈ t.chain ↔ entry ∈ t.spine := List.mem_reverse

theorem Ordered.of_mem_spine {t entry : Term} (h : t.Ordered) (he : entry ∈ t.spine) :
    entry.Ordered ∧ entry.id ≤ t.id := by
  refine holds_of_mem_spine (P := fun e => e.Ordered ∧ e.id ≤ t.id) ?_ ⟨h, Nat.le_refl _⟩ he
  rintro id subject action ⟨ho, hid⟩
  exact ⟨ho.subject.1, Nat.le_trans (Nat.le_of_lt ho.subject.2) hid⟩

theorem References.of_mem_spine {P : Nat → Nat → Prop} {level : Nat} {t entry : Term}
    (h : t.References P level) (he : entry ∈ t.spine) : entry.References P level :=
  holds_of_mem_spine (P := References P level) (fun _ _ _ hs => hs.subject) h he

/-- An entry of an ordered chain is found by its number. -/
theorem Ordered.find?_spine {t entry : Term} (h : t.Ordered) (he : entry ∈ t.spine) :
    t.spine.find? (·.id == entry.id) = some entry := by
  induction t using spine.induct with
  | case1 id subject action ih =>
    rw [spine, List.mem_cons] at he
    rcases he with rfl | he
    · rw [spine, List.find?_cons_of_pos (by simp)]
    · have hlt : entry.id < id := Nat.lt_of_le_of_lt (h.subject.1.of_mem_spine he).2 h.subject.2
      rw [spine]
      refine (List.find?_cons_of_neg fun heq => ?_).trans (ih h.subject.1 he)
      exact Nat.ne_of_gt hlt (beq_iff_eq.1 heq)
  | case2 t ht =>
    rw [spine_eq_singleton ht, List.mem_singleton] at he
    subst he
    rw [spine_eq_singleton ht, List.find?_cons_of_pos (by simp)]

/-- A term was allocated in an arena, operands first. -/
structure Allocated (a : Arena) (t : Term) : Prop where
  ordered : t.Ordered
  id_lt : t.id < a.size

theorem Allocated.mono {a b : Arena} {t : Term} (h : t.Allocated a) (hab : a.size ≤ b.size) :
    t.Allocated b := ⟨h.ordered, Nat.lt_of_lt_of_le h.id_lt hab⟩

theorem Allocated.of_mem_spine {a : Arena} {t entry : Term} (h : t.Allocated a)
    (he : entry ∈ t.spine) : entry.Allocated a := by
  obtain ⟨ho, hid⟩ := h.ordered.of_mem_spine he
  exact ⟨ho, Nat.lt_of_le_of_lt hid h.id_lt⟩

@[simp] theorem id_alloc (make : Nat → Term) (a : Arena) : (alloc make a).1 = make a.size := rfl

@[simp] theorem size_alloc (make : Nat → Term) (a : Arena) :
    (alloc make a).2.size = a.size + 1 := by
  simp [alloc, Arena.size]

theorem Allocated.step {a : Arena} {subject : Term} {action : Step} (hs : subject.Allocated a)
    (ha : ∀ c ∈ action.operands, c.1.Allocated a) :
    (alloc (step · subject action) a).1.Allocated (alloc (step · subject action) a).2 :=
  ⟨ordered_step.2 ⟨⟨hs.ordered, hs.id_lt⟩, fun c hc => ⟨(ha c hc).ordered, (ha c hc).id_lt⟩⟩,
    by simp [Term.id]⟩

theorem Allocated.subject {a : Arena} {id : Nat} {subject : Term} {action : Step}
    (h : (Term.step id subject action).Allocated a) : subject.Allocated a :=
  ⟨h.ordered.subject.1, Nat.lt_trans h.ordered.subject.2 h.id_lt⟩

theorem Allocated.operand {a : Arena} {id : Nat} {subject : Term} {action : Step}
    (h : (Term.step id subject action).Allocated a) {c : Term × Nat} (hc : c ∈ action.operands) :
    c.1.Allocated a :=
  ⟨(h.ordered.operand hc).1, Nat.lt_trans (h.ordered.operand hc).2 h.id_lt⟩

theorem Allocated.predicate {a : Arena} {id : Nat} {subject predicate : Term}
    (h : (Term.step id subject (.filter predicate)).Allocated a) : predicate.Allocated a :=
  h.operand (c := (predicate, 1)) List.mem_cons_self

theorem Allocated.filter {a : Arena} {subject predicate : Term} (hs : subject.Allocated a)
    (hp : predicate.Allocated a) :
    (alloc (.step · subject (.filter predicate)) a).1.Allocated
      (alloc (.step · subject (.filter predicate)) a).2 :=
  hs.step fun c hc => by
    obtain rfl := List.mem_singleton.1 hc
    exact hp

end Term

namespace Request

/-- The nodes of a request were allocated in its arena, operands first. -/
abbrev Ordered (r : Request) : Prop := r.root.Allocated r.arena

end Request

end QueryPushdown
