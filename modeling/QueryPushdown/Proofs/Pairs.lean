import Mathlib.Data.List.Forall2
import QueryPushdown.Error

/-!
# Lists in pairs

Two lists whose elements are in some relation one by one, as the results of an operation are with what
it was done to.
-/

namespace QueryPushdown

theorem Outcome.mapM_eq_ok {α β : Type} {f : α → Outcome β} {xs : List α} {ys : List β} :
    xs.mapM f = .ok ys ↔ List.Forall₂ (fun x y => f x = .ok y) xs ys := by
  induction xs generalizing ys with
  | nil =>
    rw [List.forall₂_nil_left_iff]
    exact ⟨fun h => by cases h; rfl, fun h => by rw [h]; rfl⟩
  | cons x xs ih =>
    rw [List.mapM_cons]
    constructor
    · intro h
      obtain ⟨y, hy, h⟩ := Outcome.bind_eq_ok.1 h
      obtain ⟨others, hothers, h⟩ := Outcome.bind_eq_ok.1 h
      cases h
      exact .cons hy (ih.1 hothers)
    · rintro (- | ⟨hy, hothers⟩)
      rw [hy, ih.2 hothers]
      rfl

/-- An operation that gives a result on each element gives results on all of them. -/
theorem Outcome.exists_mapM {α β : Type} {f : α → Outcome β} {xs : List α}
    (h : ∀ x ∈ xs, ∃ y, f x = .ok y) : ∃ ys, xs.mapM f = .ok ys := by
  induction xs with
  | nil => exact ⟨[], rfl⟩
  | cons x xs ih =>
    obtain ⟨⟨y, hy⟩, hxs⟩ := List.forall_mem_cons.1 h
    obtain ⟨ys, hys⟩ := ih hxs
    exact ⟨y :: ys, by rw [List.mapM_cons, hy, hys]; rfl⟩

/-- An operation that gives a result on all elements is a function of them. -/
theorem Outcome.exists_of_mapM {α β : Type} (other : β) {f : α → Outcome β} {xs : List α}
    {ys : List β} (h : xs.mapM f = .ok ys) :
    ∃ g : α → β, (∀ x ∈ xs, f x = .ok (g x)) ∧ ys = xs.map g := by
  refine ⟨fun x => (f x).toOption.getD other, ?_⟩
  have hpairs := Outcome.mapM_eq_ok.1 h
  clear h
  induction hpairs with
  | nil => exact ⟨fun _ hx => (nomatch hx), rfl⟩
  | @cons x y xs ys hxy _ ih =>
    have hfirst : (f x).toOption.getD other = y := by
      rw [hxy]
      rfl
    refine ⟨List.forall_mem_cons.2 ⟨?_, ih.1⟩, ?_⟩
    · exact hxy.trans (congrArg _ hfirst.symm)
    · rw [List.map_cons, hfirst, ← ih.2]

theorem forall₂_trans {α β γ : Type} {P : α → β → Prop} {Q : β → γ → Prop}
    {R : α → γ → Prop} (hR : ∀ a b c, P a b → Q b c → R a c) {as : List α} {bs : List β}
    {cs : List γ} (h : List.Forall₂ P as bs) (h' : List.Forall₂ Q bs cs) : List.Forall₂ R as cs := by
  induction h generalizing cs with
  | nil =>
    cases h'
    exact .nil
  | cons hab _ ih =>
    cases h' with
    | cons hbc hrest => exact .cons (hR _ _ _ hab hbc) (ih hrest)

theorem exists_of_mem_left {α β : Type} {P : α → β → Prop} {as : List α} {bs : List β}
    (h : List.Forall₂ P as bs) {a : α} (ha : a ∈ as) : ∃ b ∈ bs, P a b := by
  induction h with
  | nil => cases ha
  | @cons x y as bs hxy _ ih =>
    rcases List.mem_cons.1 ha with rfl | ha
    · exact ⟨y, List.mem_cons_self, hxy⟩
    · obtain ⟨b, hb, hab⟩ := ih ha
      exact ⟨b, List.mem_cons_of_mem _ hb, hab⟩

end QueryPushdown
