import Mathlib.Data.List.Forall2
import QueryPushdown.Fields

/-!
# Fields in pairs

Two lists of fields of the same names, whose contents are in some relation name by name. Looking a
name up, inserting under it and extending one list by another keep the relation.
-/

namespace QueryPushdown.Fields

variable {α β : Type}

/-- The same names in the same order, with contents in relation `R`. -/
abbrev Paired (R : α → β → Prop) (as : Fields α) (bs : Fields β) : Prop :=
  List.Forall₂ (fun a b => a.1 = b.1 ∧ R a.2 b.2) as bs

namespace Paired

variable {R : α → β → Prop} {as more : Fields α} {bs others : Fields β}

theorem names_eq (h : Paired R as bs) : names as = names bs := by
  induction h with
  | nil => rfl
  | cons hab _ ih => exact congr (congrArg List.cons hab.1) ih

theorem get? (h : Paired R as bs) (name : String) :
    Option.Rel R (Fields.get? as name) (Fields.get? bs name) := by
  induction h with
  | nil => exact .none
  | @cons a b as bs hab _ ih =>
    obtain ⟨n, a⟩ := a
    obtain ⟨m, b⟩ := b
    obtain ⟨rfl, hab⟩ := hab
    by_cases hn : n = name
    · simpa only [Fields.get?, hn, if_true] using .some hab
    · simpa only [Fields.get?, hn, if_false] using ih

theorem insert (h : Paired R as bs) (name : String) {a : α} {b : β} (hab : R a b) :
    Paired R (Fields.insert as name a) (Fields.insert bs name b) := by
  induction h with
  | nil => exact .cons ⟨rfl, hab⟩ .nil
  | @cons f g as bs hfg h ih =>
    obtain ⟨n, c⟩ := f
    obtain ⟨m, d⟩ := g
    obtain ⟨rfl, hcd⟩ := hfg
    by_cases hn : n = name
    · simp only [Fields.insert, hn, if_true]
      exact .cons ⟨rfl, hab⟩ h
    · simp only [Fields.insert, hn, if_false]
      exact .cons ⟨rfl, hcd⟩ ih

theorem extend (h : Paired R as bs) (hmore : Paired R more others) :
    Paired R (Fields.extend as more) (Fields.extend bs others) := by
  unfold Fields.extend
  induction hmore generalizing as bs with
  | nil => exact h
  | @cons f g more others hfg _ ih =>
    obtain ⟨n, a⟩ := f
    obtain ⟨m, b⟩ := g
    obtain ⟨rfl, hab⟩ := hfg
    exact ih (h.insert n hab)

end Paired

end QueryPushdown.Fields
