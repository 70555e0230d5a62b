import QueryPushdown.Proofs.Eval.Occurrences
import QueryPushdown.Proofs.Eval.Steps

/-!
# Rows that back a sequence

A lazy sequence stops at its first failure, a store goes through all rows. Rows back a sequence when
they stand for its elements one by one as far as the first failure; what comes after that is left
open. Filters, maps, slices and the removal of equal elements keep rows behind a sequence, and all
elements of a sequence that does not fail have their rows.
-/

namespace QueryPushdown

namespace Yields

variable {α : Type} {R S : α → Value → Prop} {ys zs : Yields} {rows : List α} {vs : List Value}

theorem ok_mem_ofList {v : Value} : .ok v ∈ ofList vs ↔ v ∈ vs :=
  List.mem_map_of_injective fun _ _ h => Except.ok.inj h

/-- Rows stand for the elements of a sequence, up to its first failure. -/
inductive Backed (R : α → Value → Prop) : Yields → List α → Prop
  | nil : Backed R [] []
  | error (e : Error) (ys : Yields) (rows : List α) : Backed R (.error e :: ys) rows
  | ok {a : α} {v : Value} {ys : Yields} {rows : List α} (h : R a v) (hrest : Backed R ys rows) :
    Backed R (.ok v :: ys) (a :: rows)

namespace Backed

theorem ofList (h : List.Forall₂ R rows vs) : Backed R (Yields.ofList vs) rows := by
  induction h with
  | nil => exact .nil
  | cons h _ ih => exact .ok h ih

theorem forall₂ (h : Backed R (Yields.ofList vs) rows) : List.Forall₂ R rows vs := by
  induction vs generalizing rows with
  | nil =>
    cases h
    exact .nil
  | cons v vs ih =>
    cases h with
    | ok h hrest => exact .cons h (ih hrest)

theorem imp (h : Backed R ys rows) (hRS : ∀ a ∈ rows, ∀ v, .ok v ∈ ys → R a v → S a v) :
    Backed S ys rows := by
  induction h with
  | nil => exact .nil
  | error e ys rows => exact .error e ys rows
  | @ok a v ys rows h _ ih =>
    refine .ok (hRS a List.mem_cons_self v List.mem_cons_self h) (ih fun b hb w hw => ?_)
    exact hRS b (List.mem_cons_of_mem _ hb) w (List.mem_cons_of_mem _ hw)

theorem map {β : Type} {f : α → β} {T : β → Value → Prop} (h : Backed R ys rows)
    (hRT : ∀ a ∈ rows, ∀ v, .ok v ∈ ys → R a v → T (f a) v) : Backed T ys (rows.map f) := by
  induction h with
  | nil => exact .nil
  | error e ys rows => exact .error e ys _
  | @ok a v ys rows h _ ih =>
    refine .ok (hRT a List.mem_cons_self v List.mem_cons_self h) (ih fun b hb w hw => ?_)
    exact hRT b (List.mem_cons_of_mem _ hb) w (List.mem_cons_of_mem _ hw)

/-- Rows are kept when their elements are. -/
theorem keep {test : Value → Outcome Bool} {p : α → Bool} (h : Backed R ys rows)
    (hp : ∀ a ∈ rows, ∀ v, .ok v ∈ ys → R a v → ∀ b, test v = .ok b → p a = b) :
    Backed R (Yields.keep test ys) (rows.filter p) := by
  induction h with
  | nil => exact .nil
  | error e ys rows => exact .error e _ _
  | @ok a v ys rows h _ ih =>
    have hfirst := hp a List.mem_cons_self v List.mem_cons_self h
    have hrest := ih fun b hb w hw => hp b (List.mem_cons_of_mem _ hb) w (List.mem_cons_of_mem _ hw)
    rw [Yields.keep, List.filter_cons]
    cases htest : test v with
    | error e => exact .error e _ _
    | ok b =>
      rw [hfirst b htest]
      cases b with
      | true => exact .ok h hrest
      | false => exact hrest

/-- A row stands for what an element is mapped to. -/
theorem mapWith {f : Value → Outcome Value} (h : Backed R ys rows)
    (hf : ∀ a ∈ rows, ∀ v, .ok v ∈ ys → R a v → ∀ w, f v = .ok w → S a w) :
    Backed S (Yields.mapWith f ys) rows := by
  induction h with
  | nil => exact .nil
  | error e ys rows => exact .error e _ _
  | @ok a v ys rows h _ ih =>
    have hfirst := hf a List.mem_cons_self v List.mem_cons_self h
    have hrest := ih fun b hb w hw => hf b (List.mem_cons_of_mem _ hb) w (List.mem_cons_of_mem _ hw)
    change Backed S (f v :: Yields.mapWith f ys) _
    cases hw : f v with
    | error e => exact .error e _ _
    | ok w => exact .ok (hfirst w hw) hrest

theorem skip (h : Backed R ys rows) (n : Nat) : Backed R (Yields.skip n ys) (rows.drop n) := by
  induction h generalizing n with
  | nil =>
    rw [List.drop_nil]
    exact .nil
  | error e ys rows => exact .error e _ _
  | @ok a v ys rows h hrest ih =>
    rw [Yields.skip]
    cases n with
    | zero => exact .ok h (ih 0)
    | succ n => exact ih n

theorem take (h : Backed R ys rows) (n : Nat) : Backed R (ys.take n) (rows.take n) := by
  induction h generalizing n with
  | nil =>
    rw [List.take_nil, List.take_nil]
    exact .nil
  | error e ys rows =>
    cases n with
    | zero => exact .nil
    | succ n => exact .error e _ _
  | ok h _ ih =>
    cases n with
    | zero => exact .nil
    | succ n => exact .ok h (ih n)

/-- A sequence is backed by the rows of the elements before its first failure, and any others. -/
theorem split (h : Backed R ys rows) : ∃ vs firsts, List.Forall₂ R firsts vs ∧
    (ys = Yields.ofList vs ∧ rows = firsts ∨
      ∃ e zs more, ys = Yields.ofList vs ++ .error e :: zs ∧ rows = firsts ++ more) := by
  induction h with
  | nil => exact ⟨[], [], .nil, .inl ⟨rfl, rfl⟩⟩
  | error e ys rows => exact ⟨[], [], .nil, .inr ⟨e, ys, rows, rfl, rfl⟩⟩
  | @ok a v ys rows h _ ih =>
    obtain ⟨vs, firsts, hfirsts, ⟨rfl, rfl⟩ | ⟨e, zs, more, rfl, rfl⟩⟩ := ih
    · exact ⟨v :: vs, a :: rows, .cons h hfirsts, .inl ⟨rfl, rfl⟩⟩
    · exact ⟨v :: vs, a :: firsts, .cons h hfirsts, .inr ⟨e, zs, more, rfl, rfl⟩⟩

theorem append_error (h : List.Forall₂ R rows vs) (e : Error) (zs : Yields) (more : List α) :
    Backed R (Yields.ofList vs ++ .error e :: zs) (rows ++ more) := by
  induction h with
  | nil => exact .error e zs more
  | cons h _ ih => exact .ok h ih

end Backed

/-- The elements before the first failure are made distinct among themselves. -/
theorem distinct_append_error (seen : Seen) (vs : List Value) (e : Error) (zs : Yields) :
    ∃ zs', distinct seen (ofList vs ++ .error e :: zs) =
      ofList (seen.fresh vs) ++ .error e :: zs' := by
  induction vs generalizing seen with
  | nil => exact ⟨_, rfl⟩
  | cons v vs ih =>
    obtain ⟨zs', h⟩ := ih (seen.insert v).2
    rw [ofList_cons, List.cons_append, distinct, h, Seen.fresh]
    split
    · exact ⟨zs', rfl⟩
    · exact ⟨zs', rfl⟩

end Yields

namespace Occurrences

variable {α β : Type}

/-- What follows does not matter to which of the first elements are kept. -/
theorem eraseDupsBy_append (r : α → α → Bool) (xs ys : List α) :
    ∃ more, (xs ++ ys).eraseDupsBy r = xs.eraseDupsBy r ++ more := by
  match xs with
  | [] => exact ⟨_, rfl⟩
  | x :: xs =>
    obtain ⟨more, h⟩ := eraseDupsBy_append r (xs.filter fun y => decide (r y x = false))
      (ys.filter fun y => decide (r y x = false))
    refine ⟨more, ?_⟩
    rw [List.cons_append, List.eraseDupsBy_cons, List.filter_append, h, List.eraseDupsBy_cons,
      List.cons_append]
termination_by xs.length
decreasing_by exact length_filter_lt _ _ _

/-- Pairs that are compared alike are dropped together. -/
theorem eraseDupsBy_forall₂ {R : α → β → Prop} {r : α → α → Bool} {s : β → β → Bool}
    (h : ∀ a b c d, R a b → R c d → r a c = s b d) {as : List α} {bs : List β}
    (hR : List.Forall₂ R as bs) : List.Forall₂ R (as.eraseDupsBy r) (bs.eraseDupsBy s) := by
  match as, bs, hR with
  | [], [], _ => exact .nil
  | a :: as, b :: bs, .cons hab hR =>
    rw [List.eraseDupsBy_cons, List.eraseDupsBy_cons]
    refine .cons hab (eraseDupsBy_forall₂ h (List.rel_filter (fun c d hcd => ?_) hR))
    change decide (r c a = false) = true ↔ decide (s d b = false) = true
    rw [h c d a b hcd hab]
termination_by as.length
decreasing_by exact length_filter_lt _ _ _

end Occurrences

/-- Rows that are equal when their elements are back the distinct elements, the first ones kept. -/
theorem Yields.Backed.distinct {α : Type} {R : α → Value → Prop} {ys : Yields} {rows : List α}
    {same : α → α → Bool} (h : Backed R ys rows)
    (hsame : ∀ a v b w, R a v → R b w → same a b = v.isEq w) :
    Backed R (Yields.distinct {} ys) (rows.eraseDupsBy fun b a => same a b) := by
  obtain ⟨vs, firsts, hfirsts, hrest⟩ := h.split
  have hdistinct : List.Forall₂ R (firsts.eraseDupsBy fun b a => same a b) (Seen.fresh {} vs) := by
    rw [Seen.fresh_eq_firsts]
    exact Occurrences.eraseDupsBy_forall₂ (fun a v b w ha hb => hsame b w a v hb ha) hfirsts
  rcases hrest with ⟨rfl, rfl⟩ | ⟨e, zs, more, rfl, rfl⟩
  · rw [distinct_ofList]
    exact .ofList hdistinct
  · obtain ⟨zs', hzs⟩ := distinct_append_error {} vs e zs
    obtain ⟨others, hothers⟩ := Occurrences.eraseDupsBy_append (fun b a => same a b) firsts more
    rw [hzs, hothers]
    exact append_error hdistinct e zs' others

end QueryPushdown
