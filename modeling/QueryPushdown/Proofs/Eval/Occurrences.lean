import QueryPushdown.Proofs.Eval.Steps
import QueryPushdown.Proofs.Value.Equality

/-!
# First occurrences

Among equal elements of a list the first one is kept. Values met so far, whether remembered by key or
one by one, keep exactly the values that equal no value kept before.
-/

namespace QueryPushdown

namespace Occurrences

variable {α β : Type} {r s : α → α → Bool}

theorem length_filter_lt (p : α → Bool) (x : α) (xs : List α) :
    (xs.filter p).length < (x :: xs).length :=
  Nat.lt_succ_of_le (List.length_filter_le _ _)

theorem eraseDupsBy_sublist (r : α → α → Bool) (xs : List α) : (xs.eraseDupsBy r).Sublist xs := by
  match xs with
  | [] => exact .slnil
  | x :: xs =>
    rw [List.eraseDupsBy_cons]
    exact ((eraseDupsBy_sublist r _).trans List.filter_sublist).cons_cons x
termination_by xs.length
decreasing_by exact length_filter_lt _ _ _

theorem pairwise_eraseDupsBy (r : α → α → Bool) (xs : List α) :
    (xs.eraseDupsBy r).Pairwise fun a b => r b a = false := by
  match xs with
  | [] => exact .nil
  | x :: xs =>
    rw [List.eraseDupsBy_cons]
    refine List.pairwise_cons.2 ⟨fun b hb => ?_, pairwise_eraseDupsBy r _⟩
    exact of_decide_eq_true (List.mem_filter.1 ((eraseDupsBy_sublist r _).subset hb)).2
termination_by xs.length
decreasing_by exact length_filter_lt _ _ _

theorem eraseDupsBy_of_pairwise {xs : List α} (h : xs.Pairwise fun a b => r b a = false) :
    xs.eraseDupsBy r = xs := by
  induction xs with
  | nil => rfl
  | cons x xs ih =>
    obtain ⟨hx, h⟩ := List.pairwise_cons.1 h
    rw [List.eraseDupsBy_cons, List.filter_eq_self.2 fun b hb => decide_eq_true (hx b hb), ih h]

theorem eraseDupsBy_idem (r : α → α → Bool) (xs : List α) :
    (xs.eraseDupsBy r).eraseDupsBy r = xs.eraseDupsBy r :=
  eraseDupsBy_of_pairwise (pairwise_eraseDupsBy r xs)

theorem eraseDupsBy_map {r : β → β → Bool} (f : α → β) (xs : List α)
    (h : ∀ a ∈ xs, ∀ b ∈ xs, r (f b) (f a) = s b a) :
    (xs.map f).eraseDupsBy r = (xs.eraseDupsBy s).map f := by
  match xs with
  | [] => rfl
  | x :: xs =>
    obtain ⟨hx, hxs⟩ := List.forall_mem_cons.1 h
    have hfilter : (xs.map f).filter (fun b => decide (r b (f x) = false)) =
        (xs.filter fun b => decide (s b x = false)).map f := by
      rw [List.filter_map]
      exact congrArg (List.map f) (List.filter_congr fun b hb => by
        rw [Function.comp_apply, hx b (List.mem_cons_of_mem _ hb)])
    have hrest := eraseDupsBy_map f (xs.filter fun b => decide (s b x = false))
      fun a ha b hb => hxs a (List.mem_filter.1 ha).1 b
        (List.mem_cons_of_mem _ (List.mem_filter.1 hb).1)
    rw [List.map_cons, List.eraseDupsBy_cons, List.eraseDupsBy_cons, List.map_cons, hfilter, hrest]
termination_by xs.length
decreasing_by exact length_filter_lt _ _ _

end Occurrences

/-- The values of a list that equal no value before them. -/
def Value.firsts (vs : List Value) : List Value := vs.eraseDupsBy fun b a => a.isEq b

namespace Seen

/-- The values met so far, and their keys as long as these are known. -/
structure Remembers (seen : Seen) (us : List Value) : Prop where
  values : seen.values = us
  keys : ∀ keys, seen.keys = some keys → ∀ k, k ∈ keys ↔ ∃ u ∈ us, u.key? = some k

variable {seen : Seen} {us : List Value}

/-- A value with a key equals a value met before when its key was. -/
theorem Remembers.contains_eq (h : seen.Remembers us) {keys : List Key} {key : Key} {v : Value}
    (hkeys : seen.keys = some keys) (hv : v.key? = some key) :
    keys.contains key = us.any (·.isEq v) := by
  rw [Bool.eq_iff_iff, List.contains_iff_mem, h.keys keys hkeys, List.any_eq_true]
  constructor
  · rintro ⟨u, hu, hkey⟩
    exact ⟨u, hu, Value.isEq_of_key? hkey hv⟩
  · rintro ⟨u, hu, heq⟩
    exact ⟨u, hu, (Value.key?_of_isEq heq).trans hv⟩

/-- A value that equals none before it is new, and is remembered. -/
theorem Remembers.insert (h : seen.Remembers us) (v : Value) :
    (seen.insert v).1 = !us.any (·.isEq v) ∧
      (seen.insert v).2.Remembers (if us.any (·.isEq v) then us else us ++ [v]) := by
  have hvalues := h.values
  unfold Seen.insert
  split
  · rename_i keys key hkeys hv
    rw [h.contains_eq hkeys hv]
    cases us.any (·.isEq v) with
    | true => exact ⟨rfl, h⟩
    | false =>
      refine ⟨rfl, congrArg (· ++ [v]) hvalues, fun keys' hkeys' k => ?_⟩
      cases hkeys'
      rw [List.mem_cons, h.keys keys hkeys]
      simp [hv, or_comm, eq_comm]
  · rw [hvalues]
    cases us.any (·.isEq v) with
    | true => exact ⟨rfl, rfl, fun keys hkeys => by cases hkeys⟩
    | false => exact ⟨rfl, rfl, fun keys hkeys => by cases hkeys⟩

theorem fresh_of_remembers (h : seen.Remembers us) (vs : List Value) :
    seen.fresh vs = Value.firsts (vs.filter fun v => !us.any (·.isEq v)) := by
  induction vs generalizing seen us with
  | nil => rfl
  | cons v vs ih =>
    obtain ⟨hnew, hmore⟩ := h.insert v
    rw [fresh, hnew, List.filter_cons]
    cases hv : us.any (·.isEq v) with
    | true =>
      rw [hv, if_pos rfl] at hmore
      simpa using ih hmore
    | false =>
      rw [hv, if_neg Bool.false_ne_true] at hmore
      simp only [Bool.not_false, if_true]
      rw [Value.firsts, List.eraseDupsBy_cons, ih hmore, Value.firsts, List.filter_filter]
      congr 3
      funext b
      simp [Bool.and_comm]

/-- Whether or not all values have keys, the first occurrences are kept. -/
theorem fresh_eq_firsts (vs : List Value) : fresh {} vs = Value.firsts vs := by
  have h : Seen.Remembers {} [] := ⟨rfl, fun keys hkeys k => by
    cases hkeys
    simp⟩
  rw [fresh_of_remembers h]
  simp

end Seen

end QueryPushdown
