import QueryPushdown.Proofs.Eval.Sorting
import QueryPushdown.Proofs.Eval.Yielding
import QueryPushdown.Proofs.Value.Totality

/-!
# Sorts are stable

A sort puts each element where its keys and then its old place send it. With uniform directions the
rows are sorted once, with mixed ones key by key; where the keys at each place are ranked, both
arrange the rows by their first key that differs, in the direction of that key, and otherwise as
they were. Keys whose numbers do not meet in any float are ranked.
-/

namespace QueryPushdown

namespace Sorting

section Placed

variable {α : Type} {c : α → α → Ordering} {xs : List α}

theorem pairwise_zipIdx (xs : List α) (first : Nat) :
    (xs.zipIdx first).Pairwise fun a b => a.2 < b.2 := by
  induction xs generalizing first with
  | nil => exact .nil
  | cons x xs ih =>
    exact List.pairwise_cons.2 ⟨fun b hb => List.le_snd_of_mem_zipIdx hb, ih (first + 1)⟩

theorem Ranks.zipIdx (h : Ranks c xs) : Ranks (fun a b => c a.1 b.1) xs.zipIdx := by
  have hmem : ∀ a ∈ xs.zipIdx, a.1 ∈ xs := fun a ha => List.fst_mem_of_mem_zipIdx ha
  exact ⟨fun a ha b hb => h.swap _ (hmem a ha) _ (hmem b hb),
    fun a ha b hb d hd => h.trans _ (hmem a ha) _ (hmem b hb) _ (hmem d hd)⟩

/-- A sort arranges the elements by the comparison and then by the places they had. -/
theorem exists_placed (h : Ranks c xs) : ∃ placed : List (α × Nat), placed.Perm xs.zipIdx ∧
    (placed.Pairwise fun a b => (c a.1 b.1).then (compare a.2 b.2) = .lt) ∧
    sortBy c xs = placed.map Prod.fst := by
  refine ⟨sortBy (fun a b => c a.1 b.1) xs.zipIdx, stable_perm _ _, ?_, ?_⟩
  · refine List.pairwise_iff_forall_sublist.2 fun {a b} hab => ?_
    have hle : (c a.1 b.1).isLE := (List.pairwise_cons.1 ((sortBy_sorted h.zipIdx).sublist hab)).1 b
      List.mem_cons_self
    cases hc : c a.1 b.1 with
    | lt => rfl
    | gt =>
      rw [hc] at hle
      cases hle
    | eq =>
      -- equal elements keep their order, and so their places stay in order
      have ha : a ∈ xs.zipIdx := mem_sortBy.1 (hab.subset List.mem_cons_self)
      have hclass := hab.filter fun d => c a.1 d.1 == .eq
      rw [filter_sortBy_eq h.zipIdx (List.Subset.refl _) ha,
        List.filter_cons_of_pos (by simp [h.zipIdx.refl ha]),
        List.filter_cons_of_pos (by simp [hc])] at hclass
      have hplaces := (pairwise_zipIdx xs 0).sublist (hclass.trans List.filter_sublist)
      exact Std.compare_eq_lt.2 ((List.pairwise_cons.1 hplaces).1 b List.mem_cons_self)
  · have hmap := stable_map (fun a b => c a b == .lt) Prod.fst xs.zipIdx
    rw [List.zipIdx_map_fst] at hmap
    exact hmap

end Placed

section Rows

variable {rs : List Row} {ds : List Bool} {I : Int64 → Prop} {F : Binary64 → Prop}

/-- Places without keys are ranked. -/
theorem rankedAt_of_lt (hlen : ∀ r ∈ rs, r.keys.length = ds.length)
    (h : ∀ j < ds.length, RankedAt rs j) (j : Nat) : RankedAt rs j := by
  by_cases hj : j < ds.length
  · exact h j hj
  · have hnull : ∀ r ∈ rs, r.keys[j]?.getD .null = .null := fun r hr => by
      rw [List.getElem?_eq_none (by rw [hlen r hr]; omega), Option.getD_none]
    have hequal : Ranks (fun _ _ : Row => .eq) rs :=
      ⟨fun _ _ _ _ => rfl, fun _ _ _ _ _ _ _ _ => rfl⟩
    refine hequal.congr fun a ha b hb => ?_
    rw [hnull a ha, hnull b hb, Value.totalCompare_self]

/-- Keys whose numbers are apart are ranked. -/
theorem rankedAt_of_apart (hapart : Value.Apart Binary64.rank I F)
    (h : ∀ r ∈ rs, ∀ key ∈ r.keys, key.NumbersIn I F) (j : Nat) : RankedAt rs j := by
  have hkey : ∀ r ∈ rs, (r.keys[j]?.getD .null).NumbersIn I F := fun r hr => by
    cases hj : r.keys[j]? with
    | none => exact .null
    | some key => exact h r hr key (List.mem_of_getElem? hj)
  refine ⟨fun a _ b _ => Value.totalCompare_swap _ _, fun a ha b hb d hd => ?_⟩
  exact (Value.totalCompare_composes hapart (hkey a ha) (hkey b hb) (hkey d hd)).isLE

/-- Rows whose keys are ranked are arranged by their first key that differs, in its direction, and
by the places they had where no key differs. -/
theorem rows_stable (hlen : ∀ r ∈ rs, r.keys.length = ds.length)
    (h : ∀ j < ds.length, RankedAt rs j) : ∃ placed : List (Row × Nat), placed.Perm rs.zipIdx ∧
      (placed.Pairwise fun a b =>
        (compareDirected ds a.1.keys b.1.keys).then (compare a.2 b.2) = .lt) ∧
      rows rs ds = placed.map fun p => p.1.value := by
  have hranked := rankedAt_of_lt hlen h
  have hranks : Ranks (fun a b : Row => compareDirected ds a.keys b.keys) rs :=
    ranks_compareDirected (i := 0) (fun r hr => by rw [hlen r hr, Nat.zero_add]) hranked
  obtain ⟨placed, hperm, hpairwise, hsort⟩ := exists_placed hranks
  refine ⟨placed, hperm, hpairwise, ?_⟩
  rw [rows_eq hlen hranked, hsort, List.map_map]
  rfl

/-- Rows with two keys: integers, a float that is equal to two of them, and null; and texts. -/
def crates : List Row :=
  [⟨[.int 2, .text "plum"], .text "first"⟩,
    ⟨[.float ⟨0x4000000000000000⟩, .text "fig"], .text "second"⟩,
    ⟨[.null, .text "fig"], .text "third"⟩, ⟨[.int 2, .text "plum"], .text "fourth"⟩,
    ⟨[.int 3, .text "fig"], .text "fifth"⟩]

/-- The greatest first key comes first, the least second key of those that are equal, and two rows
with equal keys stay as they were. -/
theorem crates_rows_stable :
    (∃ placed : List (Row × Nat), placed.Perm crates.zipIdx ∧
      (placed.Pairwise fun a b =>
        (compareDirected [true, false] a.1.keys b.1.keys).then (compare a.2 b.2) = .lt) ∧
      rows crates [true, false] = placed.map fun p => p.1.value) ∧
    (rows crates [true, false]).filterMap Value.asText? =
      ["fifth", "second", "first", "fourth", "third"] := by
  have hapart : Value.Apart Binary64.rank (fun i => i.toInt.natAbs < 2 ^ 53) fun _ => True :=
    fun i j x hi hj _ hix hjx => Value.eq_of_ofInt hi hj (Binary64.eq_of_rank (hix.trans hjx.symm))
  have hprecise : ∀ r ∈ crates, ∀ key ∈ r.keys, key.Precise := by
    have htwo : (Value.int 2).Precise := .int (by decide)
    have hthree : (Value.int 3).Precise := .int (by decide)
    simp [crates, htwo, hthree, Value.NumbersIn.null, Value.NumbersIn.text, Value.NumbersIn.float]
  exact ⟨rows_stable (by decide) fun j _ => rankedAt_of_apart hapart hprecise j, by decide +kernel⟩

end Rows

end Sorting

namespace Term

variable {input : Input} {scope : Scope} {id : Nat} {subject : Term} {vs : List Value}

/-- A sort of a list whose keys are ranked arranges its elements by their first key that differs, in
its direction, and by the places they had where no key differs. -/
theorem outcome_sort_stable {keys : List (Term × Bool)} {ks : Value → List Value}
    (hs : subject.outcome input scope = .ok (.list vs))
    (hk : ∀ v ∈ vs, (evalKeys input (v :: scope) keys).outcome = .ok (ks v))
    (h : ∀ j < keys.length, Sorting.RankedAt (vs.map fun v => ⟨ks v, v⟩) j) :
    ∃ placed : List (Value × Nat), placed.Perm vs.zipIdx ∧
      (placed.Pairwise fun a b =>
        (Sorting.compareDirected (keys.map Prod.snd) (ks a.1) (ks b.1)).then (compare a.2 b.2) =
          .lt) ∧
      (step id subject (.sort keys)).outcome input scope = .ok (.list (placed.map Prod.fst)) := by
  have hlen : ∀ v ∈ vs, (ks v).length = (keys.map Prod.snd).length := fun v hv => by
    rw [length_evalKeys (hk v hv), List.length_map]
  have hrows : ∀ r ∈ vs.map fun v => (⟨ks v, v⟩ : Row),
      r.keys.length = (keys.map Prod.snd).length := by
    simpa using hlen
  have hranked := Sorting.rankedAt_of_lt hrows fun j hj => h j (by simpa using hj)
  obtain ⟨placed, hperm, hpairwise, hsort⟩ :=
    Sorting.exists_placed (Sorting.ranks_of_keys hlen hranked)
  refine ⟨placed, hperm, hpairwise, ?_⟩
  rw [outcome_sort_list hs hk, Sorting.rows_elements hlen hranked, hsort]

end Term

end QueryPushdown
