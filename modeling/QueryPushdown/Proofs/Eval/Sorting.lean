import QueryPushdown.Eval.Sorting
import QueryPushdown.Proofs.Pairs

/-!
# Sorted rows

Sorting moves elements and neither adds nor drops any. A comparison that ranks the elements leaves
one list in order in which equal elements keep their places, and `stable` gives it. So sorting
commutes with filters, and sorts one after the other are one sort by all their comparisons.
-/

namespace QueryPushdown.Sorting

variable {α : Type}

section

variable (less : α → α → Bool)

theorem insertBack_perm (x : α) (xs : List α) : (insertBack less x xs).Perm (x :: xs) := by
  induction xs with
  | nil => exact .refl _
  | cons y ys ih =>
    rw [insertBack]
    split
    · exact (ih.cons y).trans (.swap x y ys)
    · exact .refl _

theorem foldl_insertBack_perm (xs sorted : List α) :
    (xs.foldl (fun sorted x => insertBack less x sorted) sorted).Perm (xs ++ sorted) := by
  induction xs generalizing sorted with
  | nil => exact .refl _
  | cons x xs ih =>
    refine (ih _).trans ?_
    exact ((insertBack_perm less x sorted).append_left xs).trans List.perm_middle

theorem stable_perm (xs : List α) : (stable less xs).Perm xs := by
  have h := foldl_insertBack_perm less xs []
  rw [List.append_nil] at h
  exact (List.reverse_perm _).trans h

end

theorem byKeysFrom_perm (rs : List Row) (i : Nat) (descending : List Bool) :
    (byKeysFrom rs i descending).Perm rs := by
  induction descending generalizing i with
  | nil => exact .refl _
  | cons d rest ih => exact (stable_perm _ _).trans (ih (i + 1))

theorem rows_perm (rs : List Row) (descending : List Bool) :
    (rows rs descending).Perm (rs.map Row.value) := by
  unfold rows
  dsimp only
  split
  · exact (stable_perm _ rs).map Row.value
  · exact (byKeysFrom_perm rs 0 descending).map Row.value

/-- The order of some elements: exchanging two swaps the outcome, and the order is transitive. -/
structure Ranks (c : α → α → Ordering) (xs : List α) : Prop where
  swap : ∀ a ∈ xs, ∀ b ∈ xs, c b a = (c a b).swap
  trans : ∀ a ∈ xs, ∀ b ∈ xs, ∀ d ∈ xs, (c a b).isLE → (c b d).isLE → (c a d).isLE

namespace Ranks

variable {c c' : α → α → Ordering} {xs ys : List α}

theorem mono (h : Ranks c xs) (hs : ys ⊆ xs) : Ranks c ys where
  swap a ha b hb := h.swap a (hs ha) b (hs hb)
  trans a ha b hb d hd := h.trans a (hs ha) b (hs hb) d (hs hd)

theorem map {β : Type} {f : β → α} {zs : List β} (h : Ranks (fun a b => c (f a) (f b)) zs) :
    Ranks c (zs.map f) := by
  constructor
  · intro a ha b hb
    obtain ⟨x, hx, rfl⟩ := List.mem_map.1 ha
    obtain ⟨y, hy, rfl⟩ := List.mem_map.1 hb
    exact h.swap x hx y hy
  · intro a ha b hb d hd hab hbd
    obtain ⟨x, hx, rfl⟩ := List.mem_map.1 ha
    obtain ⟨y, hy, rfl⟩ := List.mem_map.1 hb
    obtain ⟨z, hz, rfl⟩ := List.mem_map.1 hd
    exact h.trans x hx y hy z hz hab hbd

/-- Elements that are compared alike are ranked together. -/
theorem lockstep {β : Type} {P : α → β → Prop} {c' : β → β → Ordering} {bs : List β}
    (hc : ∀ x y x' y', P x x' → P y y' → c x y = c' x' y') (h : List.Forall₂ P xs bs)
    (hranks : Ranks c' bs) : Ranks c xs := by
  constructor
  · intro a ha a' ha'
    obtain ⟨b, hb, hab⟩ := exists_of_mem_left h ha
    obtain ⟨b', hb', hab'⟩ := exists_of_mem_left h ha'
    rw [hc _ _ _ _ hab' hab, hc _ _ _ _ hab hab']
    exact hranks.swap b hb b' hb'
  · intro a ha a' ha' a'' ha''
    obtain ⟨b, hb, hab⟩ := exists_of_mem_left h ha
    obtain ⟨b', hb', hab'⟩ := exists_of_mem_left h ha'
    obtain ⟨b'', hb'', hab''⟩ := exists_of_mem_left h ha''
    rw [hc _ _ _ _ hab hab', hc _ _ _ _ hab' hab'', hc _ _ _ _ hab hab'']
    exact hranks.trans b hb b' hb' b'' hb''

theorem congr (h : Ranks c xs) (hc : ∀ a ∈ xs, ∀ b ∈ xs, c' a b = c a b) : Ranks c' xs := by
  constructor
  · intro a ha b hb
    rw [hc a ha b hb, hc b hb a ha, h.swap a ha b hb]
  · intro a ha b hb d hd hab hbd
    rw [hc a ha b hb] at hab
    rw [hc b hb d hd] at hbd
    rw [hc a ha d hd]
    exact h.trans a ha b hb d hd hab hbd

theorem le_of_not_lt (h : Ranks c xs) {a b : α} (ha : a ∈ xs) (hb : b ∈ xs) (hn : c a b ≠ .lt) :
    (c b a).isLE := by
  rw [h.swap a ha b hb]
  revert hn
  cases c a b <;> decide

theorem eq_of_le (h : Ranks c xs) {a b : α} (ha : a ∈ xs) (hb : b ∈ xs) (hab : (c a b).isLE)
    (hba : (c b a).isLE) : c a b = .eq := by
  rw [h.swap a ha b hb] at hba
  revert hab hba
  cases c a b <;> decide

theorem eq_symm (h : Ranks c xs) {a b : α} (ha : a ∈ xs) (hb : b ∈ xs) (hab : c a b = .eq) :
    c b a = .eq := by
  rw [h.swap a ha b hb, hab]
  rfl

theorem refl (h : Ranks c xs) {a : α} (ha : a ∈ xs) : c a a = .eq := by
  have hs := h.swap a ha a ha
  revert hs
  cases c a a <;> decide

theorem eq_trans (h : Ranks c xs) {a b d : α} (ha : a ∈ xs) (hb : b ∈ xs) (hd : d ∈ xs)
    (hab : c a b = .eq) (hbd : c b d = .eq) : c a d = .eq := by
  have hle : ∀ {o : Ordering}, o = .eq → o.isLE := by
    rintro o rfl
    rfl
  have had := h.trans a ha b hb d hd (hle hab) (hle hbd)
  have hda := h.trans d hd b hb a ha (hle (h.eq_symm hb hd hbd)) (hle (h.eq_symm ha hb hab))
  exact h.eq_of_le ha hd had hda

/-- Elements that are equal to a third one follow it in the order. -/
theorem lt_of_eq_of_lt (h : Ranks c xs) {a b d : α} (ha : a ∈ xs) (hb : b ∈ xs) (hd : d ∈ xs)
    (hab : c a b = .eq) (hbd : c b d = .lt) : c a d = .lt := by
  have had := h.trans a ha b hb d hd (by rw [hab]; rfl) (by rw [hbd]; rfl)
  have hne : c a d ≠ .eq := by
    intro he
    have := h.eq_trans hb ha hd (h.eq_symm ha hb hab) he
    rw [hbd] at this
    cases this
  revert had hne
  cases c a d <;> decide

theorem directed (h : Ranks c xs) (descending : Bool) :
    Ranks (fun a b => directed descending (c a b)) xs := by
  cases descending with
  | false => exact h
  | true =>
    refine ⟨fun a ha b hb => ?_, fun a ha b hb d hd hab hbd => ?_⟩
    · exact congrArg Ordering.swap (h.swap a ha b hb)
    · simp only [Sorting.directed, if_true] at hab hbd ⊢
      rw [← h.swap a ha b hb] at hab
      rw [← h.swap b hb d hd] at hbd
      rw [← h.swap a ha d hd]
      exact h.trans d hd b hb a ha hbd hab

/-- Comparing by the one and then by the other ranks what both rank. -/
theorem lex (h : Ranks c xs) (h' : Ranks c' xs) :
    Ranks (fun a b => (c a b).then (c' a b)) xs := by
  refine ⟨fun a ha b hb => ?_, fun a ha b hb d hd hab hbd => ?_⟩
  · rw [h.swap a ha b hb, h'.swap a ha b hb]
    cases c a b <;> rfl
  · have hle : (c a b).isLE ∧ (c b d).isLE := by
      constructor
      · revert hab
        cases c a b <;> simp
      · revert hbd
        cases c b d <;> simp
    have had := h.trans a ha b hb d hd hle.1 hle.2
    cases hc : c a d with
    | lt => rfl
    | gt =>
      rw [hc] at had
      cases had
    | eq =>
      -- equal ends leave no room for a difference in between
      have hda := h.eq_symm ha hd hc
      have hba := h.trans b hb d hd a ha hle.2 (by rw [hda]; rfl)
      have hab' := h.eq_of_le ha hb hle.1 hba
      have hbd' := h.eq_trans hb ha hd (h.eq_symm ha hb hab') hc
      rw [hab'] at hab
      rw [hbd'] at hbd
      exact h'.trans a ha b hb d hd hab hbd

end Ranks

section Stability

variable {c c' : α → α → Ordering} {xs ys zs : List α}

/-- Being sorted by a comparison. -/
abbrev IsSorted (c : α → α → Ordering) (xs : List α) : Prop := xs.Pairwise fun a b => (c a b).isLE

/-- Sorts by a comparison. -/
abbrev sortBy (c : α → α → Ordering) (xs : List α) : List α := stable (fun a b => c a b == .lt) xs

theorem mem_sortBy {a : α} : a ∈ sortBy c xs ↔ a ∈ xs := (stable_perm _ xs).mem_iff

private theorem insertBack_sorted (h : Ranks c ys) {x : α} (hx : x ∈ ys) (hxs : xs ⊆ ys)
    (hs : xs.Pairwise fun a b => (c b a).isLE) :
    (insertBack (fun a b => c a b == .lt) x xs).Pairwise fun a b => (c b a).isLE := by
  induction xs with
  | nil => exact List.pairwise_singleton _ _
  | cons y rest ih =>
    obtain ⟨hy, hrest⟩ := List.pairwise_cons.1 hs
    have hym : y ∈ ys := hxs List.mem_cons_self
    have hsub : rest ⊆ ys := fun z hz => hxs (List.mem_cons_of_mem _ hz)
    rw [insertBack]
    by_cases hlt : c x y = .lt
    · simp only [hlt, beq_self_eq_true, if_true]
      refine List.pairwise_cons.2 ⟨fun z hz => ?_, ih hsub hrest⟩
      rcases List.mem_cons.1 ((insertBack_perm _ x rest).mem_iff.1 hz) with rfl | hz
      · rw [hlt]
        rfl
      · exact hy z hz
    · have hyx := h.le_of_not_lt hx hym hlt
      simp only [beq_iff_eq, hlt, if_false]
      refine List.pairwise_cons.2 ⟨fun z hz => ?_, hs⟩
      rcases List.mem_cons.1 hz with rfl | hz
      · exact hyx
      · exact h.trans z (hsub hz) y hym x hx (hy z hz) hyx

private theorem filter_insertBack (h : Ranks c ys) {x z : α} (hx : x ∈ ys) (hz : z ∈ ys)
    (hxs : xs ⊆ ys) :
    (insertBack (fun a b => c a b == .lt) x xs).filter (fun a => c z a == .eq) =
      (x :: xs).filter fun a => c z a == .eq := by
  induction xs with
  | nil => rfl
  | cons y rest ih =>
    have hym : y ∈ ys := hxs List.mem_cons_self
    rw [insertBack]
    by_cases hlt : c x y = .lt
    · simp only [hlt, beq_self_eq_true, if_true]
      rw [List.filter_cons, ih fun a ha => hxs (List.mem_cons_of_mem _ ha), List.filter_cons,
        List.filter_cons, List.filter_cons]
      by_cases hzx : c z x = .eq
      · have hzy := h.lt_of_eq_of_lt hz hx hym hzx hlt
        simp [hzx, hzy]
      · simp [hzx]
    · simp only [beq_iff_eq, hlt, if_false]

private theorem foldl_insertBack (h : Ranks c ys) (hxs : xs ⊆ ys) (hzs : zs ⊆ ys)
    (hs : zs.Pairwise fun a b => (c b a).isLE) :
    (xs.foldl (fun sorted x => insertBack (fun a b => c a b == .lt) x sorted) zs).Pairwise
        (fun a b => (c b a).isLE) ∧
      ∀ z ∈ ys, (xs.foldl (fun sorted x => insertBack (fun a b => c a b == .lt) x sorted) zs).filter
        (fun a => c z a == .eq) = (xs.reverse ++ zs).filter fun a => c z a == .eq := by
  induction xs generalizing zs with
  | nil => exact ⟨hs, fun z _ => rfl⟩
  | cons x rest ih =>
    have hx : x ∈ ys := hxs List.mem_cons_self
    have hmem : insertBack (fun a b => c a b == .lt) x zs ⊆ ys := by
      intro a ha
      rcases List.mem_cons.1 ((insertBack_perm _ x zs).mem_iff.1 ha) with rfl | ha
      · exact hx
      · exact hzs ha
    obtain ⟨hsorted, hclass⟩ := ih (fun a ha => hxs (List.mem_cons_of_mem _ ha)) hmem
      (insertBack_sorted h hx hzs hs)
    refine ⟨hsorted, fun z hz => ?_⟩
    rw [List.foldl_cons, hclass z hz, List.filter_append, filter_insertBack h hx hz hzs,
      ← List.filter_append, List.reverse_cons, List.append_assoc, List.singleton_append]

theorem sortBy_sorted (h : Ranks c xs) : IsSorted c (sortBy c xs) := by
  obtain ⟨hs, -⟩ := foldl_insertBack h (List.Subset.refl xs) (List.nil_subset xs) .nil
  exact List.pairwise_reverse.2 hs

/-- Equal elements keep their order. -/
theorem filter_sortBy_eq (h : Ranks c ys) (hxs : xs ⊆ ys) {z : α} (hz : z ∈ ys) :
    (sortBy c xs).filter (fun a => c z a == .eq) = xs.filter fun a => c z a == .eq := by
  obtain ⟨-, hclass⟩ := foldl_insertBack h hxs (List.nil_subset ys) .nil
  have hrev := hclass z hz
  rw [List.append_nil, List.filter_reverse] at hrev
  rw [sortBy, stable, List.filter_reverse, hrev, List.reverse_reverse]

/-- A sorted list is determined by the order of the elements that are equal to each other. -/
theorem eq_of_sorted (h : Ranks c zs) (hxs : xs ⊆ zs) (hys : ys ⊆ zs) (hx : IsSorted c xs)
    (hy : IsSorted c ys) (hclass : ∀ z ∈ zs,
      xs.filter (fun a => c z a == .eq) = ys.filter fun a => c z a == .eq) : xs = ys := by
  induction xs generalizing ys with
  | nil =>
    cases ys with
    | nil => rfl
    | cons y ys =>
      have hy' : y ∈ zs := hys List.mem_cons_self
      have hfalse := hclass y hy'
      simp [h.refl hy'] at hfalse
  | cons x xs ih =>
    have hxm : x ∈ zs := hxs List.mem_cons_self
    have hxc := hclass x hxm
    rw [List.filter_cons_of_pos (by simp [h.refl hxm])] at hxc
    cases ys with
    | nil => cases hxc
    | cons y ys =>
      have hym : y ∈ zs := hys List.mem_cons_self
      obtain ⟨hxrest, hxs'⟩ := List.pairwise_cons.1 hx
      obtain ⟨hyrest, hys'⟩ := List.pairwise_cons.1 hy
      have hle : ∀ {a b : α} {as : List α}, a ∈ zs → a :: as ⊆ zs →
          (∀ w ∈ as, (c a w).isLE) → b ∈ a :: as → (c a b).isLE := by
        intro a b as ha _ hall hb
        rcases List.mem_cons.1 hb with rfl | hb
        · rw [h.refl ha]
          rfl
        · exact hall b hb
      have hxy : x ∈ y :: ys := by
        have hmem : x ∈ (y :: ys).filter fun a => c x a == .eq := hxc ▸ List.mem_cons_self
        exact (List.mem_filter.1 hmem).1
      have hyx : y ∈ x :: xs := by
        have hyc := hclass y hym
        rw [List.filter_cons_of_pos (a := y) (by simp [h.refl hym])] at hyc
        have hmem : y ∈ (x :: xs).filter fun a => c y a == .eq := hyc ▸ List.mem_cons_self
        exact (List.mem_filter.1 hmem).1
      have heq : c x y = .eq := h.eq_of_le hxm hym (hle hxm hxs hxrest hyx)
        (hle hym hys hyrest hxy)
      rw [List.filter_cons_of_pos (by simp [heq])] at hxc
      obtain ⟨rfl, -⟩ := List.cons.inj hxc
      congr 1
      refine ih (fun a ha => hxs (List.mem_cons_of_mem _ ha))
        (fun a ha => hys (List.mem_cons_of_mem _ ha)) hxs' hys' fun z hz => ?_
      have hz' := hclass z hz
      rw [List.filter_cons, List.filter_cons] at hz'
      split at hz'
      · exact (List.cons.inj hz').2
      · exact hz'

/-- It makes no difference whether elements are dropped before or after a sort. -/
theorem filter_sortBy (h : Ranks c xs) (p : α → Bool) :
    (sortBy c xs).filter p = sortBy c (xs.filter p) := by
  have hsub : xs.filter p ⊆ xs := fun a ha => (List.mem_filter.1 ha).1
  refine eq_of_sorted h (fun a ha => mem_sortBy.1 (List.mem_filter.1 ha).1)
    (fun a ha => hsub (mem_sortBy.1 ha)) ((sortBy_sorted h).filter p)
    (sortBy_sorted (h.mono hsub)) fun z hz => ?_
  rw [filter_sortBy_eq h hsub hz, List.filter_filter, List.filter_filter]
  calc (sortBy c xs).filter (fun a => (c z a == .eq) && p a)
      = ((sortBy c xs).filter fun a => c z a == .eq).filter p := by
        rw [List.filter_filter]
        simp only [Bool.and_comm]
    _ = (xs.filter fun a => c z a == .eq).filter p := by
        rw [filter_sortBy_eq h (List.Subset.refl xs) hz]
    _ = xs.filter fun a => (c z a == .eq) && p a := by
        rw [List.filter_filter]
        simp only [Bool.and_comm]

/-- Sorted by the one, and equal elements by the other, a list is sorted by both. -/
private theorem isSorted_lex (h : Ranks c zs) (hxs : xs ⊆ zs) (hs : IsSorted c xs)
    (hclass : ∀ z ∈ zs, IsSorted c' (xs.filter fun a => c z a == .eq)) :
    IsSorted (fun a b => (c a b).then (c' a b)) xs := by
  induction xs with
  | nil => exact .nil
  | cons x xs ih =>
    have hxm : x ∈ zs := hxs List.mem_cons_self
    obtain ⟨hle, hrest⟩ := List.pairwise_cons.1 hs
    refine List.pairwise_cons.2 ⟨fun y hy => ?_, ih (fun a ha => hxs (List.mem_cons_of_mem _ ha))
      hrest fun z hz => ?_⟩
    · have hxy := hle y hy
      change ((c x y).then (c' x y)).isLE = true
      cases hc : c x y with
      | lt => rfl
      | gt =>
        rw [hc] at hxy
        cases hxy
      | eq =>
        have hx := hclass x hxm
        rw [List.filter_cons_of_pos (by simp [h.refl hxm])] at hx
        exact (List.pairwise_cons.1 hx).1 y (List.mem_filter.2 ⟨hy, by simp [hc]⟩)
    · have hz' := hclass z hz
      rw [List.filter_cons] at hz'
      split at hz'
      · exact (List.pairwise_cons.1 hz').2
      · exact hz'

/-- A sort after another is one sort, in which the earlier one breaks ties. -/
theorem sortBy_sortBy (h : Ranks c xs) (h' : Ranks c' xs) :
    sortBy c (sortBy c' xs) = sortBy (fun a b => (c a b).then (c' a b)) xs := by
  have hinner : sortBy c' xs ⊆ xs := fun a ha => mem_sortBy.1 ha
  have hlex := h.lex h'
  refine eq_of_sorted hlex (fun a ha => hinner (mem_sortBy.1 ha)) (fun a ha => mem_sortBy.1 ha) ?_
    (sortBy_sorted hlex) fun z hz => ?_
  · refine isSorted_lex h (fun a ha => hinner (mem_sortBy.1 ha)) (sortBy_sorted (h.mono hinner))
      fun z hz => ?_
    rw [filter_sortBy_eq h hinner hz]
    exact (sortBy_sorted h').filter _
  · rw [filter_sortBy_eq hlex (List.Subset.refl xs) hz]
    have hsplit : ∀ l : List α, l.filter (fun a => ((c z a).then (c' z a)) == .eq) =
        (l.filter fun a => c z a == .eq).filter fun a => c' z a == .eq := by
      intro l
      rw [List.filter_filter]
      congr 1
      funext a
      cases c z a <;> simp
    rw [hsplit, hsplit, filter_sortBy_eq h hinner hz, List.filter_filter, List.filter_filter]
    simp only [Bool.and_comm (c' z _ == .eq)]
    rw [← List.filter_filter, ← List.filter_filter, filter_sortBy_eq h' (List.Subset.refl xs) hz]

/-- A sort keeps a list that is in order. -/
theorem sortBy_of_sorted (h : Ranks c xs) (hs : IsSorted c xs) : sortBy c xs = xs :=
  eq_of_sorted h (fun _ ha => mem_sortBy.1 ha) (List.Subset.refl xs) (sortBy_sorted h) hs
    fun _ hz => filter_sortBy_eq h (List.Subset.refl xs) hz

/-- A sort by a comparison that finds all elements equal keeps the list. -/
theorem sortBy_eq_self (h : ∀ a ∈ xs, ∀ b ∈ xs, c a b = .eq) : sortBy c xs = xs := by
  have hr : Ranks c xs := by
    refine ⟨fun a ha b hb => ?_, fun a ha b hb d hd _ _ => ?_⟩
    · rw [h a ha b hb, h b hb a ha]
      rfl
    · rw [h a ha d hd]
      rfl
  refine sortBy_of_sorted hr (List.pairwise_of_forall_mem_list fun a ha b hb => ?_)
  rw [h a ha b hb]
  rfl

end Stability

section Images

variable {β : Type}

private theorem insertBack_map (less : α → α → Bool) (f : β → α) (x : β) (xs : List β) :
    insertBack less (f x) (xs.map f) = (insertBack (fun a b => less (f a) (f b)) x xs).map f := by
  induction xs with
  | nil => rfl
  | cons y ys ih =>
    rw [List.map_cons, insertBack, insertBack]
    split
    · rw [ih, List.map_cons]
    · rfl

theorem stable_map (less : α → α → Bool) (f : β → α) (xs : List β) :
    stable less (xs.map f) = (stable (fun a b => less (f a) (f b)) xs).map f := by
  have hfold : ∀ sorted : List β,
      (xs.map f).foldl (fun sorted x => insertBack less x sorted) (sorted.map f) =
        (xs.foldl (fun sorted x => insertBack (fun a b => less (f a) (f b)) x sorted) sorted).map
          f := by
    induction xs with
    | nil => exact fun _ => rfl
    | cons x xs ih =>
      intro sorted
      rw [List.map_cons, List.foldl_cons, List.foldl_cons, insertBack_map, ih]
  have h := hfold []
  rw [List.map_nil] at h
  rw [stable, stable, h, List.map_reverse]

private theorem insertBack_congr {less less' : α → α → Bool} {x : α} {xs : List α}
    (h : ∀ y ∈ xs, less x y = less' x y) : insertBack less x xs = insertBack less' x xs := by
  induction xs with
  | nil => rfl
  | cons y ys ih =>
    rw [insertBack, insertBack, h y List.mem_cons_self,
      ih fun z hz => h z (List.mem_cons_of_mem _ hz)]

theorem stable_congr {less less' : α → α → Bool} {xs : List α}
    (h : ∀ a ∈ xs, ∀ b ∈ xs, less a b = less' a b) : stable less xs = stable less' xs := by
  have hfold : ∀ ys sorted : List α, ys ⊆ xs → sorted ⊆ xs →
      ys.foldl (fun sorted x => insertBack less x sorted) sorted =
        ys.foldl (fun sorted x => insertBack less' x sorted) sorted := by
    intro ys
    induction ys with
    | nil => exact fun _ _ _ => rfl
    | cons y ys ih =>
      intro sorted hys hsorted
      have hy : y ∈ xs := hys List.mem_cons_self
      rw [List.foldl_cons, List.foldl_cons, insertBack_congr fun z hz => h y hy z (hsorted hz)]
      refine ih _ (fun a ha => hys (List.mem_cons_of_mem _ ha)) fun a ha => ?_
      rcases List.mem_cons.1 ((insertBack_perm less' y sorted).mem_iff.1 ha) with rfl | ha
      · exact hy
      · exact hsorted ha
  rw [stable, stable, hfold xs [] (List.Subset.refl xs) (List.nil_subset xs)]

end Images

/-- First difference of two lists of keys, each key in its direction. -/
def compareDirected : List Bool → List Value → List Value → Ordering
  | d :: ds, a :: as, b :: bs => (directed d (a.totalCompare b)).then (compareDirected ds as bs)
  | _, _, _ => .eq

section Rows

variable {rs : List Row} {ds : List Bool}

theorem directed_then (d : Bool) (o o' : Ordering) :
    directed d (o.then o') = (directed d o).then (directed d o') := by
  cases d <;> cases o <;> rfl

/-- The keys at one place are ranked by the order of all values. -/
def RankedAt (rs : List Row) (i : Nat) : Prop :=
  Ranks (fun a b : Row => (a.keys[i]?.getD .null).totalCompare (b.keys[i]?.getD .null)) rs

private theorem compareDirected_cons {a b : Row} {i : Nat} (d : Bool) (ds : List Bool)
    (ha : i < a.keys.length) (hb : i < b.keys.length) :
    compareDirected (d :: ds) (a.keys.drop i) (b.keys.drop i) =
      (directed d ((a.keys[i]?.getD .null).totalCompare (b.keys[i]?.getD .null))).then
        (compareDirected ds (a.keys.drop (i + 1)) (b.keys.drop (i + 1))) := by
  rw [List.drop_eq_getElem_cons ha, List.drop_eq_getElem_cons hb, compareDirected,
    List.getElem?_eq_getElem ha, List.getElem?_eq_getElem hb]
  rfl

theorem ranks_compareDirected {i : Nat} (hlen : ∀ r ∈ rs, r.keys.length = i + ds.length)
    (h : ∀ j, RankedAt rs j) :
    Ranks (fun a b : Row => compareDirected ds (a.keys.drop i) (b.keys.drop i)) rs := by
  induction ds generalizing i with
  | nil => exact ⟨fun _ _ _ _ => rfl, fun _ _ _ _ _ _ _ _ => rfl⟩
  | cons d ds ih =>
    have hlt : ∀ r ∈ rs, i < r.keys.length := fun r hr => by
      have := hlen r hr
      simp only [List.length_cons] at this
      omega
    have hrest := ih (i := i + 1) fun r hr => by
      have := hlen r hr
      simp only [List.length_cons] at this
      omega
    have hlex := ((h i).directed d).lex hrest
    refine ⟨fun a ha b hb => ?_, fun a ha b hb e he => ?_⟩
    · rw [compareDirected_cons d ds (hlt a ha) (hlt b hb),
        compareDirected_cons d ds (hlt b hb) (hlt a ha)]
      exact hlex.swap a ha b hb
    · rw [compareDirected_cons d ds (hlt a ha) (hlt b hb),
        compareDirected_cons d ds (hlt b hb) (hlt e he),
        compareDirected_cons d ds (hlt a ha) (hlt e he)]
      exact hlex.trans a ha b hb e he

/-- Sorts by one key after the other, the last one first, are one sort by all keys. -/
private theorem byKeysFrom_eq {i : Nat} (hlen : ∀ r ∈ rs, r.keys.length = i + ds.length)
    (h : ∀ j, RankedAt rs j) :
    byKeysFrom rs i ds =
      sortBy (fun a b => compareDirected ds (a.keys.drop i) (b.keys.drop i)) rs := by
  induction ds generalizing i with
  | nil => exact (sortBy_eq_self fun _ _ _ _ => rfl).symm
  | cons d ds ih =>
    have hlen' : ∀ r ∈ rs, r.keys.length = i + 1 + ds.length := fun r hr => by
      have := hlen r hr
      simp only [List.length_cons] at this
      omega
    rw [byKeysFrom, ih hlen', byKey]
    refine (sortBy_sortBy ((h i).directed d) (ranks_compareDirected hlen' h)).trans ?_
    refine stable_congr fun a ha b hb => ?_
    have hla := hlen' a ha
    have hlb := hlen' b hb
    simp only [compareDirected_cons (a := a) (b := b) (i := i) d ds (by omega) (by omega)]

private theorem directed_compareKeys {d : Bool} (hd : ∀ e ∈ ds, e = d) {as bs : List Value}
    (ha : as.length = ds.length) (hb : bs.length = ds.length) :
    directed d (compareKeys as bs) = compareDirected ds as bs := by
  induction ds generalizing as bs with
  | nil =>
    rw [List.length_eq_zero_iff.1 ha]
    cases d <;> rfl
  | cons e ds ih =>
    obtain rfl := hd e List.mem_cons_self
    cases as with
    | nil => cases ha
    | cons a as =>
      cases bs with
      | nil => cases hb
      | cons b bs =>
        rw [compareKeys, directed_then, compareDirected,
          ih (fun f hf => hd f (List.mem_cons_of_mem _ hf)) (Nat.succ.inj ha) (Nat.succ.inj hb)]

private theorem eq_of_isUniform {d : Bool} (h : isUniform (d :: ds) = true) : ∀ e ∈ ds, e = d := by
  induction ds generalizing d with
  | nil => exact fun e he => by cases he
  | cons e ds ih =>
    rw [isUniform, Bool.and_eq_true, beq_iff_eq] at h
    obtain ⟨rfl, h⟩ := h
    intro f hf
    rcases List.mem_cons.1 hf with rfl | hf
    · rfl
    · exact ih h f hf

/-- Rows are sorted stably by all their keys, each key in its direction. -/
theorem rows_eq (hlen : ∀ r ∈ rs, r.keys.length = ds.length) (h : ∀ j, RankedAt rs j) :
    rows rs ds = (sortBy (fun a b => compareDirected ds a.keys b.keys) rs).map Row.value := by
  unfold rows
  dsimp only
  congr 1
  split
  · rename_i huniform
    refine stable_congr fun a ha b hb => ?_
    rw [directed_compareKeys ?_ (hlen a ha) (hlen b hb)]
    cases ds with
    | nil => exact fun e he => by cases he
    | cons d ds =>
      intro e he
      rcases List.mem_cons.1 he with rfl | he
      · rfl
      · exact eq_of_isUniform huniform e he
  · exact byKeysFrom_eq (fun r hr => by rw [hlen r hr, Nat.zero_add]) h

theorem compareDirected_append {ds' : List Bool} {as bs as' bs' : List Value}
    (ha : as.length = ds.length) (hb : bs.length = ds.length) :
    compareDirected (ds ++ ds') (as ++ as') (bs ++ bs') =
      (compareDirected ds as bs).then (compareDirected ds' as' bs') := by
  induction ds generalizing as bs with
  | nil =>
    rw [List.length_eq_zero_iff.1 ha, List.length_eq_zero_iff.1 hb]
    cases ds' <;> rfl
  | cons d ds ih =>
    cases as with
    | nil => cases ha
    | cons a as =>
      cases bs with
      | nil => cases hb
      | cons b bs =>
        rw [List.cons_append, List.cons_append, List.cons_append, compareDirected, compareDirected,
          ih (Nat.succ.inj ha) (Nat.succ.inj hb)]
        cases directed d (a.totalCompare b) <;> rfl

section Elements

variable {vs : List Value} {keys : Value → List Value}

/-- Elements are ranked by their keys when the keys at each place are. -/
theorem ranks_of_keys (hlen : ∀ v ∈ vs, (keys v).length = ds.length)
    (h : ∀ j, RankedAt (vs.map fun v => ⟨keys v, v⟩) j) :
    Ranks (fun a b => compareDirected ds (keys a) (keys b)) vs := by
  have hrows : ∀ r ∈ vs.map fun v => (⟨keys v, v⟩ : Row), r.keys.length = 0 + ds.length := by
    intro r hr
    obtain ⟨v, hv, rfl⟩ := List.mem_map.1 hr
    rw [Nat.zero_add]
    exact hlen v hv
  have hranks := ranks_compareDirected hrows h
  have hmem : ∀ v ∈ vs, (⟨keys v, v⟩ : Row) ∈ vs.map fun v => (⟨keys v, v⟩ : Row) := fun v hv =>
    List.mem_map_of_mem hv
  exact ⟨fun a ha b hb => hranks.swap _ (hmem a ha) _ (hmem b hb),
    fun a ha b hb d hd => hranks.trans _ (hmem a ha) _ (hmem b hb) _ (hmem d hd)⟩

/-- Sorting rows of elements and their keys sorts the elements. -/
theorem rows_elements (hlen : ∀ v ∈ vs, (keys v).length = ds.length)
    (h : ∀ j, RankedAt (vs.map fun v => ⟨keys v, v⟩) j) :
    rows (vs.map fun v => ⟨keys v, v⟩) ds =
      sortBy (fun a b => compareDirected ds (keys a) (keys b)) vs := by
  have hrows : ∀ r ∈ vs.map fun v => (⟨keys v, v⟩ : Row), r.keys.length = ds.length := by
    intro r hr
    obtain ⟨v, hv, rfl⟩ := List.mem_map.1 hr
    exact hlen v hv
  rw [rows_eq hrows h, sortBy, stable_map, List.map_map]
  exact List.map_id' _

end Elements

end Rows

end QueryPushdown.Sorting
