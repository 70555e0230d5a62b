import QueryPushdown.Engine.Planning
import QueryPushdown.Proofs.Transform.Splitting

/-!
# Positions of the planner

Whatever a backend refuses, the end of the prefix stays on the chain of the request, which is
rewritten on the way but keeps its value.
-/

namespace QueryPushdown

/-- What a split filter is made of: two filters over the subject, on which the chain above was
rebuilt. -/
theorem Request.splitFilter?_eq_some {r whole : Request} {keep : Term → Bool}
    {entry pushed : Term} (h : r.splitFilter? keep entry = some (whole, pushed)) :
    ∃ (id : Nat) (subject predicate : Term),
      let s := predicate.split keep r.arena
      let lower := alloc (.step · subject (.filter s.1.1)) s.2
      let upper := alloc (.step · pushed (.filter s.1.2)) lower.2
      entry = .step id subject (.filter predicate) ∧
      s.1.1.conjuncts = predicate.conjuncts.filter keep ∧
      s.1.2.conjuncts = predicate.conjuncts.filter (fun c => !keep c) ∧
      pushed = lower.1 ∧
      whole.root = (r.root.rebase id upper.1 0 upper.2).1 ∧
      whole.arena = (r.root.rebase id upper.1 0 upper.2).2 := by
  unfold splitFilter? at h
  split at h
  · rename_i id subject andId lhs rhs
    dsimp only at h
    split at h
    · cases h
    · rename_i hk
      split at h
      · cases h
      · rename_i hl
        obtain ⟨hkept, hleft⟩ :=
          Term.conjuncts_split (eq_false_of_ne_true hk) (eq_false_of_ne_true hl)
        split at h
        · rename_i whole' hwhole
          cases h
          unfold replaceOnChain at hwhole
          split at hwhole
          · cases hwhole
          · cases hwhole
            exact ⟨id, subject, _, rfl, hkept, hleft, rfl, rfl, rfl⟩
        · cases h
  · cases h

namespace Position

/-- What holds of every position on the way down from a request, whatever was refused. -/
structure Placed (r : Request) (p : Position) : Prop where
  ordered : p.request.Ordered
  grown : r.arena.size ≤ p.request.arena.size
  onChain : p.marker ∈ p.request.root.spine
  /-- The number of the root means the whole request, not a prefix. -/
  whole : p = ⟨r, r.root⟩ ∨ ∀ entry ∈ p.marker.spine, entry.id ≠ r.root.id

theorem Placed.start {r : Request} (h : r.Ordered) : Placed r ⟨r, r.root⟩ :=
  ⟨h, Nat.le_refl _, r.root.self_mem_spine, .inl rfl⟩

/-- A retreat either moves the end below an entry of the prefix, or splits a filter there. -/
theorem retreat?_cases {p next : Position} {keep : Term → Bool} {refused : Nat}
    (h : p.retreat? keep refused = some next) :
    ∃ (id : Nat) (subject : Term) (action : Step), .step id subject action ∈ p.marker.spine ∧
      (next = { p with marker := subject } ∨
        p.request.splitFilter? keep (.step id subject action) = some (next.request, next.marker)) := by
  unfold retreat? at h
  split at h
  · rename_i id subject action hentry
    refine ⟨id, subject, action, Term.mem_chain.1 (List.mem_of_find?_eq_some hentry), ?_⟩
    split at h
    · rename_i whole pushed hsplit
      cases h
      exact .inr hsplit
    · cases h
      exact .inl rfl
  · cases h

/-- Entries strictly below the end of the prefix never carry the number of the whole request. -/
theorem Placed.below {r : Request} {p : Position} (h : p.Placed r) {id : Nat} {subject : Term}
    {action : Step} (he : .step id subject action ∈ p.marker.spine) :
    ∀ entry ∈ subject.spine, entry.id ≠ r.root.id := by
  intro entry hentry
  rcases h.whole with hp | hw
  · subst hp
    obtain ⟨ho, hid⟩ := h.ordered.ordered.of_mem_spine he
    have hlt : entry.id < id := Nat.lt_of_le_of_lt (ho.subject.1.of_mem_spine hentry).2 ho.subject.2
    exact Nat.ne_of_lt (Nat.lt_of_lt_of_le hlt hid)
  · exact hw entry (Term.spine_subset_of_mem he (List.mem_cons_of_mem _ hentry))

private theorem Placed.shorten {r : Request} {p : Position} (h : p.Placed r) {id : Nat}
    {subject : Term} {action : Step} (he : .step id subject action ∈ p.marker.spine) :
    Placed r { p with marker := subject } :=
  ⟨h.ordered, h.grown, Term.spine_subset_of_mem h.onChain (Term.subject_mem_spine he),
    .inr (h.below he)⟩

private theorem Placed.split {r : Request} {p next : Position} {keep : Term → Bool} {id : Nat}
    {subject : Term} {action : Step} (h : p.Placed r) (hr : r.Ordered)
    (he : .step id subject action ∈ p.marker.spine)
    (hs : p.request.splitFilter? keep (.step id subject action) =
      some (next.request, next.marker)) : Placed r next := by
  obtain ⟨id', subject', predicate, heq, hk, hl, hpushed, hroot, harena⟩ :=
    Request.splitFilter?_eq_some hs
  cases heq
  have hentry := h.ordered.of_mem_spine (Term.spine_subset_of_mem h.onChain he)
  obtain ⟨hsize, hkept, hleft⟩ := Term.split_allocated keep hentry.predicate
  have hlower := (hentry.subject.mono hsize).filter hkept
  rw [← hpushed] at hlower
  have hupper := hlower.filter (hleft.mono (by simp))
  have hroom : p.request.arena.size ≤
      (alloc (.step · next.marker (.filter (predicate.split keep p.request.arena).1.2))
        (alloc (.step · subject (.filter (predicate.split keep p.request.arena).1.1))
          (predicate.split keep p.request.arena).2).2).2.size := by
    simp only [Term.size_alloc]
    omega
  refine ⟨?_, ?_, ?_, .inr fun entry hentry => ?_⟩
  · unfold Request.Ordered
    rw [hroot, harena]
    exact Term.rebase_allocated (h.ordered.mono hroom) hupper
  · rw [harena]
    exact Nat.le_trans h.grown (Nat.le_trans hroom (Term.size_le_rebase _ _ _ _ _))
  · rw [hroot]
    exact Term.mem_spine_rebase (List.mem_cons_of_mem _ next.marker.self_mem_spine)
  · rw [hpushed] at hentry
    rcases List.mem_cons.1 hentry with rfl | hentry
    · have hlt : r.root.id < r.arena.size := hr.id_lt
      have hgrown := h.grown
      change (predicate.split keep p.request.arena).2.size ≠ r.root.id
      omega
    · exact h.below he entry hentry

/-- A retreat keeps a position placed. -/
theorem Placed.retreat {r : Request} {p next : Position} {keep : Term → Bool} {refused : Nat}
    (h : p.Placed r) (hr : r.Ordered) (hn : p.retreat? keep refused = some next) :
    Placed r next := by
  obtain ⟨id, subject, action, he, hnext | hnext⟩ := retreat?_cases hn
  · exact hnext ▸ h.shorten he
  · exact h.split hr he hnext

end Position

/-- What every retreat keeps holds of the plan, whose prefix the backend compiled. -/
theorem Backend.planFrom_induction {b : Backend} {schema : Schema} {P : Position → Prop}
    (hstep : ∀ p next refused, P p → p.retreat? b.supports refused = some next → P next)
    {p : Position} {plan : Plan} (hp : P p) (h : b.planFrom schema p = some plan) :
    P ⟨plan.request, plan.marker⟩ ∧
      b.compile schema { plan.request with root := plan.marker } = .ok plan.fragment := by
  induction p using planFrom.induct b schema with
  | case1 p hempty =>
    rw [planFrom, if_pos hempty] at h
    cases h
  | case2 p hempty fragment hc =>
    rw [planFrom, if_neg hempty, hc] at h
    cases h
    refine ⟨hp, ?_⟩
    unfold compileChecked at hc
    split at hc
    · cases hc
    · exact hc
  | case3 p hempty refusal hc next hnext ih =>
    rw [planFrom, if_neg hempty, hc] at h
    dsimp only at h
    split at h
    · rename_i next' hnext'
      rw [hnext'] at hnext
      cases hnext
      exact ih (hstep p next refusal.node hp hnext') h
    · cases h
  | case4 p hempty refusal hc hnext =>
    rw [planFrom, if_neg hempty, hc] at h
    dsimp only at h
    split at h
    · rename_i next' hnext'
      rw [hnext'] at hnext
      cases hnext
    · cases h

end QueryPushdown
