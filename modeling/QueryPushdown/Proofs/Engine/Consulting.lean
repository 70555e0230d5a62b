import QueryPushdown.Engine.Consulting
import QueryPushdown.Proofs.Engine.Planning
import QueryPushdown.Proofs.Transform.Sharing

/-!
# Planning ends

Every prefix that is refused is followed by one that has a shorter chain or fewer conjuncts in its
filters, whatever the backend answers to each call. As many prefixes as the weight of the request
counts are tried at most.
-/

namespace QueryPushdown

/-- The part that is kept of a split has fewer conjuncts, unless one part is the literal `true`. -/
theorem Term.length_conjuncts_splitM_lt {σ : Type} (keep : Request → StateM σ Bool) {t : Term}
    {s : σ} {a : Arena} (hk : (t.splitM keep s a).1.1.1.isLiteralBool true = false)
    (hl : (t.splitM keep s a).1.1.2.isLiteralBool true = false) :
    (t.splitM keep s a).1.1.1.conjuncts.length < t.conjuncts.length := by
  obtain ⟨calls, hasked, hkept, hleft, -⟩ := t.partitionM_asks keep s a
  let kept := orTrue (t.partitionM keep s a).1.1.1 (t.partitionM keep s a).2
  let left := orTrue (t.partitionM keep s a).1.1.2 kept.2
  change kept.1.isLiteralBool true = false at hk
  change left.1.isLiteralBool true = false at hl
  rw [orTrue_eq_some hk, conjunctsOf_some] at hkept
  rw [orTrue_eq_some hl, conjunctsOf_some] at hleft
  have hsome : (failing calls).length ≠ 0 := fun h =>
    left.1.conjuncts_ne_nil (hleft.trans (List.length_eq_zero_iff.1 h))
  have hshare : (passing calls).length + (failing calls).length = t.conjuncts.length := by
    rw [← hasked.roots, passing, failing, List.length_map, List.length_map, List.length_map,
      ← List.countP_eq_length_filter, ← List.countP_eq_length_filter]
    have hcount := List.length_eq_countP_add_countP (·.2) (l := calls)
    simpa using hcount.symm
  change kept.1.conjuncts.length < _
  rw [hkept]
  omega

/-- A test without a state splits the same way. -/
theorem Term.splitM_pure {σ : Type} (keep : Term → Bool) (t : Term) (s : σ) (a : Arena) :
    t.splitM (fun q => pure (keep q.root)) s a = (((t.split keep a).1, s), (t.split keep a).2) := by
  simp only [splitM, split, bind, StateT.bind, partitionM_pure]
  rfl

/-- What a filter becomes: the lower of two filters ends the new prefix. -/
theorem Request.refilter?_eq_some {r whole : Request} {id : Nat} {subject pushed : Term}
    {parts : (Term × Term) × Arena} (h : r.refilter? id subject parts = some (whole, pushed)) :
    parts.1.1.isLiteralBool true = false ∧ parts.1.2.isLiteralBool true = false ∧
      pushed.weight = subject.weight + parts.1.1.conjuncts.length + 1 ∧
      pushed ∈ whole.root.spine := by
  unfold refilter? at h
  split at h
  · cases h
  · rename_i hk
    split at h
    · cases h
    · rename_i hl
      refine ⟨eq_false_of_ne_true hk, eq_false_of_ne_true hl, ?_⟩
      dsimp only at h
      split at h
      · rename_i whole' hwhole
        cases h
        refine ⟨rfl, ?_⟩
        unfold replaceOnChain at hwhole
        split at hwhole
        · cases hwhole
        · cases hwhole
          exact Term.mem_spine_rebase (List.mem_cons_of_mem _ (Term.self_mem_spine _))
      · cases h

namespace Advisor

variable {σ : Type} {b : Advisor σ} {schema : Schema} {p : Position} {s s' : σ}

theorem splitFilter?_eq_some {r whole : Request} {entry pushed : Term}
    (h : b.splitFilter? r entry s = (some (whole, pushed), s')) :
    pushed.weight < entry.weight ∧ pushed ∈ whole.root.spine := by
  unfold splitFilter? at h
  split at h
  · rename_i id subject andId lhs rhs
    obtain ⟨hwhole, -⟩ := Prod.mk.inj h
    obtain ⟨hk, hl, hweight, hspine⟩ := Request.refilter?_eq_some hwhole
    have hfewer := Term.length_conjuncts_splitM_lt (b.asksWithin r)
      (t := .step andId lhs (.binary .and rhs)) (s := s) (a := r.arena) hk hl
    refine ⟨?_, hspine⟩
    rw [hweight, Term.weight]
    dsimp only
    omega
  · cases h

/-- Every retreat leads to a lighter prefix on the chain. -/
theorem retreat?_eq_some {next : Position} {refused : Nat}
    (h : b.retreat? p refused s = (some next, s')) : next.marker.weight < p.marker.weight ∧
      (p.marker ∈ p.request.root.spine → next.marker ∈ next.request.root.spine) := by
  unfold retreat? at h
  cases hentry : p.marker.entryHolding? refused with
  | none =>
    rw [hentry] at h
    cases h
  | some entry =>
    rw [hentry] at h
    cases entry with
    | step id subject action =>
      have hle := Term.weight_entryHolding?_le hentry
      rcases hs : b.splitFilter? p.request (.step id subject action) s with ⟨split, t⟩
      simp only [bind, StateT.bind, hs] at h
      cases split with
      | some split =>
        cases h
        obtain ⟨hlt, hspine⟩ := splitFilter?_eq_some hs
        exact ⟨Nat.lt_of_lt_of_le hlt hle, fun _ => hspine⟩
      | none =>
        cases h
        have hmem := Term.mem_chain.1 (List.mem_of_find?_eq_some hentry)
        exact ⟨Nat.lt_of_lt_of_le (Term.weight_subject_lt id subject action) hle,
          fun hp => Term.spine_subset_of_mem hp (Term.subject_mem_spine hmem)⟩
    | _ => cases h

theorem compileChecked_eq_ok {r : Request} {fragment : Fragment}
    (h : b.compileChecked schema r s = (.ok fragment, s')) :
    ∃ t, b.compile schema r t = (.ok fragment, s') := by
  unfold compileChecked at h
  rcases hc : b.unsupported? r r.root.chain s with ⟨entry, t⟩
  simp only [bind, StateT.bind, hc] at h
  cases entry with
  | some entry => cases h
  | none => exact ⟨t, h⟩

end Advisor

/-- What trying the prefix at a position can come to. -/
def Turn.Follows {σ : Type} (b : Advisor σ) (schema : Schema) (p : Position) : Turn → Prop
  | .done none => True
  | .done (some plan) => plan.request = p.request ∧ plan.marker = p.marker ∧
      ∃ t t', b.compile schema p.part t = (.ok plan.fragment, t')
  | .again next => next.marker.weight < p.marker.weight ∧
      (p.marker ∈ p.request.root.spine → next.marker ∈ next.request.root.spine)

namespace Advisor

variable {σ : Type} (b : Advisor σ) (schema : Schema)

/-- A refused prefix is followed by a lighter one. -/
theorem turn_follows (p : Position) (s : σ) : (b.turn schema p s).1.Follows b schema p := by
  unfold turn
  split
  next => exact trivial
  next =>
    rcases hc : b.compileChecked schema p.part s with ⟨compiled, t⟩
    simp only [bind, StateT.bind, hc]
    cases compiled with
    | ok fragment =>
      obtain ⟨t', ht'⟩ := compileChecked_eq_ok hc
      exact ⟨rfl, rfl, t', t, ht'⟩
    | error refusal =>
      rcases hr : b.retreat? p refusal.node t with ⟨next, t'⟩
      simp only [bind, StateT.bind, hr]
      cases next with
      | some next => exact retreat?_eq_some hr
      | none => exact trivial

theorem turns_succ (n : Nat) (p : Position) (s : σ) : b.turns schema (n + 1) p s =
    match b.turn schema p s with
    | (.done result, s') => (.done result, s')
    | (.again next, s') => b.turns schema n next s' := by
  rw [turns]
  rcases ht : b.turn schema p s with ⟨turn, s'⟩
  simp only [bind, StateT.bind, ht]
  cases turn <;> rfl

/-- From a position on the chain, no more prefixes are tried than its weight counts, and the last of
them ends on the chain. -/
theorem turns_done (p : Position) (hp : p.marker ∈ p.request.root.spine) (s : σ) :
    ∃ result s', (∀ n, p.marker.weight < n → b.turns schema n p s = (.done result, s')) ∧
      ∀ plan, result = some plan → plan.marker ∈ plan.request.root.spine ∧
        ∃ t t', b.compile schema { plan.request with root := plan.marker } t =
          (.ok plan.fragment, t') := by
  induction hw : p.marker.weight using Nat.strongRecOn generalizing p s with
  | ind w ih =>
    have hturn := turn_follows b schema p s
    rcases ht : b.turn schema p s with ⟨turn, s'⟩
    rw [ht] at hturn
    cases turn with
    | done result =>
      refine ⟨result, s', fun n hn => ?_, fun plan hplan => ?_⟩
      · obtain ⟨n, rfl⟩ := Nat.exists_eq_succ_of_ne_zero (Nat.ne_of_gt (Nat.zero_lt_of_lt hn))
        rw [turns_succ, ht]
      · subst hplan
        obtain ⟨hrequest, hmarker, t, t', hcompile⟩ := hturn
        rw [hrequest, hmarker]
        exact ⟨hp, t, t', hcompile⟩
    | again next =>
      obtain ⟨hlt, hspine⟩ := hturn
      obtain ⟨result, s'', hresult, hplan⟩ :=
        ih next.marker.weight (hw ▸ hlt) next (hspine hp) s' rfl
      refine ⟨result, s'', fun n hn => ?_, hplan⟩
      obtain ⟨n, rfl⟩ := Nat.exists_eq_succ_of_ne_zero (Nat.ne_of_gt (Nat.zero_lt_of_lt hn))
      rw [turns_succ, ht]
      exact hresult n (by omega)

section Constant

variable (c : Backend)

theorem unsupported?_advisor (r : Request) (entries : List Term) (s : σ) :
    (c.advisor σ).unsupported? r entries s = (entries.find? fun entry => !c.supports entry, s) := by
  induction entries with
  | nil => rfl
  | cons entry entries ih =>
    have hasks : (c.advisor σ).supports r entry s = (c.supports entry, s) := rfl
    simp only [unsupported?, bind, StateT.bind, hasks, List.find?_cons]
    cases c.supports entry with
    | true => exact ih
    | false => rfl

theorem compileChecked_advisor (r : Request) (s : σ) :
    (c.advisor σ).compileChecked schema r s = (c.compileChecked schema r, s) := by
  simp only [compileChecked, bind, StateT.bind, unsupported?_advisor, Backend.compileChecked]
  cases r.root.chain.find? fun entry => !c.supports entry <;> rfl

theorem splitFilter?_advisor (r : Request) (entry : Term) (s : σ) :
    (c.advisor σ).splitFilter? r entry s = (r.splitFilter? c.supports entry, s) := by
  unfold splitFilter?
  split
  · rename_i id subject andId lhs rhs
    have hsplit := Term.splitM_pure c.supports (.step andId lhs (.binary .and rhs)) s r.arena
    have hasks : (c.advisor σ).asksWithin r = fun q => pure (c.supports q.root) := rfl
    dsimp only
    rw [hasks, hsplit]
    rfl
  · rename_i hne
    unfold Request.splitFilter?
    split
    · exact (hne _ _ _ _ _ rfl).elim
    · rfl

theorem retreat?_advisor (p : Position) (refused : Nat) (s : σ) :
    (c.advisor σ).retreat? p refused s = (p.retreat? c.supports refused, s) := by
  unfold retreat? Position.retreat?
  cases p.marker.entryHolding? refused with
  | none => rfl
  | some entry => cases entry with
    | step id subject action =>
      simp only [bind, StateT.bind, splitFilter?_advisor]
      cases p.request.splitFilter? c.supports (.step id subject action) <;> rfl
    | _ => rfl

theorem turn_advisor (p : Position) (s : σ) : (c.advisor σ).turn schema p s =
    (if p.marker.sources.isEmpty then .done none
    else match c.compileChecked schema p.part with
      | .ok fragment => .done (some ⟨p.request, p.marker, fragment⟩)
      | .error refusal => match p.retreat? c.supports refusal.node with
        | some next => .again next
        | none => .done none, s) := by
  unfold turn
  split
  · rfl
  · simp only [bind, StateT.bind, compileChecked_advisor]
    cases c.compileChecked schema p.part with
    | ok fragment => rfl
    | error refusal =>
      simp only [bind, StateT.bind, retreat?_advisor]
      cases p.retreat? c.supports refusal.node <;> rfl

/-- With a backend that always gives the same answer, the prefixes tried end in its plan. -/
theorem turns_advisor {n : Nat} (p : Position) (hn : p.marker.weight < n) (s : σ) :
    (c.advisor σ).turns schema n p s = (.done (c.planFrom schema p), s) := by
  obtain ⟨n, rfl⟩ := Nat.exists_eq_succ_of_ne_zero (Nat.ne_of_gt (Nat.zero_lt_of_lt hn))
  rw [turns_succ, turn_advisor]
  induction p using Backend.planFrom.induct c schema generalizing n s with
  | case1 p hempty => rw [Backend.planFrom, if_pos hempty, if_pos hempty]
  | case2 p hempty fragment hc => rw [Backend.planFrom, if_neg hempty, if_neg hempty, hc]
  | case3 p hempty refusal hc next hnext ih =>
    have hlt := Position.weight_retreat?_lt hnext
    obtain ⟨n, rfl⟩ := Nat.exists_eq_succ_of_ne_zero (Nat.ne_of_gt (Nat.zero_lt_of_lt
      (Nat.lt_of_lt_of_le hlt (Nat.le_of_lt_succ hn))))
    have hplan : c.planFrom schema p = c.planFrom schema next := by
      rw [Backend.planFrom, if_neg hempty, hc]
      dsimp only
      split
      · rename_i next' hnext'
        rw [hnext'] at hnext
        cases hnext
        rfl
      · rename_i hnone
        rw [hnone] at hnext
        cases hnext
    rw [if_neg hempty, hc, hplan]
    simp only [hnext]
    rw [turns_succ, turn_advisor]
    exact ih s n (by omega)
  | case4 p hempty refusal hc hnext =>
    rw [Backend.planFrom, if_neg hempty, if_neg hempty, hc]
    dsimp only
    rw [hnext]

end Constant

/-- Planning ends whatever a backend answers to each call, be it nodes that it refuses although it
claimed to support them, nodes that are nowhere in the prefix, or different answers to the same
question. After as many prefixes as the weight of the request counts, and one more, there is a
result: none, or what the backend compiled of a prefix of the chain. For a backend that always gives
the same answer, the result is its plan. -/
theorem planning_ends (b : Advisor σ) (schema : Schema) (r : Request) (s : σ) :
    (∃ result s', (∀ more, b.turns schema (r.root.weight + 1 + more) ⟨r, r.root⟩ s =
        (.done result, s')) ∧
      ∀ plan, result = some plan → plan.marker ∈ plan.request.root.spine ∧
        ∃ t t', b.compile schema { plan.request with root := plan.marker } t =
          (.ok plan.fragment, t')) ∧
    ∀ c : Backend, (c.advisor σ).turns schema (r.root.weight + 1) ⟨r, r.root⟩ s =
      (.done (c.plan schema r), s) := by
  obtain ⟨result, s', hresult, hplan⟩ := turns_done b schema ⟨r, r.root⟩ r.root.self_mem_spine s
  refine ⟨⟨result, s', fun more => ?_, hplan⟩, fun c => ?_⟩
  · exact hresult _ (Nat.lt_of_lt_of_le (Nat.lt_succ_self _) (Nat.le_add_right _ more))
  · exact turns_advisor schema c ⟨r, r.root⟩ (Nat.lt_succ_self _) s

/-- Claims to support everything, refuses the first prefix, compiles the second, and from then on
refuses a node that is in no prefix. -/
def wavering : Advisor Nat where
  supports _ _ := pure true
  compile _ r := fun calls => match calls with
    | 0 => (.error ⟨r.root.id, .operation⟩, 1)
    | 1 => (.ok (.find { collection := "items" }), 2)
    | calls + 2 => (.error ⟨99, .operation⟩, calls + 3)

/-- The distinct items. -/
def distinctItems : Request := (Request.source "items").wrap .distinct

theorem planning_ends_wavering : ∃ plan s',
    wavering.turns {} (distinctItems.root.weight + 1) ⟨distinctItems, distinctItems.root⟩ 0 =
      (.done (some plan), s') ∧ plan.marker ∈ plan.request.root.spine := by
  obtain ⟨⟨result, s', hresult, hplan⟩, -⟩ := planning_ends wavering {} distinctItems 0
  have hturns := hresult 0
  cases result with
  | none => cases hturns
  | some plan => exact ⟨plan, s', hturns, (hplan plan rfl).1⟩

end Advisor

end QueryPushdown
