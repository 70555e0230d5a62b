import QueryPushdown.Engine.Source
import QueryPushdown.Transform.Cut
import QueryPushdown.Transform.Split

/-!
# Planning

A plan is a prefix of a request's chain that a backend compiled. `Backend.plan` starts with the
whole request. Each refusal moves the end of the prefix below the entry of the chain that holds the
refused node; a filter with a refused conjunction is first split in two, so that the conjuncts that
are supported stay in the prefix. `Term.weight` of the prefix decreases with every refusal, so
planning ends whatever the backend refuses.
-/

namespace QueryPushdown

namespace Term

/-- Entries of the chain and conjuncts of its filters, counted together. -/
def weight : Term → Nat
  | step _ subject (.filter predicate) => subject.weight + predicate.conjuncts.length + 1
  | step _ subject _ => subject.weight + 1
  | _ => 0

/-- The lowest entry of the chain that has the node numbered `id` beneath it. -/
def entryHolding? (t : Term) (id : Nat) : Option Term := t.chain.find? (·.contains id)

theorem weight_subject_lt (id : Nat) (subject : Term) (action : Step) :
    subject.weight < (step id subject action).weight := by
  cases action <;> simp only [weight] <;> omega

theorem weight_le_of_mem_spine {t entry : Term} (h : entry ∈ t.spine) :
    entry.weight ≤ t.weight := by
  refine holds_of_mem_spine (P := fun e => e.weight ≤ t.weight) ?_ (Nat.le_refl _) h
  exact fun id subject action hs => Nat.le_of_lt (Nat.lt_of_lt_of_le (weight_subject_lt ..) hs)

theorem weight_entryHolding?_le {t entry : Term} {id : Nat}
    (h : t.entryHolding? id = some entry) : entry.weight ≤ t.weight :=
  weight_le_of_mem_spine (List.mem_reverse.1 (List.mem_of_find?_eq_some h))

end Term

/-- A filter of a conjunction, as two filters: the lower one of the conjuncts that pass a test, and
one of the others above it. Returns the new request and the lower filter. Nothing is split
when one side would hold of everything. -/
def Request.splitFilter? (r : Request) (keep : Term → Bool) (entry : Term) :
    Option (Request × Term) :=
  match entry with
  | .step id subject (.filter (.step andId lhs (.binary .and rhs))) =>
    let s := (Term.step andId lhs (.binary .and rhs)).split keep r.arena
    if s.1.1.isLiteralBool true then none
    else if s.1.2.isLiteralBool true then none
    else
      let pushed := alloc (.step · subject (.filter s.1.1)) s.2
      let rest := alloc (.step · pushed.1 (.filter s.1.2)) pushed.2
      match Request.replaceOnChain { r with arena := rest.2 } id rest.1 with
      | .ok whole => some (whole, pushed.1)
      | .error _ => none
  | _ => none

theorem Request.weight_splitFilter?_lt {r whole : Request} {keep : Term → Bool}
    {entry pushed : Term} (h : r.splitFilter? keep entry = some (whole, pushed)) :
    pushed.weight < entry.weight := by
  unfold splitFilter? at h
  split at h
  · rename_i id subject andId lhs rhs
    dsimp only at h
    split at h
    · cases h
    · rename_i hk
      split at h
      · cases h
      · rename_i hl
        split at h
        · cases h
          have := Term.length_conjuncts_split_lt (eq_false_of_ne_true hk) (eq_false_of_ne_true hl)
          simp only [alloc, Term.weight]
          omega
        · cases h
  · cases h

/-- A request, and the entry of its chain that ends the prefix to compile. -/
structure Position where
  request : Request
  marker : Term

namespace Position

/-- The prefix, as a request of its own. -/
def part (p : Position) : Request := { p.request with root := p.marker }

/-- The position after the node numbered `refused` could not be expressed, if there is one. The test
tells which conjuncts of a filter can stay. -/
def retreat? (p : Position) (keep : Term → Bool) (refused : Nat) : Option Position :=
  match p.marker.entryHolding? refused with
  | some (.step id subject action) =>
    match p.request.splitFilter? keep (.step id subject action) with
    | some (whole, pushed) => some ⟨whole, pushed⟩
    | none => some { p with marker := subject }
  | _ => none

/-- Every retreat shortens the prefix or takes a conjunct out of it. -/
theorem weight_retreat?_lt {p next : Position} {keep : Term → Bool} {refused : Nat}
    (h : p.retreat? keep refused = some next) : next.marker.weight < p.marker.weight := by
  unfold retreat? at h
  split at h
  · rename_i id subject action hentry
    have hle := Term.weight_entryHolding?_le hentry
    split at h
    · rename_i hsplit
      cases h
      exact Nat.lt_of_lt_of_le (Request.weight_splitFilter?_lt hsplit) hle
    · cases h
      exact Nat.lt_of_lt_of_le (Term.weight_subject_lt id subject action) hle
  · cases h

end Position

/-- A prefix that was compiled. -/
structure Plan where
  request : Request
  /-- The entry of the chain that ends the prefix. -/
  marker : Term
  fragment : Fragment

namespace Backend

/-- Compiles a request, once every entry of its chain passed the cheap check. -/
def compileChecked (b : Backend) (schema : Schema) (r : Request) : Except Refusal Fragment :=
  match r.root.chain.find? fun entry => !b.supports entry with
  | some entry => .error ⟨entry.id, .operation⟩
  | none => b.compile schema r

/-- The longest prefix that the backend compiles, found from a position downwards. -/
def planFrom (b : Backend) (schema : Schema) (p : Position) : Option Plan :=
  if p.marker.sources.isEmpty then none
  else
    match b.compileChecked schema p.part with
    | .ok fragment => some ⟨p.request, p.marker, fragment⟩
    | .error refusal =>
      match _h : p.retreat? b.supports refusal.node with
      | some next => planFrom b schema next
      | none => none
termination_by p.marker.weight
decreasing_by exact Position.weight_retreat?_lt _h

/-- The longest prefix of a request that the backend compiles. -/
def plan (b : Backend) (schema : Schema) (r : Request) : Option Plan :=
  b.planFrom schema ⟨r, r.root⟩

end Backend

end QueryPushdown
