import QueryPushdown.Engine.Planning

/-!
# Planning call by call

A backend need not give the same answer twice. Here its answers are calls with a state, which are
made in the order in which planning makes them: about the entries of the chain, then about the
prefix, then about the conjuncts of a refused filter. `Advisor.turns` counts the prefixes tried.
-/

namespace QueryPushdown

/-- A backend as planning sees it: what it answers, call by call. -/
structure Advisor (σ : Type) where
  /-- The answer about a node of a request. -/
  supports : Request → Term → StateM σ Bool
  compile : Schema → Request → StateM σ (Except Refusal Fragment)

/-- A filter over `subject` split into two filters, unless one part holds of everything. Returns the
new request and the lower filter. -/
def Request.refilter? (r : Request) (id : Nat) (subject : Term) (parts : (Term × Term) × Arena) :
    Option (Request × Term) :=
  if parts.1.1.isLiteralBool true then none
  else if parts.1.2.isLiteralBool true then none
  else
    let pushed := alloc (.step · subject (.filter parts.1.1)) parts.2
    let rest := alloc (.step · pushed.1 (.filter parts.1.2)) pushed.2
    match Request.replaceOnChain { r with arena := rest.2 } id rest.1 with
    | .ok whole => some (whole, pushed.1)
    | .error _ => none

/-- What comes of trying one prefix. -/
inductive Turn where
  | done (result : Option Plan)
  | again (next : Position)

namespace Advisor

variable {σ : Type} (b : Advisor σ) (schema : Schema)

/-- The first of these entries that is not supported. -/
def unsupported? (r : Request) : List Term → StateM σ (Option Term)
  | [] => pure none
  | entry :: rest => do
    if ← b.supports r entry then unsupported? r rest else pure (some entry)

/-- Compiles a request, once every entry of its chain passed the cheap check. -/
def compileChecked (r : Request) : StateM σ (Except Refusal Fragment) := do
  match ← b.unsupported? r r.root.chain with
  | some entry => pure (.error ⟨entry.id, .operation⟩)
  | none => b.compile schema r

/-- The conjuncts of a filter are asked about within the whole request, as it has grown by then. -/
def asksWithin (r : Request) (q : Request) : StateM σ Bool :=
  b.supports { q with root := r.root } q.root

/-- A filter of a conjunction, as two filters: the lower one of the conjuncts that are supported,
and one of the others above it. -/
def splitFilter? (r : Request) (entry : Term) : StateM σ (Option (Request × Term)) :=
  match entry with
  | .step id subject (.filter (.step andId lhs (.binary .and rhs))) => fun s =>
    let split := (Term.step andId lhs (.binary .and rhs)).splitM (b.asksWithin r) s r.arena
    (r.refilter? id subject (split.1.1, split.2), split.1.2)
  | _ => pure none

/-- The position after the node numbered `refused` could not be expressed, if there is one. -/
def retreat? (p : Position) (refused : Nat) : StateM σ (Option Position) :=
  match p.marker.entryHolding? refused with
  | some (.step id subject action) => do
    match ← b.splitFilter? p.request (.step id subject action) with
    | some (whole, pushed) => pure (some ⟨whole, pushed⟩)
    | none => pure (some { p with marker := subject })
  | _ => pure none

/-- Tries the prefix at a position. -/
def turn (p : Position) : StateM σ Turn := do
  if p.marker.sources.isEmpty then pure (.done none)
  else
    match ← b.compileChecked schema p.part with
    | .ok fragment => pure (.done (some ⟨p.request, p.marker, fragment⟩))
    | .error refusal =>
      match ← b.retreat? p refusal.node with
      | some next => pure (.again next)
      | none => pure (.done none)

/-- Tries at most `n` prefixes, from a position downwards. -/
def turns : Nat → Position → StateM σ Turn
  | 0, p => pure (.again p)
  | n + 1, p => do
    match ← b.turn schema p with
    | .done result => pure (.done result)
    | .again next => turns n next

end Advisor

/-- A backend that always gives the same answer. -/
def Backend.advisor (σ : Type) (b : Backend) : Advisor σ where
  supports _ t := pure (b.supports t)
  compile schema r := pure (b.compile schema r)

end QueryPushdown
