import QueryPushdown.Request.NodeKind

/-!
# Registries of handlers

A registry holds at most one handler for each node kind. A node is served by the handler of its
own kind or, failing that, of the closest family that has one.
-/

namespace QueryPushdown

/-- Handlers by node kind. -/
structure Registry (α : Type) where
  handlers : List (NodeKind × α) := []

namespace Registry

variable {α : Type}

/-- The handler registered for exactly this kind. -/
def own? (r : Registry α) (kind : NodeKind) : Option α := r.handlers.lookup kind

/-- Sets the handler of a kind. -/
def register (r : Registry α) (kind : NodeKind) (handler : α) : Registry α :=
  ⟨(kind, handler) :: r.handlers.filter (·.1 != kind)⟩

def ofList (handlers : List (NodeKind × α)) : Registry α :=
  handlers.foldl (fun r entry => r.register entry.1 entry.2) {}

def size (r : Registry α) : Nat := r.handlers.length

/-- The closest handler for a kind, with the kind it is registered under. -/
def resolveKind? (r : Registry α) (kind : NodeKind) : Option (NodeKind × α) :=
  kind.ancestors.findSome? fun family => (r.own? family).map (family, ·)

/-- The handler that serves a node. -/
def resolve (r : Registry α) (t : Term) : Outcome α :=
  match r.resolveKind? (NodeKind.ofTerm t) with
  | some (_, handler) => .ok handler
  | none => .error (.ofCause (.unhandledNode (NodeKind.ofTerm t).text))

/-- The first node beneath a term that no handler serves. -/
def unhandled? (r : Registry α) (t : Term) : Option Term :=
  t.nodes.find? fun node => (r.resolveKind? (NodeKind.ofTerm node)).isNone

/-- Whether every node beneath a term is served. -/
def supports (r : Registry α) (t : Term) : Bool := (r.unhandled? t).isNone

end Registry

end QueryPushdown
