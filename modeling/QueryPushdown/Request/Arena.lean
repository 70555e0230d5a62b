import QueryPushdown.Request.Text

/-!
# Arenas and requests

An arena lists the nodes allocated so far; a node is numbered by its place. A request is a node of
an arena, its root. Nodes are only ever appended. Requests that hold copies of one arena, because
one was bound to a name and used again, carry a common `token` until one of them allocates; nodes
of an arena under the same token are shared and never copied.
-/

namespace QueryPushdown

structure Arena where
  nodes : Array Term := #[]
  /-- Set when other requests hold this very arena. -/
  token : Option Nat := none
  deriving Inhabited

/-- Computations that allocate nodes. -/
abbrev Alloc := StateM Arena

theorem Alloc.pure_apply {α : Type} (x : α) (a : Arena) : (pure x : Alloc α) a = (x, a) := rfl

namespace Arena

def size (a : Arena) : Nat := a.nodes.size

/-- Whether both are one arena, so that nodes need no copy. -/
def shared (a b : Arena) : Bool := a.token.isSome && a.token == b.token

end Arena

/-- Allocates the node that `make` builds from its number. -/
def alloc (make : Nat → Term) : Alloc Term := fun arena =>
  let node := make arena.size
  (node, { nodes := arena.nodes.push node, token := none })

/-- Copies made so far, by the number of the node they were made from. -/
abbrev Copies := List (Nat × Term)

/-- Computations that copy nodes into an arena. -/
abbrev Copying := StateT Copies Alloc

/-- The copy of the node numbered `id`, made by `copy` unless it exists. -/
def copyOnce (id : Nat) (copy : Copying (Nat → Term)) : Copying Term := do
  match (← get).lookup id with
  | some t => pure t
  | none =>
    let make ← copy
    let t ← alloc make
    modify ((id, t) :: ·)
    pure t

namespace Term

mutual

/-- Copies a term, operands first, each node once. -/
def copy : Term → Copying Term
  | source id name => copyOnce id (pure (source · name))
  | literal id value => copyOnce id (pure (literal · value))
  | context id up => copyOnce id (pure (context · up))
  | record id fields => copyOnce id do
    let fields ← copyFields fields
    pure (record · fields)
  | step id subject action => copyOnce id do
    let subject ← copy subject
    let action ← copyStep action
    pure (step · subject action)

def copyStep : Step → Copying Step
  | .binary op rhs => do pure (.binary op (← copy rhs))
  | .filter predicate => do pure (.filter (← copy predicate))
  | .map transform => do pure (.map (← copy transform))
  | .sort keys => do pure (.sort (← copyKeys keys))
  | .groupby key aggregates => do
    let key ← copy key
    pure (.groupby key (← copyFields aggregates))
  | .oneOr default => do pure (.oneOr (← copy default))
  | .field name => pure (.field name)
  | .unary op => pure (.unary op)
  | .slice start stop => pure (.slice start stop)
  | .index position => pure (.index position)
  | .distinct => pure .distinct
  | .one => pure .one
  | .aggregate op => pure (.aggregate op)

def copyFields : List (String × Term) → Copying (List (String × Term))
  | [] => pure []
  | (name, t) :: rest => do
    let t ← copy t
    pure ((name, t) :: (← copyFields rest))

def copyKeys : List (Term × Bool) → Copying (List (Term × Bool))
  | [] => pure []
  | (t, descending) :: rest => do
    let t ← copy t
    pure ((t, descending) :: (← copyKeys rest))

end

end Term

structure Request where
  arena : Arena
  root : Term
  deriving Inhabited

namespace Request

/-- A request of a single node in a new arena. -/
def single (make : Nat → Term) : Request :=
  let (root, arena) := alloc make {}
  ⟨arena, root⟩

def source (name : String) : Request := single (.source · name)

def literal (value : Value) : Request := single (.literal · value)

def context (up : Nat) : Request := single (.context · up)

/-- Brings the root of another request into an arena and returns its node there. -/
def bring (other : Request) : Alloc Term := fun arena =>
  if arena.shared other.arena then (other.root, arena)
  else
    let ((root, _), arena) := (other.root.copy.run []).run arena
    (root, arena)

/-- The request that a computation builds in the arena of `r`. -/
def rebuild (r : Request) (build : Term → Alloc Term) : Request :=
  let (root, arena) := (build r.root).run r.arena
  ⟨arena, root⟩

/-- Puts a step without operands on top. -/
def wrap (r : Request) (action : Step) : Request :=
  r.rebuild fun root => alloc (.step · root action)

/-- Puts a step with one operand on top. -/
def combine (r other : Request) (action : Term → Step) : Request :=
  r.rebuild fun root => do
    let operand ← bring other
    alloc (.step · root (action operand))

def bringFields : List (String × Request) → Alloc (List (String × Term))
  | [] => pure []
  | (name, r) :: rest => do
    let t ← bring r
    pure ((name, t) :: (← bringFields rest))

def bringKeys : List (Request × Bool) → Alloc (List (Term × Bool))
  | [] => pure []
  | (r, descending) :: rest => do
    let t ← bring r
    pure ((t, descending) :: (← bringKeys rest))

def sort (r : Request) (keys : List (Request × Bool)) : Request :=
  r.rebuild fun root => do
    let keys ← bringKeys keys
    alloc (.step · root (.sort keys))

def groupby (r key : Request) (aggregates : List (String × Request)) : Request :=
  r.rebuild fun root => do
    let key ← bring key
    let aggregates ← bringFields aggregates
    alloc (.step · root (.groupby key (Fields.ofList aggregates)))

/-- A record of requests, built in a new arena. -/
def record (fields : List (String × Request)) : Request :=
  let build : Alloc Term := do
    let fields ← bringFields fields
    alloc (.record · (Fields.ofList fields))
  let (root, arena) := build.run {}
  ⟨arena, root⟩

/-- The node numbered `id`, as a request in the same arena. -/
def withRoot? (r : Request) (id : Nat) : Option Request :=
  r.arena.nodes[id]?.map fun root => { r with root := root }

def text (r : Request) : String := r.root.text

end Request

end QueryPushdown
