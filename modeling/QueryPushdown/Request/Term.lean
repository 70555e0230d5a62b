import QueryPushdown.Value.Text

/-!
# Terms

A term is a head followed by the steps of its chain. The head is a source, a literal, a context
reference or a record; every step takes what is below it as its subject. Each node carries the
number it was allocated under. Predicates, transforms, keys and aggregates are read one scope
further in than the step that holds them, all other operands in its own scope.
-/

namespace QueryPushdown

mutual

/-- A node with everything beneath it. -/
inductive Term where
  | source (id : Nat) (name : String)
  | literal (id : Nat) (value : Value)
  /-- The element bound `up` scopes outwards from the innermost one. -/
  | context (id : Nat) (up : Nat)
  | record (id : Nat) (fields : List (String × Term))
  | step (id : Nat) (subject : Term) (action : Step)

/-- What a step does to its subject. -/
inductive Step where
  | field (name : String)
  | unary (op : UnaryOp)
  | binary (op : BinaryOp) (rhs : Term)
  | filter (predicate : Term)
  | map (transform : Term)
  /-- Keys, each with whether it is descending. -/
  | sort (keys : List (Term × Bool))
  | slice (start stop : Option Int64)
  | index (position : Int64)
  | groupby (key : Term) (aggregates : List (String × Term))
  | distinct
  | one
  | oneOr (default : Term)
  | aggregate (op : AggregateOp)

end

instance : Inhabited Term := ⟨.literal 0 .null⟩

instance : Inhabited Step := ⟨.distinct⟩

namespace Step

/-- Operands other than the subject, each with the number of scopes the step binds around it. -/
def operands : Step → List (Term × Nat)
  | binary _ rhs => [(rhs, 0)]
  | filter predicate => [(predicate, 1)]
  | map transform => [(transform, 1)]
  | sort keys => keys.map fun (key, _) => (key, 1)
  | groupby key aggregates => (key, 1) :: aggregates.map fun (_, t) => (t, 1)
  | oneOr default => [(default, 0)]
  | _ => []

/-- Whether no bound counts from the end of the sequence. -/
def isForward (start stop : Option Int64) : Bool :=
  start.all (0 ≤ ·) && stop.all (0 ≤ ·)

theorem start_nonneg {start stop : Option Int64} (h : isForward start stop = true) :
    0 ≤ start.getD 0 := by
  obtain ⟨hstart, -⟩ := Bool.and_eq_true_iff.1 h
  cases start with
  | none => decide
  | some start => simpa using hstart

theorem stop_nonneg {start stop : Option Int64} (h : isForward start stop = true) :
    ∀ bound, stop = some bound → 0 ≤ bound := by
  rintro bound rfl
  obtain ⟨-, hstop⟩ := Bool.and_eq_true_iff.1 h
  simpa using hstop

end Step

namespace Term

def id : Term → Nat
  | source id _ | literal id _ | context id _ | record id _ | step id _ _ => id

def subject? : Term → Option Term
  | step _ subject _ => some subject
  | _ => none

/-- All operands in order, the subject first, each with the number of scopes bound around it. -/
def children : Term → List (Term × Nat)
  | record _ fields => fields.map fun (_, t) => (t, 0)
  | step _ subject action => (subject, 0) :: action.operands
  | _ => []

/-- The nodes from the root along the subjects, outermost first. -/
def spine : Term → List Term
  | step id subject action => step id subject action :: spine subject
  | t => [t]

theorem spine_eq_singleton {t : Term} (h : ∀ id subject action, t ≠ step id subject action) :
    t.spine = [t] := by
  cases t with
  | step id subject action => exact absurd rfl (h id subject action)
  | _ => rfl

/-- What every step hands down to its subject holds of all entries, if it holds of the root. -/
theorem holds_of_mem_spine {P : Term → Prop}
    (handsDown : ∀ id subject action, P (step id subject action) → P subject) {t entry : Term}
    (h : P t) (he : entry ∈ t.spine) : P entry := by
  induction t using spine.induct with
  | case1 id subject action ih =>
    rcases List.mem_cons.1 he with rfl | he
    · exact h
    · exact ih (handsDown id subject action h) he
  | case2 t ht =>
    rw [spine_eq_singleton ht, List.mem_singleton] at he
    exact he ▸ h

/-- The chain of a term, from its head to its root. -/
def chain (t : Term) : List Term := t.spine.reverse

def asLiteral? : Term → Option Value
  | literal _ value => some value
  | _ => none

def isLiteralBool (b : Bool) : Term → Bool
  | literal _ (.bool c) => b == c
  | _ => false

mutual

/-- Every node beneath a term, a node before its operands, with the number of scopes bound
around it on top of `level`. -/
def walk (level : Nat) : Term → List (Term × Nat)
  | source id name => [(source id name, level)]
  | literal id value => [(literal id value, level)]
  | context id up => [(context id up, level)]
  | record id fields => (record id fields, level) :: walkFields level fields
  | step id subject action =>
    (step id subject action, level) :: (walk level subject ++ walkStep level action)

def walkStep (level : Nat) : Step → List (Term × Nat)
  | .binary _ rhs => walk level rhs
  | .filter predicate => walk (level + 1) predicate
  | .map transform => walk (level + 1) transform
  | .sort keys => walkKeys (level + 1) keys
  | .groupby key aggregates => walk (level + 1) key ++ walkFields (level + 1) aggregates
  | .oneOr default => walk level default
  | .field _ | .unary _ | .slice _ _ | .index _ | .distinct | .one | .aggregate _ => []

def walkFields (level : Nat) : List (String × Term) → List (Term × Nat)
  | [] => []
  | (_, t) :: rest => walk level t ++ walkFields level rest

def walkKeys (level : Nat) : List (Term × Bool) → List (Term × Nat)
  | [] => []
  | (t, _) :: rest => walk level t ++ walkKeys level rest

end

/-- Every node beneath a term, a node before its operands. -/
def nodes (t : Term) : List Term := (t.walk 0).map Prod.fst

/-- The node numbered `id` beneath a term. -/
def find? (t : Term) (id : Nat) : Option Term := t.nodes.find? (·.id == id)

def contains (t : Term) (id : Nat) : Bool := t.nodes.any (·.id == id)

/-- Names of the sources that a term reads, in the order they are first met. -/
def sources (t : Term) : List String :=
  t.nodes.foldl (fun names node =>
    match node with
    | source _ name => if names.contains name then names else names ++ [name]
    | _ => names) []

/-- Whether a term reads the element bound `level` scopes outwards. -/
def refersTo (t : Term) (level : Nat) : Bool :=
  (t.walk level).any fun
    | (context _ up, depth) => up == depth
    | _ => false

end Term

end QueryPushdown
