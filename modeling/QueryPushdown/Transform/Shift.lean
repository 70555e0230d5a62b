import QueryPushdown.Request.Arena

/-!
# Shifting context references

A context reference escapes a term when it goes past the scopes opened inside it. `Term.shift`
moves every escaping reference by a number of scopes. Nodes whose operands stay the same are
kept, all others are allocated anew, operands first.
-/

namespace QueryPushdown

/-- Where a reference `up` scopes outwards moves to, if it escapes `level` scopes and still does so
after the move. -/
def movedUp? (scopes : Int) (level up : Nat) : Option Nat :=
  let moved := (up : Int) + scopes
  if level ≤ up ∧ (level : Int) ≤ moved ∧ moved < 2 ^ 64 then some moved.toNat else none

/-- Numbers of the operands of a step. -/
def Step.operandIds (action : Step) : List Nat := action.operands.map (·.1.id)

namespace Term

mutual

/-- Moves the references of a term that escape `level` scopes. -/
def move (scopes : Int) (level : Nat) : Term → Alloc Term
  | source id name => pure (source id name)
  | literal id value => pure (literal id value)
  | context id up =>
    match movedUp? scopes level up with
    | some up => alloc (context · up)
    | none => pure (context id up)
  | record id fields => do
    let moved ← moveFields scopes level fields
    if moved.map (·.2.id) = fields.map (·.2.id) then pure (record id fields)
    else alloc (record · moved)
  | step id subject action => do
    let subject' ← move scopes level subject
    let action' ← moveStep scopes level action
    if subject'.id = subject.id ∧ action'.operandIds = action.operandIds then
      pure (step id subject action)
    else alloc (step · subject' action')

/-- Moves the references of the operands of a step, the subject apart. -/
def moveStep (scopes : Int) (level : Nat) : Step → Alloc Step
  | .binary op rhs => do pure (.binary op (← move scopes level rhs))
  | .filter predicate => do pure (.filter (← move scopes (level + 1) predicate))
  | .map transform => do pure (.map (← move scopes (level + 1) transform))
  | .sort keys => do pure (.sort (← moveKeys scopes (level + 1) keys))
  | .groupby key aggregates => do
    let key ← move scopes (level + 1) key
    pure (.groupby key (← moveFields scopes (level + 1) aggregates))
  | .oneOr default => do pure (.oneOr (← move scopes level default))
  | .field name => pure (.field name)
  | .unary op => pure (.unary op)
  | .slice start stop => pure (.slice start stop)
  | .index position => pure (.index position)
  | .distinct => pure .distinct
  | .one => pure .one
  | .aggregate op => pure (.aggregate op)

def moveFields (scopes : Int) (level : Nat) :
    List (String × Term) → Alloc (List (String × Term))
  | [] => pure []
  | (name, t) :: rest => do
    let t ← move scopes level t
    pure ((name, t) :: (← moveFields scopes level rest))

def moveKeys (scopes : Int) (level : Nat) :
    List (Term × Bool) → Alloc (List (Term × Bool))
  | [] => pure []
  | (t, descending) :: rest => do
    let t ← move scopes level t
    pure ((t, descending) :: (← moveKeys scopes level rest))

end

/-- Moves the references of a term that escape `level` scopes; a move by no scope keeps the
term. -/
def shift (t : Term) (level : Nat) (scopes : Int) : Alloc Term :=
  if scopes = 0 then pure t else t.move scopes level

end Term

/-- Moves the references that escape a step through its operands, the subject apart. -/
def Step.shift (action : Step) (scopes : Int) : Alloc Step :=
  if scopes = 0 then pure action else Term.moveStep scopes 0 action

/-- Moves the references of a request that escape `level` scopes. -/
def Request.shift (r : Request) (level : Nat) (scopes : Int) : Request :=
  r.rebuild fun root => root.shift level scopes

end QueryPushdown
