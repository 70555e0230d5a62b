import QueryPushdown.Transform.Shift

/-!
# Cutting and recomposing requests

`Request.cut` takes a request apart at a node of its chain: the part before it, and the rest with
a placeholder, `ctx(0)`, in its stead. The rest is read one scope further in, so its references
move outwards by one. `recompose` puts two such parts together again, and `replaceOnChain`
exchanges a node of the chain in place.
-/

namespace QueryPushdown

/-- A request cut in two. -/
structure Cut where
  before : Request
  after : Request

namespace Term

/-- The head of the chain. -/
def head : Term → Term
  | step _ subject _ => subject.head
  | t => t

/-- Allocates the chain above the node numbered `marker` on top of `base`. Operands other than the
subjects move by a number of scopes. -/
def rebase (t : Term) (marker : Nat) (base : Term) (scopes : Int) : Alloc Term :=
  match t with
  | step id subject action =>
    if id = marker then pure base
    else do
      let subject ← subject.rebase marker base scopes
      let action ← action.shift scopes
      alloc (step · subject action)
  | _ => pure base

/-- Whether an operand of the chain, the subjects apart, reads the element that `ctx(0)` stands for
at the head of the chain. -/
def placeholderEscapes : Term → Bool
  | step _ subject action =>
    subject.placeholderEscapes || action.operands.any fun (t, scopes) => t.refersTo scopes
  | _ => false

def isPlaceholder : Term → Bool
  | context _ 0 => true
  | _ => false

end Term

namespace Request

/-- The node of the chain numbered `id`. -/
def onChain? (r : Request) (id : Nat) : Option Term := r.root.spine.find? (·.id == id)

/-- Cuts a request at a node of its chain. -/
def cut (r : Request) (marker : Nat) : Outcome Cut :=
  match r.onChain? marker with
  | none => .error (.invalid (.notOnChain marker r.text))
  | some before => .ok {
      before := { r with root := before }
      after := r.rebuild fun root => do
        let placeholder ← alloc (.context · 0)
        root.rebase marker placeholder 1 }

/-- Puts `before` in the place of the placeholder at the head of `after`. -/
def recompose (before after : Request) : Outcome Request :=
  if !after.root.head.isPlaceholder then .error (.invalid (.noPlaceholder after.text))
  else if after.root.placeholderEscapes then .error (.invalid (.placeholderEscapes after.text))
  else .ok (after.rebuild fun root => do
    let base ← bring before
    root.rebase root.head.id base (-1))

/-- Exchanges a node of the chain for another node of the same arena. -/
def replaceOnChain (r : Request) (target : Nat) (replacement : Term) : Outcome Request :=
  match r.onChain? target with
  | none => .error (.invalid (.notOnChain target r.text))
  | some _ => .ok (r.rebuild fun root => root.rebase target replacement 0)

end Request

def Cut.recompose (c : Cut) : Outcome Request := c.before.recompose c.after

end QueryPushdown
