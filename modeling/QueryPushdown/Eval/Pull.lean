import QueryPushdown.Eval.Run
import QueryPushdown.Value.Basic

/-!
# Sequences that are pulled

A sequence that has not been drained is the list of its pulls. A pull makes some reads and then
yields an element, yields an error, or is passed over. Operators transform pulls one by one; a
consumer runs them in order and goes no further than it needs.
-/

namespace QueryPushdown

/-- One step of a sequence. -/
structure Pull where
  reads : List Access
  /-- What the step yields, nothing when it is passed over. -/
  item : Option (Outcome Value)

/-- A sequence that has not been drained. -/
abbrev Pulls := List Pull

namespace Pull

/-- A pull that yields an element at once. -/
def yielding (v : Value) : Pull := ⟨[], some (.ok v)⟩

/-- The same reads, yielding nothing. -/
def passed (p : Pull) : Pull := ⟨p.reads, none⟩

/-- A pull of the elements that pass a test. A failing test yields its error. -/
def keepIf (test : Value → Run Bool) (p : Pull) : Pull :=
  match p.item with
  | some (.ok v) =>
    let r := test v
    ⟨p.reads ++ r.reads, match r.outcome with
      | .ok true => some (.ok v)
      | .ok false => none
      | .error e => some (.error e)⟩
  | _ => p

/-- A pull of the elements after a transformation. -/
def mapWith (f : Value → Run Value) (p : Pull) : Pull :=
  match p.item with
  | some (.ok v) =>
    let r := f v
    ⟨p.reads ++ r.reads, some r.outcome⟩
  | _ => p

end Pull

namespace Pulls

/-- The elements of a list. -/
def ofList (items : List Value) : Pulls := items.map Pull.yielding

/-- What a sequence yields when it is drained. -/
def yields (ps : Pulls) : List (Outcome Value) := ps.filterMap Pull.item

/-- Drops the first `n` elements. Errors count as elements and are kept. -/
def skip : Nat → Pulls → Pulls
  | _, [] => []
  | n, p :: ps =>
    match p.item with
    | none => p :: skip n ps
    | some (.error _) => p :: skip (n - 1) ps
    | some (.ok _) => (if n = 0 then p else p.passed) :: skip (n - 1) ps

/-- Ends the sequence after `n` elements or errors. -/
def take : Nat → Pulls → Pulls
  | 0, _ => []
  | _, [] => []
  | n + 1, p :: ps =>
    match p.item with
    | none => p :: take (n + 1) ps
    | some _ => p :: take n ps

/-- Yields every element except the last `n`, each when the element `n` places later arrives.
`held` are the elements that wait, oldest first. Errors pass at once. -/
def holdBack (n : Nat) : List Value → Pulls → Pulls
  | _, [] => []
  | held, p :: ps =>
    match p.item with
    | some (.ok v) =>
      match held ++ [v] with
      | oldest :: waiting =>
        if n < waiting.length + 1 then ⟨p.reads, some (.ok oldest)⟩ :: holdBack n waiting ps
        else p.passed :: holdBack n (oldest :: waiting) ps
      | [] => p.passed :: holdBack n [] ps
    | _ => p :: holdBack n held ps

variable {σ : Type}

/-- Runs the pulls in order, giving each element to `f`. The first error ends the run. -/
def foldRun (f : σ → Value → Run σ) : σ → Pulls → Run σ
  | s, [] => pure s
  | s, p :: ps =>
    .after p.reads <| match p.item with
      | none => foldRun f s ps
      | some (.error e) => .fail e
      | some (.ok v) => f s v >>= fun s => foldRun f s ps

/-- Drains the sequence into a list. -/
def drain : Pulls → Run (List Value)
  | [] => pure []
  | p :: ps =>
    .after p.reads <| match p.item with
      | none => drain ps
      | some (.error e) => .fail e
      | some (.ok v) => do pure (v :: (← drain ps))

/-- Drains the sequence with an operation that may fail. The first failure is the outcome, and the
sequence is drained nevertheless. -/
def foldAll (f : σ → Value → Outcome σ) : Outcome σ → Pulls → Run σ
  | s, [] => .ofOutcome s
  | s, p :: ps =>
    .after p.reads <| match p.item with
      | none => foldAll f s ps
      | some item => foldAll f (s.bind fun s => item.bind (f s)) ps

/-- The first element and the pulls after it. -/
def next? : Pulls → Run (Option (Value × Pulls))
  | [] => pure none
  | p :: ps =>
    .after p.reads <| match p.item with
      | none => next? ps
      | some (.error e) => .fail e
      | some (.ok v) => pure (some (v, ps))

end Pulls

end QueryPushdown
