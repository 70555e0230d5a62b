import QueryPushdown.Eval.Pull

/-!
# Windows on sequences

Slices and positions, with bounds from either end. Bounds from the start keep a sequence lazy; a
bound from the end holds back or keeps as many elements as it counts, in a buffer of that
capacity.
-/

namespace QueryPushdown.Window

/-- Bytes of an element in a buffer. -/
def elementBytes : Nat := 72

/-- Reserves a buffer for `n` elements. -/
def reserve (n : Nat) : Outcome Unit :=
  if n * elementBytes < 2 ^ 63 then .ok ()
  else .error (.ofCause (.crashed .capacityOverflow))

/-- Adds an element to the last `n` elements and to the number of all elements. -/
def push (n : Nat) (window : List Value × Nat) (v : Value) : List Value × Nat :=
  let (items, seen) := window
  if n = 0 then (items, seen + 1)
  else ((if items.length = n then items.drop 1 else items) ++ [v], seen + 1)

/-- Drains a sequence into its last `n` elements and its length. -/
def trailing (n : Nat) (ps : Pulls) : Run (List Value × Nat) := do
  reserve n
  ps.foldRun (fun window v => pure (push n window v)) ([], 0)

/-- The place in a sequence of `length` elements that a stop is at, at most the end. -/
def stopAt (length : Nat) : Option Int64 → Nat
  | none => length
  | some stop => if 0 ≤ stop then min stop.toInt.toNat length else length - stop.toInt.natAbs

/-- The elements from `k` places before the end up to `stop`. -/
def fromEnd (ps : Pulls) (k : Nat) (stop : Option Int64) : Run Pulls := do
  let (window, length) ← trailing k ps
  let placed := (window.zipIdx (length - window.length)).filter fun p => p.2 < stopAt length stop
  pure (Pulls.ofList (placed.map Prod.fst))

/-- The elements from `start` up to `stop`, negative bounds counting from the end. -/
def slice (ps : Pulls) (start stop : Option Int64) : Run Pulls :=
  let start := start.getD 0
  if start < 0 then fromEnd ps start.toInt.natAbs stop
  else
    let skipped := ps.skip start.toInt.toNat
    match stop with
    | none => pure skipped
    | some stop =>
      if 0 ≤ stop then pure (skipped.take (stop.toInt.toNat - start.toInt.toNat))
      else do
        reserve (stop.toInt.natAbs + 1)
        pure (skipped.holdBack stop.toInt.natAbs [])

/-- The element `n` places from here, where `seen` elements came before; running out reports the
position asked for. -/
def nth (position : Int64) (n seen : Nat) : Pulls → Run Value
  | [] => .fail (.ofCause (.indexOutOfRange position.toInt seen))
  | p :: ps =>
    .after p.reads <| match p.item with
      | none => nth position n seen ps
      | some (.error e) => .fail e
      | some (.ok v) =>
        match n with
        | 0 => pure v
        | n + 1 => nth position n (seen + 1) ps

/-- The element at a position, a negative one counting from the end. -/
def index (ps : Pulls) (position : Int64) : Run Value :=
  if 0 ≤ position then nth position position.toInt.toNat 0 ps
  else do
    let k := position.toInt.natAbs
    let (window, length) ← trailing k ps
    match window with
    | v :: _ =>
      if window.length < k then .fail (.ofCause (.indexOutOfRange position.toInt length))
      else pure v
    | [] => .fail (.ofCause (.indexOutOfRange position.toInt length))

end QueryPushdown.Window
