import QueryPushdown.Eval.Group
import QueryPushdown.Eval.Operator
import QueryPushdown.Eval.Sorting
import QueryPushdown.Eval.Window
import QueryPushdown.Request.Arena

/-!
# Evaluation

`Term.eval` walks a term under a scope, the innermost element first. Steps over sequences give
sequences that are pulled, so that a chain of filters, maps and forward slices reads only the
elements it needs. Each step acts on what its subject evaluated to.
-/

namespace QueryPushdown

/-- What a node evaluates to. -/
inductive Evaluated where
  | value (v : Value)
  | pulls (ps : Pulls)

/-- The elements bound by enclosing steps, innermost first. -/
abbrev Scope := List Value

/-- The contents of sources. -/
abbrev Input := String → Outcome (List Value)

namespace Input

/-- No source is available. -/
def empty : Input := fun name => .error (.fault (.sourceUnavailable name))

/-- Sources with fixed contents. -/
def ofFields (sources : Fields (List Value)) : Input := fun name =>
  match Fields.get? sources name with
  | some items => .ok items
  | none => empty name

end Input

namespace Evaluated

/-- The value, a sequence drained into a list. -/
def toValue : Evaluated → Run Value
  | value v => pure v
  | pulls ps => do pure (.list (← ps.drain))

/-- The elements as a sequence. -/
def toPulls : Evaluated → Run Pulls
  | pulls ps => pure ps
  | value (.list items) => pure (Pulls.ofList items)
  | value v => .fail (.fault (.sequenceRequired v.kind))

/-- The characters of a text as texts. -/
def characters (s : String) : Pulls :=
  s.toList.map fun c => Pull.yielding (.text (String.singleton c))

/-- The elements as a sequence; a text is the sequence of its characters. -/
def toSequence : Evaluated → Run Pulls
  | value (.text s) => pure (characters s)
  | e => e.toPulls

/-- The characters of a sequence in one text. -/
def joined (ps : Pulls) : Run String := do
  let items ← ps.drain
  pure (String.join (items.filterMap Value.asText?))

/-- A window of a sequence or of a text. -/
def slice (e : Evaluated) (start stop : Option Int64) : Run Evaluated :=
  match e with
  | value (.text s) => do
    let window ← Window.slice (characters s) start stop
    pure (value (.text (← joined window)))
  | e => do
    let ps ← e.toPulls
    pure (pulls (← Window.slice ps start stop))

/-- The number of characters, fields or elements, or another reduction of a sequence. -/
def aggregate (e : Evaluated) (op : AggregateOp) : Run Value :=
  match e, op with
  | value (.text s), .len => pure (.int (Int64.ofNat s.length))
  | value (.mapping fields), .len => pure (.int (Int64.ofNat fields.length))
  | e, op => do Operator.aggregate op (← e.toPulls)

/-- The only element of a sequence; `missing` stands in for none. -/
def one (subject : Term) (e : Evaluated) (missing : Run Value) : Run Value := do
  match ← (← e.toSequence).next? with
  | none => missing
  | some (v, rest) =>
    match ← rest.next? with
    | none => pure v
    | some _ => .fail (.ofCause (.multipleResults subject.oneContext))

end Evaluated

/-- The element bound `up` scopes outwards. -/
def Scope.read (scope : Scope) (up : Nat) : Outcome Value :=
  match scope[up]? with
  | some v => .ok v
  | none => .error (.fault (.contextEscapes up scope.length))

/-- Reads a source. -/
def Input.scan (input : Input) (name : String) : Run Value :=
  .accessing (.scan name) ((input name).map Value.list)

mutual

/-- Evaluates a term. -/
def Term.eval (input : Input) (scope : Scope) : Term → Run Evaluated
  | .source _ name => do pure (.value (← input.scan name))
  | .literal _ value => pure (.value value)
  | .context _ up => do pure (.value (← scope.read up))
  | .record _ fields => do pure (.value (.mapping (← evalFields input scope fields)))
  | .step _ subject action => do
    let e ← subject.eval input scope
    action.act input scope subject e

/-- What a step makes of its evaluated subject. -/
def Step.act (input : Input) (scope : Scope) (subject : Term) (e : Evaluated) :
    Step → Run Evaluated
  | .field name => do
    let v ← e.toValue
    pure (.value (← v.field name))
  | .unary op => do
    let v ← e.toValue
    pure (.value (← Operator.unary op v))
  | .binary .and rhs => do
    let a ← e.toValue
    if ← a.toBool then
      let b ← (← rhs.eval input scope).toValue
      pure (.value (.bool (← b.toBool)))
    else pure (.value (.bool false))
  | .binary .or rhs => do
    let a ← e.toValue
    if ← a.toBool then pure (.value (.bool true))
    else
      let b ← (← rhs.eval input scope).toValue
      pure (.value (.bool (← b.toBool)))
  | .binary op rhs => do
    let a ← e.toValue
    let b ← (← rhs.eval input scope).toValue
    pure (.value (← Operator.binary op a b))
  | .filter predicate => do
    let ps ← e.toSequence
    pure (.pulls (ps.map (Pull.keepIf fun v => do
      let b ← (← predicate.eval input (v :: scope)).toValue
      b.toBool)))
  | .map transform => do
    let ps ← e.toSequence
    pure (.pulls (ps.map (Pull.mapWith fun v => do
      (← transform.eval input (v :: scope)).toValue)))
  | .sort keys => do
    let ps ← e.toSequence
    let rows ← ps.foldRun (fun (rows : List Row) v => do
      pure (⟨← evalKeys input (v :: scope) keys, v⟩ :: rows)) []
    pure (.value (.list (Sorting.rows rows.reverse (keys.map Prod.snd))))
  | .slice start stop => e.slice start stop
  | .index position => do
    let ps ← e.toSequence
    pure (.value (← Window.index ps position))
  | .groupby key aggregates => do
    let ps ← e.toSequence
    let groups ← ps.foldRun (fun (groups : Groups) v => do
      let k ← (← key.eval input (v :: scope)).toValue
      pure (groups.insert k v)) {}
    let members ← groups.groups.mapM fun (k, members) => do
      if aggregates.isEmpty then
        pure (Value.mapping [("key", k), ("group", .list members)])
      else
        let fields ← evalFields input (.list members :: scope) aggregates
        pure (Value.mapping (Fields.extend [("key", k)] fields))
    pure (.value (.list members))
  | .distinct => do
    let ps ← e.toSequence
    pure (.pulls (ps.distinct {}))
  | .one => do
    pure (.value (← e.one subject (.fail (.ofCause (.emptyResult subject.oneContext)))))
  | .oneOr default => do
    pure (.value (← e.one subject do (← default.eval input scope).toValue))
  | .aggregate op => do pure (.value (← e.aggregate op))

def evalFields (input : Input) (scope : Scope) :
    List (String × Term) → Run (List (String × Value))
  | [] => pure []
  | (name, t) :: rest => do
    let v ← (← t.eval input scope).toValue
    pure ((name, v) :: (← evalFields input scope rest))

def evalKeys (input : Input) (scope : Scope) : List (Term × Bool) → Run (List Value)
  | [] => pure []
  | (t, _) :: rest => do
    let v ← (← t.eval input scope).toValue
    pure (v :: (← evalKeys input scope rest))

end

namespace Request

/-- The run of a request under a scope. -/
def run (r : Request) (input : Input) (scope : Scope) : Run Value := do
  (← r.root.eval input scope).toValue

/-- The value of a request under a scope. -/
def eval (r : Request) (input : Input) (scope : Scope) : Outcome Value :=
  (r.run input scope).outcome

end Request

end QueryPushdown
