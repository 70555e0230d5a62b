import QueryPushdown.Request.Arena

/-!
# Drafts

A draft says how a request is put together. `build` carries it out: every part is built as a
request of its own and brought into the arena of the part it joins. A part bound to a name is
built once, and each use of the name holds the same arena.
-/

namespace QueryPushdown

inductive Draft where
  | source (name : String)
  | literal (value : Value)
  /-- A context reference by its depth, zero or negative. -/
  | context (depth : Int)
  | up (scopes : Nat)
  | field (subject : Draft) (name : String)
  | unary (op : UnaryOp) (subject : Draft)
  | binary (op : BinaryOp) (lhs rhs : Draft)
  | filter (subject predicate : Draft)
  | map (subject transform : Draft)
  | sort (subject : Draft) (keys : List (Draft × Bool))
  | slice (subject : Draft) (start stop : Option Int64)
  | index (subject : Draft) (position : Int64)
  | groupby (subject key : Draft) (aggregates : List (String × Draft))
  | distinct (subject : Draft)
  | one (subject : Draft)
  | oneOr (subject default : Draft)
  | aggregate (op : AggregateOp) (subject : Draft)
  | record (fields : List (String × Draft))
  /-- Binds a request to a name inside `body`. -/
  | bind (name : String) (value body : Draft)
  | named (name : String)
  /-- The part of a request with this number. -/
  | part (subject : Draft) (id : Nat)
  deriving Inhabited

namespace Draft

/-- Requests bound to names, innermost first. -/
abbrev Bindings := List (String × Request)

/-- Computations that build requests; the state is the next token for a bound request. -/
abbrev Build := StateT Nat Outcome

/-- Marks a request as held by a name. One that is already held keeps its token. -/
def hold (r : Request) : Build Request := do
  if r.arena.token.isSome then pure r
  else
    let token ← get
    set (token + 1)
    pure { r with arena := { r.arena with token := some token } }

mutual

def buildIn (bindings : Bindings) : Draft → Build Request
  | source name => pure (.source name)
  | literal value => pure (.literal value)
  | context depth =>
    if 0 < depth then throw (.ofCause (.crashed (.positiveDepth depth)))
    else pure (.context depth.natAbs)
  | up scopes => pure (.context scopes)
  | field subject name => do pure ((← buildIn bindings subject).wrap (.field name))
  | unary op subject => do pure ((← buildIn bindings subject).wrap (.unary op))
  | binary op lhs rhs => do
    let lhs ← buildIn bindings lhs
    pure (lhs.combine (← buildIn bindings rhs) (.binary op))
  | filter subject predicate => do
    let subject ← buildIn bindings subject
    pure (subject.combine (← buildIn bindings predicate) .filter)
  | map subject transform => do
    let subject ← buildIn bindings subject
    pure (subject.combine (← buildIn bindings transform) .map)
  | sort subject keys => do
    let subject ← buildIn bindings subject
    pure (subject.sort (← buildKeys bindings keys))
  | slice subject start stop => do pure ((← buildIn bindings subject).wrap (.slice start stop))
  | index subject position => do pure ((← buildIn bindings subject).wrap (.index position))
  | groupby subject key aggregates => do
    let subject ← buildIn bindings subject
    let key ← buildIn bindings key
    pure (subject.groupby key (← buildFields bindings aggregates))
  | distinct subject => do pure ((← buildIn bindings subject).wrap .distinct)
  | one subject => do pure ((← buildIn bindings subject).wrap .one)
  | oneOr subject default => do
    let subject ← buildIn bindings subject
    pure (subject.combine (← buildIn bindings default) .oneOr)
  | aggregate op subject => do pure ((← buildIn bindings subject).wrap (.aggregate op))
  | record fields => do pure (.record (← buildFields bindings fields))
  | bind name value body => do
    let value ← hold (← buildIn bindings value)
    buildIn ((name, value) :: bindings) body
  | named name =>
    match bindings.lookup name with
    | some r => pure r
    | none => throw (.stated s!"no request is called `{name}`")
  | part subject id => do
    match (← buildIn bindings subject).withRoot? id with
    | some r => pure r
    | none => throw (.ofCause (.crashed (.foreignNode id)))

def buildFields (bindings : Bindings) :
    List (String × Draft) → Build (List (String × Request))
  | [] => pure []
  | (name, d) :: rest => do
    let r ← buildIn bindings d
    pure ((name, r) :: (← buildFields bindings rest))

def buildKeys (bindings : Bindings) : List (Draft × Bool) → Build (List (Request × Bool))
  | [] => pure []
  | (d, descending) :: rest => do
    let r ← buildIn bindings d
    pure ((r, descending) :: (← buildKeys bindings rest))

end

/-- The request that a draft describes, held by nothing else. -/
def build (d : Draft) : Outcome Request := do
  let (r, _) ← (buildIn [] d).run 0
  pure { r with arena := { r.arena with token := none } }

end Draft

end QueryPushdown
