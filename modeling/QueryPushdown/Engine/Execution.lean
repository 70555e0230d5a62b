import QueryPushdown.Engine.Planning
import QueryPushdown.Transform.Isolate

/-!
# Executing requests

A request that has a type is answered in one of four ways, tried in this order: by looking up the
one element that its first filter pins down, by a backend that runs all of it, by a backend that
runs a prefix of its chain before the rest is interpreted, or by interpreting all of it.
-/

namespace QueryPushdown

/-- How a request was answered. -/
inductive Strategy where
  | pushed
  | partialCut
  | pointLookup
  | fullFallback
  deriving DecidableEq, Repr

/-- An answer and how it was found. -/
structure Execution where
  strategy : Strategy
  value : Value
  /-- The text of the native query that ran, if one did. -/
  fragment : Option String := none

/-- Whether an element has the bindings on fields outside of an identity. -/
def Isolated.bindingsHold (identity : List String) (element : Value) :
    Fields Value → Outcome Bool
  | [] => pure true
  | (name, v) :: rest =>
    if identity.contains name then bindingsHold identity element rest
    else do
      if (← element.field name).isEq v then bindingsHold identity element rest else pure false

/-- Whether an element that was looked up passes what the look-up did not check. -/
def Isolated.holds (i : Isolated) (input : Input) (identity : List String) (element : Value) :
    Run Bool := do
  if ← Isolated.bindingsHold identity element i.bindings then
    (← i.remainder.run input [element]).toBool
  else pure false

namespace Db

/-- The elements of a source that a filter keeps, at most one, when it pins down the identity or
cannot hold. -/
def pinnedElements? (db : Db) (s : Source) (i : Isolated) : Run (Option (List Value)) := do
  if i.isUnsatisfiable then pure (some [])
  else match i.pinned? s.collection.identity with
    | none => pure none
    | some values =>
      match ← s.lookup values with
      | none => pure (some [])
      | some element =>
        if ← i.holds db.input s.collection.identity element then pure (some [element])
        else pure (some [])

/-- Answers a request that starts with a filter of a source by a look-up, if that is possible. -/
def pointLookup? (db : Db) (r : Request) : Run (Option Execution) :=
  match r.root.chain with
  | .source _ name :: .step filterId _ (.filter predicate) :: _ =>
    match db.source? name with
    | none => pure none
    | some s =>
      if !s.canLookup || s.collection.identity.isEmpty then pure none
      else do
        match ← db.pinnedElements? s (Request.isolate { r with root := predicate }) with
        | none => pure none
        | some elements =>
          let cut ← r.cut filterId
          let v ← cut.after.run db.input [.list elements]
          pure (some { strategy := .pointLookup, value := v })
  | _ => pure none

/-- Runs a plan and interprets what is above its prefix. -/
def runPlan (db : Db) (b : Backend) (r : Request) (plan : Plan) : Run Execution := do
  if plan.marker.id = r.root.id then
    let v ← b.run plan.fragment
    pure { strategy := .pushed, value := v, fragment := some plan.fragment.text }
  else
    let cut ← plan.request.cut plan.marker.id
    let before ← b.run plan.fragment
    let v ← cut.after.run db.input [before]
    pure { strategy := .partialCut, value := v, fragment := some plan.fragment.text }

/-- Answers a request with the help of the backend of its sources, if that is possible. -/
def push? (db : Db) (r : Request) : Run (Option Execution) :=
  match db.backend? r.root with
  | none => pure none
  | some b =>
    match b.plan db.schema r with
    | none => pure none
    | some plan => do pure (some (← db.runPlan b r plan))

/-- Interprets a request. -/
def interpret (db : Db) (r : Request) : Run Execution := do
  pure { strategy := .fullFallback, value := ← r.run db.input [] }

/-- What an attempt gives, nothing if it is not allowed. -/
def attempt (allowed : Bool) (x : Run (Option Execution)) : Run (Option Execution) :=
  if allowed then x else pure none

/-- Answers a request. One without a type fails before any source is accessed. -/
def execute (db : Db) (r : Request) : Run Execution := do
  let _ ← r.root.infer db.schema []
  match ← attempt db.settings.pointLookups (db.pointLookup? r) with
  | some e => pure e
  | none =>
    match ← attempt db.settings.pushdown (db.push? r) with
    | some e => pure e
    | none => db.interpret r

end Db

end QueryPushdown
