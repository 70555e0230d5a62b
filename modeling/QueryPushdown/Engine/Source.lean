import QueryPushdown.Document.Find
import QueryPushdown.Eval.Term
import QueryPushdown.Sql.Fragment

/-!
# Sources and backends

A source is a collection as requests see it at one moment: its elements, look-ups by identity where
there are some, and the backend that can run requests on it. A backend runs what it compiled
itself; sources of one store share their backend.
-/

namespace QueryPushdown

/-- A request compiled for a store. -/
inductive Fragment where
  | find (q : Find)
  /-- A statement, together with the request it was compiled from. -/
  | select (statement : Sql.Fragment) (request : Request)

/-- The text of the native query. -/
def Fragment.text : Fragment → String
  | .find q => q.text
  | .select statement _ => statement.sql

structure Backend where
  /-- The name of the store. -/
  store : String
  /-- Whether everything beneath a node can be expressed, as far as a cheap check tells. -/
  supports : Term → Bool
  compile : Schema → Request → Except Refusal Fragment
  run : Fragment → Run Value

structure Source where
  collection : Collection
  /-- Every element, in storage order. -/
  all : Outcome (List Value)
  canLookup : Bool
  /-- The element whose identity fields equal these values. -/
  lookup : List Value → Run (Option Value)
  backend? : Option Backend

namespace Source

def name (s : Source) : String := s.collection.name

/-- Reads every element. -/
def scan (s : Source) : Run (List Value) := .accessing (.scan s.name) s.all

/-- The answer of a source that has no look-ups. -/
def noLookup (c : Collection) : Run (Option Value) := .fail (.invalid (.noLookup c.name))

end Source

/-- What may be tried before a request is interpreted. -/
structure Settings where
  pushdown : Bool := true
  pointLookups : Bool := true

/-- Sources that requests are executed against. -/
structure Db where
  schema : Schema
  sources : Fields Source
  settings : Settings := {}
  /-- The dialect of statements that are only compiled. -/
  dialect : Sql.Dialect := .sqlite

namespace Db

/-- The sources by name, which must make up a schema. -/
def ofSources (sources : List Source) (settings : Settings) (dialect : Sql.Dialect) :
    Outcome Db := do
  let schema ← Schema.ofCollections (sources.map Source.collection)
  pure { schema, sources := Fields.ofList (sources.map fun s => (s.name, s)), settings, dialect }

def source? (db : Db) (name : String) : Option Source := Fields.get? db.sources name

/-- The contents of the sources. -/
def input (db : Db) : Input := fun name =>
  match db.source? name with
  | some s => s.all
  | none => .error (.invalid (.unknownSource name))

/-- Reads every element of a source. -/
def scan (db : Db) (name : String) : Run (List Value) :=
  match db.source? name with
  | some s => s.scan
  | none => .fail (.invalid (.unknownSource name))

/-- Compiles a request without running it. -/
def toSql (db : Db) (r : Request) : Except Refusal Sql.Fragment :=
  Sql.compile db.dialect db.schema r.root

/-- The backend that all sources of a term live in, if there is exactly one. -/
def backend? (db : Db) (t : Term) : Option Backend := do
  let backends ← t.sources.mapM fun name => do (← db.source? name).backend?
  let first ← backends.head?
  if backends.all (·.store == first.store) then some first else none

end Db

end QueryPushdown
