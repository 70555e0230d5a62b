import QueryPushdown.Engine.Execution
import QueryPushdown.Store.Catalog

/-!
# Sessions

A session keeps a catalog that changes, the settings of its database, and every access made so far.
Requests see the catalog as it is when they run.
-/

namespace QueryPushdown.Store

structure Session where
  catalog : Catalog
  schema : Schema
  settings : Settings
  dialect : Sql.Dialect
  accesses : List Access := []

namespace Session

/-- A session over a catalog whose collections make up a schema. -/
def start (c : Catalog) (settings : Settings) (dialect : Sql.Dialect) : Outcome Session := do
  let db ← Db.ofSources c.sources settings dialect
  pure { catalog := c, schema := db.schema, settings, dialect }

/-- The database that requests see. -/
def db (s : Session) : Db :=
  { schema := s.schema
    sources := Fields.ofList (s.catalog.sources.map fun source => (source.name, source))
    settings := s.settings
    dialect := s.dialect }

/-- Carries out a run and remembers its accesses. -/
def perform {α : Type} (s : Session) (run : Run α) : Outcome α × Session :=
  (run.outcome, { s with accesses := s.accesses ++ run.reads })

/-- Carries out a call that changes the collection called `name`. -/
def change (s : Session) (name : String) (call : Call) : Outcome Unit × Session :=
  let (outcome, catalog) := s.catalog.perform call name
  (outcome, { s with catalog := catalog })

/-- What a run on the collection called `name` gives. -/
def onEntry {α : Type} (s : Session) (name : String) (f : Entry → Run α) : Outcome α × Session :=
  s.perform (match s.catalog.entry? name with
    | some e => f e
    | none => .fail (.invalid (.unknownSource name)))

/-- Reads every element of a collection. -/
def all (s : Session) (name : String) : Outcome (List Value) × Session :=
  s.onEntry name fun e => (s.catalog.source e).scan

def save (s : Session) (name : String) (item : Value) : Outcome Unit × Session :=
  s.change name (.save item)

def delete (s : Session) (name : String) (item : Value) : Outcome Unit × Session :=
  s.change name (.delete item)

/-- Looks up an element of a collection. -/
def lookup (s : Session) (name : String) (values : List Value) :
    Outcome (Option Value) × Session :=
  s.onEntry name (·.lookup values)

def canLookup (s : Session) (name : String) : Outcome Bool × Session :=
  s.onEntry name fun e => pure e.canLookup

/-- Runs a find in the document store that holds the collection called `name`. -/
def find (s : Session) (name : String) (q : Find) : Outcome Value × Session :=
  s.onEntry name fun e => s.catalog.runFind e.store (.find q)

/-- How often each collection was scanned, looked up in and queried. -/
def stats (s : Session) : List (Nat × Nat × Nat) :=
  s.catalog.map fun e =>
    (s.accesses.count (.scan e.name), s.accesses.count (.lookup e.name),
      s.accesses.count (.query e.name))

end Session

end QueryPushdown.Store
