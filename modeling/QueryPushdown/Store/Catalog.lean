import QueryPushdown.Document.Answer
import QueryPushdown.Document.Lowering
import QueryPushdown.Engine.Source
import QueryPushdown.Store.Listing
import QueryPushdown.Store.Table

/-!
# Catalogs

A catalog holds collections in stores. Documents stores compile requests to finds and run them on
their tables. Listings have no backend, unless they stand in for the tables of a relational store:
then requests are compiled to statements and answered by interpreting the compiled request over the
listings of the store.
-/

namespace QueryPushdown.Store

/-- Where a collection is kept. -/
inductive Contents where
  /-- A document store. -/
  | documents (t : Table)
  /-- A plain list. -/
  | list (l : Listing) (canLookup : Bool)
  /-- A list in the place of a table of a relational store. -/
  | relation (d : Sql.Dialect) (l : Listing) (canLookup : Bool)

/-- A collection in a store. -/
structure Entry where
  store : String
  contents : Contents

namespace Entry

def collection (e : Entry) : Collection :=
  match e.contents with
  | .documents t => t.collection
  | .list l _ | .relation _ l _ => l.collection

def name (e : Entry) : String := e.collection.name

/-- Every element, in storage order. -/
def all (e : Entry) : Outcome (List Value) :=
  match e.contents with
  | .documents t => t.all
  | .list l _ | .relation _ l _ => .ok l.items

def save (e : Entry) (item : Value) : Outcome Entry := do
  match e.contents with
  | .documents t => pure { e with contents := .documents (← t.save item) }
  | .list l canLookup => pure { e with contents := .list (← l.save item) canLookup }
  | .relation d l canLookup => pure { e with contents := .relation d (← l.save item) canLookup }

def delete (e : Entry) (item : Value) : Outcome Entry := do
  match e.contents with
  | .documents t => pure { e with contents := .documents (← t.delete item) }
  | .list l canLookup => pure { e with contents := .list (← l.delete item) canLookup }
  | .relation d l canLookup => pure { e with contents := .relation d (← l.delete item) canLookup }

/-- Carries out a call that changes the collection. A call that fails leaves a listing as it was. -/
def perform (e : Entry) (call : Call) : Outcome Unit × Entry :=
  match e.contents with
  | .documents t =>
    let (outcome, t) := t.perform call
    (outcome, { e with contents := .documents t })
  | .list _ _ | .relation _ _ _ =>
    match (match call with
      | .save item => e.save item
      | .delete item => e.delete item) with
    | .ok changed => (.ok (), changed)
    | .error err => (.error err, e)

/-- Whether elements can be looked up by their identity. -/
def canLookup (e : Entry) : Bool :=
  !e.collection.identity.isEmpty && match e.contents with
    | .documents _ => true
    | .list _ canLookup | .relation _ _ canLookup => canLookup

/-- Looks up an element in a listing. -/
def lookupListing (e : Entry) (l : Listing) (values : List Value) : Run (Option Value) :=
  if e.canLookup then .accessing (.lookup e.name) (.ok (l.find? values))
  else Source.noLookup e.collection

/-- The element with these identity values. -/
def lookup (e : Entry) (values : List Value) : Run (Option Value) :=
  match e.contents with
  | .documents t => do
    t.checkWidth values
    .accessing (.lookup e.name) (t.find values)
  | .list l _ => e.lookupListing l values
  | .relation _ l _ => e.lookupListing l values

/-- The table of a collection in a document store. -/
def table? (e : Entry) (store name : String) : Option Table :=
  match e.contents with
  | .documents t => if e.store == store && e.name == name then some t else none
  | _ => none

/-- The listing of a collection in a relational store. -/
def listing? (e : Entry) (d : Sql.Dialect) (store name : String) : Option Listing :=
  match e.contents with
  | .relation dialect l _ =>
    if dialect = d && e.store == store && e.name == name then some l else none
  | _ => none

end Entry

/-- Collections in the order in which they were created. -/
abbrev Catalog := List Entry

namespace Catalog

/-- Runs a fragment in a document store. -/
def runFind (c : Catalog) (store : String) : Fragment → Run Value
  | .find q =>
    match c.findSome? (·.table? store q.collection) with
    | some t => .accessing (.query q.collection) (q.answer t.documents)
    | none => .fail (.invalid (.unknownCollection q.collection))
  | .select _ _ => .fail (.stated "fragment was not compiled by a memory store")

/-- A document store as a backend. -/
def documentBackend (c : Catalog) (store : String) : Backend where
  store := "memory#" ++ store
  supports := Find.supports
  compile := fun schema r => do pure (.find (← Find.compile schema r.root))
  run := c.runFind store

/-- The contents of the listings in a relational store. -/
def listings (c : Catalog) (d : Sql.Dialect) (store : String) : Input := fun name =>
  match c.findSome? (·.listing? d store name) with
  | some l => .ok l.items
  | none => Input.empty name

/-- An access made on behalf of a compiled request. -/
def asQuery : Access → Access
  | .scan source | .lookup source | .query source => .query source

/-- Answers a compiled request by interpreting it. -/
def runSelect (c : Catalog) (d : Sql.Dialect) (store : String) : Fragment → Run Value
  | .select _ r =>
    let run := r.run (c.listings d store) []
    ⟨run.reads.map asQuery, run.outcome⟩
  | .find _ => .fail (.stated "fragment was not compiled by a relational store")

/-- A relational store as a backend. -/
def relationalBackend (c : Catalog) (d : Sql.Dialect) (store : String) : Backend where
  store := (match d with
    | .sqlite => "sqlite:"
    | .postgresql => "postgresql:") ++ store
  supports := Sql.supports
  compile := fun schema r => do pure (.select (← Sql.compile d schema r.root) r)
  run := c.runSelect d store

/-- A collection as a source. -/
def source (c : Catalog) (e : Entry) : Source where
  collection := e.collection
  all := e.all
  canLookup := e.canLookup
  lookup := e.lookup
  backend? := match e.contents with
    | .documents _ => some (c.documentBackend e.store)
    | .list _ _ => none
    | .relation d _ _ => some (c.relationalBackend d e.store)

def sources (c : Catalog) : List Source := c.map c.source

def entry? (c : Catalog) (name : String) : Option Entry := c.find? (·.name == name)

/-- Adds a collection with its elements, saved one by one. A document store holds one collection of
each name. -/
def create (c : Catalog) (e : Entry) (items : List Value) : Outcome Catalog := do
  match e.contents with
  | .documents _ =>
    if (c.findSome? (·.table? e.store e.name)).isSome then
      throw (.invalid (.collectionExists e.name))
  | _ => pure ()
  pure (c ++ [← items.foldlM Entry.save e])

/-- Carries out a call on the collection called `name`. -/
def perform (call : Call) (name : String) : Catalog → Outcome Unit × Catalog
  | [] => (.ok (), [])
  | e :: rest =>
    if e.name == name then
      let (outcome, e) := e.perform call
      (outcome, e :: rest)
    else
      let (outcome, rest) := perform call name rest
      (outcome, e :: rest)

end Catalog

end QueryPushdown.Store
