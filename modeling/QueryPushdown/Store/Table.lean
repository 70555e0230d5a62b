import QueryPushdown.Document.Bson
import QueryPushdown.Schema
import QueryPushdown.Value.Key

/-!
# Tables of documents

A table keeps the documents of one collection in insertion order, each under the keys of its
identity. Saving an element replaces the one with the same identity in place. Elements of a
collection without an identity are all told apart.
-/

namespace QueryPushdown.Store

/-- A call that changes a collection. -/
inductive Call where
  | save (item : Value)
  | delete (item : Value)

/-- The keys of an identity, field by field. -/
abbrev Identity := List Key

structure Table where
  collection : Collection
  rows : List (Identity × Document) := []
  /-- How many elements without an identity were given a key. -/
  numbered : Nat := 0

namespace Table

/-- The row stored under an identity. -/
def row? (rows : List (Identity × Document)) (identity : Identity) : Option Document :=
  rows.lookup identity

/-- Replaces the row with this identity in place, or appends it. -/
def put (identity : Identity) (d : Document) :
    List (Identity × Document) → List (Identity × Document)
  | [] => [(identity, d)]
  | (i, e) :: rest => if i = identity then (i, d) :: rest else (i, e) :: put identity d rest

/-- Drops the row with this identity. -/
def drop (identity : Identity) : List (Identity × Document) → List (Identity × Document)
  | [] => []
  | (i, e) :: rest => if i = identity then rest else (i, e) :: drop identity rest

def documents (t : Table) : List Document := t.rows.map Prod.snd

/-- Every element, in insertion order. -/
def all (t : Table) : Outcome (List Value) := t.documents.mapM Document.toValue

/-- The keys of values that identify an element. -/
def identityOf (t : Table) (values : List Value) : Outcome Identity :=
  values.mapM fun v =>
    match v.key? with
    | some key => .ok key
    | none => .error (.invalid (.identityKind t.collection.name v.kind))

/-- The identity of an element, none in a collection without one. -/
def identity? (t : Table) (item : Value) : Outcome (Option Identity) :=
  if t.collection.identity.isEmpty then .ok none
  else do
    let values ← t.collection.identity.mapM item.field
    pure (some (← t.identityOf values))

/-- The document of an element: the fields of the collection in order, null where one is absent. -/
def documentOf (t : Table) (item : Value) : Outcome Document :=
  match item with
  | .mapping fields =>
    match fields.find? fun (name, _) => !Fields.has t.collection.fields name with
    | some (name, _) => .error (.invalid (.unknownField t.collection.name name))
    | none =>
      .ok (t.collection.fields.map fun (name, _) =>
        (name, Bson.ofValue ((Fields.get? fields name).getD .null)))
  | v => .error (.invalid (.elementKind t.collection.name v.kind))

/-- Inserts an element, or replaces the one with its identity. -/
def save (t : Table) (item : Value) : Outcome Table := do
  match ← t.identity? item with
  | some identity =>
    let d ← t.documentOf item
    pure { t with rows := put identity d t.rows }
  | none =>
    let d ← t.documentOf item
    let numbered := t.numbered + 1
    pure { t with
      rows := put [.int (Int64.ofNat numbered)] d t.rows
      numbered := numbered }

/-- Drops the first row whose element equals `item`. -/
def dropEqual (item : Value) :
    List (Identity × Document) → Outcome (List (Identity × Document))
  | [] => pure []
  | (i, d) :: rest => do
    if (← d.toValue).isEq item then pure rest
    else pure ((i, d) :: (← dropEqual item rest))

/-- Drops the element with the identity of `item`, or without an identity the first one equal to it.
Nothing happens if there is none. -/
def delete (t : Table) (item : Value) : Outcome Table := do
  match ← t.identity? item with
  | some identity => pure { t with rows := drop identity t.rows }
  | none => pure { t with rows := ← dropEqual item t.rows }

/-- How many elements have been given a key once a call was made: one more after a save in a
collection without an identity. -/
def numberedAfter (t : Table) : Call → Nat
  | .save _ => if t.collection.identity.isEmpty then t.numbered + 1 else t.numbered
  | .delete _ => t.numbered

/-- What a call makes of the table. -/
def change (t : Table) : Call → Outcome Table
  | .save item => t.save item
  | .delete item => t.delete item

/-- Carries out a call. A save that fails has still used up the key it gave. These keys are signed
words of 64 bits. -/
def perform (t : Table) (call : Call) : Outcome Unit × Table :=
  if 2 ^ 63 ≤ t.numberedAfter call then (.error (.ofCause (.crashed .numberOverflow)), t)
  else
    match t.change call with
    | .ok changed => (.ok (), changed)
    | .error e => (.error e, { t with numbered := t.numberedAfter call })

/-- Whether `values` can be an identity: there are as many as identity fields. -/
def checkWidth (t : Table) (values : List Value) : Outcome Unit :=
  let expected := t.collection.identity.length
  if values.length = expected then .ok ()
  else .error (.invalid (.identityWidth t.collection.name expected values.length))

/-- The element with these identity values. -/
def find (t : Table) (values : List Value) : Outcome (Option Value) := do
  match row? t.rows (← t.identityOf values) with
  | some d => pure (some (← d.toValue))
  | none => pure none

end Table

end QueryPushdown.Store
