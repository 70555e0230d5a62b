import QueryPushdown.Schema
import QueryPushdown.Value.Compare

/-!
# Listings

A listing keeps the elements of a collection as they are, in a plain list. Elements are identified
by the equality of their identity fields or, without an identity, by their own.
-/

namespace QueryPushdown.Store

structure Listing where
  collection : Collection
  items : List Value := []

namespace Listing

/-- Whether the identity fields of an element equal these values, as far as both go. -/
def identifies (identity : List String) (values : List Value) (item : Value) : Bool :=
  (identity.zip values).all fun (name, v) =>
    match item.field name with
    | .ok w => w.isEq v
    | .error _ => false

/-- Replaces the first element that passes a test, or appends. -/
def put (test : Value → Bool) (item : Value) : List Value → List Value
  | [] => [item]
  | v :: rest => if test v then item :: rest else v :: put test item rest

/-- Drops the first element that passes a test, if there is one. -/
def drop? (test : Value → Bool) : List Value → Option (List Value)
  | [] => none
  | v :: rest => if test v then some rest else (drop? test rest).map (v :: ·)

/-- The test for the element that `item` stands for. -/
def sameElement (l : Listing) (item : Value) : Outcome (Value → Bool) := do
  let values ← l.collection.identity.mapM item.field
  pure fun v =>
    if values.isEmpty then v.isEq item else identifies l.collection.identity values v

/-- Appends an element, or replaces the one with its identity. -/
def save (l : Listing) (item : Value) : Outcome Listing := do
  if l.collection.identity.isEmpty then pure { l with items := l.items ++ [item] }
  else
    let same ← l.sameElement item
    pure { l with items := put same item l.items }

/-- Drops an element, which must be there. -/
def delete (l : Listing) (item : Value) : Outcome Listing := do
  match drop? (← l.sameElement item) l.items with
  | some items => pure { l with items := items }
  | none => throw (.invalid .noSuchElement)

/-- The first element with these identity values. -/
def find? (l : Listing) (values : List Value) : Option Value :=
  l.items.find? (identifies l.collection.identity values)

end Listing

end QueryPushdown.Store
