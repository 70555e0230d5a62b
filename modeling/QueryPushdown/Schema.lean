import QueryPushdown.Error

/-!
# Schemas

A collection names the fields of its elements and those that identify one element. A schema holds
collections of different names whose identities are made of their own fields.
-/

namespace QueryPushdown

structure Collection where
  name : String
  fields : Fields Ty
  /-- Fields that together identify an element; empty when elements have no identity. -/
  identity : List String
  deriving Inhabited

namespace Collection

/-- The type of one element. -/
def itemTy (c : Collection) : Ty := .mapping c.fields (some c.name)

/-- The type of all elements together. -/
def ty (c : Collection) : Ty := .list c.itemTy

end Collection

/-- Collections by name. -/
structure Schema where
  collections : Fields Collection := []

namespace Schema

def find? (s : Schema) (name : String) : Option Collection := Fields.get? s.collections name

/-- The schema with one more collection. -/
def add (s : Schema) (c : Collection) : Outcome Schema :=
  match c.identity.find? fun field => !Fields.has c.fields field with
  | some field => .error (.invalid (.identityNotField field c.name))
  | none =>
    if Fields.has s.collections c.name then .error (.invalid (.collectionTwice c.name))
    else .ok ⟨Fields.insert s.collections c.name c⟩

/-- The schema of these collections. -/
def ofCollections (cs : List Collection) : Outcome Schema := cs.foldlM add {}

end Schema

end QueryPushdown
