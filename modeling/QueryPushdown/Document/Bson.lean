import QueryPushdown.Decimal.Style
import QueryPushdown.Value.Basic

/-!
# BSON

Stored documents and filter documents are made of BSON. Equality keeps the kinds of numbers apart
and ignores the order of fields. Every value has a BSON form that reads back as itself; some BSON
has no value.
-/

namespace QueryPushdown

/-- BSON that values have no counterpart for. -/
inductive ForeignBson where
  | undefined
  | minKey
  | maxKey
  | symbol (s : String)
  | code (s : String)
  /-- An identifier by its hexadecimal digits in lower case. -/
  | objectId (hex : String)
  | timestamp (time increment : Nat)
  | regex (pattern options : String)
  deriving DecidableEq, Repr

inductive Bson where
  | null
  | bool (b : Bool)
  | int32 (i : Int32)
  | int64 (i : Int64)
  | double (x : Binary64)
  | text (s : String)
  | array (items : List Bson)
  | document (fields : List (String × Bson))
  | foreign (x : ForeignBson)
  deriving Inhabited

/-- Fields of BSON in order. -/
abbrev Document := Fields Bson

def ForeignBson.text : ForeignBson → String
  | undefined => "undefined"
  | minKey => "MinKey"
  | maxKey => "MaxKey"
  | symbol s => "Symbol(\"" ++ s ++ "\")"
  | code s => s
  | objectId hex => "ObjectId(\"" ++ hex ++ "\")"
  | timestamp time increment => s!"Timestamp({time}, {increment})"
  | regex pattern options => "/" ++ pattern ++ "/" ++ options

namespace Bson

mutual

/-- Equality; fields are compared by name. -/
def same : Bson → Bson → Bool
  | null, null => true
  | bool a, bool b => a == b
  | int32 a, int32 b => a == b
  | int64 a, int64 b => a == b
  | double a, double b => a.same b
  | text a, text b => a == b
  | array a, array b => sameItems a b
  | document a, document b => a.length == b.length && sameFields a b
  | foreign a, foreign b => a == b
  | _, _ => false

def sameItems : List Bson → List Bson → Bool
  | [], [] => true
  | a :: as, b :: bs => same a b && sameItems as bs
  | _, _ => false

/-- Every field of the first list is in the second with the same content. -/
def sameFields : List (String × Bson) → List (String × Bson) → Bool
  | [], _ => true
  | (name, a) :: rest, other =>
    (match Fields.get? other name with
      | some b => same a b
      | none => false) && sameFields rest other

end

mutual

/-- The written form. Nothing inside a text is escaped. -/
def written : Bson → String
  | null => "null"
  | bool b => if b then "true" else "false"
  | int32 i => toString i.toInt
  | int64 i => toString i.toInt
  | double x => Decimal.Style.plain.render x
  | text s => "\"" ++ s ++ "\""
  | array items => "[" ++ ", ".intercalate (writtenItems items) ++ "]"
  | document fields =>
    if fields.isEmpty then "\x7b\x7d"
    else "\x7b " ++ ", ".intercalate (writtenFields fields) ++ " \x7d"
  | foreign x => x.text

def writtenItems : List Bson → List String
  | [] => []
  | b :: rest => written b :: writtenItems rest

def writtenFields : List (String × Bson) → List String
  | [] => []
  | (name, b) :: rest => ("\"" ++ name ++ "\": " ++ written b) :: writtenFields rest

end

mutual

/-- The BSON form of a value. -/
def ofValue : Value → Bson
  | .null => null
  | .bool b => bool b
  | .int i => int64 i
  | .float x => double x
  | .text s => text s
  | .list items => array (ofItems items)
  | .mapping fields => document (ofFields fields)

def ofItems : List Value → List Bson
  | [] => []
  | v :: rest => ofValue v :: ofItems rest

def ofFields : List (String × Value) → List (String × Bson)
  | [] => []
  | (name, v) :: rest => (name, ofValue v) :: ofFields rest

end

mutual

/-- The value of a BSON form. -/
def toValue : Bson → Outcome Value
  | null | foreign .undefined => .ok .null
  | bool b => .ok (.bool b)
  | int32 i => .ok (.int i.toInt64)
  | int64 i => .ok (.int i)
  | double x => .ok (.float x)
  | text s => .ok (.text s)
  | array items => do pure (.list (← toItems items))
  | document fields => do pure (.mapping (← toFields fields))
  | foreign x => .error (.stated ("unsupported BSON value " ++ x.text))

def toItems : List Bson → Outcome (List Value)
  | [] => pure []
  | b :: rest => do
    let first ← toValue b
    pure (first :: (← toItems rest))

def toFields : List (String × Bson) → Outcome (List (String × Value))
  | [] => pure []
  | (name, b) :: rest => do
    let first ← toValue b
    pure ((name, first) :: (← toFields rest))

end

mutual

/-- Reading back what a value is stored as gives the value. -/
theorem toValue_ofValue : ∀ v : Value, toValue (ofValue v) = .ok v
  | .null | .bool _ | .int _ | .float _ | .text _ => by simp [ofValue, toValue]
  | .list items => by
    simp [ofValue, toValue, toItems_ofItems items, pure, Except.pure, bind, Except.bind]
  | .mapping fields => by
    simp [ofValue, toValue, toFields_ofFields fields, pure, Except.pure, bind, Except.bind]

theorem toItems_ofItems : ∀ items : List Value, toItems (ofItems items) = .ok items
  | [] => rfl
  | v :: rest => by
    simp [ofItems, toItems, toValue_ofValue v, toItems_ofItems rest, pure, Except.pure, bind,
      Except.bind]

theorem toFields_ofFields :
    ∀ fields : List (String × Value), toFields (ofFields fields) = .ok fields
  | [] => rfl
  | (name, v) :: rest => by
    simp [ofFields, toFields, toValue_ofValue v, toFields_ofFields rest, pure, Except.pure, bind,
      Except.bind]

end

end Bson

namespace Document

/-- The value of a document, a mapping. -/
def toValue (d : Document) : Outcome Value := (Bson.document d).toValue

/-- Equality; fields are compared by name. -/
def same (a b : Document) : Bool := (Bson.document a).same (.document b)

def written (d : Document) : String := (Bson.document d).written

end Document

end QueryPushdown
