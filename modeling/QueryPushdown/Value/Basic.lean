import QueryPushdown.Binary64
import QueryPushdown.Error

/-!
# Values

The data that flows through requests: scalars, lists, and mappings whose fields keep their
order. Reading a field or a truth value of the wrong kind is an evaluation error.
-/

namespace QueryPushdown

inductive Value where
  | null
  | bool (b : Bool)
  | int (i : Int64)
  | float (x : Binary64)
  | text (s : String)
  | list (items : List Value)
  | mapping (fields : List (String × Value))
  deriving Inhabited

namespace Value

def kind : Value → Kind
  | null => .null
  | bool _ => .bool
  | int _ => .i64
  | float _ => .f64
  | text _ => .string
  | list _ => .list
  | mapping _ => .mapping

/-- The mapping with these entries, a repeated name keeping its first place and last value. -/
def ofEntries (entries : List (String × Value)) : Value := mapping (Fields.ofList entries)

def isNumber (v : Value) : Bool := v.kind.isNumber

def isScalar : Value → Bool
  | list _ | mapping _ => false
  | _ => true

def asBool? : Value → Option Bool
  | bool b => some b
  | _ => none

def asText? : Value → Option String
  | text s => some s
  | _ => none

def asList? : Value → Option (List Value)
  | list items => some items
  | _ => none

def asMapping? : Value → Option (Fields Value)
  | mapping fields => some fields
  | _ => none

/-- Integers and floats as floats, integers rounded to the nearest one. -/
def asFloat? : Value → Option Binary64
  | int i => some (Binary64.ofInt i.toInt)
  | float x => some x
  | _ => none

def toBool : Value → Outcome Bool
  | bool b => .ok b
  | v => .error (.fault (.booleanRequired v.kind))

def toList : Value → Outcome (List Value)
  | list items => .ok items
  | v => .error (.fault (.listRequired v.kind))

/-- The field called `name` of a mapping. -/
def field (v : Value) (name : String) : Outcome Value :=
  match v with
  | mapping fields =>
    match Fields.get? fields name with
    | some w => .ok w
    | none => .error (.fault (.noField name))
  | v => .error (.fault (.cannotRead name v.kind))

mutual

/-- The type of a value. The elements of a list meet in one type; an empty list holds `any`. -/
def ty : Value → Ty
  | null => .null
  | bool _ => .bool
  | int _ => .i64
  | float _ => .f64
  | text _ => .string
  | list items => .list ((itemTy? items).getD .any)
  | mapping fields => .mapping (fieldTys fields) none

/-- The type in which the elements of a list meet, from left to right. -/
def itemTy? : List Value → Option Ty
  | [] => none
  | v :: rest => some (meetAll (ty v) rest)

/-- The types of further elements joined to the type found so far. -/
def meetAll (found : Ty) : List Value → Ty
  | [] => found
  | v :: rest => meetAll (found.unify (ty v)) rest

def fieldTys : List (String × Value) → List (String × Ty)
  | [] => []
  | (name, v) :: rest => (name, ty v) :: fieldTys rest

end

end Value

end QueryPushdown
