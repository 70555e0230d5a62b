import QueryPushdown.Fields
import QueryPushdown.Text.Quoted

/-!
# Types of requests and values

`Ty.unify` is the least type above two given ones: `null` lies below every type, integers below
floats, and types without a closer relation meet in `any`. Field order never matters for the
equality of two mapping types, and `Ty.unify` keeps the order of its left side.
-/

namespace QueryPushdown

/-- A type. A mapping type remembers the source that its values were read from. -/
inductive Ty where
  | null
  | bool
  | i64
  | f64
  | string
  | list (item : Ty)
  | mapping (fields : List (String × Ty)) (source : Option String)
  | any
  deriving Inhabited

namespace Ty

mutual

/-- Equality of types; fields are compared by name. -/
def same : Ty → Ty → Bool
  | null, null => true
  | bool, bool => true
  | i64, i64 => true
  | f64, f64 => true
  | string, string => true
  | list a, list b => same a b
  | mapping a s, mapping b t => a.length == b.length && sameFields a b && s == t
  | any, any => true
  | _, _ => false

/-- Every field of the first list is in the second with the same type. -/
def sameFields : List (String × Ty) → List (String × Ty) → Bool
  | [], _ => true
  | (name, a) :: rest, other =>
    (match Fields.get? other name with
      | some b => same a b
      | none => false) && sameFields rest other

end

instance : BEq Ty := ⟨same⟩

def isAny : Ty → Bool
  | any => true
  | _ => false

def isBool : Ty → Bool
  | bool => true
  | _ => false

def isString : Ty → Bool
  | string => true
  | _ => false

def isList : Ty → Bool
  | list _ => true
  | _ => false

def isMapping : Ty → Bool
  | mapping _ _ => true
  | _ => false

def isNumeric : Ty → Bool
  | i64 | f64 => true
  | _ => false

def isScalar : Ty → Bool
  | null | bool | i64 | f64 | string => true
  | _ => false

/-- Type of the elements of a sequence; a string is a sequence of strings. -/
def item? : Ty → Option Ty
  | list item => some item
  | string => some string
  | any => some any
  | _ => none

def fields? : Ty → Option (Fields Ty)
  | mapping fields _ => some fields
  | _ => none

mutual

/-- Whether the type, or the type of a field at any depth, is a list. -/
def containsList : Ty → Bool
  | list _ => true
  | mapping fields _ => fieldsContainList fields
  | _ => false

def fieldsContainList : List (String × Ty) → Bool
  | [] => false
  | (_, ty) :: rest => containsList ty || fieldsContainList rest

end

mutual

/-- The least type above both. -/
def unify : Ty → Ty → Ty
  | null, ty => ty
  | bool, bool => bool
  | bool, null => bool
  | i64, i64 => i64
  | i64, null => i64
  | i64, f64 => f64
  | f64, f64 => f64
  | f64, null => f64
  | f64, i64 => f64
  | string, string => string
  | string, null => string
  | list a, list b => list (unify a b)
  | list a, null => list a
  | mapping a s, mapping b t =>
    if a.length == b.length && a.all (fun (name, _) => Fields.has b name) then
      mapping (unifyFields a b) (if s == t then s else none)
    else any
  | mapping a s, null => mapping a s
  | _, _ => any

/-- Field by field, in the order of the first list. -/
def unifyFields : List (String × Ty) → List (String × Ty) → List (String × Ty)
  | [], _ => []
  | (name, a) :: rest, other =>
    (name, unify a ((Fields.get? other name).getD any)) :: unifyFields rest other

end

mutual

/-- The written form of a type inside messages. -/
def text : Ty → String
  | null => "Null"
  | bool => "Bool"
  | i64 => "I64"
  | f64 => "F64"
  | string => "String"
  | list item => "List(" ++ text item ++ ")"
  | mapping fields source =>
    let sourceText := match source with
      | some name => "Some(" ++ Text.quote name ++ ")"
      | none => "None"
    "Mapping(TypeMapping \x7b fields: \x7b" ++ ", ".intercalate (fieldTexts fields)
      ++ "\x7d, source: " ++ sourceText ++ " \x7d)"
  | any => "Any"

def fieldTexts : List (String × Ty) → List String
  | [] => []
  | (name, ty) :: rest => (Text.quote name ++ ": " ++ text ty) :: fieldTexts rest

end

end Ty

end QueryPushdown
