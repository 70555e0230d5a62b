import QueryPushdown.Request.Arena
import QueryPushdown.Schema

/-!
# Types of terms

`Term.infer` finds the type of a term against a schema and the types of the enclosing elements,
innermost first, and refuses terms that cannot be given one. Comparisons are never refused.
-/

namespace QueryPushdown

/-- The types of the elements bound by enclosing steps, innermost first. -/
abbrev Frames := List Ty

namespace Typing

/-- The element type of a list. -/
def listItem (operation : String) : Ty → Outcome Ty
  | .list item => .ok item
  | .any => .ok .any
  | ty => .error (.invalid (.listRequired operation ty))

/-- The element type of a list or a text. -/
def sequenceItem (operation : String) (ty : Ty) : Outcome Ty :=
  match ty.item? with
  | some item => .ok item
  | none => .error (.invalid (.sequenceRequired operation ty))

def require (test : Ty → Bool) (why : Ty → Invalid) (ty : Ty) : Outcome Unit :=
  if test ty then .ok () else .error (.invalid (why ty))

def isBoolOrAny (ty : Ty) : Bool := ty.isBool || ty.isAny

def isStringOrAny (ty : Ty) : Bool := ty.isString || ty.isAny

def field (subject : Ty) (name : String) : Outcome Ty :=
  match subject with
  | .any => .ok .any
  | .mapping fields source =>
    match Fields.get? fields name with
    | some ty => .ok ty
    | none => .error (.invalid (.noField (source.getD "mapping") name))
  | ty => .error (.invalid (.cannotRead name ty))

def unary (op : UnaryOp) (operand : Ty) : Outcome Ty :=
  match op, operand with
  | _, .any => .ok .any
  | .not, .bool => .ok .bool
  | .neg, .i64 => .ok .i64
  | .neg, .f64 => .ok .f64
  | op, ty => .error (.invalid (.cannotApply op ty))

/-- The type of an arithmetic operator, which also joins texts, lists and mappings. -/
def arithmetic (op : BinaryOp) (lhs rhs : Ty) : Outcome Ty :=
  match op, lhs, rhs with
  | _, .any, _ => .ok .any
  | _, _, .any => .ok .any
  | op, .i64, .i64 => .ok (if op = .div then .f64 else .i64)
  | .add, .string, .string => .ok .string
  | .add, .list a, .list b => .ok (.list (a.unify b))
  | .add, .mapping a _, .mapping b _ => .ok (.mapping (Fields.extend a b) none)
  | op, lhs, rhs =>
    if lhs.isNumeric && rhs.isNumeric then .ok .f64
    else .error (.invalid (.operandTypes op lhs rhs))

def binary (op : BinaryOp) (lhs rhs : Ty) : Outcome Ty :=
  match op with
  | .eq | .ne | .ge | .gt | .le | .lt => .ok .bool
  | .and | .or => do
    require isBoolOrAny (.logicalOperand op) lhs
    require isBoolOrAny (.logicalOperand op) rhs
    pure .bool
  | .matching => do
    require isStringOrAny .patternOperand lhs
    require isStringOrAny .patternOperand rhs
    pure .bool
  | .add | .sub | .mul | .div => arithmetic op lhs rhs

def aggregate (op : AggregateOp) (subject : Ty) : Outcome Ty :=
  match op with
  | .len =>
    match subject with
    | .list _ | .string | .mapping _ _ | .any => .ok .i64
    | ty => .error (.invalid (.lengthOperand ty))
  | .sum => do
    match ← listItem "sum" subject with
    | .i64 => pure .i64
    | .f64 => pure .f64
    | .any => pure .any
    | .null => pure .i64
    | ty => throw (.invalid (.sumOperand ty))
  | .min | .max => listItem op.text subject

end Typing

/-- The type of the element bound `up` scopes outwards. -/
def Frames.read (frames : Frames) (up : Nat) : Outcome Ty :=
  if up + 1 = 2 ^ 64 then .error (.ofCause (.crashed .depthOverflow))
  else match frames[up]? with
    | some ty => .ok ty
    | none => .error (.invalid (.contextEscapes up frames.length))

mutual

/-- The type of a term. -/
def Term.infer (schema : Schema) (frames : Frames) : Term → Outcome Ty
  | .source _ name =>
    match schema.find? name with
    | some c => .ok c.ty
    | none => .error (.invalid (.unknownSource name))
  | .literal _ value => .ok value.ty
  | .context _ up => frames.read up
  | .record _ fields => do pure (.mapping (← inferFields schema frames fields) none)
  | .step _ subject action => do
    let ty ← subject.infer schema frames
    action.infer schema frames ty

/-- The type of a step over a subject of a type. -/
def Step.infer (schema : Schema) (frames : Frames) (subject : Ty) : Step → Outcome Ty
  | .field name => Typing.field subject name
  | .unary op => Typing.unary op subject
  | .binary op rhs => do Typing.binary op subject (← rhs.infer schema frames)
  | .filter predicate => do
    let item ← Typing.listItem "filter" subject
    let ty ← predicate.infer schema (item :: frames)
    Typing.require Typing.isBoolOrAny .predicateType ty
    pure subject
  | .map transform => do
    let item ← Typing.listItem "map" subject
    pure (.list (← transform.infer schema (item :: frames)))
  | .sort keys => do
    let item ← Typing.listItem "sort" subject
    inferKeys schema (item :: frames) keys
    pure subject
  | .slice _ _ => do
    let _ ← Typing.sequenceItem "slice" subject
    pure subject
  | .index _ => Typing.sequenceItem "index" subject
  | .groupby key aggregates => do
    let item ← Typing.listItem "groupby" subject
    let keyTy ← key.infer schema (item :: frames)
    if aggregates.isEmpty then
      pure (.list (.mapping [("key", keyTy), ("group", subject)] none))
    else
      let fields ← inferFields schema (subject :: frames) aggregates
      pure (.list (.mapping (Fields.extend [("key", keyTy)] fields) none))
  | .distinct => do
    let _ ← Typing.listItem "distinct" subject
    pure subject
  | .one => Typing.listItem "one" subject
  | .oneOr default => do
    let item ← Typing.listItem "one" subject
    pure (item.unify (← default.infer schema frames))
  | .aggregate op => Typing.aggregate op subject

def inferFields (schema : Schema) (frames : Frames) :
    List (String × Term) → Outcome (List (String × Ty))
  | [] => pure []
  | (name, t) :: rest => do
    let ty ← t.infer schema frames
    pure ((name, ty) :: (← inferFields schema frames rest))

def inferKeys (schema : Schema) (frames : Frames) : List (Term × Bool) → Outcome Unit
  | [] => pure ()
  | (t, _) :: rest => do
    let _ ← t.infer schema frames
    inferKeys schema frames rest

end

end QueryPushdown
