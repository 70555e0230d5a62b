import QueryPushdown.Document.Conjunction
import QueryPushdown.Eval.Operator

/-!
# Matching elements against filters

`Filter.accepts` tells whether an element meets all conditions of a filter. Conditions are taken in
order, and those after the first that fails are not looked at. Comparisons are the ones of
requests: equality of numbers of all kinds, and an error for an order between other kinds.
-/

namespace QueryPushdown

/-- What stands at a path of fields. -/
def Value.atPath? (v : Value) : List String → Option Value
  | [] => some v
  | name :: rest =>
    match v with
    | .mapping fields =>
      match Fields.get? fields name with
      | some w => w.atPath? rest
      | none => none
    | _ => none

/-- The field names of a dotted path. -/
def pathNames (path : String) : List String := (path.toList.splitOn '.').map String.ofList

/-- What stands at a dotted path, null if nothing does. -/
def Value.atPath (v : Value) (path : String) : Value := (v.atPath? (pathNames path)).getD .null

namespace Filter

def unsupported (op : String) : Error := .stated s!"unsupported operator `{op}`"

def notListed (op : String) : Error := .stated s!"`{op}` expects a list of filters"

/-- The error of the first operand that is no filter. -/
def strayOperand? (op : String) : List Bson → Option Error
  | [] => none
  | .document _ :: rest => strayOperand? op rest
  | b :: _ => some (.stated s!"`{op}` expects filters; got {b.written}")

/-- Whether a text matches a pattern. -/
def matchesPattern (v : Value) : Bson → Outcome Bool
  | .text pattern =>
    match v with
    | .text s => Operator.matching s pattern
    | v => .error (.fault (.patternOperand v.kind))
  | b => .error (.stated s!"`$regex` expects a string; got {b.written}")

/-- Whether the order of a value and an operand passes a test. -/
def ordered (test : Ordering → Bool) (v : Value) (operand : Bson) : Outcome Bool := do
  let operand ← operand.toValue
  pure (test (← v.compare? operand))

def equals (v : Value) (operand : Bson) : Outcome Bool := do pure (v.isEq (← operand.toValue))

mutual

/-- Whether a value meets a condition, an operator document or an exact value. -/
def holds (v : Value) : Bson → Outcome Bool
  | .document ops =>
    if !ops.isEmpty && isOperators ops then allHold v ops else equals v (.document ops)
  | b => equals v b

/-- Whether a value meets every operator. -/
def allHold (v : Value) : List (String × Bson) → Outcome Bool
  | [] => pure true
  | (op, operand) :: rest => do
    let held ← match op with
      | "$eq" => equals v operand
      | "$ne" => do pure !(← equals v operand)
      | "$gt" => ordered Ordering.isGT v operand
      | "$gte" => ordered Ordering.isGE v operand
      | "$lt" => ordered Ordering.isLT v operand
      | "$lte" => ordered Ordering.isLE v operand
      | "$regex" => matchesPattern v operand
      | "$not" => do pure !(← holds v operand)
      | op => throw (unsupported op)
    if held then allHold v rest else pure false

end

mutual

/-- Whether an element meets every condition of a filter. -/
def accepts (element : Value) : List (String × Bson) → Outcome Bool
  | [] => pure true
  | (name, content) :: rest => do
    let accepted ← match name with
      | "$and" => acceptsAll element name content
      | "$or" => acceptsAny element name content
      | "$nor" => do pure !(← acceptsAny element name content)
      | name =>
        if isOperator name then throw (unsupported name)
        else holds (element.atPath name) content
    if accepted then accepts element rest else pure false

/-- Whether an element meets every filter listed under an operator. -/
def acceptsAll (element : Value) (op : String) : Bson → Outcome Bool
  | .array items =>
    match strayOperand? op items with
    | some e => .error e
    | none => everyAccepts element items
  | _ => .error (notListed op)

/-- Whether an element meets a filter listed under an operator. -/
def acceptsAny (element : Value) (op : String) : Bson → Outcome Bool
  | .array items =>
    match strayOperand? op items with
    | some e => .error e
    | none => someAccepts element items
  | _ => .error (notListed op)

def everyAccepts (element : Value) : List Bson → Outcome Bool
  | [] => pure true
  | .document f :: rest => do
    if ← accepts element f then everyAccepts element rest else pure false
  | _ :: rest => everyAccepts element rest

def someAccepts (element : Value) : List Bson → Outcome Bool
  | [] => pure false
  | .document f :: rest => do
    if ← accepts element f then pure true else someAccepts element rest
  | _ :: rest => someAccepts element rest

end

end Filter

end QueryPushdown
