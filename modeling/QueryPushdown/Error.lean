import QueryPushdown.Request.Op
import QueryPushdown.Ty
import QueryPushdown.Value.Kind

/-!
# Errors

An error is a cause under a chain of earlier causes. Every cause is a constructor with the data
it speaks about, and `message` is the only place where causes become text. A crash is a cause of
its own: the operation stopped without an answer.
-/

namespace QueryPushdown

/-- The written depth of a context reference that goes `up` scopes outwards, read as a signed
word of 64 bits. -/
def depthText (up : Nat) : String :=
  toString (Int.bmod (-(up : Int)) (2 ^ 64))

/-- Why a request, a schema or a call is refused before anything is computed. -/
inductive Invalid where
  | identityNotField (field collection : String)
  | collectionTwice (collection : String)
  | unknownSource (name : String)
  | contextEscapes (up scopes : Nat)
  | noField (owner field : String)
  | cannotRead (field : String) (ty : Ty)
  | cannotApply (op : UnaryOp) (ty : Ty)
  | predicateType (ty : Ty)
  | lengthOperand (ty : Ty)
  | sumOperand (ty : Ty)
  | listRequired (operation : String) (ty : Ty)
  | sequenceRequired (operation : String) (ty : Ty)
  | logicalOperand (op : BinaryOp) (ty : Ty)
  | patternOperand (ty : Ty)
  | operandTypes (op : BinaryOp) (lhs rhs : Ty)
  | notOnChain (node : Nat) (request : String)
  | noPlaceholder (request : String)
  | placeholderEscapes (request : String)
  | columnType (ty : Ty)
  | rowWidth (columns expected : Nat)
  | noRow
  | noLookup (source : String)
  | collectionExists (collection : String)
  | unknownCollection (collection : String)
  | identityKind (collection : String) (kind : Kind)
  | elementKind (collection : String) (kind : Kind)
  | unknownField (collection field : String)
  | identityWidth (collection : String) (expected given : Nat)
  | noSuchElement
  | stated (text : String)

/-- Why an expression has no value. -/
inductive Fault where
  | sourceUnavailable (name : String)
  | contextEscapes (up scopes : Nat)
  | noField (field : String)
  | cannotRead (field : String) (kind : Kind)
  | cannotApply (op : UnaryOp) (kind : Kind)
  | negationOverflow
  | overflow (op : BinaryOp)
  | columnOverflow
  | divisionByZero
  | operandKinds (op : BinaryOp) (lhs rhs : Kind)
  | cannotSum (kind : Kind)
  | sequenceRequired (kind : Kind)
  | booleanRequired (kind : Kind)
  | listRequired (kind : Kind)
  | notOrdered
  | orderKinds (lhs rhs : Kind)
  | patternMalformed
  | patternTooLarge
  | patternOperand (kind : Kind)
  | stated (text : String)

/-- Why an operation stopped without an answer. -/
inductive Crash where
  /-- A context reference written with a positive depth. -/
  | positiveDepth (depth : Int)
  /-- A buffer of more bytes than an address space holds. -/
  | capacityOverflow
  /-- A counter of scopes that leaves 64 bits. -/
  | depthOverflow
  /-- A counter of elements that leaves 64 bits. -/
  | numberOverflow
  /-- A node number of no node. -/
  | foreignNode (node : Nat)
  deriving DecidableEq, Repr

inductive Cause where
  | invalidRequest (why : Invalid)
  | emptyResult (context : String)
  | multipleResults (context : String)
  | indexOutOfRange (index : Int) (length : Nat)
  | unhandledNode (kind : String)
  | evaluationFailed (why : Fault)
  /-- An error of a driver, with the texts of the errors beneath it. -/
  | driver (texts : List String)
  /-- A free text. -/
  | stated (text : String)
  /-- A free text from outside. -/
  | foreign (text : String)
  | crashed (why : Crash)

/-- What kind of error a cause is, whatever its text says. -/
inductive ErrorKind where
  | invalidRequest
  | emptyResult
  | multipleResults
  | indexOutOfRange
  | unhandledNode
  | evaluationFailed
  | driver
  | stated
  | foreign
  | crashed
  deriving DecidableEq, Repr

/-- A cause and the causes beneath it, outermost first. -/
structure Error where
  cause : Cause
  beneath : List Cause := []

namespace Invalid

def message : Invalid → String
  | identityNotField field collection =>
    s!"identity field `{field}` is not a field of `{collection}`"
  | collectionTwice collection => s!"collection `{collection}` is defined twice"
  | unknownSource name => s!"unknown source `{name}`"
  | contextEscapes up scopes => s!"ctx({depthText up}) escapes the {scopes} enclosing scopes"
  | noField owner field => s!"`{owner}` has no field `{field}`"
  | cannotRead field ty => s!"cannot read field `{field}` of {ty.text}"
  | cannotApply op ty => s!"cannot apply `{op.text}` to {ty.text}"
  | predicateType ty => s!"filter predicate must be boolean; got {ty.text}"
  | lengthOperand ty => s!"len() requires a sequence or a mapping; got {ty.text}"
  | sumOperand ty => s!"sum() requires numbers; got {ty.text}"
  | listRequired operation ty => s!"{operation}() requires a list; got {ty.text}"
  | sequenceRequired operation ty => s!"{operation}() requires a sequence; got {ty.text}"
  | logicalOperand op ty => s!"`{op.text}` requires boolean operands; got {ty.text}"
  | patternOperand ty => s!"`matches` requires string operands; got {ty.text}"
  | operandTypes op lhs rhs =>
    s!"unsupported operand types for `{op.text}`: {lhs.text} and {rhs.text}"
  | notOnChain node request => s!"node #{node} is not on the chain of `{request}`"
  | noPlaceholder request => s!"`{request}` does not start with a placeholder"
  | placeholderEscapes request => s!"`{request}` uses the placeholder outside of its chain"
  | columnType ty => s!"fields of type {ty.text} cannot be stored in a column"
  | rowWidth columns expected => s!"row has {columns} columns, expected {expected}"
  | noRow => "query returned no row"
  | noLookup source => s!"source `{source}` does not support lookups"
  | collectionExists collection => s!"collection `{collection}` already exists"
  | unknownCollection collection => s!"unknown collection `{collection}`"
  | identityKind collection kind =>
    s!"identity of `{collection}` must be made of scalars; got {kind.text}"
  | elementKind collection kind => s!"elements of `{collection}` are mappings; got {kind.text}"
  | unknownField collection field => s!"`{collection}` has no field `{field}`"
  | identityWidth collection expected given =>
    s!"identity of `{collection}` has {expected} fields; got {given}"
  | noSuchElement => "no such element"
  | stated text => text

end Invalid

namespace Fault

def message : Fault → String
  | sourceUnavailable name => s!"source `{name}` is not available"
  | contextEscapes up scopes => s!"ctx({depthText up}) escapes the {scopes} enclosing scopes"
  | noField field => s!"mapping has no field `{field}`"
  | cannotRead field kind => s!"cannot read field `{field}` of {kind.text}"
  | cannotApply op kind => s!"cannot apply `{op.text}` to {kind.text}"
  | negationOverflow => "integer overflow in negation"
  | overflow op => s!"integer overflow in `{op.text}`"
  | columnOverflow => "integer overflow"
  | divisionByZero => "division by zero"
  | operandKinds op lhs rhs =>
    s!"unsupported operand types for `{op.text}`: {lhs.text} and {rhs.text}"
  | cannotSum kind => s!"cannot sum {kind.text}"
  | sequenceRequired kind => s!"expected a sequence, got {kind.text}"
  | booleanRequired kind => s!"expected a boolean, got {kind.text}"
  | listRequired kind => s!"expected a list, got {kind.text}"
  | notOrdered => "cannot order NaN"
  | orderKinds lhs rhs => s!"cannot order {lhs.text} against {rhs.text}"
  | patternMalformed => "regex parse error"
  | patternTooLarge => "Compiled regex exceeds size limit of 10485760 bytes."
  | patternOperand kind => s!"`matches` requires strings; got {kind.text}"
  | stated text => text

end Fault

namespace Crash

def message : Crash → String
  | positiveDepth depth => s!"context depth must be zero or negative; depth={depth}"
  | capacityOverflow => "capacity overflow"
  | depthOverflow | numberOverflow => "attempt to add with overflow"
  | foreignNode node => s!"node #{node} is not part of this request"

end Crash

namespace Cause

def message : Cause → String
  | invalidRequest why => "invalid request: " ++ why.message
  | emptyResult context => "empty result: " ++ context
  | multipleResults context => "multiple results: " ++ context
  | indexOutOfRange index length =>
    s!"index out of range: index {index} on a sequence of {length} elements"
  | unhandledNode kind => "no handler registered for node type " ++ kind
  | evaluationFailed why => "expression evaluation failed: " ++ why.message
  | driver texts => ": ".intercalate texts
  | stated text => text
  | foreign text => text
  | crashed why => why.message

/-- The errors beneath a cause that came from outside, each by its text. -/
def sources : Cause → List String
  | driver texts => ": ".intercalate texts :: texts
  | foreign text => [text]
  | _ => []

def kind : Cause → ErrorKind
  | invalidRequest _ => .invalidRequest
  | emptyResult _ => .emptyResult
  | multipleResults _ => .multipleResults
  | indexOutOfRange _ _ => .indexOutOfRange
  | unhandledNode _ => .unhandledNode
  | evaluationFailed _ => .evaluationFailed
  | driver _ => .driver
  | stated _ => .stated
  | foreign _ => .foreign
  | crashed _ => .crashed

end Cause

namespace Error

def ofCause (cause : Cause) : Error := ⟨cause, []⟩

def invalid (why : Invalid) : Error := ofCause (.invalidRequest why)

def fault (why : Fault) : Error := ofCause (.evaluationFailed why)

def stated (text : String) : Error := ofCause (.stated text)

/-- The kind of an error is that of its outermost cause. -/
def kind (e : Error) : ErrorKind := e.cause.kind

/-- All causes, outermost first. -/
def chain (e : Error) : List Cause := e.cause :: e.beneath

/-- The texts of all causes, outermost first. -/
def message (e : Error) : String := ": ".intercalate (e.chain.map Cause.message)

/-- The innermost cause. -/
def root (e : Error) : Error := ofCause (e.beneath.getLast?.getD e.cause)

/-- Puts `consequent` on top of `e`. A consequent that has causes of its own, or that is held
elsewhere, is first flattened to its text. -/
def context (e consequent : Error) (shared : Bool) : Error :=
  if consequent.beneath.isEmpty && !shared then ⟨consequent.cause, e.chain⟩
  else ⟨.stated consequent.message, e.chain⟩

theorem chain_context (e consequent : Error) (shared : Bool) :
    (e.context consequent shared).beneath = e.chain := by
  unfold context
  split <;> rfl

end Error

/-- The outcome of an operation that may fail. -/
abbrev Outcome := Except Error

/-- A chain that succeeds has succeeded at every link. -/
theorem Outcome.bind_eq_ok {α β : Type} {x : Outcome α} {f : α → Outcome β} {b : β} :
    (x >>= f) = .ok b ↔ ∃ a, x = .ok a ∧ f a = .ok b := by
  constructor
  · intro h
    cases x with
    | error e => cases h
    | ok a => exact ⟨a, rfl, h⟩
  · rintro ⟨a, rfl, h⟩
    exact h

end QueryPushdown
