/-!
# Operators of requests

Unary, binary and aggregate operators with their written forms. Comparisons have a commuted
operator, which gives the same answer on exchanged operands, and a negated one.
-/

namespace QueryPushdown

inductive UnaryOp where
  | neg | not
  deriving DecidableEq, Repr

inductive BinaryOp where
  | eq | ne | ge | gt | le | lt
  | add | sub | mul | div
  | and | or
  | matching
  deriving DecidableEq, Repr

inductive AggregateOp where
  | len | sum | min | max
  deriving DecidableEq, Repr

namespace UnaryOp

def text : UnaryOp → String
  | neg => "-"
  | not => "not"

end UnaryOp

namespace AggregateOp

def text : AggregateOp → String
  | len => "len"
  | sum => "sum"
  | min => "min"
  | max => "max"

end AggregateOp

namespace BinaryOp

def text : BinaryOp → String
  | eq => "=="
  | ne => "!="
  | ge => ">="
  | gt => ">"
  | le => "<="
  | lt => "<"
  | add => "+"
  | sub => "-"
  | mul => "*"
  | div => "/"
  | and => "and"
  | or => "or"
  | matching => "matches"

def isComparison : BinaryOp → Bool
  | eq | ne | ge | gt | le | lt => true
  | _ => false

def isArithmetic : BinaryOp → Bool
  | add | sub | mul | div => true
  | _ => false

def isLogical : BinaryOp → Bool
  | and | or => true
  | _ => false

/-- The comparison that gives the same answer with its operands exchanged. -/
def commute : BinaryOp → Option BinaryOp
  | eq => some eq
  | ne => some ne
  | ge => some le
  | gt => some lt
  | le => some ge
  | lt => some gt
  | _ => none

/-- The comparison that holds exactly when this one does not. -/
def negate : BinaryOp → Option BinaryOp
  | eq => some ne
  | ne => some eq
  | ge => some lt
  | gt => some le
  | le => some gt
  | lt => some ge
  | _ => none

theorem commute_commute {op other : BinaryOp} (h : op.commute = some other) :
    other.commute = some op := by
  cases op <;> simp_all [commute] <;> subst h <;> rfl

theorem negate_negate {op other : BinaryOp} (h : op.negate = some other) :
    other.negate = some op := by
  cases op <;> simp_all [negate] <;> subst h <;> rfl

end BinaryOp

end QueryPushdown
