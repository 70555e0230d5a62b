import QueryPushdown.Request.Term
import QueryPushdown.Value.Compare

/-!
# Equality of terms

Two terms are equal when their nodes agree one by one and their operands agree in order; node
numbers do not count. Records and groups agree by the set of their names, while their fields are
compared by position. Literals are compared with `Value.strictEq`, so `NaN` equals nothing.
-/

namespace QueryPushdown.Term

/-- Whether two lists of named entries have the same names, in any order. -/
def sameNames (a b : List (String × Term)) : Bool :=
  a.length == b.length && a.all fun (name, _) => Fields.has b name

mutual

def same : Term → Term → Bool
  | source _ a, source _ b => a == b
  | literal _ a, literal _ b => a.strictEq b
  | context _ a, context _ b => a == b
  | record _ a, record _ b => sameNames a b && sameFields a b
  | step _ s a, step _ t b => same s t && sameStep a b
  | _, _ => false

def sameStep : Step → Step → Bool
  | .field a, .field b => a == b
  | .unary a, .unary b => a == b
  | .binary a s, .binary b t => a == b && same s t
  | .filter s, .filter t => same s t
  | .map s, .map t => same s t
  | .sort a, .sort b => sameKeys a b
  | .slice a s, .slice b t => a == b && s == t
  | .index a, .index b => a == b
  | .groupby s a, .groupby t b => same s t && sameNames a b && sameFields a b
  | .distinct, .distinct => true
  | .one, .one => true
  | .oneOr s, .oneOr t => same s t
  | .aggregate a, .aggregate b => a == b
  | _, _ => false

/-- Entries by position, whatever their names. -/
def sameFields : List (String × Term) → List (String × Term) → Bool
  | [], [] => true
  | (_, s) :: as, (_, t) :: bs => same s t && sameFields as bs
  | _, _ => false

def sameKeys : List (Term × Bool) → List (Term × Bool) → Bool
  | [], [] => true
  | (s, a) :: as, (t, b) :: bs => a == b && same s t && sameKeys as bs
  | _, _ => false

end

instance : BEq Term := ⟨same⟩

end QueryPushdown.Term
