import QueryPushdown.Request.Term

/-!
# Kinds of nodes

Node kinds form a hierarchy under `request`. The kinds that nodes have are its leaves; the others
stand for families, so that one handler can serve all members.
-/

namespace QueryPushdown

inductive NodeKind where
  | request
  | source | literal | context | attribute | record
  | unaryOp | not | neg
  | binaryOp
  | comparison | eq | ne | lt | gt | le | ge
  | arithmetic | add | sub | mul | div
  | logical | and | or
  | matching
  | filter | map | sort | slice | index | groupby | distinct | one
  | aggregate | len | sum | min | max
  deriving DecidableEq, Repr, Inhabited

namespace NodeKind

/-- Every kind. -/
def all : List NodeKind :=
  [.request, .source, .literal, .context, .attribute, .record, .unaryOp, .not, .neg, .binaryOp,
    .comparison, .eq, .ne, .lt, .gt, .le, .ge, .arithmetic, .add, .sub, .mul, .div, .logical,
    .and, .or, .matching, .filter, .map, .sort, .slice, .index, .groupby, .distinct, .one,
    .aggregate, .len, .sum, .min, .max]

def text : NodeKind → String
  | .request => "Request"
  | .source => "Source"
  | .literal => "Literal"
  | .context => "Context"
  | .attribute => "Attribute"
  | .record => "Record"
  | .unaryOp => "UnaryOp"
  | .not => "Not"
  | .neg => "Neg"
  | .binaryOp => "BinaryOp"
  | .comparison => "Comparison"
  | .eq => "Eq"
  | .ne => "Ne"
  | .lt => "Lt"
  | .gt => "Gt"
  | .le => "Le"
  | .ge => "Ge"
  | .arithmetic => "Arithmetic"
  | .add => "Add"
  | .sub => "Sub"
  | .mul => "Mul"
  | .div => "Div"
  | .logical => "Logical"
  | .and => "And"
  | .or => "Or"
  | .matching => "Matches"
  | .filter => "Filter"
  | .map => "Map"
  | .sort => "Sort"
  | .slice => "Slice"
  | .index => "Index"
  | .groupby => "Groupby"
  | .distinct => "Distinct"
  | .one => "One"
  | .aggregate => "Aggregate"
  | .len => "Len"
  | .sum => "Sum"
  | .min => "Min"
  | .max => "Max"

def ofText? (s : String) : Option NodeKind := all.find? (·.text == s)

/-- The family a kind belongs to directly. -/
def parent? : NodeKind → Option NodeKind
  | .request => none
  | .not | .neg => some .unaryOp
  | .eq | .ne | .gt | .lt | .ge | .le => some .comparison
  | .add | .sub | .mul | .div => some .arithmetic
  | .and | .or => some .logical
  | .comparison | .arithmetic | .logical | .matching => some .binaryOp
  | .len | .sum | .min | .max => some .aggregate
  | _ => some .request

/-- Distance to the top of the hierarchy. -/
def depth : NodeKind → Nat
  | .request => 0
  | .eq | .ne | .gt | .lt | .ge | .le | .add | .sub | .mul | .div | .and | .or => 3
  | .comparison | .arithmetic | .logical | .matching | .not | .neg => 2
  | .len | .sum | .min | .max => 2
  | _ => 1

theorem depth_parent {kind family : NodeKind} (h : kind.parent? = some family) :
    family.depth < kind.depth := by
  cases kind <;> simp_all [parent?] <;> subst h <;> decide

/-- A kind followed by at most `steps` of its families, the closest first. -/
def upward : Nat → NodeKind → List NodeKind
  | 0, kind => [kind]
  | steps + 1, kind => kind :: match kind.parent? with
    | none => []
    | some family => upward steps family

/-- A kind followed by its families, the closest first. -/
def ancestors (kind : NodeKind) : List NodeKind := upward kind.depth kind

theorem getLast?_ancestors (kind : NodeKind) : kind.ancestors.getLast? = some .request := by
  cases kind <;> rfl

/-- Whether `kind` is `family` or belongs to it. -/
def isA (kind family : NodeKind) : Bool := kind.ancestors.contains family

def ofUnary : UnaryOp → NodeKind
  | .not => .not
  | .neg => .neg

def ofBinary : BinaryOp → NodeKind
  | .eq => .eq
  | .ne => .ne
  | .ge => .ge
  | .gt => .gt
  | .le => .le
  | .lt => .lt
  | .add => .add
  | .sub => .sub
  | .mul => .mul
  | .div => .div
  | .and => .and
  | .or => .or
  | .matching => .matching

def ofAggregate : AggregateOp → NodeKind
  | .len => .len
  | .sum => .sum
  | .min => .min
  | .max => .max

def ofStep : Step → NodeKind
  | .field _ => .attribute
  | .unary op => ofUnary op
  | .binary op _ => ofBinary op
  | .filter _ => .filter
  | .map _ => .map
  | .sort _ => .sort
  | .slice _ _ => .slice
  | .index _ => .index
  | .groupby _ _ => .groupby
  | .distinct => .distinct
  | .one | .oneOr _ => .one
  | .aggregate op => ofAggregate op

def ofTerm : Term → NodeKind
  | .source _ _ => .source
  | .literal _ _ => .literal
  | .context _ _ => .context
  | .record _ _ => .record
  | .step _ _ action => ofStep action

end NodeKind

end QueryPushdown
