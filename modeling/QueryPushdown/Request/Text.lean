import QueryPushdown.Request.Term

/-!
# Written forms of terms

`Term.text` writes a term in method notation: every step after its subject, and operators between
parentheses.
-/

namespace QueryPushdown.Term

/-- A bound of a slice, left out when absent. -/
def boundText : Option Int64 → String
  | none => ""
  | some i => toString i.toInt

mutual

def text : Term → String
  | source _ name => name
  | literal _ value => value.written
  | context _ up => "ctx(" ++ depthText up ++ ")"
  | record _ fields => "\x7b" ++ ", ".intercalate (fieldTexts fields) ++ "\x7d"
  | step _ subject action => stepText (text subject) action

/-- The written form of a step after its subject. -/
def stepText (subject : String) : Step → String
  | .field name => subject ++ "." ++ name
  | .unary op => op.text ++ "(" ++ subject ++ ")"
  | .binary op rhs => "(" ++ subject ++ " " ++ op.text ++ " " ++ text rhs ++ ")"
  | .filter predicate => subject ++ ".filter(" ++ text predicate ++ ")"
  | .map transform => subject ++ ".map(" ++ text transform ++ ")"
  | .sort keys => subject ++ ".sort(" ++ ", ".intercalate (keyTexts keys) ++ ")"
  | .slice start stop => subject ++ "[" ++ boundText start ++ ":" ++ boundText stop ++ "]"
  | .index position => subject ++ "[" ++ toString position.toInt ++ "]"
  | .groupby key aggregates =>
    subject ++ ".groupby(" ++ text key ++ String.join (aggregateTexts aggregates) ++ ")"
  | .distinct => subject ++ ".distinct()"
  | .one => subject ++ ".one()"
  | .oneOr default => subject ++ ".one(" ++ text default ++ ")"
  | .aggregate op => subject ++ "." ++ op.text ++ "()"

def fieldTexts : List (String × Term) → List String
  | [] => []
  | (name, t) :: rest => (name ++ ": " ++ text t) :: fieldTexts rest

def keyTexts : List (Term × Bool) → List String
  | [] => []
  | (t, descending) :: rest => ((if descending then "-" else "") ++ text t) :: keyTexts rest

def aggregateTexts : List (String × Term) → List String
  | [] => []
  | (name, t) :: rest => (", " ++ name ++ "=" ++ text t) :: aggregateTexts rest

end

/-- What cardinality errors call a step that expects one element of its subject. -/
def oneContext (subject : Term) : String := "one() over " ++ subject.text

end QueryPushdown.Term
