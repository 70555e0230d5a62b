import QueryPushdown.Request.Term

/-!
# Anchored patterns

A pattern that starts with `^`, may end in `$`, and has no other special character matches like a
comparison with its plain text.
-/

namespace QueryPushdown.Pattern

/-- A pattern that needs no search. -/
inductive Anchored where
  /-- The whole text. -/
  | exact (text : String)
  /-- The start of the text. -/
  | leading (text : String)
  deriving DecidableEq, Repr

namespace Anchored

/-- Characters with a meaning of their own in patterns. -/
def special : List Char :=
  ['\\', '.', '+', '*', '?', '(', ')', '|', '[', ']', '\x7b', '\x7d', '^', '$']

/-- A pattern with its caret taken off, if it starts with one. -/
def ofBody? (body : List Char) : Option Anchored :=
  let plain := if body.getLast? = some '$' then body.dropLast else body
  if plain.any special.contains then none
  else if body.getLast? = some '$' then some (.exact (String.ofList plain))
  else some (.leading (String.ofList plain))

def ofText? (pattern : String) : Option Anchored :=
  match pattern.toList with
  | '^' :: body => ofBody? body
  | _ => none

/-- The anchored pattern that a literal holds. -/
def ofTerm? : Term → Option Anchored
  | .literal _ (.text pattern) => ofText? pattern
  | _ => none

/-- Whether a text matches. -/
def holds : Anchored → String → Bool
  | exact text, s => s == text
  | leading text, s => text.toList.isPrefixOf s.toList

end Anchored

end QueryPushdown.Pattern
