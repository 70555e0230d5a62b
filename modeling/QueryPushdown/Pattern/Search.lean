import QueryPushdown.Pattern.Footprint
import QueryPushdown.Pattern.Meaning
import QueryPushdown.Pattern.Reader

/-!
# Searching texts for patterns

A written pattern is read, given its meaning and measured before any text is searched for it.
-/

namespace QueryPushdown.Pattern

/-- Why a text is no pattern that can be searched for. -/
inductive Malformed where
  | unreadable
  | tooLarge
  deriving DecidableEq, Repr

/-- The regular expression that a text writes. -/
def Regex.read (pattern : String) : Except Malformed Regex :=
  match Tree.read? pattern >>= Tree.meaning? {} with
  | none => .error .unreadable
  | some (r, _) => if r.fits then .ok r else .error .tooLarge

/-- Whether a text contains a match of a written pattern. -/
def search (pattern text : String) : Except Malformed Bool :=
  (Regex.read pattern).map (·.search text)

end QueryPushdown.Pattern
