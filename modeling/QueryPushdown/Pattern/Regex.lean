import QueryPushdown.Pattern.CharGroup

/-!
# Regular expressions and their matches

A regular expression over characters, with assertions about the place between two characters.
`derive` are the partial derivatives: what may remain to be matched once a character is read at
a place. A text contains a match when some sequence of derivatives reaches an expression that
accepts the empty text where it stands.
-/

namespace QueryPushdown.Pattern

/-- A question about words next to a place. -/
inductive WordLook where
  | boundary | notBoundary
  | start | stop
  | startHalf | stopHalf
  deriving DecidableEq, Repr

/-- What an assertion asks of a place. -/
inductive Look where
  | start | stop
  /-- The end of a line is a line feed, or also a carriage return if `returns` is set. -/
  | lineStart (returns : Bool)
  | lineStop (returns : Bool)
  /-- Words are made of the characters of every script, or of ASCII ones alone if `ascii` is set. -/
  | word (ascii : Bool) (look : WordLook)
  deriving DecidableEq, Repr

/-- A place in a text: the characters before and after it. -/
structure Place where
  before : Option Char
  after : Option Char

/-- The characters of words. -/
def wordSet (ascii : Bool) : CharSet :=
  if ascii then ⟨[48, 58, 65, 91, 95, 96, 97, 123]⟩ else CharGroup.word

/-- Whether a word look holds between a character that may be of a word and one that may be. -/
def WordLook.holds (look : WordLook) (before after : Bool) : Bool :=
  match look with
  | boundary => before != after
  | notBoundary => before == after
  | start => !before && after
  | stop => before && !after
  | startHalf => !before
  | stopHalf => !after

def Look.holds (look : Look) (p : Place) : Bool :=
  match look with
  | start => p.before.isNone
  | stop => p.after.isNone
  | lineStart false => p.before.all (· == '\n')
  | lineStart true => p.before.all (· == '\n') || (p.before == some '\r' && p.after != some '\n')
  | lineStop false => p.after.all (· == '\n')
  | lineStop true => p.after.all (· == '\r') || (p.after == some '\n' && p.before != some '\r')
  | word ascii look =>
    look.holds (p.before.any (wordSet ascii).contains) (p.after.any (wordSet ascii).contains)

inductive Regex where
  | empty
  /-- The characters of a text, one after the other. -/
  | text (cs : List Char)
  /-- A character of a set. -/
  | set (s : CharSet)
  | look (l : Look)
  /-- At least `least` and at most `most` matches of `a`, as many as possible if `greedy` is set and
  else as few. -/
  | repeated (least : Nat) (most : Option Nat) (greedy : Bool) (a : Regex)
  /-- A match of `a` that is remembered under a number. -/
  | group (index : Nat) (a : Regex)
  | seq (a b : Regex)
  | alt (a b : Regex)
  deriving DecidableEq, Repr

namespace Regex

/-- The expression that matches nowhere. -/
def never : Regex := .set .empty

/-- Whether the empty text at a place matches. -/
def accepts (p : Place) : Regex → Bool
  | empty => true
  | text cs => cs.isEmpty
  | set _ => false
  | look l => l.holds p
  | repeated least _ _ a => least == 0 || a.accepts p
  | group _ a => a.accepts p
  | seq a b => a.accepts p && b.accepts p
  | alt a b => a.accepts p || b.accepts p

/-- `a` followed by `b`. -/
def before : Regex → Regex → Regex
  | empty, b => b
  | a, empty => a
  | a, b => seq a b

/-- What may remain of a match once `c` is read at a place. A repetition whose expression accepts the
place may leave out any number of rounds there. -/
def derive (p : Place) (c : Char) : Regex → List Regex
  | empty => []
  | text [] => []
  | text (d :: ds) => if d = c then [if ds.isEmpty then empty else text ds] else []
  | set s => if s.contains c then [empty] else []
  | look _ => []
  | repeated least most greedy a =>
    if most = some 0 then []
    else
      let rest := match most.map (· - 1) with
        | some 0 => empty
        | most => repeated (if a.accepts p then 0 else least - 1) most greedy a
      (a.derive p c).map (·.before rest)
  | group _ a => a.derive p c
  | seq a b => (a.derive p c).map (·.before b) ++ if a.accepts p then b.derive p c else []
  | alt a b => a.derive p c ++ b.derive p c

/-- Whether a match that may start here or has reached one of `running` ends in the text. -/
def searchFrom (r : Regex) (running : List Regex) (before : Option Char) : List Char → Bool
  | [] => (r :: running).any (·.accepts ⟨before, none⟩)
  | c :: rest =>
    let place : Place := ⟨before, some c⟩
    let running := r :: running
    running.any (·.accepts place) ||
      searchFrom r (running.flatMap (·.derive place c)).eraseDups (some c) rest

/-- Whether a text contains a match. -/
def search (r : Regex) (text : String) : Bool := r.searchFrom [] none text.toList

end Regex

end QueryPushdown.Pattern
