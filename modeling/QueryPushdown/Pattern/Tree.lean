import QueryPushdown.Pattern.Regex

/-!
# Written patterns as trees

A pattern as it is written: what it says before flags give it a meaning. `Tree.depth` counts how
deep its parts are nested. Single characters, assertions and sets without brackets have no depth;
each group, repetition, sequence, choice, pair of brackets and operation on sets adds one.
-/

namespace QueryPushdown.Pattern

/-- Switches that change the meaning of what follows. -/
inductive Flag where
  | ignoreCase | multiLine | dotAll | extended | swapGreed | returns | unicode
  deriving DecidableEq, Repr

/-- A flag that is turned on or off. -/
structure Switch where
  flag : Flag
  on : Bool
  deriving DecidableEq, Repr

/-- The flags that hold at a place of a pattern. -/
structure Flags where
  ignoreCase : Bool := false
  multiLine : Bool := false
  dotAll : Bool := false
  /-- Blanks and comments do not count. -/
  extended : Bool := false
  /-- Repetitions are lazy unless they are marked. -/
  swapGreed : Bool := false
  /-- A carriage return ends a line, too. -/
  returns : Bool := false
  unicode : Bool := true
  deriving DecidableEq, Repr

def Flags.turn (flags : Flags) (s : Switch) : Flags :=
  match s.flag with
  | .ignoreCase => { flags with ignoreCase := s.on }
  | .multiLine => { flags with multiLine := s.on }
  | .dotAll => { flags with dotAll := s.on }
  | .extended => { flags with extended := s.on }
  | .swapGreed => { flags with swapGreed := s.on }
  | .returns => { flags with returns := s.on }
  | .unicode => { flags with unicode := s.on }

def Flags.turnAll (flags : Flags) (switches : List Switch) : Flags := switches.foldl Flags.turn flags

/-- A character. `byte` marks one that is written as two hexadecimal digits. -/
structure Literal where
  char : Char
  byte : Bool := false
  deriving DecidableEq, Repr

/-- Classes with a letter of their own. -/
inductive ShortClass where
  | digit | space | word
  deriving DecidableEq, Repr

/-- The name of a class: a property with or without a value, a category or a script. -/
inductive PropertyName where
  | alone (name : List Char)
  | valued (property value : List Char)
  deriving DecidableEq, Repr

/-- Operations on sets of characters. -/
inductive SetOperation where
  | inter | diff | symmDiff
  deriving DecidableEq, Repr

/-- A written set of characters. -/
inductive SetTree where
  | nothing
  | char (c : Literal)
  | range (first last : Literal)
  | short (negated : Bool) (kind : ShortClass)
  /-- A class of ASCII characters that is written with colons. -/
  | ascii (negated : Bool) (set : CharSet)
  | property (negated : Bool) (name : PropertyName)
  | union (items : List SetTree)
  | bracket (negated : Bool) (inner : SetTree)
  | combine (op : SetOperation) (a b : SetTree)
  deriving Repr

mutual

def SetTree.depth : SetTree → Nat
  | .union items => SetTree.deepest items + 1
  | .bracket _ inner => inner.depth + 1
  | .combine _ a b => max a.depth b.depth + 1
  | _ => 0

def SetTree.deepest : List SetTree → Nat
  | [] => 0
  | t :: ts => max t.depth (SetTree.deepest ts)

end

/-- A written assertion. -/
inductive Anchor where
  | lineStart | lineStop
  | textStart | textStop
  | word (look : WordLook)
  deriving DecidableEq, Repr

/-- A written pattern. -/
inductive Tree where
  | empty
  | char (c : Literal)
  | dot
  | anchor (a : Anchor)
  | set (s : SetTree)
  /-- Flags that hold from here to the end of the group. -/
  | turn (switches : List Switch)
  | repeated (least : Nat) (most : Option Nat) (greedy : Bool) (inner : Tree)
  | capture (index : Nat) (inner : Tree)
  /-- A group that is not remembered, with flags that hold inside. -/
  | group (switches : List Switch) (inner : Tree)
  | seq (parts : List Tree)
  | alt (branches : List Tree)
  deriving Repr

mutual

def Tree.depth : Tree → Nat
  | .set s => s.depth
  | .repeated _ _ _ inner => inner.depth + 1
  | .capture _ inner => inner.depth + 1
  | .group _ inner => inner.depth + 1
  | .seq parts => Tree.deepest parts + 1
  | .alt branches => Tree.deepest branches + 1
  | _ => 0

def Tree.deepest : List Tree → Nat
  | [] => 0
  | t :: ts => max t.depth (Tree.deepest ts)

end

/-- How deep patterns may be nested. -/
def depthLimit : Nat := 250

end QueryPushdown.Pattern
