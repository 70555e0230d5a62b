import QueryPushdown.Pattern.ClassName
import QueryPushdown.Pattern.NormalForm
import QueryPushdown.Pattern.Tree

/-!
# What written patterns mean

`Tree.meaning?` gives the expression that a tree stands for under flags, and the flags that hold after
it. Without the flag `unicode` a pattern speaks of ASCII characters only: what could match a part of
another character has no meaning, nor has a class whose name is unknown.
-/

namespace QueryPushdown.Pattern

namespace Flags

/-- A set as it reads under the flags: letters stand for all letters equal to them up to case. -/
def fold (flags : Flags) (s : CharSet) : CharSet :=
  if !flags.ignoreCase then s else if flags.unicode then s.anyCase else s.anyCaseAscii

/-- The complement of a set if `negated` is set. A complement has characters beyond ASCII. -/
def negate? (flags : Flags) (negated : Bool) (s : CharSet) : Option CharSet :=
  if !negated then some s else if flags.unicode then some s.compl else none

def close? (flags : Flags) (negated : Bool) (s : CharSet) : Option CharSet :=
  flags.negate? negated (flags.fold s)

/-- Digits, white space or characters of words. -/
def short (flags : Flags) : ShortClass → CharSet
  | .digit => if flags.unicode then Category.decimalNumber else ⟨[48, 58]⟩
  | .space => if flags.unicode then Property.whiteSpace else ⟨[9, 14, 32, 33]⟩
  | .word => wordSet !flags.unicode

/-- The code point of a literal as a member of a set. -/
def member? (flags : Flags) (l : Literal) : Option Nat :=
  if flags.unicode || l.char.toNat < 128 then some l.char.toNat else none

/-- A literal on its own. -/
def literal? (flags : Flags) (l : Literal) : Option Regex :=
  if flags.unicode || !l.byte || l.char.toNat < 128 then
    some (.ofSet (flags.fold (.single l.char)))
  else none

/-- Any character but the ends of lines, or any at all. -/
def dot? (flags : Flags) : Option CharSet :=
  flags.negate? true
    (if flags.dotAll then .empty else if flags.returns then ⟨[10, 11, 13, 14]⟩ else ⟨[10, 11]⟩)

/-- What an assertion asks: at an end of the text, or at an end of a line. -/
def look (flags : Flags) : Anchor → Look
  | .lineStart => if flags.multiLine then .lineStart flags.returns else .start
  | .lineStop => if flags.multiLine then .lineStop flags.returns else .stop
  | .textStart => .start
  | .textStop => .stop
  | .word look => .word (!flags.unicode) look

end Flags

/-- The class that a name stands for. -/
def PropertyName.set? : PropertyName → Option CharSet
  | .alone name => ClassName.named? name
  | .valued property value => ClassName.valued? property value

def SetOperation.apply : SetOperation → CharSet → CharSet → CharSet
  | .inter => .inter
  | .diff => .diff
  | .symmDiff => .symmDiff

mutual

/-- The set that is written. -/
def SetTree.meaning? (flags : Flags) : SetTree → Option CharSet
  | .nothing => some .empty
  | .char c => do pure (.run (← flags.member? c) (← flags.member? c))
  | .range first last => do pure (.run (← flags.member? first) (← flags.member? last))
  | .short negated kind => flags.negate? negated (flags.short kind)
  | .ascii negated s => flags.close? negated s
  | .property negated name => if flags.unicode then name.set? >>= flags.close? negated else none
  | .union items => SetTree.unionMeaning? flags items
  | .bracket negated inner => inner.meaning? flags >>= flags.close? negated
  | .combine op a b => do pure (op.apply (flags.fold (← a.meaning? flags))
      (flags.fold (← b.meaning? flags)))

def SetTree.unionMeaning? (flags : Flags) : List SetTree → Option CharSet
  | [] => some .empty
  | t :: ts => do pure ((← t.meaning? flags).union (← SetTree.unionMeaning? flags ts))

end

mutual

/-- The expression that is written, and the flags after it. -/
def Tree.meaning? (flags : Flags) : Tree → Option (Regex × Flags)
  | .empty => some (.empty, flags)
  | .char c => (flags.literal? c).map (·, flags)
  | .dot => flags.dot?.map fun s => (.ofSet s, flags)
  | .anchor a => some (.look (flags.look a), flags)
  | .set s => (s.meaning? flags).map fun s => (.ofSet s, flags)
  | .turn switches => some (.empty, flags.turnAll switches)
  | .repeated least most greedy inner => do
    let (r, flags) ← inner.meaning? flags
    pure (.repetition least most (greedy != flags.swapGreed) r, flags)
  | .capture index inner => do
    let (r, _) ← inner.meaning? flags
    pure (.group index r, flags)
  | .group switches inner => do
    let (r, _) ← inner.meaning? (flags.turnAll switches)
    pure (r, flags)
  | .seq parts => do
    let (rs, flags) ← Tree.meanings? flags parts
    pure (.sequence rs, flags)
  | .alt branches => do
    let (rs, flags) ← Tree.meanings? flags branches
    pure (.choice rs, flags)

def Tree.meanings? (flags : Flags) : List Tree → Option (List Regex × Flags)
  | [] => some ([], flags)
  | t :: ts => do
    let (r, flags) ← t.meaning? flags
    let (rs, flags) ← Tree.meanings? flags ts
    pure (r :: rs, flags)

end

end QueryPushdown.Pattern
