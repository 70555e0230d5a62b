import QueryPushdown.Pattern.Tree

/-!
# Reading patterns

The written form of patterns: alternatives, repetition with greedy and lazy marks, groups with
names and flags, bracketed sets with set operations, and assertions. Look-around, back-references
and unknown escapes are malformed, and so is a pattern that is nested too deep. `Tree.read?` takes
the whole text or refuses. Where a flag `x` is passed on, it tells whether blanks and comments are
left out.
-/

namespace QueryPushdown.Pattern

/-- A part that was read, and what is left of the text. -/
abbrev Rest (α : Type) := α × List Char

def isBlank (c : Char) : Bool := Property.whiteSpace.contains c

/-- The characters up to the first one that fails a test, without blanks and comments if `x` is set,
and the text from that one on. `comment` tells that a comment is being left out. -/
def gather (x : Bool) (p : Char → Bool) (comment : Bool) : List Char → List Char × List Char
  | [] => ([], [])
  | c :: rest =>
    if comment then gather x p (c != '\n') rest
    else if x && isBlank c then gather x p false rest
    else if x && c == '#' then gather x p true rest
    else if p c then
      let (found, rest) := gather x p false rest
      (c :: found, rest)
    else ([], c :: rest)

/-- The text from the first character that counts. -/
def skip (x : Bool) (cs : List Char) : List Char := (gather x (fun _ => false) false cs).2

/-- The next character that is not blank, taking the sign of a first comment for a blank. -/
def glancePast (comment : Bool) : List Char → Option Char
  | [] => none
  | c :: rest =>
    if isBlank c then glancePast comment rest
    else if !comment && c == '#' then glancePast true rest
    else some c

/-- The character that decides whether a hyphen before the text makes a range. -/
def glance (x : Bool) (cs : List Char) : Option Char :=
  if x then (glancePast false cs).orElse fun _ => cs.head? else cs.head?

def isAsciiLetter (c : Char) : Bool := ('a' ≤ c && c ≤ 'z') || ('A' ≤ c && c ≤ 'Z')

def isAsciiDigit (c : Char) : Bool := '0' ≤ c && c ≤ '9'

def hexValue? (c : Char) : Option Nat :=
  if '0' ≤ c ∧ c ≤ '9' then some (c.toNat - '0'.toNat)
  else if 'a' ≤ c ∧ c ≤ 'f' then some (c.toNat - 'a'.toNat + 10)
  else if 'A' ≤ c ∧ c ≤ 'F' then some (c.toNat - 'A'.toNat + 10)
  else none

/-- The character whose code point is written by hexadecimal digits, at least one. -/
def hexChar? (digits : List Char) : Option Char := do
  if digits.isEmpty then none
  let code ← digits.foldlM (fun n c => (hexValue? c).map (n * 16 + ·)) 0
  if h : code.isValidChar then some (Char.ofNatAux code h) else none

/-- The next `n` characters that count. -/
def takeExactly (x : Bool) : Nat → List Char → Option (Rest (List Char))
  | 0, cs => some ([], cs)
  | n + 1, cs =>
    match skip x cs with
    | [] => none
    | c :: rest => (takeExactly x n rest).map fun (found, rest) => (c :: found, rest)

/-- What stands in braces, after the opening one. -/
def readBraced (x : Bool) (cs : List Char) : Option (Rest (List Char)) :=
  match gather x (· != '\x7d') false cs with
  | (_, []) => none
  | (found, _ :: rest) => some (found, rest)

/-- A character by its number: `width` digits, or any number of them in braces. -/
def readHex (x : Bool) (width : Nat) (cs : List Char) : Option (Rest Literal) := do
  match skip x cs with
  | '\x7b' :: rest =>
    let (digits, rest) ← readBraced x rest
    pure (⟨← hexChar? digits, false⟩, rest)
  | cs =>
    let (digits, rest) ← takeExactly x width cs
    pure (⟨← hexChar? digits, width == 2⟩, rest)

/-- The text before and the text after the first place where a mark stands. -/
def splitAt? (mark : List Char) : List Char → Option (List Char × List Char)
  | [] => none
  | c :: rest =>
    if mark.isPrefixOf (c :: rest) then some ([], (c :: rest).drop mark.length)
    else (splitAt? mark rest).map fun (before, after) => (c :: before, after)

/-- The name of a class in braces: a name alone, or a property and a value with a mark between
them. All marks say the same. -/
def PropertyName.ofBraced (name : List Char) : PropertyName :=
  match ((splitAt? ['!', '='] name).orElse fun _ => splitAt? [':'] name).orElse
      fun _ => splitAt? ['='] name with
  | some (property, value) => .valued property value
  | none => .alone name

/-- The name of a class: one letter, or a name in braces. -/
def readProperty (x : Bool) (cs : List Char) : Option (Rest PropertyName) := do
  match skip x cs with
  | '\x7b' :: rest =>
    let (name, rest) ← readBraced x rest
    pure (.ofBraced name, rest)
  | '\\' :: _ => none
  | c :: rest => pure (.alone [c], rest)
  | [] => none

/-- The sort of word boundary written in braces after `\b`, if braces with letters follow. -/
def readBoundary (x : Bool) (cs : List Char) : Option (Rest WordLook) :=
  let isPart := fun (c : Char) => isAsciiLetter c || c == '-'
  match cs with
  | '\x7b' :: rest =>
    match skip x rest with
    | [] => none
    | c :: _ =>
      if isPart c then
        match gather x isPart false rest with
        | (name, '\x7d' :: rest) =>
          match String.ofList name with
          | "start" => some (.start, rest)
          | "end" => some (.stop, rest)
          | "start-half" => some (.startHalf, rest)
          | "end-half" => some (.stopHalf, rest)
          | _ => none
        | _ => none
      else some (.boundary, cs)
  | _ => some (.boundary, cs)

/-- What an escape stands for. -/
inductive Escaped where
  | char (c : Literal)
  | anchor (a : Anchor)
  | set (s : SetTree)

/-- An escape, after its backslash. -/
def readEscape (x : Bool) : List Char → Option (Rest Escaped)
  | [] => none
  | c :: rest =>
    let plain := fun (c : Char) => some (Escaped.char ⟨c, false⟩, rest)
    let word := fun (look : WordLook) => some (Escaped.anchor (.word look), rest)
    let short := fun (negated : Bool) (kind : ShortClass) =>
      some (Escaped.set (.short negated kind), rest)
    let hex := fun (width : Nat) => do
      let (l, rest) ← readHex x width rest
      pure (Escaped.char l, rest)
    let property := fun (negated : Bool) => do
      let (name, rest) ← readProperty x rest
      pure (Escaped.set (.property negated name), rest)
    match c with
    | 'x' => hex 2
    | 'u' => hex 4
    | 'U' => hex 8
    | 'd' => short false .digit
    | 's' => short false .space
    | 'w' => short false .word
    | 'D' => short true .digit
    | 'S' => short true .space
    | 'W' => short true .word
    | 'p' => property false
    | 'P' => property true
    | 'a' => plain '\x07'
    | 'f' => plain '\x0c'
    | 't' => plain '\t'
    | 'n' => plain '\n'
    | 'r' => plain '\r'
    | 'v' => plain '\x0b'
    | 'A' => some (.anchor .textStart, rest)
    | 'z' => some (.anchor .textStop, rest)
    | 'B' => word .notBoundary
    | '<' => word .start
    | '>' => word .stop
    | 'b' => do
      let (look, rest) ← readBoundary x rest
      pure (.anchor (.word look), rest)
    | c => if c.toNat < 128 && !isAsciiLetter c && !isAsciiDigit c then plain c else none

/-- The ASCII class called `name` between colons. -/
def asciiClass? (name : String) : Option CharSet :=
  match name with
  | "alnum" => some ⟨[48, 58, 65, 91, 97, 123]⟩
  | "alpha" => some ⟨[65, 91, 97, 123]⟩
  | "ascii" => some ⟨[0, 128]⟩
  | "blank" => some ⟨[9, 10, 32, 33]⟩
  | "cntrl" => some ⟨[0, 32, 127, 128]⟩
  | "digit" => some ⟨[48, 58]⟩
  | "graph" => some ⟨[33, 127]⟩
  | "lower" => some ⟨[97, 123]⟩
  | "print" => some ⟨[32, 127]⟩
  | "punct" => some ⟨[33, 48, 58, 65, 91, 97, 123, 127]⟩
  | "space" => some ⟨[9, 14, 32, 33]⟩
  | "upper" => some ⟨[65, 91]⟩
  | "word" => some (wordSet true)
  | "xdigit" => some ⟨[48, 58, 65, 71, 97, 103]⟩
  | _ => none

/-- A class between colons, after its bracket; nothing when the text reads otherwise. -/
def asciiClassAt? : List Char → Option (Rest SetTree)
  | ':' :: rest =>
    let (negated, rest) := match rest with
      | '^' :: rest => (true, rest)
      | rest => (false, rest)
    match rest.span (· != ':') with
    | (name, ':' :: ']' :: rest) =>
      (asciiClass? (String.ofList name)).map fun s => (.ascii negated s, rest)
    | _ => none
  | _ => none

/-- One item of a bracketed set, before a range is recognised. -/
def readItem (x : Bool) : List Char → Option (Rest Escaped)
  | '\\' :: rest => readEscape x rest
  | c :: rest => some (.char ⟨c, false⟩, rest)
  | [] => none

/-- One item or range of a bracketed set. -/
def readRange (x : Bool) (cs : List Char) : Option (Rest SetTree) := do
  let (item, rest) ← readItem x cs
  let rest := skip x rest
  let single : Option (Rest SetTree) :=
    match item with
    | .char c => some (.char c, rest)
    | .set s => some (s, rest)
    | .anchor _ => none
  match rest with
  | [] => none
  | '-' :: after =>
    if glance x after == some ']' || glance x after == some '-' then single
    else
      let (last, rest) ← readItem x (skip x after)
      match item, last with
      | .char a, .char b => if a.char ≤ b.char then some (.range a b, rest) else none
      | _, _ => none
  | _ => single

/-- The items of a set in one. -/
def SetTree.ofItems : List SetTree → SetTree
  | [] => .nothing
  | [item] => item
  | items => .union items

/-- The operation that waits for its second operand, and the first one. -/
abbrev Waiting := Option (SetOperation × SetTree)

/-- The set up to here, whose latest items are listed with the last one first. -/
def Waiting.finish (w : Waiting) (found : List SetTree) : SetTree :=
  match w with
  | none => .ofItems found.reverse
  | some (op, a) => .combine op a (.ofItems found.reverse)

/-- The start of a bracketed set, after its bracket: whether it is negated, and hyphens or a closing
bracket that stand for themselves. -/
def openSet (x : Bool) (cs : List Char) : Bool × List SetTree × List Char :=
  let (negated, cs) := match skip x cs with
    | '^' :: rest => (true, rest)
    | cs => (false, cs)
  match gather x (· == '-') false cs with
  | ([], ']' :: rest) => (negated, [.char ⟨']', false⟩], rest)
  | (hyphens, rest) => (negated, hyphens.map fun c => .char ⟨c, false⟩, rest)

/-- A bracketed set from its items on, up to its closing bracket. `found` lists the items read so far,
the last one first, and `depth` counts open brackets. -/
def readItems (x : Bool) :
    Nat → Nat → Waiting → List SetTree → List Char → Option (Rest SetTree)
  | 0, _, _, _, _ => none
  | fuel + 1, depth, waiting, found, cs =>
    match skip x cs with
    | [] => none
    | ']' :: rest => some (waiting.finish found, rest)
    | '&' :: '&' :: rest => readItems x fuel depth (some (.inter, waiting.finish found)) [] rest
    | '-' :: '-' :: rest => readItems x fuel depth (some (.diff, waiting.finish found)) [] rest
    | '~' :: '~' :: rest =>
      readItems x fuel depth (some (.symmDiff, waiting.finish found)) [] rest
    | '[' :: rest =>
      match asciiClassAt? rest with
      | some (item, rest) => readItems x fuel depth waiting (item :: found) rest
      | none =>
        if depthLimit ≤ depth then none
        else
          let (negated, items, rest) := openSet x rest
          match readItems x fuel (depth + 1) none items.reverse rest with
          | none => none
          | some (inner, rest) =>
            readItems x fuel depth waiting (.bracket negated inner :: found) rest
    | cs =>
      match readRange x cs with
      | none => none
      | some (item, rest) => readItems x fuel depth waiting (item :: found) rest

/-- A bracketed set, after its bracket. -/
def readSet (x : Bool) (cs : List Char) : Option (Rest SetTree) := do
  let (negated, items, rest) := openSet x cs
  let (inner, rest) ← readItems x (cs.length + 1) 1 none items.reverse rest
  pure (.bracket negated inner, rest)

/-- Decimal digits as a number of 32 bits. Blanks around them do not count, whatever the flags. -/
def readCount (x : Bool) (cs : List Char) : Option (Rest Nat) :=
  let (digits, rest) := gather x isAsciiDigit false (cs.dropWhile isBlank)
  if digits.isEmpty then none
  else
    let n := digits.foldl (fun n c => n * 10 + (c.toNat - '0'.toNat)) 0
    if n < 2 ^ 32 then some (n, skip x (rest.dropWhile isBlank)) else none

/-- The bounds of a counted repetition, after its brace. -/
def readBounds (x : Bool) (cs : List Char) : Option (Rest (Nat × Option Nat)) := do
  let (least, rest) ← readCount x (skip x cs)
  match rest with
  | '\x7d' :: rest => pure ((least, some least), skip x rest)
  | ',' :: rest =>
    match skip x rest with
    | '\x7d' :: rest => pure ((least, none), skip x rest)
    | rest =>
      let (most, rest) ← readCount x rest
      match rest with
      | '\x7d' :: rest => if least ≤ most then pure ((least, some most), skip x rest) else none
      | _ => none
  | _ => none

/-- The repetition mark that stands at the head of a text, if one does: its bounds. -/
def readMark? (x : Bool) : List Char → Option (Option (Rest (Nat × Option Nat)))
  | '*' :: rest => some (some ((0, none), rest))
  | '+' :: rest => some (some ((1, none), rest))
  | '?' :: rest => some (some ((0, some 1), rest))
  | '\x7b' :: rest => some (readBounds x rest)
  | _ => none

def flag? : Char → Option Flag
  | 'i' => some .ignoreCase
  | 'm' => some .multiLine
  | 's' => some .dotAll
  | 'x' => some .extended
  | 'U' => some .swapGreed
  | 'R' => some .returns
  | 'u' => some .unicode
  | _ => none

/-- Flags of a group up to `:` or `)`: what they turn, and whether a body follows. Every flag occurs
once, and a minus sign is followed by a flag. `seen` lists the signs so far, the last one first. -/
def readSwitches (seen : List Char) : List Char → Option (Rest (List Switch × Bool))
  | [] => none
  | c :: rest =>
    if c = ':' ∨ c = ')' then
      if seen.head? = some '-' ∨ (c = ')' ∧ seen = []) then none
      else some (([], c == ':'), rest)
    else if seen.contains c then none
    else if c = '-' then readSwitches (c :: seen) rest
    else
      match flag? c, readSwitches (c :: seen) rest with
      | some flag, some ((switches, body), rest) =>
        some ((⟨flag, !seen.contains '-'⟩ :: switches, body), rest)
      | _, _ => none

def isNameStart (c : Char) : Bool := c == '_' || CharGroup.alphabetic.contains c

def isNamePart (c : Char) : Bool :=
  isNameStart c || CharGroup.number.contains c || c == '.' || c == '[' || c == ']'

/-- The name of a group up to `>`. -/
def readName (cs : List Char) : Option (Rest String) :=
  match cs.span (· != '>') with
  | (first :: more, _ :: rest) =>
    if isNameStart first && more.all isNamePart then some (String.ofList (first :: more), rest)
    else none
  | _ => none

/-- The start of a group, after its parenthesis. -/
inductive Opening where
  /-- Flags that hold from here on. -/
  | turn (switches : List Switch)
  | capture (name : Option String)
  | group (switches : List Switch)

def readOpening (x : Bool) (cs : List Char) : Option (Rest Opening) := do
  match skip x cs with
  | '?' :: 'P' :: '<' :: rest =>
    let (name, rest) ← readName rest
    pure (.capture (some name), rest)
  | '?' :: '<' :: rest =>
    let (name, rest) ← readName rest
    pure (.capture (some name), rest)
  | '?' :: rest =>
    let ((switches, body), rest) ← readSwitches [] rest
    pure (if body then .group switches else .turn switches, rest)
  | rest => pure (.capture none, rest)

/-- Whether blanks are left out once switches are turned. -/
def extendedAfter (x : Bool) (switches : List Switch) : Bool :=
  switches.foldl (fun x s => if s.flag = .extended then s.on else x) x

/-- The groups that are remembered: how many there are, and the names of those that have one. -/
structure Captures where
  count : Nat := 0
  names : List String := []

/-- One group more, unless its name is taken. -/
def Captures.add? (g : Captures) (name : Option String) : Option Captures :=
  match name with
  | none => some { g with count := g.count + 1 }
  | some n => if g.names.contains n then none else some ⟨g.count + 1, n :: g.names⟩

/-- Parts in a row, the last one first, as one. -/
def Tree.ofParts : List Tree → Tree
  | [] => .empty
  | [t] => t
  | parts => .seq parts.reverse

/-- The parts of the last alternative and the alternatives before it as one, both with the last one
first. -/
def Tree.ofChoice (parts : List Tree) : List Tree → Tree
  | [] => .ofParts parts
  | branches => .alt (Tree.ofParts parts :: branches).reverse

/-- Whether a repetition mark may follow a part. -/
def Tree.isRepeatable : Tree → Bool
  | .empty | .turn _ => false
  | _ => true

/-- Whatever stands between the start or an open parenthesis and the end or the closing one.
`depth` counts open groups; `branches` are the finished alternatives and `parts` the parts of the
current one, the last first. -/
def readParts : Nat → Bool → Nat → Captures → List Tree → List Tree → List Char →
    Option (Rest (Tree × Captures))
  | 0, _, _, _, _, _, _ => none
  | fuel + 1, x, depth, captures, branches, parts, cs =>
    let again := fun part => readParts fuel x depth captures branches (part :: parts)
    match skip x cs with
    | [] => if depth = 0 then some ((.ofChoice parts branches, captures), []) else none
    | ')' :: rest =>
      if depth = 0 then none else some ((.ofChoice parts branches, captures), rest)
    | '|' :: rest => readParts fuel x depth captures (.ofParts parts :: branches) [] rest
    | '(' :: rest =>
      match readOpening x rest with
      | none => none
      | some (.turn switches, rest) =>
        readParts fuel (extendedAfter x switches) depth captures branches
          (.turn switches :: parts) rest
      | some (.group switches, rest) =>
        if depthLimit ≤ depth then none
        else
          match readParts fuel (extendedAfter x switches) (depth + 1) captures [] [] rest with
          | none => none
          | some ((inner, captures), rest) =>
            readParts fuel x depth captures branches (.group switches inner :: parts) rest
      | some (.capture name, rest) =>
        if depthLimit ≤ depth then none
        else
          match captures.add? name with
          | none => none
          | some known =>
            match readParts fuel x (depth + 1) known [] [] rest with
            | none => none
            | some ((inner, captures), rest) =>
              readParts fuel x depth captures branches (.capture known.count inner :: parts) rest
    | '[' :: rest =>
      match readSet x rest with
      | none => none
      | some (s, rest) => again (.set s) rest
    | '.' :: rest => again .dot rest
    | '^' :: rest => again (.anchor .lineStart) rest
    | '$' :: rest => again (.anchor .lineStop) rest
    | '\\' :: rest =>
      match readEscape x rest with
      | none => none
      | some (.char c, rest) => again (.char c) rest
      | some (.anchor a, rest) => again (.anchor a) rest
      | some (.set s, rest) => again (.set s) rest
    | c :: rest =>
      match readMark? x (c :: rest) with
      | none => again (.char ⟨c, false⟩) rest
      | some none => none
      | some (some ((least, most), rest)) =>
        match parts with
        | [] => none
        | last :: parts =>
          if last.isRepeatable then
            let (greedy, rest) := match rest with
              | '?' :: rest => (false, rest)
              | rest => (true, rest)
            readParts fuel x depth captures branches
              (.repeated least most greedy last :: parts) rest
          else none

/-- The tree of a written pattern. -/
def Tree.read? (pattern : String) : Option Tree := do
  let cs := pattern.toList
  let ((tree, _), _) ← readParts (cs.length + 1) false 0 {} [] [] cs
  if tree.depth ≤ depthLimit then some tree else none

end QueryPushdown.Pattern
