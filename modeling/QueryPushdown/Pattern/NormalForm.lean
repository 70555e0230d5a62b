import QueryPushdown.Pattern.Regex

/-!
# Building expressions in normal form

Sequences and choices are kept flat, neighbouring texts are joined, a choice of characters becomes a
set, and what all alternatives start with stands before the choice. The builders keep the matches of
an expression; the normal form decides how large the automaton for it grows.
-/

namespace QueryPushdown.Pattern.Regex

/-- The characters of a set, as a text if there is just one. -/
def ofSet (s : CharSet) : Regex :=
  match s.only? with
  | some c => text [c]
  | none => if s.isEmpty then never else set s

/-- The parts of a sequence. -/
def parts : Regex → List Regex
  | empty => []
  | seq a b => a :: b.parts
  | r => [r]

def ofParts : List Regex → Regex
  | [] => empty
  | [r] => r
  | r :: rs => seq r (ofParts rs)

/-- Joins texts that follow each other. -/
def joinTexts : List Regex → List Regex
  | [] => []
  | text cs :: rest =>
    match joinTexts rest with
    | text ds :: rest => text (cs ++ ds) :: rest
    | rest => text cs :: rest
  | r :: rest => r :: joinTexts rest

/-- Expressions one after the other. -/
def sequence (rs : List Regex) : Regex := ofParts (joinTexts (rs.flatMap parts))

/-- The alternatives of a choice. -/
def branches : Regex → List Regex
  | alt a b => a :: b.branches
  | r => [r]

def ofBranches : List Regex → Regex
  | [] => never
  | [r] => r
  | r :: rs => alt r (ofBranches rs)

def asChar? : Regex → Option Nat
  | text [c] => some c.toNat
  | _ => none

def asSet? : Regex → Option CharSet
  | set s => some s
  | _ => none

def isSeq : Regex → Bool
  | seq _ _ => true
  | _ => false

/-- The longest start that two lists share. -/
def commonStart : List Regex → List Regex → List Regex
  | a :: as, b :: bs => if a = b then a :: commonStart as bs else []
  | _, _ => []

/-- The parts that all of several sequences start with. -/
def sharedParts : List Regex → List Regex
  | [] => []
  | r :: rs =>
    if (r :: rs).all isSeq then rs.foldl (fun start r => commonStart start r.parts) r.parts else []

/-- One of several expressions. `fuel` bounds how often a shared start is taken out. -/
def choiceUpTo (fuel : Nat) (rs : List Regex) : Regex :=
  let rs := rs.flatMap branches
  if rs.length ≤ 1 then ofBranches rs
  else
    match rs.mapM asChar?, rs.mapM asSet? with
    | some codes, _ => ofSet (.ofCodes codes)
    | none, some sets => ofSet (.unions sets)
    | none, none =>
      match fuel, sharedParts rs with
      | fuel + 1, start :: more =>
        let rests := rs.map fun r => sequence (r.parts.drop (more.length + 1))
        sequence (start :: more ++ [choiceUpTo fuel rests])
      | _, _ => ofBranches rs

def choice (rs : List Regex) : Regex := choiceUpTo rs.length rs

/-- The length of the shortest match, if there is any. -/
def minLength : Regex → Option Nat
  | empty => some 0
  | text cs => some cs.length
  | set s => if s.isEmpty then none else some 1
  | look _ => some 0
  | repeated least _ _ a => a.minLength.map (· * least)
  | group _ a => a.minLength
  | seq a b => do pure ((← a.minLength) + (← b.minLength))
  | alt a b => do pure (min (← a.minLength) (← b.minLength))

/-- The length of the longest match, if there is one. -/
def maxLength : Regex → Option Nat
  | empty => some 0
  | text cs => some cs.length
  | set s => if s.isEmpty then none else some 1
  | look _ => some 0
  | repeated _ most _ a => do pure ((← most) * (← a.maxLength))
  | group _ a => a.maxLength
  | seq a b => do pure ((← a.maxLength) + (← b.maxLength))
  | alt a b => do pure (max (← a.maxLength) (← b.maxLength))

/-- A repetition. More than one match of the empty text says no more than one. -/
def repetition (least : Nat) (most : Option Nat) (greedy : Bool) (a : Regex) : Regex :=
  let (least, most) :=
    if a.maxLength = some 0 then (min least 1, some (min (most.getD 1) 1)) else (least, most)
  if least = 0 ∧ most = some 0 then empty
  else if least = 1 ∧ most = some 1 then a
  else repeated least most greedy a

/-- Whether every match starts where the text starts. -/
def startsAtStart : Regex → Bool
  | look .start => true
  | repeated least _ _ a => least != 0 && a.startsAtStart
  | group _ a => a.startsAtStart
  | seq a b => a.startsAtStart || (a.maxLength == some 0 && b.startsAtStart)
  | alt a b => a.startsAtStart && b.startsAtStart
  | _ => false

/-- Whether every match stops where the text stops. -/
def stopsAtStop : Regex → Bool
  | look .stop => true
  | repeated least _ _ a => least != 0 && a.stopsAtStop
  | group _ a => a.stopsAtStop
  | seq a b => b.stopsAtStop || (b.maxLength == some 0 && a.stopsAtStop)
  | alt a b => a.stopsAtStop && b.stopsAtStop
  | _ => false

end QueryPushdown.Pattern.Regex
