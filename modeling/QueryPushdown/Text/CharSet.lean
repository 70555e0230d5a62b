/-!
# Sets of characters by their edges

A set is written as the increasing list of code points at which membership changes, the first
one being the least member. A character belongs to the set when an odd number of edges are at
or below it, so a run `a … b` contributes the two edges `a` and `b + 1`. Two sets are combined by
one pass over the edges of both.
-/

namespace QueryPushdown

/-- A set of characters, as the code points where membership changes. -/
structure CharSet where
  edges : List Nat
  deriving DecidableEq, Repr

namespace CharSet

/-- Whether the code point `c` is in the set. -/
def containsCode (s : CharSet) (c : Nat) : Bool := s.edges.countP (· ≤ c) % 2 == 1

def contains (s : CharSet) (c : Char) : Bool := s.containsCode c.toNat

@[simp] theorem contains_nil (c : Char) : (CharSet.mk []).contains c = false := rfl

def empty : CharSet := ⟨[]⟩

/-- The code points from `first` to `last`. -/
def run (first last : Nat) : CharSet := ⟨[first, last + 1]⟩

def single (c : Char) : CharSet := run c.toNat c.toNat

/-- The edges of a set that holds what `f` makes of membership in two others. `a` and `b` tell the
membership below the edges that are left. -/
def mergeEdges (f : Bool → Bool → Bool) (a b : Bool) : List Nat → List Nat → List Nat
  | [], [] => []
  | x :: xs, [] =>
    let rest := mergeEdges f (!a) b xs []
    if f (!a) b == f a b then rest else x :: rest
  | [], y :: ys =>
    let rest := mergeEdges f a (!b) [] ys
    if f a (!b) == f a b then rest else y :: rest
  | x :: xs, y :: ys =>
    if x < y then
      let rest := mergeEdges f (!a) b xs (y :: ys)
      if f (!a) b == f a b then rest else x :: rest
    else if y < x then
      let rest := mergeEdges f a (!b) (x :: xs) ys
      if f a (!b) == f a b then rest else y :: rest
    else
      let rest := mergeEdges f (!a) (!b) xs ys
      if f (!a) (!b) == f a b then rest else x :: rest
termination_by xs ys => xs.length + ys.length

def union (s t : CharSet) : CharSet := ⟨mergeEdges (· || ·) false false s.edges t.edges⟩

def inter (s t : CharSet) : CharSet := ⟨mergeEdges (· && ·) false false s.edges t.edges⟩

def diff (s t : CharSet) : CharSet := ⟨mergeEdges (· && !·) false false s.edges t.edges⟩

def symmDiff (s t : CharSet) : CharSet := ⟨mergeEdges (· != ·) false false s.edges t.edges⟩

/-- The code points outside a set. -/
def compl (s : CharSet) : CharSet :=
  match s.edges with
  | 0 :: rest => ⟨rest⟩
  | edges => ⟨0 :: edges⟩

def unions (sets : List CharSet) : CharSet := sets.foldl union empty

/-- Every code point. -/
def all : CharSet := ⟨[0]⟩

/-- The edges of a set whose members are listed in increasing order. -/
def edgesOfSorted : List Nat → List Nat
  | [] => []
  | c :: cs =>
    match edgesOfSorted cs with
    | e :: es => if e = c then e :: es else if e = c + 1 then c :: es else c :: (c + 1) :: e :: es
    | [] => [c, c + 1]

def ofCodes (codes : List Nat) : CharSet := ⟨edgesOfSorted (codes.mergeSort (· ≤ ·))⟩

/-- The greatest code point. -/
def lastCode : Nat := 0x10ffff

/-- The runs between edges, by their first and last code points. -/
def runsOf : List Nat → List (Nat × Nat)
  | [] => []
  | [first] => if first ≤ lastCode then [(first, lastCode)] else []
  | first :: stop :: rest =>
    if first ≤ lastCode then (first, min (stop - 1) lastCode) :: runsOf rest else []

/-- The runs of a set in increasing order, by their first and last members. -/
def runs (s : CharSet) : List (Nat × Nat) := runsOf s.edges

def isEmpty (s : CharSet) : Bool := s.runs.isEmpty

/-- Whether all members are ASCII characters. -/
def isAscii (s : CharSet) : Bool := s.runs.all (·.2 < 128)

/-- The only member of a set, if it has just one. -/
def only? (s : CharSet) : Option Char :=
  match s.runs with
  | [(first, last)] => if first = last then some (Char.ofNat first) else none
  | _ => none

end CharSet

/-- A set of characters and the names it goes by. -/
structure NamedCharSet where
  names : List String
  set : CharSet

end QueryPushdown
