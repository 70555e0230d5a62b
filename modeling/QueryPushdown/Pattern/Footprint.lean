import Std.Data.HashMap
import QueryPushdown.Pattern.NormalForm
import QueryPushdown.Text.Utf8

/-!
# How large the automaton of an expression grows

An expression is turned into two automata over bytes, one that reads texts forwards and one that
reads them backwards. `Footprint` counts their states and what the states hold. A state takes 32
bytes, a way out of a fork 4 bytes more, and a run of bytes that a state reads 8 more. An expression
fits if neither automaton takes more than ten mebibytes.

A set beyond ASCII becomes a network of byte runs in which equal ends are shared. They are found
again in a table with few places, each of which holds what was put there last, so an end can be
built a second time after another one took its place.
-/

namespace QueryPushdown.Pattern

/-- What an automaton takes so far: its states, and the bytes these hold beyond their own size. -/
structure Footprint where
  states : Nat := 0
  held : Nat := 0

namespace Footprint

def bytes (f : Footprint) : Nat := 32 * f.states + f.held

def limit : Nat := 10 * 2 ^ 20

/-- The footprint with further states, as long as it is within the limit. -/
def add? (states held : Nat) (f : Footprint) : Option Footprint :=
  let f : Footprint := ⟨f.states + states, f.held + held⟩
  if f.bytes ≤ limit then some f else none

/-- A step taken `n` times. -/
def times? (step : Footprint → Option Footprint) : Nat → Footprint → Option Footprint
  | 0, f => some f
  | n + 1, f =>
    match step f with
    | none => none
    | some f => times? step n f

end Footprint

/-- A run of bytes that leads from or to a state. -/
structure ByteEdge where
  first : Nat
  last : Nat
  state : Nat
  deriving DecidableEq

/-- Mixes a number into a hash. -/
def mixHash (h : UInt64) (n : Nat) : UInt64 := (h ^^^ n.toUInt64) * 1099511628211

/-- The hash of nothing. -/
def emptyHash : UInt64 := 14695981039346656037

/-- States that have been built for a key, each at the place that the hash of the key gives it. -/
structure StateTable (κ : Type) where
  places : Nat
  slots : Std.HashMap Nat (κ × Nat)

namespace StateTable

variable {κ : Type} [DecidableEq κ]

def place (t : StateTable κ) (hash : UInt64) : Nat := hash.toNat % t.places

def find? (t : StateTable κ) (place : Nat) (key : κ) : Option Nat :=
  match t.slots[place]? with
  | some (known, state) => if known = key then some state else none
  | none => none

def put (t : StateTable κ) (place : Nat) (key : κ) (state : Nat) : StateTable κ :=
  { t with slots := t.slots.insert place (key, state) }

end StateTable

/-- An automaton in the making, with a table of the states that can be shared. -/
structure Draft (κ : Type) where
  footprint : Footprint
  table : StateTable κ

/-- The state for a key: a known one, or a new one that holds `held` bytes. -/
def Draft.state {κ : Type} [DecidableEq κ] (key : κ) (hash : UInt64) (held : Nat) (d : Draft κ) :
    Nat × Draft κ :=
  let place := d.table.place hash
  match d.table.find? place key with
  | some state => (state, d)
  | none =>
    let state := d.footprint.states
    (state, ⟨⟨state + 1, d.footprint.held + held⟩, d.table.put place key state⟩)

/-- A state that is still being built: the edges to finished states, and the run of bytes to the
next state in the making. -/
structure OpenState where
  edges : List ByteEdge
  run : Option (Nat × Nat)

/-- The edges of a state once its open run leads to `next`. -/
def OpenState.close (o : OpenState) (next : Nat) : List ByteEdge :=
  match o.run with
  | none => o.edges
  | some (first, last) => o.edges ++ [⟨first, last, next⟩]

def edgesHash (edges : List ByteEdge) : UInt64 :=
  edges.foldl (fun h e => mixHash (mixHash (mixHash h e.first) e.last) e.state) emptyHash

/-- Builds states in the making, each of which leads to the next one and the last one to `target`.
Gives the first of them. -/
def finishStates (target : Nat) : List OpenState → Draft (List ByteEdge) →
    Nat × Draft (List ByteEdge)
  | [], d => (target, d)
  | o :: rest, d =>
    let (next, d) := finishStates target rest d
    let edges := o.close next
    d.state edges (edgesHash edges) (8 * edges.length)

/-- Adds a piece behind all earlier ones: what it starts with in common with the last one stays in
the making, and the rest of the last one is built. -/
def addPiece (target : Nat) : List OpenState → List (Nat × Nat) → Draft (List ByteEdge) →
    List OpenState × Draft (List ByteEdge)
  | o :: rest, run :: runs, d =>
    if o.run = some run then
      let (rest, d) := addPiece target rest runs d
      (o :: rest, d)
    else
      let (next, d) := finishStates target rest d
      (⟨o.close next, some run⟩ :: runs.map fun run => ⟨[], some run⟩, d)
  | states, _, d => (states, d)

/-- The pieces of all runs of a set. -/
def setPieces (s : CharSet) : List (List (Nat × Nat)) :=
  s.runs.flatMap fun (first, last) => Utf8.pieces first last

/-- A set, read forwards. -/
def laySetForwards (s : CharSet) (f : Footprint) : Footprint :=
  let target := f.states
  let start : List OpenState × Draft (List ByteEdge) :=
    ([⟨[], none⟩], ⟨⟨target + 1, f.held⟩, ⟨10000, ∅⟩⟩)
  let (states, d) := (setPieces s).foldl (fun (states, d) piece => addPiece target states piece d)
    start
  (finishStates target states d).2.footprint

/-- A piece, read backwards: its last byte comes first, so each byte leads on to the one before. -/
def layPiece (stop : Nat) (piece : List (Nat × Nat)) (d : Draft ByteEdge) : Draft ByteEdge :=
  (piece.foldl (fun (state, d) (first, last) =>
    let key : ByteEdge := ⟨first, last, state⟩
    d.state key (mixHash (mixHash (mixHash emptyHash state) first) last) 0) (stop, d)).2

/-- A set, read backwards: a fork to the last bytes of its pieces. -/
def laySetBackwards (s : CharSet) (f : Footprint) : Footprint :=
  let pieces := setPieces s
  let d : Draft ByteEdge := ⟨⟨f.states + 2, f.held + 4 * pieces.length⟩, ⟨1000, ∅⟩⟩
  (pieces.foldl (fun d piece => layPiece (f.states + 1) piece d) d).footprint

/-- Texts that share the state where they stand, cut at each one that ends there. -/
def cutAtEnds : List (List Nat) → List (List (List Nat))
  | [] => [[]]
  | [] :: rest => [] :: cutAtEnds rest
  | t :: rest =>
    match cutAtEnds rest with
    | head :: tail => (t :: head) :: tail
    | [] => [[t]]

/-- Texts of which those that end at once before any other one are one. -/
def joinFirstEnds : List (List Nat) → List (List Nat)
  | [] :: rest => [] :: rest.dropWhile List.isEmpty
  | texts => texts

/-- What follows each first byte of texts, the bytes in the order in which they turn up. -/
def byFirst (texts : List (List Nat)) : List (Nat × List (List Nat)) :=
  let add := fun (groups : List (Nat × List (List Nat))) (b : Nat) (t : List Nat) =>
    if groups.any (·.1 == b) then groups.map fun g => if g.1 == b then (b, t :: g.2) else g
    else (b, [t]) :: groups
  texts.foldr (fun t groups =>
    match t with
    | [] => groups
    | b :: t => add groups b t) []

/-- The states for a choice of texts that share their starts: for each place where texts part or end,
a fork to one state for all that may follow before a text ends. `fuel` bounds the length of the
texts. -/
def layTexts : Nat → List (List Nat) → Footprint → Footprint
  | 0, _, f => f
  | fuel + 1, texts, f =>
    let chunks := (cutAtEnds (joinFirstEnds texts)).map byFirst
    let f := chunks.foldl (fun f chunk =>
      chunk.foldl (fun f (_, rests) =>
        if rests.all List.isEmpty then f else layTexts fuel rests f) f) f
    let f := chunks.foldl (fun f chunk =>
      match chunk.length with
      | 0 => f
      | 1 => ⟨f.states + 1, f.held + 4⟩
      | n => ⟨f.states + 1, f.held + 4 + 8 * n⟩) f
    ⟨f.states + 1, f.held + 4 * (chunks.length - 1)⟩

/-- How an expression takes part in a choice: not at all, as its second alternative of so many, or
as a later one. The fork stands behind the second alternative. -/
inductive Turn where
  | alone
  | second (count : Nat)
  | later

/-- The fork of a choice, where it is due. -/
def Turn.fork? : Turn → Footprint → Option Footprint
  | .second count, f => f.add? 2 (4 * count)
  | _, f => some f

namespace Regex

def asText? : Regex → Option (List Char)
  | text cs => some cs
  | _ => none

/-- The bytes of a text in the order in which they are read. -/
def textBytes (backwards : Bool) (cs : List Char) : List Nat :=
  let bytes := cs.flatMap fun c => Utf8.encode c.toNat
  if backwards then bytes.reverse else bytes

/-- The footprint with the states of an expression. Only an automaton that reads forwards keeps
track of groups. -/
def lay? (backwards : Bool) (r : Regex) (turn : Turn) (f : Footprint) : Option Footprint :=
  match r with
  | empty => f.add? 1 0 >>= turn.fork?
  | text cs => f.add? (max 1 (Utf8.length cs)) 0 >>= turn.fork?
  | set s =>
    (if s.isAscii then f.add? 2 (8 * s.runs.length)
    else (if backwards then laySetBackwards s f else laySetForwards s f).add? 0 0) >>= turn.fork?
  | look _ => f.add? 1 0 >>= turn.fork?
  | group _ a =>
    (if backwards then a.lay? backwards .alone f
    else f.add? 1 0 >>= a.lay? backwards .alone >>= Footprint.add? 1 0) >>= turn.fork?
  | seq a b =>
    (if backwards then b.lay? backwards .alone f >>= a.lay? backwards .alone
    else a.lay? backwards .alone f >>= b.lay? backwards .alone) >>= turn.fork?
  | alt a b =>
    match turn with
    | .alone =>
      match (a :: b.branches).mapM asText? with
      | some texts =>
        let texts := texts.map (textBytes backwards)
        let longest := texts.foldl (fun n t => max n t.length) 0
        (layTexts (longest + 1) texts ⟨f.states + 1, f.held⟩).add? 0 0
      | none =>
        a.lay? backwards .alone f >>= b.lay? backwards (.second (b.branches.length + 1))
    | turn => a.lay? backwards .alone f >>= turn.fork? >>= b.lay? backwards .later
  | repeated least most _ a =>
    let once := a.lay? backwards .alone
    (match least, most with
    | 0, some 1 => f.add? 1 8 >>= once >>= Footprint.add? 1 0
    | 0, none =>
      if a.minLength.getD 0 = 0 then once f >>= Footprint.add? 3 16 else f.add? 1 8 >>= once
    | least, none => Footprint.times? once least f >>= Footprint.add? 1 8
    | least, some most =>
      if least = most then Footprint.times? once least f
      else
        (if least = 0 then f.add? 1 0 else Footprint.times? once least f) >>= Footprint.add? 1 0 >>=
          Footprint.times? (fun f => f.add? 1 8 >>= once) (most - least)) >>= turn.fork?

/-- The automaton that reads forwards. It can start everywhere in a text unless all matches start at
its start. -/
def forwards? (r : Regex) : Option Footprint :=
  (if r.startsAtStart then Footprint.add? 1 0 {} else Footprint.add? 3 16 {}) >>=
    Footprint.add? 1 0 >>= r.lay? false .alone >>= Footprint.add? 2 0

/-- The automaton that reads backwards. -/
def backwards? (r : Regex) : Option Footprint :=
  (if r.stopsAtStop then Footprint.add? 1 0 {} else Footprint.add? 3 16 {}) >>=
    r.lay? true .alone >>= Footprint.add? 1 0

/-- Whether the automata of an expression are within the limit. -/
def fits (r : Regex) : Bool := r.forwards?.isSome && r.backwards?.isSome

end Regex

end QueryPushdown.Pattern
