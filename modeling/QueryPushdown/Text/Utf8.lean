/-!
# Runs of characters as bytes

A character is one to four bytes of UTF-8. A run of characters is cut so that the bytes at each
position of a piece form a run of their own: `Utf8.pieces` lists these pieces in the order of the
characters. No piece holds the halves of surrogate pairs.
-/

namespace QueryPushdown.Utf8

/-- The bytes of a code point. -/
def encode (c : Nat) : List Nat :=
  if c < 0x80 then [c]
  else if c < 0x800 then [0xc0 + c / 64, 0x80 + c % 64]
  else if c < 0x10000 then [0xe0 + c / 4096, 0x80 + c / 64 % 64, 0x80 + c % 64]
  else [0xf0 + c / 262144, 0x80 + c / 4096 % 64, 0x80 + c / 64 % 64, 0x80 + c % 64]

/-- The number of bytes of a text. -/
def length (cs : List Char) : Nat := cs.foldl (fun n c => n + (encode c.toNat).length) 0

/-- Where to cut a run so that its pieces have bytes of one number: below the first code point of a
greater length. -/
def lengthCut? (first last : Nat) : Option Nat :=
  [0x80, 0x800, 0x10000].find? fun c => first < c && c ≤ last

/-- Where to cut a run whose first and last member differ in front of the last `n` bytes, so that the
pieces have all values in these bytes. -/
def blockCut? (first last : Nat) : List Nat → Option Nat
  | [] => none
  | block :: blocks =>
    if first / block = last / block then blockCut? first last blocks
    else if first % block ≠ 0 then some ((first / block + 1) * block)
    else if last % block ≠ block - 1 then some (last / block * block)
    else blockCut? first last blocks

/-- The pieces of the run from `first` to `last`: the runs of their bytes. `fuel` bounds the cuts
within one another. -/
def piecesUpTo (fuel first last : Nat) : List (List (Nat × Nat)) :=
  match fuel with
  | 0 => []
  | fuel + 1 =>
    if last < first then []
    else if first < 0xe000 ∧ 0xd7ff < last then
      piecesUpTo fuel first 0xd7ff ++ piecesUpTo fuel 0xe000 last
    else
      match (lengthCut? first last).orElse fun _ =>
          if last < 0x80 then none else blockCut? first last [64, 4096, 262144] with
      | some cut => piecesUpTo fuel first (cut - 1) ++ piecesUpTo fuel cut last
      | none => [(encode first).zip (encode last)]

def pieces (first last : Nat) : List (List (Nat × Nat)) := piecesUpTo 32 first last

end QueryPushdown.Utf8
