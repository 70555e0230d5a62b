import Mathlib.Data.List.Basic
import QueryPushdown.Pattern.Anchored
import QueryPushdown.Pattern.Search

/-!
# Anchored patterns are comparisons

A pattern of plain characters behind a caret is read as these characters. Searching for it compares
the start of the text, and the whole of it if a dollar sign follows.
-/

namespace QueryPushdown.Pattern

section Reading

variable {fuel : Nat} {captures : Captures} {branches parts : List Tree}

theorem skip_false (cs : List Char) : skip false cs = cs := by
  cases cs <;> simp [skip, gather]

theorem readMark?_plain {x : Bool} {c : Char} (rest : List Char) (hc : c ∉ Anchored.special) :
    readMark? x (c :: rest) = none := by
  unfold readMark?
  split <;> simp_all [Anchored.special]

theorem readParts_char {c : Char} (rest : List Char) (hc : c ∉ Anchored.special) :
    readParts (fuel + 1) false 0 captures branches parts (c :: rest) =
      readParts fuel false 0 captures branches (.char ⟨c, false⟩ :: parts) rest := by
  have hmark := readMark?_plain (x := false) rest hc
  rw [readParts, skip_false]
  split <;> simp_all [Anchored.special]

/-- Characters that stand for themselves are read one by one. -/
theorem readParts_chars {cs : List Char} (rest : List Char)
    (hcs : ∀ c ∈ cs, c ∉ Anchored.special) :
    readParts (fuel + cs.length) false 0 captures branches parts (cs ++ rest) =
      readParts fuel false 0 captures branches
        ((cs.map fun c => .char ⟨c, false⟩).reverse ++ parts) rest := by
  induction cs generalizing parts with
  | nil => rfl
  | cons c cs ih =>
    have hc := hcs c List.mem_cons_self
    rw [List.length_cons, ← Nat.add_assoc, List.cons_append, readParts_char _ hc,
      ih fun d hd => hcs d (List.mem_cons_of_mem _ hd)]
    simp

theorem readParts_anchor {c : Char} {a : Anchor} (rest : List Char)
    (h : (c = '^' ∧ a = .lineStart) ∨ (c = '$' ∧ a = .lineStop)) :
    readParts (fuel + 1) false 0 captures branches parts (c :: rest) =
      readParts fuel false 0 captures branches (.anchor a :: parts) rest := by
  rcases h with ⟨rfl, rfl⟩ | ⟨rfl, rfl⟩ <;> rw [readParts, skip_false] <;> rfl

theorem readParts_nil : readParts (fuel + 1) false 0 captures branches parts [] =
    some ((.ofChoice parts branches, captures), []) := by
  rw [readParts, skip_false, if_pos rfl]

end Reading

namespace Anchored

/-- The plain text of a pattern. -/
def plain : Anchored → List Char
  | exact text | leading text => text.toList

/-- What follows the plain text in the written form. -/
def closing : Anchored → List Char
  | exact _ => ['$']
  | leading _ => []

theorem toList_of_ofText? {pattern : String} {a : Anchored} (h : ofText? pattern = some a) :
    pattern.toList = '^' :: (a.plain ++ a.closing) ∧ ∀ c ∈ a.plain, c ∉ special := by
  have hplain : ∀ {cs : List Char}, cs.any special.contains ≠ true → ∀ c ∈ cs, c ∉ special := by
    intro cs hcs c hc hs
    exact hcs (List.any_eq_true.2 ⟨c, hc, by simpa using hs⟩)
  unfold ofText? at h
  split at h
  · rename_i body hbody
    rw [hbody]
    by_cases hlast : body.getLast? = some '$'
    · simp only [ofBody?, hlast, if_true] at h
      split at h
      · cases h
      · rename_i hany
        cases h
        simp only [plain, closing, String.toList_ofList]
        refine ⟨?_, hplain hany⟩
        congr 1
        exact (List.dropLast_append_getLast? _ hlast).symm
    · simp only [ofBody?, hlast, if_false] at h
      split at h
      · cases h
      · rename_i hany
        cases h
        simp only [plain, closing, String.toList_ofList, List.append_nil]
        exact ⟨trivial, hplain hany⟩
  · cases h

/-- The parts that an anchored pattern is read as. -/
def parts (a : Anchored) : List Tree :=
  .anchor .lineStart :: (a.plain.map (fun c => .char ⟨c, false⟩) ++
    a.closing.map fun _ => .anchor .lineStop)

theorem read?_of_ofText? {pattern : String} {a : Anchored} (h : ofText? pattern = some a)
    {tree : Tree} (ht : Tree.read? pattern = some tree) : tree = .ofParts a.parts.reverse := by
  obtain ⟨hlist, hplain⟩ := toList_of_ofText? h
  have hread : readParts (pattern.toList.length + 1) false 0 {} [] [] pattern.toList =
      some ((.ofParts a.parts.reverse, {}), []) := by
    rw [hlist]
    cases a with
    | exact text =>
      rw [show ('^' :: (plain (exact text) ++ closing (exact text))).length + 1 =
          1 + 1 + (plain (exact text)).length + 1 by simp [closing]; omega,
        readParts_anchor _ (.inl ⟨rfl, rfl⟩), readParts_chars _ hplain,
        show closing (exact text) = ['$'] from rfl, readParts_anchor _ (.inr ⟨rfl, rfl⟩),
        readParts_nil]
      simp [parts, closing, Tree.ofChoice]
    | leading text =>
      rw [show ('^' :: (plain (leading text) ++ closing (leading text))).length + 1 =
          1 + (plain (leading text)).length + 1 by simp [closing]; omega,
        readParts_anchor _ (.inl ⟨rfl, rfl⟩), readParts_chars _ hplain,
        show closing (leading text) = [] from rfl, readParts_nil]
      simp [parts, closing, Tree.ofChoice]
  unfold Tree.read? at ht
  simp only [hread, bind, Option.bind] at ht
  split at ht
  · exact (Option.some.inj ht).symm
  · cases ht

end Anchored

section Meaning

theorem toNat_le_lastCode (c : Char) : c.toNat ≤ CharSet.lastCode := by
  have h := c.valid
  unfold UInt32.isValidChar Nat.isValidChar at h
  change c.val.toNat ≤ 0x10ffff
  omega

theorem ofSet_single (c : Char) : Regex.ofSet (.single c) = .text [c] := by
  have hle := toNat_le_lastCode c
  have hruns : (CharSet.single c).runs = [(c.toNat, c.toNat)] := by
    simp [CharSet.single, CharSet.run, CharSet.runs, CharSet.runsOf, hle]
  have honly : (CharSet.single c).only? = some c := by
    simp [CharSet.only?, hruns]
  rw [Regex.ofSet, honly]

theorem meanings?_chars {flags : Flags} (hfold : flags.ignoreCase = false)
    (cs : List Char) {rest : List Tree} {rs : List Regex} {after : Flags}
    (h : Tree.meanings? flags rest = some (rs, after)) :
    Tree.meanings? flags (cs.map (fun c => .char ⟨c, false⟩) ++ rest) =
      some (cs.map (fun c => .text [c]) ++ rs, after) := by
  induction cs with
  | nil => exact h
  | cons c cs ih =>
    have hlit : flags.literal? ⟨c, false⟩ = some (.text [c]) := by
      simp [Flags.literal?, Flags.fold, hfold, ofSet_single]
    simp [Tree.meanings?, Tree.meaning?, hlit, ih]

namespace Regex

theorem joinTexts_chars (cs : List Char) {rest : List Regex}
    (h : ∀ ds more, joinTexts rest ≠ text ds :: more) :
    joinTexts (cs.map (fun c => text [c]) ++ rest) =
      (if cs = [] then [] else [text cs]) ++ joinTexts rest := by
  induction cs with
  | nil => rfl
  | cons c cs ih =>
    rw [List.map_cons, List.cons_append, joinTexts, ih]
    cases cs with
    | nil =>
      simp
    | cons d ds => simp

/-- What is left to match of an anchored pattern after its caret: plain text, and the end of the
text if `ends` is set. -/
def remaining (ends : Bool) (cs : List Char) : Regex :=
  before (if cs = [] then empty else text cs) (if ends then look .stop else empty)

/-- What an anchored pattern stands for. -/
def anchored (ends : Bool) (cs : List Char) : Regex := before (look .start) (remaining ends cs)

end Regex

namespace Anchored

/-- Whether the whole text is asked for. -/
def ends : Anchored → Bool
  | exact _ => true
  | leading _ => false

/-- The expressions behind the caret and the plain text. -/
def closingLooks (ends : Bool) : List Regex := if ends then [.look .stop] else []

theorem sequence_anchored (ends : Bool) {cs : List Char} (h : ends = true ∨ cs ≠ []) :
    Regex.sequence (.look .start :: (cs.map (fun c => .text [c]) ++ closingLooks ends)) =
      .anchored ends cs := by
  have hchars : (cs.map fun c => Regex.text [c]).flatMap Regex.parts =
      cs.map fun c => Regex.text [c] := by
    rw [List.flatMap_map]
    exact (List.map_eq_flatMap).symm
  have hclosing : (closingLooks ends).flatMap Regex.parts = closingLooks ends ∧
      Regex.joinTexts (closingLooks ends) = closingLooks ends := by
    cases ends <;> exact ⟨rfl, rfl⟩
  have hjoin : Regex.joinTexts (cs.map (fun c => .text [c]) ++ closingLooks ends) =
      (if cs = [] then [] else [.text cs]) ++ Regex.joinTexts (closingLooks ends) :=
    Regex.joinTexts_chars cs (by rw [hclosing.2]; cases ends <;> simp [closingLooks])
  have hparts : (Regex.look .start :: (cs.map (fun c => .text [c]) ++ closingLooks ends)).flatMap
      Regex.parts = .look .start :: (cs.map (fun c => .text [c]) ++ closingLooks ends) := by
    rw [List.flatMap_cons, List.flatMap_append, hchars, hclosing.1]
    rfl
  have htexts : Regex.joinTexts (.look .start :: (cs.map (fun c => .text [c]) ++
      closingLooks ends)) = .look .start :: ((if cs = [] then [] else [.text cs]) ++
      closingLooks ends) := by
    rw [Regex.joinTexts, hjoin, hclosing.2]
    simp
  rw [Regex.sequence, hparts, htexts]
  cases ends with
  | true => cases cs <;> rfl
  | false =>
    cases cs with
    | nil => simp at h
    | cons c cs => rfl

theorem meaning?_parts (a : Anchored) :
    ∃ after, (Tree.ofParts a.parts.reverse).meaning? {} = some (.anchored a.ends a.plain, after) := by
  have hclosing : Tree.meanings? {} (a.closing.map fun _ => .anchor .lineStop) =
      some (closingLooks a.ends, {}) := by
    cases a <;> rfl
  have hparts : Tree.meanings? {} a.parts =
      some (.look .start :: (a.plain.map (fun c => .text [c]) ++ closingLooks a.ends), {}) := by
    have hrest := meanings?_chars (rfl : ({} : Flags).ignoreCase = false) a.plain hclosing
    simp only [parts, Tree.meanings?, Tree.meaning?, hrest, Flags.look, bind, Option.bind, pure]
    rfl
  by_cases h : a.ends = true ∨ a.plain ≠ []
  · have hof : Tree.ofParts a.parts.reverse = .seq a.parts := by
      have hlen : 2 ≤ a.parts.reverse.length := by
        cases a with
        | exact text => simp [parts, closing]
        | leading text =>
          have hne : (leading text).plain ≠ [] := by simpa [ends] using h
          have hpos := List.length_pos_iff.2 hne
          simp only [parts, List.length_reverse, List.length_cons, List.length_append,
            List.length_map]
          omega
      unfold Tree.ofParts
      split
      · rename_i heq
        simp [heq] at hlen
      · rename_i heq
        simp [heq] at hlen
      · rw [List.reverse_reverse]
    refine ⟨{}, ?_⟩
    rw [hof, Tree.meaning?, hparts, ← sequence_anchored a.ends h]
    rfl
  · obtain ⟨hends, hplain⟩ : a.ends = false ∧ a.plain = [] := by simpa using h
    cases a with
    | exact text => cases hends
    | leading text =>
      refine ⟨{}, ?_⟩
      rw [parts, hplain]
      rfl

/-- An anchored pattern that can be searched for stands for its caret, its plain text and its
dollar sign. -/
theorem read_of_ofText? {pattern : String} {a : Anchored} (h : ofText? pattern = some a) {r : Regex}
    (hr : Regex.read pattern = .ok r) : r = .anchored a.ends a.plain := by
  unfold Regex.read at hr
  cases ht : Tree.read? pattern with
  | none =>
    rw [ht] at hr
    cases hr
  | some tree =>
    obtain ⟨after, hm⟩ := a.meaning?_parts
    rw [← read?_of_ofText? h ht] at hm
    simp only [ht, bind, Option.bind, hm] at hr
    split at hr
    · exact (Except.ok.inj hr).symm
    · cases hr

end Anchored

end Meaning

section Searching

variable {ends : Bool} {cs : List Char} {p : Place}

namespace Regex

theorem accepts_remaining_cons (d : Char) (ds : List Char) :
    (remaining ends (d :: ds)).accepts p = false := by
  cases ends <;> simp [remaining, before, accepts]

theorem derive_remaining_cons (c d : Char) (ds : List Char) :
    (remaining ends (d :: ds)).derive p c = if d = c then [remaining ends ds] else [] := by
  by_cases h : d = c
  · cases ends <;> cases ds <;> simp [remaining, before, derive, accepts, h]
  · cases ends <;> simp [remaining, before, derive, accepts, h]

theorem derive_remaining_nil (c : Char) : (remaining ends []).derive p c = [] := by
  cases ends <;> rfl

theorem anchored_eq (ends : Bool) (cs : List Char) :
    anchored ends cs = look .start ∧ remaining ends cs = empty ∨
      anchored ends cs = seq (look .start) (remaining ends cs) := by
  cases ends <;> cases cs <;> simp [anchored, remaining, before]

theorem accepts_anchored :
    (anchored ends cs).accepts p = (p.before.isNone && (remaining ends cs).accepts p) := by
  rcases anchored_eq ends cs with ⟨h, hr⟩ | h
  · simp [h, hr, accepts, Look.holds]
  · simp [h, accepts, Look.holds]

theorem derive_anchored (c : Char) : (anchored ends cs).derive p c =
    if p.before.isNone then (remaining ends cs).derive p c else [] := by
  rcases anchored_eq ends cs with ⟨h, hr⟩ | h
  · simp [h, hr, derive]
  · simp [h, derive, accepts, Look.holds]

/-- Once a character was read, only what has been reached can go on. -/
theorem searchFrom_none (before : Char) (rest : List Char) :
    (anchored ends cs).searchFrom [] (some before) rest = false := by
  induction rest generalizing before with
  | nil => simp [searchFrom, accepts_anchored]
  | cons c rest ih => simp [searchFrom, accepts_anchored, derive_anchored, ih]

/-- Whether plain text, and the end if `ends` is set, is what a text goes on with. -/
def goesOn (ends : Bool) (ds rest : List Char) : Bool := if ends then rest == ds else ds.isPrefixOf rest

theorem goesOn_cons (d c : Char) (ds rest : List Char) :
    goesOn ends (d :: ds) (c :: rest) = (d == c && goesOn ends ds rest) := by
  cases ends with
  | true => simp [goesOn, Bool.beq_comm (a := c)]
  | false => rfl

theorem accepts_remaining_nil (h : ends = true → p.after = none) :
    (remaining ends []).accepts p = true := by
  cases ends with
  | true => simp [remaining, before, accepts, Look.holds, h rfl]
  | false => rfl

theorem searchFrom_remaining (ds : List Char) (before : Char) (rest : List Char) :
    (anchored ends cs).searchFrom [remaining ends ds] (some before) rest = goesOn ends ds rest := by
  induction rest generalizing ds before with
  | nil =>
    cases ds with
    | nil =>
      have haccepts : (remaining ends []).accepts ⟨some before, none⟩ = true :=
        accepts_remaining_nil fun _ => rfl
      cases ends <;> simp [searchFrom, accepts_anchored, goesOn, haccepts]
    | cons d ds =>
      cases ends <;> simp [searchFrom, accepts_anchored, accepts_remaining_cons, goesOn]
  | cons c rest ih =>
    cases ds with
    | nil =>
      cases ends with
      | true =>
        have haccepts : (remaining true []).accepts ⟨some before, some c⟩ = false := rfl
        simp [searchFrom, accepts_anchored, derive_anchored, derive_remaining_nil, searchFrom_none,
          goesOn, haccepts]
      | false =>
        have haccepts : (remaining false []).accepts ⟨some before, some c⟩ = true := rfl
        simp [searchFrom, goesOn, haccepts]
    | cons d ds =>
      have hderive : (anchored ends cs :: [remaining ends (d :: ds)]).flatMap
          (fun r => r.derive ⟨some before, some c⟩ c) =
          if d = c then [remaining ends ds] else [] := by
        simp [derive_anchored, derive_remaining_cons]
      rw [searchFrom, hderive]
      rw [goesOn_cons]
      by_cases h : d = c
      · have hdups : [remaining ends ds].eraseDups = [remaining ends ds] := by
          rw [List.eraseDups_cons]
          rfl
        rw [if_pos h, hdups, ih]
        simp [accepts_anchored, accepts_remaining_cons, h]
      · rw [if_neg h, List.eraseDups_nil, searchFrom_none]
        simp [accepts_anchored, accepts_remaining_cons, h]

/-- A search for an anchored pattern looks at the start of the text only. -/
theorem search_anchored (ends : Bool) (cs : List Char) (s : String) :
    (anchored ends cs).search s = goesOn ends cs s.toList := by
  unfold search
  cases s.toList with
  | nil =>
    cases cs with
    | nil =>
      have haccepts : (remaining ends []).accepts ⟨none, none⟩ = true :=
        accepts_remaining_nil fun _ => rfl
      cases ends <;> simp [searchFrom, accepts_anchored, goesOn, haccepts]
    | cons d ds => cases ends <;> simp [searchFrom, accepts_anchored, accepts_remaining_cons, goesOn]
  | cons c rest =>
    have hderive : [anchored ends cs].flatMap (fun r => r.derive ⟨none, some c⟩ c) =
        (remaining ends cs).derive ⟨none, some c⟩ c := by
      simp [derive_anchored]
    rw [searchFrom, hderive]
    cases cs with
    | nil =>
      rw [derive_remaining_nil, List.eraseDups_nil, searchFrom_none]
      cases ends with
      | true =>
        have haccepts : (remaining true []).accepts ⟨none, some c⟩ = false := rfl
        simp [accepts_anchored, goesOn, haccepts]
      | false =>
        have haccepts : (remaining false []).accepts ⟨none, some c⟩ = true := rfl
        simp [accepts_anchored, goesOn, haccepts]
    | cons d ds =>
      rw [derive_remaining_cons, goesOn_cons]
      by_cases h : d = c
      · have hdups : [remaining ends ds].eraseDups = [remaining ends ds] := by
          rw [List.eraseDups_cons]
          rfl
        rw [if_pos h, hdups, searchFrom_remaining]
        simp [accepts_anchored, accepts_remaining_cons, h]
      · rw [if_neg h, List.eraseDups_nil, searchFrom_none]
        simp [accepts_anchored, accepts_remaining_cons, h]

end Regex

end Searching

/-- A search for an anchored pattern that is small enough compares the text with its plain text. -/
theorem search_of_ofText? {pattern text : String} {a : Anchored} {b : Bool}
    (h : Anchored.ofText? pattern = some a) (hb : search pattern text = .ok b) :
    b = a.holds text := by
  unfold search at hb
  cases hr : Regex.read pattern with
  | error e =>
    rw [hr] at hb
    cases hb
  | ok r =>
    rw [hr, Anchored.read_of_ofText? h hr] at hb
    cases hb
    dsimp only
    rw [Regex.search_anchored]
    cases a with
    | exact s =>
      simp only [Anchored.ends, Anchored.plain, Regex.goesOn, Anchored.holds, if_true]
      by_cases he : text = s
      · simp [he]
      · simp [he, String.toList_inj]
    | leading s => rfl

end QueryPushdown.Pattern
