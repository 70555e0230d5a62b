import QueryPushdown.Proofs.Sql.Nodes

/-!
# Texts of statements

The text of a statement is read outside its quoted names: parentheses close in pairs, and a mark
with a number stands for a parameter. Reading the texts of all pieces finds balanced parentheses and
the numbers of the parameters one after the other, as long as the columns of the selects, which are
not quoted, are named by texts without quotes, parentheses and marks.
-/

namespace QueryPushdown.Sql

/-! ### Reading a text -/

/-- Whether the parenthesis that stands open in front of a text is closed by its last character and
by none before it. The text begins within `depth` further parentheses, and none count in a name. -/
def closesLast : Bool → Nat → List Char → Bool
  | _, _, [] => false
  | quoted, depth, c :: rest =>
    if c = '"' then closesLast (!quoted) depth rest
    else if quoted then closesLast quoted depth rest
    else if c = '(' then closesLast quoted (depth + 1) rest
    else if c = ')' then
      if depth = 0 then rest.isEmpty else closesLast quoted (depth - 1) rest
    else closesLast quoted depth rest

/-- The character that the marks of parameters begin with. -/
def Dialect.mark : Dialect → Char
  | .sqlite => '?'
  | .postgresql => '$'

/-- The numbers of the marks in a text, outside quoted names. -/
def marks (d : Dialect) : Bool → List Char → List Nat
  | _, [] => []
  | quoted, c :: rest =>
    if c = '"' then marks d (!quoted) rest
    else if ¬quoted ∧ c = d.mark then
      Nat.ofDigitChars 10 (rest.takeWhile Char.isDigit) 0 :: marks d quoted rest
    else marks d quoted rest

/-- A text that continues no number. -/
def Apart (cs : List Char) : Prop := ∀ c ∈ cs.head?, c.isDigit = false

/-- The characters that reading a text stops at. -/
def reserved : List Char := ['"', '(', ')', '?', '$']

/-- A text without quotes, parentheses and marks. -/
def Unmarked (s : String) : Prop := ∀ c ∈ s.toList, c ∉ reserved

/-- A name as it stands between quotes, with the quotes in it doubled. -/
def doubled (name : List Char) : List Char :=
  name.flatMap fun c => if c = '"' then ['"', '"'] else [c]

instance : DecidablePred Apart
  | [] => isTrue nofun
  | c :: _ => decidable_of_iff (c.isDigit = false)
    ⟨fun h _ hc => Option.some.inj hc ▸ h, fun h => h c rfl⟩

-- by the characters of the text: the search may find that all characters can be tried instead
instance (s : String) : Decidable (Unmarked s) :=
  List.decidableBAll (fun c => c ∉ reserved) s.toList

section Reading

variable {d : Dialect}

theorem Apart.append {cs rest : List Char} (hcs : Apart cs) (hrest : Apart rest) :
    Apart (cs ++ rest) := by
  cases cs with
  | nil => exact hrest
  | cons c cs => exact hcs

theorem Unmarked.append {s t : String} (hs : Unmarked s) (ht : Unmarked t) : Unmarked (s ++ t) := by
  intro c hc
  rw [String.toList_append, List.mem_append] at hc
  exact hc.elim (hs c) (ht c)

theorem closesLast_of_not_mem {cs : List Char} (h : ∀ c ∈ cs, c ∉ ['"', '(', ')'])
    (depth : Nat) (rest : List Char) :
    closesLast false depth (cs ++ rest) = closesLast false depth rest := by
  induction cs with
  | nil => rfl
  | cons c cs ih =>
    obtain ⟨hc, hcs⟩ := List.forall_mem_cons.1 h
    simp only [List.mem_cons, List.not_mem_nil, or_false, not_or] at hc
    rw [List.cons_append, closesLast, if_neg hc.1, if_neg (by decide), if_neg hc.2.1,
      if_neg hc.2.2]
    exact ih hcs

theorem marks_of_unmarked {cs : List Char} (h : ∀ c ∈ cs, c ∉ reserved) (rest : List Char) :
    marks d false (cs ++ rest) = marks d false rest := by
  induction cs with
  | nil => rfl
  | cons c cs ih =>
    obtain ⟨hc, hcs⟩ := List.forall_mem_cons.1 h
    have hmark : c ≠ d.mark := by
      rintro rfl
      exact hc (by cases d <;> decide)
    simp only [reserved, List.mem_cons, List.not_mem_nil, or_false, not_or] at hc
    rw [List.cons_append, marks, if_neg hc.1, if_neg fun h => hmark h.2]
    exact ih hcs

-- the second of two quotes takes reading back inside the name
theorem closesLast_doubled (name : List Char) (depth : Nat) (rest : List Char) :
    closesLast true depth (doubled name ++ rest) = closesLast true depth rest := by
  induction name with
  | nil => rfl
  | cons c name ih =>
    rw [doubled, List.flatMap_cons, List.append_assoc]
    split
    · rw [← ih]
      rfl
    · next hc =>
      rw [List.cons_append, List.nil_append, closesLast, if_neg hc, if_pos rfl]
      exact ih

theorem marks_doubled (name rest : List Char) :
    marks d true (doubled name ++ rest) = marks d true rest := by
  induction name with
  | nil => rfl
  | cons c name ih =>
    rw [doubled, List.flatMap_cons, List.append_assoc]
    split
    · rw [← ih]
      rfl
    · next hc =>
      rw [List.cons_append, List.nil_append, marks, if_neg hc, if_neg fun h => h.1 rfl]
      exact ih

theorem identifier_toList (name : String) :
    (identifier name).toList = '"' :: (doubled name.toList ++ ['"']) := by
  simp only [identifier, String.toList_append, String.toList_ofList, List.append_assoc]
  rfl

theorem digits_unmarked {n : Nat} {c : Char} (h : c ∈ Nat.toDigits 10 n) :
    c.isDigit ∧ c ∉ reserved := by
  have hdigit := Nat.isDigit_of_mem_toDigits (by decide) (by decide) h
  refine ⟨hdigit, fun hc => ?_⟩
  simp only [reserved, List.mem_cons, List.not_mem_nil, or_false] at hc
  rcases hc with rfl | rfl | rfl | rfl | rfl <;> exact absurd hdigit (by decide)

theorem placeholder_toList (d : Dialect) (number : Nat) :
    (d.placeholder number).toList = d.mark :: Nat.toDigits 10 number := by
  cases d <;> simp [Dialect.placeholder, Dialect.mark, String.toList_append, Nat.toList_repr,
    toString]

theorem takeWhile_digits (n : Nat) {rest : List Char} (h : Apart rest) :
    (Nat.toDigits 10 n ++ rest).takeWhile Char.isDigit = Nat.toDigits 10 n := by
  have hrest : rest.takeWhile Char.isDigit = [] := by
    cases rest with
    | nil => rfl
    | cons c rest => exact List.takeWhile_cons_of_neg (by rw [h c rfl]; decide)
  rw [List.takeWhile_append_of_pos fun c hc => (digits_unmarked hc).1, hrest, List.append_nil]

theorem marks_placeholder (number : Nat) {rest : List Char} (h : Apart rest) :
    marks d false ((d.placeholder number).toList ++ rest) = number :: marks d false rest := by
  have hquote : d.mark ≠ '"' := by cases d <;> decide
  rw [placeholder_toList, List.cons_append, marks, if_neg hquote, if_pos ⟨by decide, rfl⟩,
    takeWhile_digits number h, Nat.ofDigitChars_ten_toDigits,
    marks_of_unmarked fun c hc => (digits_unmarked hc).2]

end Reading

/-! ### Legible pieces -/

theorem Pieces.params_append (ps qs : Pieces) : params (ps ++ qs) = params ps ++ params qs :=
  List.filterMap_append

theorem Pieces.written_append (d : Dialect) (ps qs : Pieces) (next : Nat) :
    written d next (ps ++ qs) = written d next ps ++ written d (next + ps.params.length) qs := by
  induction ps generalizing next with
  | nil => exact (String.empty_append).symm
  | cons p ps ih =>
    cases p with
    | text s =>
      rw [List.cons_append, written, written, ih, String.append_assoc]
      rfl
    | param v =>
      rw [List.cons_append, written, written, ih, String.append_assoc, Nat.add_assoc,
        Nat.add_comm 1]
      rfl

theorem Pieces.written_text (d : Dialect) (s : String) (next : Nat) :
    written d next [.text s] = s := String.append_empty

theorem Pieces.written_param (d : Dialect) (v : Value) (next : Nat) :
    written d next [.param v] = d.placeholder next := String.append_empty

theorem Pieces.written_group (d : Dialect) (ps : Pieces) (next : Nat) :
    (written d next (.text "(" :: (ps ++ [.text ")"]))).toList
      = '(' :: ((written d next ps).toList ++ [')']) := by
  rw [written, written_append, written_text]
  simp only [String.toList_append]
  rfl

/-- Whatever number their parameters begin with and whatever follows them, the pieces are read as
balanced parentheses and the marks of their parameters. -/
structure Legible (d : Dialect) (ps : Pieces) : Prop where
  apart (next : Nat) : Apart (ps.written d next).toList
  balanced (next depth : Nat) (rest : List Char) :
    closesLast false depth ((ps.written d next).toList ++ rest) = closesLast false depth rest
  numbered (next : Nat) {rest : List Char} (h : Apart rest) :
    marks d false ((ps.written d next).toList ++ rest)
      = List.range' next ps.params.length ++ marks d false rest

namespace Legible

variable {d : Dialect} {ps qs : Pieces}

theorem nil : Legible d [] where
  apart _ := fun _ hc => nomatch hc
  balanced _ _ _ := rfl
  numbered _ _ _ := rfl

theorem append (hps : Legible d ps) (hqs : Legible d qs) : Legible d (ps ++ qs) where
  apart next := by
    rw [Pieces.written_append, String.toList_append]
    exact (hps.apart next).append (hqs.apart _)
  balanced next depth rest := by
    rw [Pieces.written_append, String.toList_append, List.append_assoc, hps.balanced, hqs.balanced]
  numbered next rest h := by
    rw [Pieces.written_append, String.toList_append, List.append_assoc,
      hps.numbered _ ((hqs.apart _).append h), hqs.numbered _ h, Pieces.params_append,
      List.length_append, ← List.range'_append_1, List.append_assoc]

/-- Reading goes by the text alone, however it is divided into pieces. -/
theorem congr (hps : Legible d ps) (hwritten : ∀ next, ps.written d next = qs.written d next)
    (hparams : ps.params.length = qs.params.length) : Legible d qs where
  apart next := hwritten next ▸ hps.apart next
  balanced next := hwritten next ▸ hps.balanced next
  numbered next := hparams ▸ hwritten next ▸ hps.numbered next

theorem fixed {s : String} (h : Unmarked s ∧ Apart s.toList) : Legible d [.text s] where
  apart _ := by
    rw [Pieces.written_text]
    exact h.2
  balanced _ depth rest := by
    rw [Pieces.written_text]
    refine closesLast_of_not_mem (fun c hc hmem => ?_) depth rest
    exact h.1 c hc (List.mem_append_left ['?', '$'] hmem)
  numbered _ rest _ := by
    rw [Pieces.written_text]
    exact marks_of_unmarked h.1 rest

/-- A text behind one that shows where it begins. -/
theorem headed {s t : String} (hs : s ≠ "" ∧ Unmarked s ∧ Apart s.toList) (ht : Unmarked t) :
    Legible d [.text (s ++ t)] := by
  refine fixed ⟨hs.2.1.append ht, fun c hc => hs.2.2 c ?_⟩
  cases hl : s.toList with
  | nil => exact absurd (String.toList_eq_nil_iff.1 hl) hs.1
  | cons a l => rwa [String.toList_append, hl] at hc

theorem param (v : Value) : Legible d [.param v] where
  apart next := by
    rw [Pieces.written_param, placeholder_toList]
    rintro c ⟨⟩
    cases d <;> decide
  balanced next depth rest := by
    rw [Pieces.written_param, placeholder_toList]
    refine closesLast_of_not_mem (List.forall_mem_cons.2 ⟨?_, fun c hc hmem => ?_⟩) depth rest
    · cases d <;> decide
    · exact (digits_unmarked hc).2 (List.mem_append_left ['?', '$'] hmem)
  numbered next rest h := by
    rw [Pieces.written_param, marks_placeholder next h]
    rfl

/-- A text in one piece reads as its parts. -/
theorem join {s t : String} (h : Legible d (.text s :: .text t :: ps)) :
    Legible d (.text (s ++ t) :: ps) :=
  h.congr (fun _ => (String.append_assoc ..).symm) rfl

theorem cons {p : Piece} (hp : Legible d [p]) (hps : Legible d ps) : Legible d (p :: ps) :=
  hp.append hps

theorem textAppend {s t : String} (hs : Legible d [.text s]) (ht : Legible d [.text t]) :
    Legible d [.text (s ++ t)] :=
  (hs.cons ht).join

theorem quoted (name : String) : Legible d [.text (identifier name)] where
  apart _ := by
    rw [Pieces.written_text, identifier_toList]
    rintro c ⟨⟩
    decide
  balanced _ depth rest := by
    rw [Pieces.written_text, identifier_toList]
    simp only [List.cons_append, List.append_assoc]
    exact closesLast_doubled name.toList depth _
  numbered _ rest _ := by
    rw [Pieces.written_text, identifier_toList]
    simp only [List.cons_append, List.append_assoc]
    exact marks_doubled name.toList _

/-- Pieces between a pair of parentheses. -/
theorem group (hps : Legible d ps) : Legible d (.text "(" :: (ps ++ [.text ")"])) where
  apart next := by
    rw [Pieces.written_group]
    rintro c ⟨⟩
    decide
  balanced next depth rest := by
    rw [Pieces.written_group, List.cons_append, List.append_assoc]
    exact hps.balanced next (depth + 1) _
  numbered next rest _ := by
    have hmark : '(' ≠ d.mark ∧ ')' ≠ d.mark := by cases d <;> decide
    have hclosing : Apart (')' :: rest) := by
      rintro c ⟨⟩
      decide
    rw [Pieces.written_group, List.cons_append, List.append_assoc, marks, if_neg (by decide),
      if_neg fun h => hmark.1 h.2, List.singleton_append, hps.numbered next hclosing, marks,
      if_neg (by decide), if_neg fun h => hmark.2 h.2]
    simp [Pieces.params]

/-- Enclosed pieces, the parentheses standing anywhere in the texts around them. -/
theorem enclosed (before first last after : String) {opening closing : String}
    (hps : Legible d ps) (hopening : opening = before ++ "(" ++ first)
    (hclosing : closing = last ++ ")" ++ after)
    (hbefore : Legible d [.text before]) (hfirst : Legible d [.text first])
    (hlast : Legible d [.text last]) (hafter : Legible d [.text after]) :
    Legible d (Pieces.enclosed opening ps closing) := by
  refine (hbefore.append ((group (hfirst.append (hps.append hlast))).append hafter)).congr
    (fun next => ?_) ?_
  · simp [hopening, hclosing, Pieces.enclosed, Pieces.written, Pieces.written_append,
      String.append_assoc]
  · simp [Pieces.enclosed, Pieces.params]

theorem separated {separator : String} (hseparator : Legible d [.text separator])
    {parts : List Pieces} (h : ∀ ps ∈ parts, Legible d ps) :
    Legible d (Pieces.separated separator parts) := by
  induction parts with
  | nil => exact .nil
  | cons ps parts ih =>
    obtain ⟨hps, hparts⟩ := List.forall_mem_cons.1 h
    cases parts with
    | nil => exact hps
    | cons qs parts => exact hps.append (hseparator.cons (ih hparts))

theorem clause {keyword separator : String} (hkeyword : Legible d [.text keyword])
    (hseparator : Legible d [.text separator]) {parts : List Pieces}
    (h : ∀ ps ∈ parts, Legible d ps) : Legible d (Pieces.clause keyword separator parts) := by
  cases parts with
  | nil => exact .nil
  | cons ps parts => exact hkeyword.cons (separated hseparator h)

theorem ofValue (v : Value) : Legible d (Pieces.ofValue v) := by
  cases v with
  | null => exact fixed (by decide)
  | _ => exact param _

end Legible

/-- A select that names its columns by texts that need no quotes. -/
def Node.Plain : Node → Prop
  | .expr _ => True
  | .select s => ∀ column ∈ s.columns, Unmarked column.2

instance : DecidablePred Node.Plain
  | .expr _ => inferInstanceAs (Decidable True)
  | .select s => inferInstanceAs (Decidable (∀ column ∈ s.columns, Unmarked column.2))

section Legible

open Legible

variable {d : Dialect}

theorem repr_unmarked (n : Nat) : Unmarked n.repr := fun _ hc =>
  (digits_unmarked (Nat.toList_repr ▸ hc)).2

theorem int_unmarked (i : Int) : Unmarked (toString i) := by
  cases i with
  | ofNat n => exact repr_unmarked n
  | negSucc n => exact Unmarked.append (s := "-") (by decide) (repr_unmarked _)

theorem alias_legible (number : Nat) : Legible d [.text (tableAlias number)] :=
  headed (s := "tbl_") (by decide) (repr_unmarked number)

theorem bounds_legible (limit offset : Option Int64) :
    Legible d [.text (boundsText d limit offset)] := by
  have hlimit (limit : Int64) : Legible d [.text (" LIMIT " ++ toString limit.toInt)] :=
    headed (by decide) (int_unmarked _)
  have hoffset (offset : Int64) : Legible d [.text (" OFFSET " ++ toString offset.toInt)] :=
    headed (by decide) (int_unmarked _)
  cases limit with
  | none =>
    cases offset with
    | none => exact fixed (s := "") (by decide)
    | some offset =>
      cases d with
      | sqlite => exact headed (s := " LIMIT -1 OFFSET ") (by decide) (int_unmarked _)
      | postgresql => exact hoffset offset
  | some limit =>
    cases offset with
    | none => exact hlimit limit
    | some offset =>
      exact (textAppend (hlimit limit) (hoffset offset)).congr
        (fun _ => congrArg (· ++ "") (String.append_assoc ..).symm) rfl

theorem operator_legible (op : Operator) : Legible d [.text (op.written d)] :=
  fixed (by cases op <;> cases d <;> decide)

theorem func_legible (func : Func) : Legible d [.text (func.written d)] :=
  fixed (by cases func <;> cases d <;> decide)

theorem type_legible (ty : ColumnType) : Legible d [.text (ty.written d)] :=
  fixed (by cases ty <;> cases d <;> decide)

theorem direction_legible (descending : Bool) : Legible d [.text (direction d descending)] :=
  fixed (by cases descending <;> cases d <;> decide)

theorem pattern_legible (start : String) : Legible d [.text (startPattern d start).1] := by
  cases d
  · exact fixed (s := " GLOB ") (by decide)
  · exact fixed (s := " LIKE ") (by decide)

/-- Pieces between parentheses, with a fixed text in front of and one behind the opening one. -/
theorem Legible.bracketed (before first : String)
    (h : (Unmarked before ∧ Apart before.toList) ∧ Unmarked first ∧ Apart first.toList)
    {ps : Pieces} (hps : Legible d ps) :
    Legible d (Pieces.enclosed (before ++ "(" ++ first) ps ")") :=
  enclosed before first "" "" hps rfl (by decide) (fixed h.1) (fixed h.2) (fixed (by decide))
    (fixed (by decide))

theorem call_legible (func : Func) (args : List Expr) (h : ∀ ps ∈ exprPieces d args, Legible d ps) :
    Legible d (callPieces d func args) := by
  rw [callPieces]
  split
  · have hall : Legible d [.text "(*)"] :=
      (group (fixed (s := "*") (by decide))).congr (fun _ => rfl) rfl
    exact (func_legible func).textAppend hall
  · exact enclosed (func.written d) "" "" "" (separated (fixed (by decide)) h)
      String.append_empty.symm (by decide) (func_legible func) (fixed (by decide))
      (fixed (by decide)) (fixed (by decide))

mutual

theorem Expr.legible (e : Expr) (h : ∀ node ∈ e.nodes, node.Plain) : Legible d (e.pieces d) := by
  cases e with
  | and operands | or operands =>
    have hoperands := exprs_legible operands (List.forall_mem_append.1 h).1
    exact bracketed "" "" (by decide) (separated (fixed (by decide)) hoperands)
  | operation lhs op rhs =>
    obtain ⟨hlhs, hrhs⟩ := List.forall_mem_append.1 (List.forall_mem_append.1 h).1
    exact bracketed "" "" (by decide)
      ((lhs.legible hlhs).append ((operator_legible op).cons (rhs.legible hrhs)))
  | cast operand ty =>
    have hoperand := operand.legible (List.forall_mem_append.1 h).1
    exact enclosed "CAST" "" (" AS " ++ ty.written d) "" hoperand (by decide)
      String.append_empty.symm (fixed (by decide)) (fixed (by decide))
      (textAppend (fixed (by decide)) (type_legible ty)) (fixed (by decide))
  | column table name =>
    cases table with
    | none => exact quoted name
    | some table =>
      exact textAppend (textAppend (alias_legible table) (fixed (by decide))) (quoted name)
  | call func args restriction =>
    obtain ⟨hargs, hrestriction⟩ := List.forall_mem_append.1 (List.forall_mem_append.1 h).1
    rw [Expr.pieces_call]
    exact (call_legible func args (exprs_legible args hargs)).append
      (restriction_legible restriction hrestriction)
  | startsWith operand start =>
    have hoperand := operand.legible (List.forall_mem_append.1 h).1
    exact hoperand.append ((pattern_legible start).cons (param _))
  | neg operand =>
    exact bracketed "" "-" (by decide) (operand.legible (List.forall_mem_append.1 h).1)
  | not operand =>
    exact bracketed "" "NOT " (by decide) (operand.legible (List.forall_mem_append.1 h).1)
  | subquery select =>
    exact bracketed "" "" (by decide) (select.legible (List.forall_mem_append.1 h).1)
  | array select =>
    exact bracketed "ARRAY" "" (by decide) (select.legible (List.forall_mem_append.1 h).1)
  | value v => exact ofValue v

theorem Select.legible (s : Select) (h : ∀ node ∈ s.nodes, node.Plain) :
    Legible d (s.pieces d) := by
  obtain ⟨distinct, columns, origin, filter, groupBy, orderBy, limit, offset⟩ := s
  rw [Select.nodes] at h
  simp only [List.forall_mem_append, List.forall_mem_singleton] at h
  obtain ⟨⟨⟨⟨⟨hcolumns, horigin⟩, hfilter⟩, hgroupBy⟩, horderBy⟩, hnames⟩ := h
  have hselect : Legible d [.text (if distinct then "SELECT DISTINCT " else "SELECT ")] :=
    fixed (by cases distinct <;> decide)
  rw [Select.pieces_eq]
  have hfrom := origin_legible origin horigin
  refine hselect.cons (((((append ?_ hfrom).append ?_).append ?_).append ?_).append
    (bounds_legible limit offset))
  · exact separated (fixed (by decide)) (columns_legible columns hcolumns hnames)
  · exact clause (fixed (by decide)) (fixed (by decide)) (exprs_legible filter hfilter)
  · exact clause (fixed (by decide)) (fixed (by decide)) (exprs_legible groupBy hgroupBy)
  · exact clause (fixed (by decide)) (fixed (by decide)) (keys_legible orderBy horderBy)

theorem origin_legible (origin : Option Origin) (h : ∀ node ∈ originNodes origin, node.Plain) :
    Legible d (originPieces d origin) := by
  cases origin with
  | none => exact .nil
  | some o =>
    refine (fixed (by decide)).cons ?_
    cases o with
    | table name number =>
      exact textAppend (textAppend (quoted name) (fixed (by decide))) (alias_legible number)
    | derived select number =>
      have hafter := textAppend (fixed (s := " AS ") (by decide)) (alias_legible (d := d) number)
      exact enclosed "" "" "" (" AS " ++ tableAlias number) (select.legible h) (by decide)
        (@String.append_assoc ")" " AS " _) (fixed (by decide)) (fixed (by decide))
        (fixed (by decide)) hafter

theorem restriction_legible (restriction : Option Expr)
    (h : ∀ node ∈ restrictionNodes restriction, node.Plain) :
    Legible d (restrictionPieces d restriction) := by
  cases restriction with
  | none => exact .nil
  | some e => exact bracketed " FILTER " "WHERE " (by decide) (e.legible h)

theorem exprs_legible (es : List Expr) (h : ∀ node ∈ exprNodes es, node.Plain) :
    ∀ ps ∈ exprPieces d es, Legible d ps := by
  cases es with
  | nil => exact fun _ hps => nomatch hps
  | cons e es =>
    obtain ⟨he, hes⟩ := List.forall_mem_append.1 h
    exact List.forall_mem_cons.2 ⟨e.legible he, exprs_legible es hes⟩

theorem columns_legible (columns : List (Expr × String))
    (h : ∀ node ∈ columnNodes columns, node.Plain)
    (hnames : ∀ column ∈ columns, Unmarked column.2) :
    ∀ ps ∈ columnPieces d columns, Legible d ps := by
  cases columns with
  | nil => exact fun _ hps => nomatch hps
  | cons column columns =>
    obtain ⟨he, hcolumns⟩ := List.forall_mem_append.1 h
    obtain ⟨hname, hnames⟩ := List.forall_mem_cons.1 hnames
    exact List.forall_mem_cons.2 ⟨(column.1.legible he).append (headed (by decide) hname),
      columns_legible columns hcolumns hnames⟩

theorem keys_legible (keys : List (Expr × Bool)) (h : ∀ node ∈ keyNodes keys, node.Plain) :
    ∀ ps ∈ keyPieces d keys, Legible d ps := by
  cases keys with
  | nil => exact fun _ hps => nomatch hps
  | cons key keys =>
    obtain ⟨he, hkeys⟩ := List.forall_mem_append.1 h
    exact List.forall_mem_cons.2 ⟨(key.1.legible he).append (direction_legible key.2),
      keys_legible keys hkeys⟩

end

theorem intercalate_legible {separator : String} (hseparator : Legible d [.text separator])
    {texts : List String} (h : ∀ s ∈ texts, Legible d [.text s]) :
    Legible d [.text (separator.intercalate texts)] := by
  induction texts with
  | nil => exact fixed (s := "") (by decide)
  | cons s texts ih =>
    obtain ⟨hs, htexts⟩ := List.forall_mem_cons.1 h
    cases texts with
    | nil => rwa [String.intercalate_singleton]
    | cons t texts =>
      rw [String.intercalate_cons_cons]
      exact textAppend (textAppend hs hseparator) (ih htexts)

/-- A text enclosed in one piece. -/
theorem Legible.wrapped {opening s closing : String}
    (h : Legible d (Pieces.enclosed opening [.text s] closing)) :
    Legible d [.text (opening ++ s ++ closing)] :=
  h.congr (fun _ => by simp [Pieces.enclosed, Pieces.written, String.append_assoc]) rfl

theorem identifiers_legible (names : List String) : Legible d [.text (identifiers names)] := by
  refine wrapped (bracketed "" "" (by decide)
    (intercalate_legible (fixed (by decide)) fun s hs => ?_))
  obtain ⟨name, -, rfl⟩ := List.mem_map.1 hs
  exact quoted name

theorem CreateTable.legible (s : CreateTable) : Legible d (s.pieces d) := by
  have hcolumns : Legible d [.text (", ".intercalate
      (s.columns.map fun column => identifier column.1 ++ " " ++ column.2.written d))] := by
    refine intercalate_legible (fixed (by decide)) fun t ht => ?_
    obtain ⟨column, -, rfl⟩ := List.mem_map.1 ht
    exact textAppend (textAppend (quoted column.1) (fixed (by decide))) (type_legible column.2)
  have hkey : Legible d [.text (if s.primaryKey.isEmpty then ""
      else ", PRIMARY KEY " ++ identifiers s.primaryKey)] := by
    split
    · exact fixed (by decide)
    · exact textAppend (fixed (by decide)) (identifiers_legible _)
  have hname : Legible d [.text ("CREATE TABLE " ++ identifier s.name ++ " ")] :=
    textAppend (textAppend (fixed (by decide)) (quoted s.name)) (fixed (by decide))
  have hopening : "CREATE TABLE " ++ identifier s.name ++ " ("
      = "CREATE TABLE " ++ identifier s.name ++ " " ++ "(" ++ "" := by
    rw [String.append_empty, @String.append_assoc _ " "]
    rfl
  have hstatement := wrapped (enclosed _ _ "" "" (textAppend hcolumns hkey) hopening
    (show ")" = "" ++ ")" ++ "" by decide) hname (fixed (by decide)) (fixed (by decide))
    (fixed (by decide)))
  rwa [← String.append_assoc] at hstatement

theorem conflict_legible (s : Insert) : Legible d [.text s.conflictText] := by
  have htarget : Legible d [.text (" ON CONFLICT " ++ identifiers s.replaceOn)] :=
    textAppend (fixed (by decide)) (identifiers_legible _)
  have hupdates : Legible d [.text (", ".intercalate
      ((s.columns.filter fun c => !s.replaceOn.contains c).map fun c =>
        identifier c ++ " = EXCLUDED." ++ identifier c))] := by
    refine intercalate_legible (fixed (by decide)) fun t ht => ?_
    obtain ⟨c, -, rfl⟩ := List.mem_map.1 ht
    exact textAppend (textAppend (quoted c) (fixed (by decide))) (quoted c)
  rw [Insert.conflictText]
  split
  · exact textAppend htarget (fixed (by decide))
  · exact textAppend (textAppend htarget (fixed (by decide))) hupdates

theorem Insert.legible (s : Insert) : Legible d (s.pieces d) := by
  have hvalues : Legible d (Pieces.separated ", " (s.values.map Pieces.ofValue)) := by
    refine separated (fixed (by decide)) fun ps hps => ?_
    obtain ⟨v, -, rfl⟩ := List.mem_map.1 hps
    exact ofValue v
  have hrow {opening conflict : String} (hopening : Legible d [.text opening])
      (hconflict : Legible d [.text conflict]) :
      Legible d (Pieces.enclosed (opening ++ identifier s.table ++ " " ++ identifiers s.columns
        ++ " VALUES (") (Pieces.separated ", " (s.values.map Pieces.ofValue))
          (")" ++ conflict)) := by
    refine enclosed (opening ++ identifier s.table ++ " " ++ identifiers s.columns ++ " VALUES ") ""
      "" conflict hvalues ?_ rfl ?_ (fixed (by decide)) (fixed (by decide)) hconflict
    · rw [String.append_empty, @String.append_assoc _ " VALUES "]
      rfl
    · have htable := textAppend (textAppend hopening (quoted s.table))
        (fixed (s := " ") (by decide))
      exact textAppend (textAppend htable (identifiers_legible _)) (fixed (by decide))
  by_cases hreplace : s.replaceOn.isEmpty
  · simp only [Insert.pieces, if_pos hreplace]
    exact hrow (fixed (by decide)) (fixed (by decide))
  · simp only [Insert.pieces, if_neg hreplace]
    cases d with
    | sqlite =>
      exact hrow (fixed (s := "INSERT OR REPLACE INTO ") (by decide)) (fixed (s := "") (by decide))
    | postgresql => exact hrow (fixed (s := "INSERT INTO ") (by decide)) (conflict_legible s)

theorem Statement.legible (s : Statement) (h : ∀ node ∈ s.nodes, node.Plain) :
    Legible d (s.pieces d) := by
  cases s with
  | createTable s => exact s.legible
  | insert s => exact s.legible
  | delete s =>
    exact (textAppend (fixed (by decide)) (quoted s.table)).cons
      (clause (fixed (by decide)) (fixed (by decide)) (exprs_legible s.filter h))
  | query s => exact s.legible h

end Legible

end QueryPushdown.Sql
