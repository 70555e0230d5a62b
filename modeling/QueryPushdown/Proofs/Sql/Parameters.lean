import QueryPushdown.Proofs.Sql.Texts

/-!
# Parameters of statements

The parameters of a statement are its values other than null in the order of the text, a test for a
start giving its pattern. Their marks are numbered from one in that order, and nothing else of the
text depends on them: `Statement.blanked` forgets the values and keeps the text.
-/

namespace QueryPushdown.Sql

/-- What a value passes beside the text: itself, and nothing for null. -/
def passed : Value → List Value
  | .null => []
  | v => [v]

/-- The values that a node has beside those of the nodes within it. -/
def Node.values (d : Dialect) : Node → List Value
  | .expr (.value v) => passed v
  | .expr (.startsWith _ start) => [.text (startPattern d start).2]
  | _ => []

/-- The values of a statement other than null, in the order of its text. -/
def Statement.values (d : Dialect) : Statement → List Value
  | .insert s => s.values.flatMap passed
  | s => s.nodes.flatMap (Node.values d)

/-- Texts with marks between them, the first text in front. -/
def woven (first : String) : List String → List String → String
  | mark :: marks, next :: texts => first ++ mark ++ woven next marks texts
  | _, _ => first

/-! ### Forgetting values -/

/-- Null, or a value that stands for all others. -/
def blankValue : Value → Value
  | .null => .null
  | _ => .bool true

mutual

/-- An expression without its values, other than null, and without its starts. -/
def Expr.blanked : Expr → Expr
  | .and operands => .and (exprsBlanked operands)
  | .or operands => .or (exprsBlanked operands)
  | .operation lhs op rhs => .operation lhs.blanked op rhs.blanked
  | .cast operand ty => .cast operand.blanked ty
  | .column table name => .column table name
  | .call func args restriction => .call func (exprsBlanked args) (restrictionBlanked restriction)
  | .startsWith operand _ => .startsWith operand.blanked ""
  | .neg operand => .neg operand.blanked
  | .not operand => .not operand.blanked
  | .subquery select => .subquery select.blanked
  | .array select => .array select.blanked
  | .value v => .value (blankValue v)

def Select.blanked : Select → Select
  | { distinct, columns, origin, filter, groupBy, orderBy, limit, offset } =>
    { distinct, columns := columnsBlanked columns, origin := originBlanked origin,
      filter := exprsBlanked filter, groupBy := exprsBlanked groupBy,
      orderBy := keysBlanked orderBy, limit, offset }

def originBlanked : Option Origin → Option Origin
  | none => none
  | some (.table name number) => some (.table name number)
  | some (.derived select number) => some (.derived select.blanked number)

def restrictionBlanked : Option Expr → Option Expr
  | none => none
  | some e => some e.blanked

def exprsBlanked : List Expr → List Expr
  | [] => []
  | e :: rest => e.blanked :: exprsBlanked rest

def columnsBlanked : List (Expr × String) → List (Expr × String)
  | [] => []
  | (e, name) :: rest => (e.blanked, name) :: columnsBlanked rest

def keysBlanked : List (Expr × Bool) → List (Expr × Bool)
  | [] => []
  | (e, descending) :: rest => (e.blanked, descending) :: keysBlanked rest

end

def Statement.blanked : Statement → Statement
  | .createTable s => .createTable s
  | .insert s => .insert { s with values := s.values.map blankValue }
  | .delete s => .delete { s with filter := exprsBlanked s.filter }
  | .query s => .query s.blanked

/-! ### Values passed -/

namespace Pieces

theorem params_enclosed (opening : String) (ps : Pieces) (closing : String) :
    params (enclosed opening ps closing) = params ps := by
  rw [enclosed, ← List.singleton_append, params_append, params_append]
  exact List.append_nil _

theorem params_separated (separator : String) (parts : List Pieces) :
    params (separated separator parts) = parts.flatMap params := by
  induction parts with
  | nil => rfl
  | cons ps parts ih =>
    cases parts with
    | nil => exact (List.append_nil _).symm
    | cons qs parts =>
      rw [separated, params_append, List.flatMap_cons, ← ih]
      · rfl
      · exact nofun

theorem params_clause (keyword separator : String) (parts : List Pieces) :
    params (clause keyword separator parts) = parts.flatMap params := by
  cases parts with
  | nil => rfl
  | cons ps parts => exact params_separated separator (ps :: parts)

theorem params_ofValue (v : Value) : params (ofValue v) = passed v := by
  cases v <;> rfl

end Pieces

section Passed

open Pieces

variable (d : Dialect)

theorem params_callPieces (func : Func) (args : List Expr) :
    params (callPieces d func args) = (exprPieces d args).flatMap params := by
  rw [callPieces]
  split
  · next h =>
    cases args with
    | nil => rfl
    | cons e args => cases h.2
  · rw [params_enclosed, params_separated]

mutual

theorem Expr.params_pieces (e : Expr) : (e.pieces d).params = e.nodes.flatMap (Node.values d) := by
  cases e with
  | and operands | or operands =>
    rw [Expr.pieces, Expr.nodes, params_enclosed, params_separated, exprs_params,
      List.flatMap_append]
    exact (List.append_nil _).symm
  | operation lhs op rhs =>
    rw [Expr.pieces, Expr.nodes, params_enclosed, params_append, lhs.params_pieces,
      List.flatMap_append, List.flatMap_append, ← rhs.params_pieces]
    exact (List.append_nil _).symm
  | cast operand ty | neg operand | not operand =>
    rw [Expr.pieces, Expr.nodes, params_enclosed, operand.params_pieces, List.flatMap_append]
    exact (List.append_nil _).symm
  | column table name => cases table <;> rfl
  | call func args restriction =>
    rw [Expr.pieces_call, Expr.nodes, params_append, params_callPieces, exprs_params,
      restriction_params, List.flatMap_append, List.flatMap_append]
    exact (List.append_nil _).symm
  | startsWith operand start =>
    rw [Expr.nodes, List.flatMap_append, ← operand.params_pieces]
    exact params_append _ _
  | subquery select | array select =>
    rw [Expr.pieces, Expr.nodes, params_enclosed, select.params_pieces, List.flatMap_append]
    exact (List.append_nil _).symm
  | value v =>
    rw [Expr.pieces, params_ofValue]
    exact (List.append_nil _).symm

theorem Select.params_pieces (s : Select) :
    (s.pieces d).params = s.nodes.flatMap (Node.values d) := by
  obtain ⟨distinct, columns, origin, filter, groupBy, orderBy, limit, offset⟩ := s
  rw [Select.pieces_eq, Select.nodes, ← List.singleton_append]
  simp only [params_append, params_separated, params_clause, List.flatMap_append,
    columns_params columns, origin_params origin, exprs_params filter, exprs_params groupBy,
    keys_params orderBy]
  rfl

theorem origin_params (origin : Option Origin) :
    (originPieces d origin).params = (originNodes origin).flatMap (Node.values d) := by
  cases origin with
  | none => rfl
  | some o =>
    cases o with
    | table name number => rfl
    | derived select number =>
      rw [originNodes, ← select.params_pieces]
      exact params_enclosed "(" ..

theorem restriction_params (restriction : Option Expr) :
    (restrictionPieces d restriction).params
      = (restrictionNodes restriction).flatMap (Node.values d) := by
  cases restriction with
  | none => rfl
  | some e => rw [restrictionPieces, restrictionNodes, params_enclosed, e.params_pieces]

theorem exprs_params (es : List Expr) :
    (exprPieces d es).flatMap params = (exprNodes es).flatMap (Node.values d) := by
  cases es with
  | nil => rfl
  | cons e es =>
    rw [exprPieces, exprNodes, List.flatMap_cons, List.flatMap_append, e.params_pieces,
      exprs_params]

theorem columns_params (columns : List (Expr × String)) :
    (columnPieces d columns).flatMap params = (columnNodes columns).flatMap (Node.values d) := by
  cases columns with
  | nil => rfl
  | cons column columns =>
    rw [columnPieces, columnNodes, List.flatMap_cons, List.flatMap_append, params_append,
      column.1.params_pieces, columns_params]
    exact congrArg (· ++ _) (List.append_nil _)

theorem keys_params (keys : List (Expr × Bool)) :
    (keyPieces d keys).flatMap params = (keyNodes keys).flatMap (Node.values d) := by
  cases keys with
  | nil => rfl
  | cons key keys =>
    rw [keyPieces, keyNodes, List.flatMap_cons, List.flatMap_append, params_append,
      key.1.params_pieces, keys_params]
    exact congrArg (· ++ _) (List.append_nil _)

end

theorem Statement.params_eq_values (s : Statement) : s.params d = s.values d := by
  rw [Statement.params]
  cases s with
  | createTable s => rfl
  | insert s =>
    have hvalues : Pieces.params (Pieces.separated ", " (s.values.map Pieces.ofValue))
        = s.values.flatMap passed := by
      rw [params_separated, List.flatMap_map]
      exact congrArg s.values.flatMap (funext params_ofValue)
    rw [Statement.pieces, Statement.values, ← hvalues]
    exact params_enclosed ..
  | delete s =>
    exact (params_clause ..).trans (exprs_params d s.filter)
  | query s => exact s.params_pieces d

end Passed

/-! ### What the text depends on -/

/-- A piece without its value. -/
def Piece.blanked : Piece → Piece
  | .text s => .text s
  | .param _ => .param .null

section Blanked

open Pieces

/-- The text depends on the places of the parameters alone. -/
theorem Pieces.written_map_blanked (d : Dialect) (ps : Pieces) (next : Nat) :
    written d next (ps.map Piece.blanked) = written d next ps := by
  induction ps generalizing next with
  | nil => rfl
  | cons p ps ih =>
    cases p with
    | text s => exact congrArg (s ++ ·) (ih next)
    | param v => exact congrArg (d.placeholder next ++ ·) (ih (next + 1))

theorem Pieces.map_enclosed (opening : String) (ps : Pieces) (closing : String) :
    (enclosed opening ps closing).map Piece.blanked
      = enclosed opening (ps.map Piece.blanked) closing := by
  rw [enclosed, enclosed, List.map_cons, List.map_append]
  rfl

theorem Pieces.map_separated (separator : String) (parts : List Pieces) :
    (separated separator parts).map Piece.blanked
      = separated separator (parts.map (List.map Piece.blanked)) := by
  induction parts with
  | nil => rfl
  | cons ps parts ih =>
    cases parts with
    | nil => rfl
    | cons qs parts =>
      exact List.map_append.trans
        (congrArg (ps.map Piece.blanked ++ .text separator :: ·) ih)

theorem Pieces.map_clause (keyword separator : String) (parts : List Pieces) :
    (clause keyword separator parts).map Piece.blanked
      = clause keyword separator (parts.map (List.map Piece.blanked)) := by
  cases parts with
  | nil => rfl
  | cons ps parts => exact congrArg (.text keyword :: ·) (map_separated separator (ps :: parts))

theorem Pieces.map_ofValue (v : Value) :
    (ofValue (blankValue v)).map Piece.blanked = (ofValue v).map Piece.blanked := by
  cases v <;> rfl

variable (d : Dialect)

theorem map_callPieces (func : Func) {args args' : List Expr}
    (h : (exprPieces d args').map (List.map Piece.blanked)
      = (exprPieces d args).map (List.map Piece.blanked)) :
    (callPieces d func args').map Piece.blanked = (callPieces d func args).map Piece.blanked := by
  have hempty : args'.isEmpty = args.isEmpty := by
    cases args <;> cases args' <;> first | rfl | cases h
  rw [callPieces, callPieces, hempty]
  split
  · rfl
  · rw [map_enclosed, map_enclosed, map_separated, map_separated, h]

mutual

theorem Expr.blanked_pieces (e : Expr) :
    (e.blanked.pieces d).map Piece.blanked = (e.pieces d).map Piece.blanked := by
  cases e with
  | and operands | or operands =>
    rw [Expr.blanked, Expr.pieces, Expr.pieces, map_enclosed, map_enclosed, map_separated,
      map_separated, exprs_blanked]
  | operation lhs op rhs =>
    rw [Expr.blanked, Expr.pieces, Expr.pieces, map_enclosed, map_enclosed, List.map_append,
      List.map_append, List.map_cons, List.map_cons, lhs.blanked_pieces, rhs.blanked_pieces]
  | cast operand ty | neg operand | not operand =>
    rw [Expr.blanked, Expr.pieces, Expr.pieces, map_enclosed, map_enclosed,
      operand.blanked_pieces]
  | column table name => rfl
  | call func args restriction =>
    rw [Expr.blanked, Expr.pieces_call, Expr.pieces_call, List.map_append, List.map_append,
      map_callPieces d func (exprs_blanked args), restriction_blanked]
  | startsWith operand start =>
    have hpattern : (startPattern d "").1 = (startPattern d start).1 := by cases d <;> rfl
    rw [Expr.blanked, Expr.pieces_startsWith, Expr.pieces_startsWith, List.map_append,
      List.map_append, operand.blanked_pieces, hpattern]
    rfl
  | subquery select | array select =>
    rw [Expr.blanked, Expr.pieces, Expr.pieces, map_enclosed, map_enclosed,
      select.blanked_pieces]
  | value v => exact map_ofValue v

theorem Select.blanked_pieces (s : Select) :
    (s.blanked.pieces d).map Piece.blanked = (s.pieces d).map Piece.blanked := by
  obtain ⟨distinct, columns, origin, filter, groupBy, orderBy, limit, offset⟩ := s
  rw [Select.blanked, Select.pieces_eq, Select.pieces_eq]
  simp only [List.map_cons, List.map_append, map_separated, map_clause,
    columns_blanked columns, origin_blanked origin, exprs_blanked filter, exprs_blanked groupBy,
    keys_blanked orderBy]

theorem origin_blanked (origin : Option Origin) :
    (originPieces d (originBlanked origin)).map Piece.blanked
      = (originPieces d origin).map Piece.blanked := by
  cases origin with
  | none => rfl
  | some o =>
    cases o with
    | table name number => rfl
    | derived select number =>
      rw [originBlanked, originPieces, originPieces, List.map_cons, List.map_cons, Origin.pieces,
        Origin.pieces, map_enclosed, map_enclosed, select.blanked_pieces]

theorem restriction_blanked (restriction : Option Expr) :
    (restrictionPieces d (restrictionBlanked restriction)).map Piece.blanked
      = (restrictionPieces d restriction).map Piece.blanked := by
  cases restriction with
  | none => rfl
  | some e =>
    rw [restrictionBlanked, restrictionPieces, restrictionPieces, map_enclosed, map_enclosed,
      e.blanked_pieces]

theorem exprs_blanked (es : List Expr) :
    (exprPieces d (exprsBlanked es)).map (List.map Piece.blanked)
      = (exprPieces d es).map (List.map Piece.blanked) := by
  cases es with
  | nil => rfl
  | cons e es =>
    rw [exprsBlanked, exprPieces, exprPieces, List.map_cons, List.map_cons, e.blanked_pieces,
      exprs_blanked]

theorem columns_blanked (columns : List (Expr × String)) :
    (columnPieces d (columnsBlanked columns)).map (List.map Piece.blanked)
      = (columnPieces d columns).map (List.map Piece.blanked) := by
  cases columns with
  | nil => rfl
  | cons column columns =>
    rw [columnsBlanked, columnPieces, columnPieces, List.map_cons, List.map_cons, List.map_append,
      List.map_append, column.1.blanked_pieces, columns_blanked]

theorem keys_blanked (keys : List (Expr × Bool)) :
    (keyPieces d (keysBlanked keys)).map (List.map Piece.blanked)
      = (keyPieces d keys).map (List.map Piece.blanked) := by
  cases keys with
  | nil => rfl
  | cons key keys =>
    rw [keysBlanked, keyPieces, keyPieces, List.map_cons, List.map_cons, List.map_append,
      List.map_append, key.1.blanked_pieces, keys_blanked]

end

theorem Statement.blanked_pieces (s : Statement) :
    (s.blanked.pieces d).map Piece.blanked = (s.pieces d).map Piece.blanked := by
  cases s with
  | createTable s => rfl
  | insert s =>
    have hvalues : ((s.values.map blankValue).map ofValue).map (List.map Piece.blanked)
        = (s.values.map ofValue).map (List.map Piece.blanked) := by
      rw [List.map_map, List.map_map, List.map_map]
      exact List.map_congr_left fun v _ => map_ofValue v
    rw [Statement.blanked, Statement.pieces, Statement.pieces, Insert.pieces_eq, Insert.pieces_eq,
      map_enclosed, map_enclosed, map_separated, map_separated, hvalues]
    rfl
  | delete s =>
    exact congrArg (_ :: ·) ((map_clause ..).trans
      ((congrArg _ (exprs_blanked d s.filter)).trans (map_clause ..).symm))
  | query s => exact s.blanked_pieces d

/-- The text of a statement is that of the statement without its values. -/
theorem Statement.text_blanked (s : Statement) : s.blanked.text d = s.text d := by
  rw [Statement.text, ← Pieces.written_map_blanked, s.blanked_pieces d, Pieces.written_map_blanked]
  rfl

end Blanked

/-! ### Numbered marks -/

theorem woven_append (s first : String) (marks texts : List String) :
    woven (s ++ first) marks texts = s ++ woven first marks texts := by
  cases marks <;> cases texts <;> first | rfl | simp only [woven, String.append_assoc]

/-- Pieces are written as fixed texts with the marks of their parameters between them. -/
theorem Pieces.written_eq_woven (d : Dialect) (ps : Pieces) (next : Nat) :
    ∃ first texts, texts.length = ps.params.length ∧ written d next ps
      = woven first ((List.range' next ps.params.length).map d.placeholder) texts := by
  induction ps generalizing next with
  | nil => exact ⟨"", [], rfl, rfl⟩
  | cons p ps ih =>
    cases p with
    | text s =>
      obtain ⟨first, texts, hlength, hwritten⟩ := ih next
      refine ⟨s ++ first, texts, hlength, ?_⟩
      rw [written, hwritten, ← woven_append]
      rfl
    | param v =>
      obtain ⟨first, texts, hlength, hwritten⟩ := ih (next + 1)
      refine ⟨"", first :: texts, congrArg (· + 1) hlength, ?_⟩
      rw [written, hwritten, ← String.empty_append (s := d.placeholder next)]
      rfl

/-- The parameters of a statement are its values other than null in the order of the text. Their
marks stand between fixed texts, numbered from one without a gap, and reading the text finds no
others outside quoted names if the names without quotes have none. A statement with other values
has the same text. -/
theorem Statement.text_hides_values (d : Dialect) (s : Statement) :
    s.params d = s.values d ∧
    (∃ first texts, texts.length = (s.values d).length ∧ s.text d
      = woven first ((List.range' 1 (s.values d).length).map d.placeholder) texts) ∧
    ((∀ node ∈ s.nodes, node.Plain) →
      marks d false (s.text d).toList = List.range' 1 (s.values d).length) ∧
    ∀ t : Statement, t.blanked = s.blanked → t.text d = s.text d := by
  have hparams : (s.pieces d ++ [Piece.text ";"]).params = s.values d := by
    rw [Pieces.params_append, ← s.params_eq_values d]
    exact List.append_nil _
  have htext : s.text d = (s.pieces d ++ [Piece.text ";"]).written d 1 := by
    rw [Statement.text, Pieces.written_append, Pieces.written_text]
  refine ⟨s.params_eq_values d, ?_, fun h => ?_, fun t ht => ?_⟩
  · rw [htext, ← hparams]
    exact Pieces.written_eq_woven d _ 1
  · have hlegible : Legible d (s.pieces d ++ [Piece.text ";"]) :=
      (s.legible h).append (.fixed (by decide))
    have hmarks := hlegible.numbered 1 (by decide : Apart [])
    rw [List.append_nil, hparams] at hmarks
    rw [htext, hmarks]
    exact List.append_nil _
  · rw [← t.text_blanked d, ht, s.text_blanked d]

/-- The names of a table that have a start, of the rows that are cheaper than a price and stand for
something in a sub-select. -/
def cheapNames (start : String) (price : Int64) : Statement :=
  let named : Select :=
    { columns := [(.column (some 0) "name", "c0"), (.value .null, "c1")]
      origin := some (.table "items" 0)
      filter := [.startsWith (.column (some 0) "name") start] }
  let priced : Select :=
    { columns := [(.call .count [] (some (.value (.bool true))), "c0")]
      origin := some (.table "items" 2)
      filter := [.operation (.column (some 2) "price") .lt (.value (.int price))] }
  .query { columns := [(.column (some 1) "c0", "c0")]
           origin := some (.derived named 1)
           filter := [.operation (.subquery priced) .gt (.value (.int 0))] }

theorem cheapNames_text_hides_values :
    (∀ node ∈ (cheapNames "ab" 5).nodes, node.Plain)
      ∧ (cheapNames "?" 70).blanked = (cheapNames "ab" 5).blanked
      ∧ (cheapNames "ab" 5).params .sqlite = [.text "ab*", .bool true, .int 5, .int 0]
      ∧ marks .sqlite false ((cheapNames "ab" 5).text .sqlite).toList = [1, 2, 3, 4]
      ∧ (cheapNames "?" 70).text .sqlite = (cheapNames "ab" 5).text .sqlite := by
  have hplain : ∀ node ∈ (cheapNames "ab" 5).nodes, node.Plain := by decide
  obtain ⟨hparams, -, hmarks, htext⟩ := Statement.text_hides_values .sqlite (cheapNames "ab" 5)
  exact ⟨hplain, rfl, hparams, hmarks hplain, htext (cheapNames "?" 70) rfl⟩

end QueryPushdown.Sql
