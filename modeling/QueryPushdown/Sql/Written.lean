import QueryPushdown.Sql.Statement

/-!
# Written statements

A statement is written as a sequence of pieces: fixed text and parameters. Parameters are then
numbered from one in the order of the text, so that no value except null is ever part of it. What an
operator joins is written in parentheses, except for tests of a start.
-/

namespace QueryPushdown.Sql

/-- A part of a written statement. -/
inductive Piece where
  | text (s : String)
  /-- A value that is passed beside the text. -/
  | param (v : Value)

abbrev Pieces := List Piece

namespace Pieces

/-- Pieces with a text between every two of them. -/
def separated (separator : String) : List Pieces → Pieces
  | [] => []
  | [ps] => ps
  | ps :: rest => ps ++ .text separator :: separated separator rest

def enclosed (opening : String) (ps : Pieces) (closing : String) : Pieces :=
  .text opening :: (ps ++ [.text closing])

/-- Pieces behind a keyword, or nothing when there are none. -/
def clause (keyword : String) (separator : String) : List Pieces → Pieces
  | [] => []
  | parts => .text keyword :: separated separator parts

/-- A value: null is text, any other value a parameter. -/
def ofValue : Value → Pieces
  | .null => [.text "NULL"]
  | v => [.param v]

end Pieces

/-- A quoted name; a quote inside it is doubled. -/
def identifier (name : String) : String :=
  "\"" ++ String.ofList (name.toList.flatMap fun c => if c = '"' then ['"', '"'] else [c]) ++ "\""

def identifiers (names : List String) : String :=
  "(" ++ ", ".intercalate (names.map identifier) ++ ")"

def tableAlias (number : Nat) : String := s!"tbl_{number}"

def ColumnType.written (d : Dialect) : ColumnType → String
  | .boolean => "BOOLEAN"
  | .integer => if d = .sqlite then "INTEGER" else "BIGINT"
  | .real => if d = .sqlite then "REAL" else "DOUBLE PRECISION"
  | .text => "TEXT"

/-- An operator with the blanks around it. -/
def Operator.written (d : Dialect) : Operator → String
  | .eq => if d = .sqlite then " IS " else " IS NOT DISTINCT FROM "
  | .ne => if d = .sqlite then " IS NOT " else " IS DISTINCT FROM "
  | .lt => " < "
  | .le => " <= "
  | .gt => " > "
  | .ge => " >= "
  | .add => " + "
  | .sub => " - "
  | .mul => " * "
  | .div => " / "
  | .concat => " || "

def Func.written (d : Dialect) : Func → String
  | .count => "COUNT"
  | .sum => "SUM"
  | .min => "MIN"
  | .max => "MAX"
  | .coalesce => "COALESCE"
  | .length => if d = .sqlite then "LENGTH" else "CHAR_LENGTH"

/-- A text that a pattern with wildcards takes literally. -/
def escapeWildcards (s : String) : String :=
  String.ofList (s.toList.flatMap fun c =>
    if c = '%' ∨ c = '_' ∨ c = '\\' then ['\\', c] else [c])

/-- The operator and the pattern that test for a start, telling cases apart. -/
def startPattern (d : Dialect) (start : String) : String × String :=
  match d with
  | .sqlite => (" GLOB ", start ++ "*")
  | .postgresql => (" LIKE ", escapeWildcards start ++ "%")

/-- The direction of a key; nulls come first when it ascends. -/
def direction (d : Dialect) (descending : Bool) : String :=
  match d, descending with
  | .sqlite, false => " ASC"
  | .sqlite, true => " DESC"
  | .postgresql, false => " ASC NULLS FIRST"
  | .postgresql, true => " DESC NULLS LAST"

/-- The bounds of a select. An offset without a limit needs one in the first dialect. -/
def boundsText (d : Dialect) : Option Int64 → Option Int64 → String
  | some limit, some offset => s!" LIMIT {limit.toInt} OFFSET {offset.toInt}"
  | some limit, none => s!" LIMIT {limit.toInt}"
  | none, some offset =>
    match d with
    | .sqlite => s!" LIMIT -1 OFFSET {offset.toInt}"
    | .postgresql => s!" OFFSET {offset.toInt}"
  | none, none => ""

mutual

def Expr.pieces (d : Dialect) : Expr → Pieces
  | .and operands => Pieces.enclosed "(" (Pieces.separated " AND " (exprPieces d operands)) ")"
  | .or operands => Pieces.enclosed "(" (Pieces.separated " OR " (exprPieces d operands)) ")"
  | .operation lhs op rhs =>
    Pieces.enclosed "(" (lhs.pieces d ++ .text (op.written d) :: rhs.pieces d) ")"
  | .cast operand ty => Pieces.enclosed "CAST(" (operand.pieces d) (" AS " ++ ty.written d ++ ")")
  | .column (some table) name => [.text (tableAlias table ++ "." ++ identifier name)]
  | .column none name => [.text (identifier name)]
  | .call func args restriction =>
    let call :=
      if func = .count ∧ args.isEmpty then [.text (func.written d ++ "(*)")]
      else Pieces.enclosed (func.written d ++ "(") (Pieces.separated ", " (exprPieces d args)) ")"
    match restriction with
    | none => call
    | some e => call ++ Pieces.enclosed " FILTER (WHERE " (e.pieces d) ")"
  | .startsWith operand start =>
    let (op, pattern) := startPattern d start
    operand.pieces d ++ [.text op, .param (.text pattern)]
  | .neg operand => Pieces.enclosed "(-" (operand.pieces d) ")"
  | .not operand => Pieces.enclosed "(NOT " (operand.pieces d) ")"
  | .subquery select => Pieces.enclosed "(" (select.pieces d) ")"
  | .array select => Pieces.enclosed "ARRAY(" (select.pieces d) ")"
  | .value v => Pieces.ofValue v

def Select.pieces (d : Dialect) : Select → Pieces
  | { distinct, columns, origin, filter, groupBy, orderBy, limit, offset } =>
    let origin := match origin with
      | none => []
      | some o => .text " FROM " :: o.pieces d
    .text (if distinct then "SELECT DISTINCT " else "SELECT ") ::
      (Pieces.separated ", " (columnPieces d columns)
        ++ origin
        ++ Pieces.clause " WHERE " " AND " (exprPieces d filter)
        ++ Pieces.clause " GROUP BY " ", " (exprPieces d groupBy)
        ++ Pieces.clause " ORDER BY " ", " (keyPieces d orderBy)
        ++ [.text (boundsText d limit offset)])

def Origin.pieces (d : Dialect) : Origin → Pieces
  | .table name number => [.text (identifier name ++ " AS " ++ tableAlias number)]
  | .derived select number => Pieces.enclosed "(" (select.pieces d) (") AS " ++ tableAlias number)

def exprPieces (d : Dialect) : List Expr → List Pieces
  | [] => []
  | e :: rest => e.pieces d :: exprPieces d rest

def columnPieces (d : Dialect) : List (Expr × String) → List Pieces
  | [] => []
  | (e, name) :: rest => (e.pieces d ++ [.text (" AS " ++ name)]) :: columnPieces d rest

def keyPieces (d : Dialect) : List (Expr × Bool) → List Pieces
  | [] => []
  | (e, descending) :: rest =>
    (e.pieces d ++ [.text (direction d descending)]) :: keyPieces d rest

end

def CreateTable.pieces (d : Dialect) (s : CreateTable) : Pieces :=
  let columns := s.columns.map fun (name, ty) => identifier name ++ " " ++ ty.written d
  let key := if s.primaryKey.isEmpty then "" else ", PRIMARY KEY " ++ identifiers s.primaryKey
  [.text ("CREATE TABLE " ++ identifier s.name ++ " (" ++ ", ".intercalate columns ++ key ++ ")")]

/-- What becomes of a row that is already there. -/
def Insert.conflictText (s : Insert) : String :=
  let updated := s.columns.filter fun c => !s.replaceOn.contains c
  let target := " ON CONFLICT " ++ identifiers s.replaceOn
  if updated.isEmpty then target ++ " DO NOTHING"
  else target ++ " DO UPDATE SET "
    ++ ", ".intercalate (updated.map fun c => identifier c ++ " = EXCLUDED." ++ identifier c)

def Insert.pieces (d : Dialect) (s : Insert) : Pieces :=
  let (opening, conflict) :=
    if s.replaceOn.isEmpty then ("INSERT INTO ", "")
    else match d with
      | .sqlite => ("INSERT OR REPLACE INTO ", "")
      | .postgresql => ("INSERT INTO ", s.conflictText)
  Pieces.enclosed (opening ++ identifier s.table ++ " " ++ identifiers s.columns ++ " VALUES (")
    (Pieces.separated ", " (s.values.map Pieces.ofValue)) (")" ++ conflict)

def Delete.pieces (d : Dialect) (s : Delete) : Pieces :=
  .text ("DELETE FROM " ++ identifier s.table) ::
    Pieces.clause " WHERE " " AND " (exprPieces d s.filter)

def Statement.pieces (d : Dialect) : Statement → Pieces
  | .createTable s => s.pieces d
  | .insert s => s.pieces d
  | .delete s => s.pieces d
  | .query s => s.pieces d

/-- The mark that stands for the parameter with this number. -/
def Dialect.placeholder (d : Dialect) (number : Nat) : String :=
  match d with
  | .sqlite => s!"?{number}"
  | .postgresql => s!"${number}"

namespace Pieces

/-- The text of pieces whose parameters are numbered from `next` on. -/
def written (d : Dialect) (next : Nat) : Pieces → String
  | [] => ""
  | .text s :: rest => s ++ written d next rest
  | .param _ :: rest => d.placeholder next ++ written d (next + 1) rest

/-- The parameters in the order of the text. -/
def params (ps : Pieces) : List Value :=
  ps.filterMap fun
    | .param v => some v
    | .text _ => none

end Pieces

/-- A statement with its parameters numbered. -/
def Statement.text (d : Dialect) (s : Statement) : String := (s.pieces d).written d 1 ++ ";"

def Statement.params (d : Dialect) (s : Statement) : List Value := (s.pieces d).params

end QueryPushdown.Sql
