import QueryPushdown.Sql.Written

/-!
# Nodes of statements

The expressions and selects that a statement consists of, to any depth, in the order of its text.
Each of them stands in that text as it is written by itself.
-/

namespace QueryPushdown.Sql

inductive Node where
  | expr (e : Expr)
  | select (s : Select)

mutual

/-- The nodes of an expression, each behind those within it. -/
def Expr.nodes : Expr → List Node
  | .and operands => exprNodes operands ++ [.expr (.and operands)]
  | .or operands => exprNodes operands ++ [.expr (.or operands)]
  | .operation lhs op rhs => lhs.nodes ++ rhs.nodes ++ [.expr (.operation lhs op rhs)]
  | .cast operand ty => operand.nodes ++ [.expr (.cast operand ty)]
  | .column table name => [.expr (.column table name)]
  | .call func args restriction =>
    exprNodes args ++ restrictionNodes restriction ++ [.expr (.call func args restriction)]
  | .startsWith operand start => operand.nodes ++ [.expr (.startsWith operand start)]
  | .neg operand => operand.nodes ++ [.expr (.neg operand)]
  | .not operand => operand.nodes ++ [.expr (.not operand)]
  | .subquery select => select.nodes ++ [.expr (.subquery select)]
  | .array select => select.nodes ++ [.expr (.array select)]
  | .value v => [.expr (.value v)]

def Select.nodes : Select → List Node
  | { distinct, columns, origin, filter, groupBy, orderBy, limit, offset } =>
    columnNodes columns ++ originNodes origin ++ exprNodes filter ++ exprNodes groupBy
      ++ keyNodes orderBy
      ++ [.select { distinct, columns, origin, filter, groupBy, orderBy, limit, offset }]

def originNodes : Option Origin → List Node
  | none => []
  | some (.table _ _) => []
  | some (.derived select _) => select.nodes

def restrictionNodes : Option Expr → List Node
  | none => []
  | some e => e.nodes

def exprNodes : List Expr → List Node
  | [] => []
  | e :: rest => e.nodes ++ exprNodes rest

def columnNodes : List (Expr × String) → List Node
  | [] => []
  | (e, _) :: rest => e.nodes ++ columnNodes rest

def keyNodes : List (Expr × Bool) → List Node
  | [] => []
  | (e, _) :: rest => e.nodes ++ keyNodes rest

end

def Statement.nodes : Statement → List Node
  | .createTable _ => []
  | .insert _ => []
  | .delete s => exprNodes s.filter
  | .query s => s.nodes

/-! ### Optional parts of the text -/

def originPieces (d : Dialect) : Option Origin → Pieces
  | none => []
  | some o => .text " FROM " :: o.pieces d

def restrictionPieces (d : Dialect) : Option Expr → Pieces
  | none => []
  | some e => Pieces.enclosed " FILTER (WHERE " (e.pieces d) ")"

def callPieces (d : Dialect) (func : Func) (args : List Expr) : Pieces :=
  if func = .count ∧ args.isEmpty then [.text (func.written d ++ "(*)")]
  else Pieces.enclosed (func.written d ++ "(") (Pieces.separated ", " (exprPieces d args)) ")"

theorem Expr.pieces_call (d : Dialect) (func : Func) (args : List Expr)
    (restriction : Option Expr) :
    (Expr.call func args restriction).pieces d
      = callPieces d func args ++ restrictionPieces d restriction := by
  cases restriction with
  | none => exact (List.append_nil _).symm
  | some e => rfl

theorem Expr.pieces_startsWith (d : Dialect) (operand : Expr) (start : String) :
    (Expr.startsWith operand start).pieces d = operand.pieces d
      ++ [.text (startPattern d start).1, .param (.text (startPattern d start).2)] := rfl

theorem Select.pieces_eq (d : Dialect) (s : Select) :
    s.pieces d = .text (if s.distinct then "SELECT DISTINCT " else "SELECT ") ::
      (Pieces.separated ", " (columnPieces d s.columns) ++ originPieces d s.origin
        ++ Pieces.clause " WHERE " " AND " (exprPieces d s.filter)
        ++ Pieces.clause " GROUP BY " ", " (exprPieces d s.groupBy)
        ++ Pieces.clause " ORDER BY " ", " (keyPieces d s.orderBy)
        ++ [.text (boundsText d s.limit s.offset)]) := by
  obtain ⟨distinct, columns, origin, filter, groupBy, orderBy, limit, offset⟩ := s
  cases origin <;> rfl

/-- The texts around the values of a new row. -/
def Insert.frame (d : Dialect) (s : Insert) : String × String :=
  let (opening, conflict) :=
    if s.replaceOn.isEmpty then ("INSERT INTO ", "")
    else match d with
      | .sqlite => ("INSERT OR REPLACE INTO ", "")
      | .postgresql => ("INSERT INTO ", s.conflictText)
  (opening ++ identifier s.table ++ " " ++ identifiers s.columns ++ " VALUES (", ")" ++ conflict)

theorem Insert.pieces_eq (d : Dialect) (s : Insert) :
    s.pieces d = Pieces.enclosed (s.frame d).1
      (Pieces.separated ", " (s.values.map Pieces.ofValue)) (s.frame d).2 := rfl

/-! ### Where nodes stand in the text -/

def Node.pieces (d : Dialect) : Node → Pieces
  | .expr e => e.pieces d
  | .select s => s.pieces d

theorem infix_enclosed (opening : String) (ps : Pieces) (closing : String) :
    ps <:+: Pieces.enclosed opening ps closing :=
  ⟨[.text opening], [.text closing], rfl⟩

theorem infix_separated (separator : String) {parts : List Pieces} {ps : Pieces}
    (h : ps ∈ parts) : ps <:+: Pieces.separated separator parts := by
  induction parts with
  | nil => cases h
  | cons qs parts ih =>
    cases parts with
    | nil =>
      rw [List.mem_singleton.1 h]
      exact List.infix_refl _
    | cons rs parts =>
      rcases List.mem_cons.1 h with rfl | h
      · exact (List.prefix_append _ _).isInfix
      · exact (ih h).trans ((List.suffix_cons ..).trans (List.suffix_append ..)).isInfix

theorem infix_clause (keyword separator : String) {parts : List Pieces} {ps : Pieces}
    (h : ps ∈ parts) : ps <:+: Pieces.clause keyword separator parts := by
  cases parts with
  | nil => cases h
  | cons qs parts => exact (infix_separated separator h).trans (List.suffix_cons ..).isInfix

theorem infix_callPieces (d : Dialect) (func : Func) {args : List Expr} {ps : Pieces}
    (h : ps ∈ exprPieces d args) : ps <:+: callPieces d func args := by
  rw [callPieces]
  split
  · next hempty =>
    cases args with
    | nil => cases h
    | cons e args => cases hempty.2
  · exact (infix_separated ", " h).trans (infix_enclosed ..)

/-- The pieces of a node stand in the given ones. -/
def Node.Within (d : Dialect) (ps : Pieces) (node : Node) : Prop := node.pieces d <:+: ps

section Within

variable {d : Dialect}

theorem Node.Within.mono {ps qs : Pieces} {nodes : List Node} (h : ∀ node ∈ nodes, node.Within d ps)
    (hps : ps <:+: qs) : ∀ node ∈ nodes, node.Within d qs :=
  fun node hnode => (h node hnode).trans hps

theorem Node.Within.snoc {node : Node} {nodes : List Node}
    (h : ∀ n ∈ nodes, n.Within d (node.pieces d)) :
    ∀ n ∈ nodes ++ [node], n.Within d (node.pieces d) :=
  List.forall_mem_append.2 ⟨h, List.forall_mem_singleton.2 (List.infix_refl _)⟩

/-- Nodes that stand in some of the parts stand in what all the parts stand in. -/
theorem Node.Within.some {parts : List Pieces} {ps : Pieces} {nodes : List Node}
    (h : ∀ node ∈ nodes, ∃ part ∈ parts, node.Within d part)
    (hparts : ∀ part ∈ parts, part <:+: ps) :
    ∀ node ∈ nodes, node.Within d ps := by
  intro node hnode
  obtain ⟨part, hpart, hwithin⟩ := h node hnode
  exact hwithin.trans (hparts part hpart)

theorem Node.Within.cons {part : Pieces} {nodes : List Node}
    (h : ∀ node ∈ nodes, node.Within d part) (parts : List Pieces) :
    ∀ node ∈ nodes, ∃ p ∈ part :: parts, node.Within d p :=
  fun node hnode => ⟨part, List.mem_cons_self, h node hnode⟩

theorem Node.Within.tail {parts : List Pieces} {nodes : List Node}
    (h : ∀ node ∈ nodes, ∃ p ∈ parts, node.Within d p) (part : Pieces) :
    ∀ node ∈ nodes, ∃ p ∈ part :: parts, node.Within d p :=
  fun node hnode => (h node hnode).imp fun _ hp => ⟨List.mem_cons_of_mem _ hp.1, hp.2⟩

open Node.Within

mutual

theorem Expr.nodes_within (e : Expr) : ∀ node ∈ e.nodes, node.Within d (e.pieces d) := by
  cases e with
  | and operands | or operands =>
    exact snoc (some (exprs_within operands) fun part hpart =>
      (infix_separated _ hpart).trans (infix_enclosed ..))
  | operation lhs op rhs =>
    refine snoc (List.forall_mem_append.2 ⟨mono lhs.nodes_within ?_, mono rhs.nodes_within ?_⟩)
    · exact (List.prefix_append _ _).isInfix.trans (infix_enclosed ..)
    · exact ((List.suffix_cons ..).trans (List.suffix_append ..)).isInfix.trans (infix_enclosed ..)
  | cast operand ty | neg operand | not operand =>
    exact snoc (mono operand.nodes_within (infix_enclosed ..))
  | column table name => exact List.forall_mem_singleton.2 (List.infix_refl _)
  | call func args restriction =>
    have hparts : ∀ node ∈ exprNodes args ++ restrictionNodes restriction,
        node.Within d (callPieces d func args ++ restrictionPieces d restriction) := by
      refine List.forall_mem_append.2 ⟨?_, ?_⟩
      · exact some (exprs_within args) fun part hpart =>
          (infix_callPieces d func hpart).trans (List.prefix_append _ _).isInfix
      · exact mono (restriction_within restriction) (List.suffix_append _ _).isInfix
    refine snoc ?_
    rw [Node.pieces, Expr.pieces_call]
    exact hparts
  | startsWith operand start =>
    exact snoc (mono operand.nodes_within (List.prefix_append _ _).isInfix)
  | subquery select | array select =>
    exact snoc (mono select.nodes_within (infix_enclosed ..))
  | value v => exact List.forall_mem_singleton.2 (List.infix_refl _)

theorem Select.nodes_within (s : Select) : ∀ node ∈ s.nodes, node.Within d (s.pieces d) := by
  obtain ⟨distinct, columns, origin, filter, groupBy, orderBy, limit, offset⟩ := s
  rw [Select.nodes]
  refine snoc ?_
  have hclauses : Node.pieces d (.select
        { distinct, columns, origin, filter, groupBy, orderBy, limit, offset })
      = [[.text (if distinct then "SELECT DISTINCT " else "SELECT ")],
          Pieces.separated ", " (columnPieces d columns), originPieces d origin,
          Pieces.clause " WHERE " " AND " (exprPieces d filter),
          Pieces.clause " GROUP BY " ", " (exprPieces d groupBy),
          Pieces.clause " ORDER BY " ", " (keyPieces d orderBy),
          [.text (boundsText d limit offset)]].flatten := by
    rw [Node.pieces, Select.pieces_eq]
    simp only [List.flatten_cons, List.flatten_nil, List.append_nil, List.append_assoc]
    rfl
  rw [hclauses]
  simp only [List.forall_mem_append, and_assoc]
  refine ⟨?_, mono (origin_within origin) ?_, ?_, ?_, ?_⟩
  · refine some (columns_within columns) fun part hpart =>
      (infix_separated ", " hpart).trans (List.infix_of_mem_flatten ?_)
    simp only [List.mem_cons, true_or, or_true]
  · apply List.infix_of_mem_flatten
    simp only [List.mem_cons, true_or, or_true]
  · refine some (exprs_within filter) fun part hpart =>
      (infix_clause " WHERE " " AND " hpart).trans (List.infix_of_mem_flatten ?_)
    simp only [List.mem_cons, true_or, or_true]
  · refine some (exprs_within groupBy) fun part hpart =>
      (infix_clause " GROUP BY " ", " hpart).trans (List.infix_of_mem_flatten ?_)
    simp only [List.mem_cons, true_or, or_true]
  · refine some (keys_within orderBy) fun part hpart =>
      (infix_clause " ORDER BY " ", " hpart).trans (List.infix_of_mem_flatten ?_)
    simp only [List.mem_cons, true_or, or_true]

theorem origin_within (origin : Option Origin) :
    ∀ node ∈ originNodes origin, node.Within d (originPieces d origin) := by
  cases origin with
  | none => exact fun _ h => nomatch h
  | some o =>
    cases o with
    | table name number => exact fun _ h => nomatch h
    | derived select number =>
      exact mono select.nodes_within ((infix_enclosed "(" _ _).trans (List.suffix_cons ..).isInfix)

theorem restriction_within (restriction : Option Expr) :
    ∀ node ∈ restrictionNodes restriction, node.Within d (restrictionPieces d restriction) := by
  cases restriction with
  | none => exact fun _ h => nomatch h
  | some e => exact mono e.nodes_within (infix_enclosed ..)

theorem exprs_within (es : List Expr) :
    ∀ node ∈ exprNodes es, ∃ part ∈ exprPieces d es, node.Within d part := by
  cases es with
  | nil => exact fun _ h => nomatch h
  | cons e es =>
    exact List.forall_mem_append.2 ⟨cons e.nodes_within _, tail (exprs_within es) _⟩

theorem columns_within (columns : List (Expr × String)) :
    ∀ node ∈ columnNodes columns, ∃ part ∈ columnPieces d columns, node.Within d part := by
  cases columns with
  | nil => exact fun _ h => nomatch h
  | cons column columns =>
    have hfirst := mono column.1.nodes_within
      (List.prefix_append _ [.text (" AS " ++ column.2)]).isInfix
    exact List.forall_mem_append.2 ⟨cons hfirst _, tail (columns_within columns) _⟩

theorem keys_within (keys : List (Expr × Bool)) :
    ∀ node ∈ keyNodes keys, ∃ part ∈ keyPieces d keys, node.Within d part := by
  cases keys with
  | nil => exact fun _ h => nomatch h
  | cons key keys =>
    have hfirst := mono key.1.nodes_within
      (List.prefix_append _ [.text (direction d key.2)]).isInfix
    exact List.forall_mem_append.2 ⟨cons hfirst _, tail (keys_within keys) _⟩

end

end Within

end QueryPushdown.Sql
