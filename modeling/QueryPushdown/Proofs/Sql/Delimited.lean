import Mathlib.Tactic.SplitIfs
import QueryPushdown.Proofs.Sql.Texts
import QueryPushdown.Request.Arena
import QueryPushdown.Sql.Fragment

/-!
# Delimited operands

An operand that is a single name, mark or word, or that ends with the parenthesis it opens, is taken
as a whole by every operator beside it. All expressions are written so except tests for a start,
which put no parentheses around themselves: that is enough for the operands of `AND`, `OR` and
`NOT`, which bind less tightly than any test, but not for those of other operators.
-/

namespace QueryPushdown

namespace Sql

/-- How an operator holds its operand: those of the logical operators may be tests. -/
inductive Tightness where
  | tight
  | loose
  deriving DecidableEq

/-- The operands that a node writes next to an operator. -/
def Node.operands : Node → List (Tightness × Expr)
  | .expr (.and operands) => operands.map (.loose, ·)
  | .expr (.or operands) => operands.map (.loose, ·)
  | .expr (.not operand) => [(.loose, operand)]
  | .expr (.operation lhs _ rhs) => [(.tight, lhs), (.tight, rhs)]
  | .expr (.startsWith operand _) => [(.tight, operand)]
  | .expr (.neg operand) => [(.tight, operand)]
  | .expr _ => []
  | .select s => s.filter.map (.loose, ·)

/-- The operands that an expression writes next to operators, to any depth. -/
def Expr.operands (e : Expr) : List (Tightness × Expr) := e.nodes.flatMap Node.operands

def Expr.isStartTest : Expr → Bool
  | .startsWith _ _ => true
  | _ => false

/-- A text that begins with a parenthesis and ends with the one that closes it. -/
def Enclosed (s : String) : Prop :=
  ∃ inner, s.toList = '(' :: inner ∧ closesLast false 0 inner

/-- The texts that no operator beside them can divide. -/
inductive Delimited (d : Dialect) : String → Prop
  | name (name : String) : Delimited d (identifier name)
  | column (number : Nat) (name : String) :
    Delimited d (tableAlias number ++ "." ++ identifier name)
  | mark (number : Nat) : Delimited d (d.placeholder number)
  | null : Delimited d "NULL"
  | enclosed {s : String} (h : Enclosed s) : Delimited d s
  | cast {s : String} (h : Enclosed s) : Delimited d ("CAST" ++ s)
  | array {s : String} (h : Enclosed s) : Delimited d ("ARRAY" ++ s)
  | call (func : Func) {s : String} (h : Enclosed s) : Delimited d (func.written d ++ s)
  | restricted (func : Func) {s t : String} (h : Enclosed s) (h' : Enclosed t) :
    Delimited d (func.written d ++ s ++ " FILTER " ++ t)

/-- A test for a start, of a text that is delimited. -/
inductive StartTest (d : Dialect) : String → Prop
  | test {s : String} (h : Delimited d s) (start : String) (number : Nat) :
    StartTest d (s ++ (startPattern d start).1 ++ d.placeholder number)

/-- The texts that stand next to an operator. -/
def Tightness.Takes (d : Dialect) : Tightness → String → Prop
  | .tight, s => Delimited d s
  | .loose, s => Delimited d s ∨ StartTest d s

variable {d : Dialect}

/-! ### Enclosed texts -/

theorem closesLast_getLast {quoted : Bool} {depth : Nat} {cs : List Char}
    (h : closesLast quoted depth cs) : cs.getLast? = some ')' := by
  induction cs generalizing quoted depth with
  | nil => cases h
  | cons c cs ih =>
    rw [closesLast] at h
    have hrest {quoted : Bool} {depth : Nat} (h : closesLast quoted depth cs) :
        (c :: cs).getLast? = some ')' := by
      rw [List.getLast?_cons, ih h]
      rfl
    split_ifs at h with _ _ _ hc
    · exact hrest h
    · exact hrest h
    · exact hrest h
    · rw [List.isEmpty_iff.1 h, hc]
      rfl
    · exact hrest h
    · exact hrest h

theorem Enclosed.getLast {s : String} (h : Enclosed s) : s.toList.getLast? = some ')' := by
  obtain ⟨inner, hs, hcloses⟩ := h
  rw [hs, List.getLast?_cons, closesLast_getLast hcloses]
  rfl

theorem Pieces.written_enclosed (d : Dialect) (opening : String) (ps : Pieces) (closing : String)
    (next : Nat) : written d next (enclosed opening ps closing)
      = opening ++ written d next ps ++ closing := by
  rw [enclosed, written, written_append, written_text, String.append_assoc]

/-- Enclosed legible pieces are a text that closes its parenthesis last, behind what stands in front
of that parenthesis. -/
theorem Legible.written_enclosed (opening before first closing last : String) {ps : Pieces}
    (hopening : opening = before ++ ("(" ++ first)) (hclosing : closing = last ++ ")")
    (hps : Legible d ps) (hfirst : Legible d [.text first])
    (hlast : Legible d [.text last]) (next : Nat) :
    ∃ s, Enclosed s ∧ (Pieces.enclosed opening ps closing).written d next = before ++ s := by
  have hinner := hfirst.append (hps.append hlast)
  refine ⟨"(" ++ (first ++ (ps.written d next ++ last)) ++ ")",
    ⟨((first ++ (ps.written d next ++ last)).toList ++ [')']), ?_, ?_⟩, ?_⟩
  · simp only [String.toList_append, List.append_assoc]
    rfl
  · have hcloses := hinner.balanced next 0 [')']
    rw [Pieces.written_append, Pieces.written_append, Pieces.written_text, Pieces.written_text]
      at hcloses
    exact hcloses.trans rfl
  · rw [Pieces.written_enclosed, hopening, hclosing]
    simp only [String.append_assoc]

/-! ### Texts of operands -/

section Operands

open Legible

theorem Expr.mem_nodes (e : Expr) : .expr e ∈ e.nodes := by
  cases e <;> simp [Expr.nodes]

/-- Pieces in parentheses, the first text standing inside. -/
theorem delimited_bracketed {ps : Pieces} (opening first : String)
    (h : opening = "(" ++ first ∧ Unmarked first ∧ Apart first.toList) (hps : Legible d ps)
    (next : Nat) : Delimited d ((Pieces.enclosed opening ps ")").written d next) := by
  obtain ⟨s, hs, hwritten⟩ := written_enclosed opening "" first ")" ""
    (by rw [h.1, String.empty_append]) (by decide) hps (fixed h.2) (fixed (by decide)) next
  rw [hwritten, String.empty_append]
  exact .enclosed hs

theorem written_callPieces (func : Func) {args : List Expr}
    (h : ∀ node ∈ exprNodes args, node.Plain) (next : Nat) :
    ∃ s, Enclosed s ∧ (callPieces d func args).written d next = func.written d ++ s := by
  rw [callPieces]
  split
  · exact ⟨"(*)", ⟨['*', ')'], rfl, rfl⟩, Pieces.written_text ..⟩
  · have hargs := separated (fixed (d := d) (s := ", ") (by decide)) (exprs_legible args h)
    exact written_enclosed (func.written d ++ "(") (func.written d) "" ")" ""
      (by rw [String.append_empty]) (by decide) hargs (fixed (by decide)) (fixed (by decide)) next

/-- An expression that is not a test for a start is delimited. -/
theorem Expr.delimited (e : Expr) (h : ∀ node ∈ e.nodes, node.Plain) (htest : e.isStartTest = false)
    (next : Nat) : Delimited d ((e.pieces d).written d next) := by
  cases e with
  | and operands | or operands =>
    have hoperands := exprs_legible (d := d) operands (List.forall_mem_append.1 h).1
    exact delimited_bracketed "(" "" (by decide) (separated (fixed (by decide)) hoperands) next
  | operation lhs op rhs =>
    obtain ⟨hlhs, hrhs⟩ := List.forall_mem_append.1 (List.forall_mem_append.1 h).1
    exact delimited_bracketed "(" "" (by decide)
      ((lhs.legible hlhs).append ((operator_legible op).cons (rhs.legible hrhs))) next
  | cast operand ty =>
    have hty : Legible d [.text (" AS " ++ ty.written d)] :=
      textAppend (fixed (by decide)) (type_legible ty)
    obtain ⟨s, hs, hwritten⟩ := written_enclosed "CAST(" "CAST" "" _ _ (by decide) rfl
      (operand.legible (List.forall_mem_append.1 h).1) (fixed (by decide)) hty next
    rw [Expr.pieces, hwritten]
    exact .cast hs
  | column table name =>
    cases table with
    | none =>
      rw [Expr.pieces, Pieces.written_text]
      exact .name name
    | some number =>
      rw [Expr.pieces, Pieces.written_text]
      exact .column number name
  | call func args restriction =>
    obtain ⟨hargs, hrestriction⟩ := List.forall_mem_append.1 (List.forall_mem_append.1 h).1
    obtain ⟨s, hs, hcall⟩ := written_callPieces (d := d) func hargs next
    rw [Expr.pieces_call, Pieces.written_append, hcall]
    cases restriction with
    | none =>
      rw [restrictionPieces, Pieces.written, String.append_empty]
      exact .call func hs
    | some e =>
      obtain ⟨t, ht, hrest⟩ := written_enclosed " FILTER (WHERE " " FILTER " "WHERE " ")" ""
        (by decide) (by decide) (e.legible (d := d) hrestriction) (fixed (by decide))
        (fixed (by decide)) (next + (callPieces d func args).params.length)
      rw [restrictionPieces, hrest, ← String.append_assoc]
      exact .restricted func hs ht
  | startsWith operand start => cases htest
  | neg operand =>
    exact delimited_bracketed "(-" "-" (by decide)
      (operand.legible (List.forall_mem_append.1 h).1) next
  | not operand =>
    exact delimited_bracketed "(NOT " "NOT " (by decide)
      (operand.legible (List.forall_mem_append.1 h).1) next
  | subquery select =>
    exact delimited_bracketed "(" "" (by decide)
      (select.legible (List.forall_mem_append.1 h).1) next
  | array select =>
    obtain ⟨s, hs, hwritten⟩ := written_enclosed "ARRAY(" "ARRAY" "" ")" "" (by decide)
      (by decide) (select.legible (d := d) (List.forall_mem_append.1 h).1) (fixed (by decide))
      (fixed (by decide)) next
    rw [Expr.pieces, hwritten]
    exact .array hs
  | value v =>
    rw [Expr.pieces]
    cases v with
    | null => exact .null
    | _ => exact Pieces.written_param d _ next ▸ .mark next

end Operands

/-! ### Texts of tests -/

theorem getLast_append {c : Char} (s : String) {t : String} (h : t.toList.getLast? = some c) :
    (s ++ t).toList.getLast? = some c := by
  rw [String.toList_append, List.getLast?_append, h]
  rfl

theorem identifier_getLast (name : String) : (identifier name).toList.getLast? = some '"' := by
  rw [identifier_toList, ← List.cons_append, List.getLast?_concat]

theorem placeholder_getLast (d : Dialect) (number : Nat) :
    ∃ c ∈ (d.placeholder number).toList.getLast?, c.isDigit := by
  rw [placeholder_toList]
  have hne : Nat.toDigits 10 number ≠ [] := Nat.toDigits_ne_nil
  refine ⟨(Nat.toDigits 10 number).getLast hne, ?_, (digits_unmarked (List.getLast_mem hne)).1⟩
  rw [List.getLast?_cons, List.getLast?_eq_some_getLast hne]
  rfl

/-- Only a mark ends with a digit. -/
theorem Delimited.ends {s : String} (h : Delimited d s) :
    (∃ number, s = d.placeholder number) ∨ ∃ c, s.toList.getLast? = some c ∧ c.isDigit = false := by
  cases h with
  | name name => exact .inr ⟨_, identifier_getLast name, rfl⟩
  | column number name => exact .inr ⟨_, getLast_append _ (identifier_getLast name), rfl⟩
  | mark number => exact .inl ⟨number, rfl⟩
  | null => exact .inr ⟨'L', rfl, rfl⟩
  | enclosed h => exact .inr ⟨_, h.getLast, rfl⟩
  | cast h | array h | call func h => exact .inr ⟨_, getLast_append _ h.getLast, rfl⟩
  | restricted func h h' => exact .inr ⟨_, getLast_append _ h'.getLast, rfl⟩

/-- A test for a start ends with a mark and is more than that. -/
theorem StartTest.not_delimited {s : String} {start : String} {number : Nat} :
    ¬ Delimited d (s ++ (startPattern d start).1 ++ d.placeholder number) := by
  intro h
  obtain ⟨c, hc, hdigit⟩ := placeholder_getLast d number
  rcases h.ends with ⟨other, hother⟩ | ⟨c', hc', hdigit'⟩
  · have hblank : ' ' ∈ (d.placeholder other).toList := by
      rw [← hother, String.toList_append, String.toList_append]
      refine List.mem_append_left _ (List.mem_append_right _ ?_)
      cases d
      · exact (by decide : ' ' ∈ " GLOB ".toList)
      · exact (by decide : ' ' ∈ " LIKE ".toList)
    rw [placeholder_toList, List.mem_cons] at hblank
    rcases hblank with hmark | hdigits
    · cases d <;> cases hmark
    · exact absurd (digits_unmarked hdigits).1 (by decide)
  · rw [getLast_append _ hc] at hc'
    cases hc'
    exact absurd hdigit (by rw [hdigit']; decide)

/-! ### Operands in the text -/

/-- Nodes among which are all those within their operands. -/
def Complete (nodes : List Node) : Prop :=
  ∀ node ∈ nodes, ∀ o ∈ node.operands, o.2.nodes ⊆ nodes

theorem Complete.nil : Complete [] := fun _ h => nomatch h

theorem Complete.append {xs ys : List Node} (hxs : Complete xs) (hys : Complete ys) :
    Complete (xs ++ ys) :=
  List.forall_mem_append.2
    ⟨fun node hnode o ho => List.subset_append_of_subset_left _ (hxs node hnode o ho),
      fun node hnode o ho => List.subset_append_of_subset_right _ (hys node hnode o ho)⟩

theorem Complete.snoc {xs : List Node} {node : Node} (hxs : Complete xs)
    (h : ∀ o ∈ node.operands, o.2.nodes ⊆ xs) : Complete (xs ++ [node]) :=
  List.forall_mem_append.2
    ⟨fun node hnode o ho => List.subset_append_of_subset_left _ (hxs node hnode o ho),
      List.forall_mem_singleton.2 fun o ho => List.subset_append_of_subset_left _ (h o ho)⟩

theorem nodes_subset_exprNodes {e : Expr} {es : List Expr} (h : e ∈ es) :
    e.nodes ⊆ exprNodes es := by
  induction h with
  | head es => exact List.subset_append_left ..
  | tail _ _ ih => exact List.subset_append_of_subset_right _ ih

theorem loose_subset {es : List Expr} :
    ∀ o ∈ es.map (Tightness.loose, ·), o.2.nodes ⊆ exprNodes es := by
  intro o ho
  obtain ⟨e, he, rfl⟩ := List.mem_map.1 ho
  exact nodes_subset_exprNodes he

mutual

theorem Expr.complete_nodes (e : Expr) : Complete e.nodes := by
  cases e with
  | and operands | or operands => exact (exprs_complete operands).snoc loose_subset
  | operation lhs op rhs =>
    refine (lhs.complete_nodes.append rhs.complete_nodes).snoc ?_
    exact List.forall_mem_cons.2
      ⟨List.subset_append_left .., List.forall_mem_singleton.2 (List.subset_append_right ..)⟩
  | cast operand ty => exact operand.complete_nodes.snoc nofun
  | column table name => exact Complete.nil.snoc nofun
  | call func args restriction =>
    exact ((exprs_complete args).append (restriction_complete restriction)).snoc nofun
  | startsWith operand start | neg operand | not operand =>
    exact operand.complete_nodes.snoc (List.forall_mem_singleton.2 (List.Subset.refl _))
  | subquery select | array select => exact select.complete_nodes.snoc nofun
  | value v => exact Complete.nil.snoc nofun

theorem Select.complete_nodes (s : Select) : Complete s.nodes := by
  obtain ⟨distinct, columns, origin, filter, groupBy, orderBy, limit, offset⟩ := s
  rw [Select.nodes]
  have hfront := (columns_complete columns).append (origin_complete origin)
  have hfilter := hfront.append (exprs_complete filter)
  refine ((hfilter.append (exprs_complete groupBy)).append (keys_complete orderBy)).snoc ?_
  intro o ho node hnode
  simp only [List.mem_append, loose_subset o ho hnode, or_true, true_or]

theorem origin_complete (origin : Option Origin) : Complete (originNodes origin) := by
  cases origin with
  | none => exact .nil
  | some o =>
    cases o with
    | table name number => exact .nil
    | derived select number => exact select.complete_nodes

theorem restriction_complete (restriction : Option Expr) :
    Complete (restrictionNodes restriction) := by
  cases restriction with
  | none => exact .nil
  | some e => exact e.complete_nodes

theorem exprs_complete (es : List Expr) : Complete (exprNodes es) := by
  cases es with
  | nil => exact .nil
  | cons e es => exact e.complete_nodes.append (exprs_complete es)

theorem columns_complete (columns : List (Expr × String)) : Complete (columnNodes columns) := by
  cases columns with
  | nil => exact .nil
  | cons column columns => exact column.1.complete_nodes.append (columns_complete columns)

theorem keys_complete (keys : List (Expr × Bool)) : Complete (keyNodes keys) := by
  cases keys with
  | nil => exact .nil
  | cons key keys => exact key.1.complete_nodes.append (keys_complete keys)

end

theorem Expr.written_startsWith (d : Dialect) (operand : Expr) (start : String) (next : Nat) :
    ((Expr.startsWith operand start).pieces d).written d next
      = (operand.pieces d).written d next ++ (startPattern d start).1
        ++ d.placeholder (next + (operand.pieces d).params.length) := by
  rw [Expr.pieces_startsWith, Pieces.written_append, Pieces.written, Pieces.written_param,
    String.append_assoc]

/-- An operand stands next to its operator as it should, unless a test for a start is held tightly
or tests another one. -/
theorem Tightness.takes_operand (tightness : Tightness) (e : Expr)
    (h : ∀ node ∈ e.nodes, node.Plain) (htight : tightness = .tight → e.isStartTest = false)
    (hnone : ∀ o ∈ e.operands, o.1 = .tight → o.2.isStartTest = false) (next : Nat) :
    tightness.Takes d ((e.pieces d).written d next) := by
  cases htest : e.isStartTest with
  | false =>
    have hdelimited := e.delimited (d := d) h htest next
    cases tightness with
    | tight => exact hdelimited
    | loose => exact .inl hdelimited
  | true =>
    cases tightness with
    | tight => cases (htight rfl).symm.trans htest
    | loose =>
      cases e with
      | startsWith operand start =>
        have hmem : (.tight, operand) ∈ (Expr.startsWith operand start).operands :=
          List.mem_flatMap.2 ⟨_, Expr.mem_nodes _, List.mem_singleton_self _⟩
        have hoperand : ∀ node ∈ operand.nodes, node.Plain := (List.forall_mem_append.1 h).1
        rw [Expr.written_startsWith]
        exact .inr (.test (operand.delimited hoperand (hnone _ hmem rfl) next) start _)
      | _ => cases htest

/-- Each operand stands in the text of the expression. What stands there is delimited, or a test
next to a logical operator, just when no test for a start is the operand of any other operator. -/
theorem Expr.operands_delimited_iff (d : Dialect) (e : Expr) (h : ∀ node ∈ e.nodes, node.Plain)
    (next : Nat) :
    (∀ o ∈ e.operands, o.2.pieces d <:+: e.pieces d) ∧
    ((∀ o ∈ e.operands, ∀ before after, e.pieces d = before ++ o.2.pieces d ++ after →
        o.1.Takes d ((o.2.pieces d).written d (next + before.params.length))) ↔
      ∀ o ∈ e.operands, o.1 = .tight → o.2.isStartTest = false) := by
  have hnodes : ∀ o ∈ e.operands, o.2.nodes ⊆ e.nodes := by
    intro o ho
    obtain ⟨node, hnode, ho⟩ := List.mem_flatMap.1 ho
    exact e.complete_nodes node hnode o ho
  have hstands : ∀ o ∈ e.operands, o.2.pieces d <:+: e.pieces d := fun o ho =>
    e.nodes_within _ (hnodes o ho (o.2.mem_nodes))
  refine ⟨hstands, fun hall o ho htight => ?_, fun hnone o ho before after _ => ?_⟩
  · obtain ⟨before, after, hpieces⟩ := hstands o ho
    have hdelimited := hall o ho before after hpieces.symm
    obtain ⟨tightness, operand⟩ := o
    cases htight
    cases operand with
    | startsWith operand start =>
      rw [Expr.written_startsWith] at hdelimited
      exact absurd hdelimited StartTest.not_delimited
    | _ => rfl
  · refine o.1.takes_operand o.2 (fun node hnode => h node (hnodes o ho hnode)) (hnone o ho) ?_ _
    intro o' ho'
    obtain ⟨node, hnode, ho'⟩ := List.mem_flatMap.1 ho'
    exact hnone o' (List.mem_flatMap.2 ⟨node, hnodes o ho hnode, ho'⟩)

/-- Whether a name has no start while more than one thing costs less than it does. -/
def Expr.unlikeCheaper : Expr :=
  let cheaper : Select :=
    { columns := [(.call .count [] none, "c0")]
      origin := some (.table "items" 1)
      filter := [.startsWith (.column (some 1) "name") "cu",
        .operation (.column (some 1) "price") .lt (.neg (.column (some 0) "price"))] }
  .and [.not (.startsWith (.column (some 0) "name") "pe"),
    .operation (.subquery cheaper) .gt (.value (.int 1))]

theorem Expr.unlikeCheaper_operands_delimited :
    (∀ node ∈ unlikeCheaper.nodes, node.Plain) ∧
      ∀ o ∈ unlikeCheaper.operands, ∀ before after,
        unlikeCheaper.pieces .sqlite = before ++ o.2.pieces .sqlite ++ after →
          o.1.Takes .sqlite ((o.2.pieces .sqlite).written .sqlite (1 + before.params.length)) := by
  have hplain : ∀ node ∈ unlikeCheaper.nodes, node.Plain := by decide
  exact ⟨hplain, (unlikeCheaper.operands_delimited_iff .sqlite hplain 1).2.2 (by decide)⟩

end Sql

/-- The things for which a flag is the same as whether their name has a start. -/
def Request.flaggedNames : Request :=
  (Request.source "items").combine
    ((Request.literal (.bool true)).combine
      (((Request.context 0).wrap (.field "name")).combine (Request.literal (.text "^ab"))
        (.binary .matching))
      (.binary .eq))
    .filter

/-- A comparison writes a test next to its operator, which takes the name alone. -/
theorem Sql.flaggedNames_undelimited : ∃ q lhs test,
    Sql.query .sqlite ⟨[("items", ⟨"items", [("name", .string)], []⟩)]⟩
      Request.flaggedNames.root = .ok q ∧
      q.select.filter = [.operation lhs .eq test] ∧
      (.tight, test) ∈ (Expr.operation lhs .eq test).operands ∧
      (q.fragment .sqlite).sql = "SELECT tbl_0.\"name\" AS c0 FROM \"items\" AS tbl_0"
        ++ " WHERE (?1 IS tbl_0.\"name\" GLOB ?2);" ∧
      (test.pieces .sqlite).written .sqlite 2 = "tbl_0.\"name\" GLOB ?2" ∧
      ¬ Tightness.tight.Takes .sqlite ((test.pieces .sqlite).written .sqlite 2) := by
  refine ⟨_, .value (.bool true), .startsWith (.column (some 0) "name") "ab", rfl, rfl, ?_, rfl,
    rfl, ?_⟩
  · exact List.mem_flatMap.2
      ⟨_, Expr.mem_nodes _, List.mem_cons_of_mem _ (List.mem_singleton_self _)⟩
  · rw [Expr.written_startsWith]
    exact StartTest.not_delimited

end QueryPushdown
