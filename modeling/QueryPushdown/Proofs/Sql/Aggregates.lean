import QueryPushdown.Proofs.Sql.Groups

/-!
# Aggregates

An aggregate of rows leaves nulls out. Where requests reduce a list without failing there are none,
unless the list has one element, so that aggregates of rows that stand for the elements of a list are
the reductions of the list. A select of one aggregate makes one row, also of no elements.
-/

namespace QueryPushdown

/-- Sums are numbers, and so is everything they add up. -/
theorem Operator.isNumber_of_accumulate {s v t : Value} (h : accumulate s v = .ok t) :
    v.isNumber = true ∧ t.isNumber = true := by
  unfold accumulate at h
  split at h
  · rename_i hv
    refine ⟨hv, ?_⟩
    unfold addNumbers arithmetic at h
    split at h
    · split at h
      · cases h
        rfl
      · cases h
    · split at h
      · cases h
        rfl
      · cases h
  · cases h

theorem Operator.isNumber_of_sum {vs : List Value} {s v : Value} (hs : s.isNumber = true)
    (h : vs.foldlM accumulate s = .ok v) :
    v.isNumber = true ∧ ∀ u ∈ vs, u.isNumber = true := by
  induction vs generalizing s with
  | nil => exact ⟨Except.ok.inj h ▸ hs, fun _ hu => (nomatch hu)⟩
  | cons u vs ih =>
    rw [List.foldlM_cons] at h
    obtain ⟨t, ht, h⟩ := Outcome.bind_eq_ok.1 h
    obtain ⟨hu, ht⟩ := isNumber_of_accumulate ht
    obtain ⟨hv, hvs⟩ := ih ht h
    exact ⟨hv, List.forall_mem_cons.2 ⟨hu, hvs⟩⟩

namespace Value

theorem isNull_of_isNumber {v : Value} (h : v.isNumber = true) : v.isNull = false := by
  cases v <;> first | rfl | cases h

theorem isNull_of_compare? {v w : Value} {o : Ordering} (h : v.compare? w = .ok o) :
    v.isNull = false ∧ w.isNull = false := by
  cases v <;> cases w <;> first | exact ⟨rfl, rfl⟩ | cases h

/-- Nothing is compared with null. -/
theorem isNull_of_better {test : Ordering → Bool} {b : Value} {best : Option Value} {vs : List Value}
    (h : vs.foldlM (Operator.better test) (some b) = .ok best) (hne : vs ≠ []) :
    b.isNull = false ∧ ∀ v ∈ vs, v.isNull = false := by
  induction vs generalizing b with
  | nil => exact absurd rfl hne
  | cons v vs ih =>
    rw [List.foldlM_cons] at h
    obtain ⟨next, hnext, h⟩ := Outcome.bind_eq_ok.1 h
    obtain ⟨o, ho, hnext⟩ := Outcome.bind_eq_ok.1 hnext
    obtain ⟨hv, hb⟩ := isNull_of_compare? ho
    refine ⟨hb, List.forall_mem_cons.2 ⟨hv, ?_⟩⟩
    cases vs with
    | nil => exact fun _ hu => (nomatch hu)
    | cons u vs =>
      split at hnext <;> cases hnext <;> exact (ih h (List.cons_ne_nil _ _)).2

/-- An extreme element is one of those that are not null, if there are any. -/
theorem extreme_present {test : Ordering → Bool} {vs : List Value} {v : Value}
    (h : extreme test vs = .ok v) : extreme test (vs.filter fun u => !u.isNull) = .ok v := by
  match vs with
  | [] => exact h
  | [u] =>
    cases u <;> exact h
  | u :: w :: vs =>
    obtain ⟨best, hbest, -⟩ := Outcome.bind_eq_ok.1 h
    rw [List.foldlM_cons] at hbest
    obtain ⟨hu, hrest⟩ := isNull_of_better hbest (List.cons_ne_nil w vs)
    rwa [List.filter_eq_self.2]
    exact List.forall_mem_cons.2 ⟨by rw [hu]; rfl, fun v hv => by rw [hrest v hv]; rfl⟩

end Value

namespace Sql

variable {input : Input} {members : List Current} {row : Current} {arg : Expr}

/-- The rows that an aggregate ranges over. -/
def ranged (input : Input) (members : List Current) (restriction : Option Expr) : List Current :=
  match restriction with
  | none => members
  | some condition => members.filter fun r => (condition.eval input members r).holds

theorem eval_call_aggregate {f : Func} (hf : f.isAggregate = true) (args : List Expr)
    (restriction : Option Expr) : (Expr.call f args restriction).eval input members row =
      f.reduce ((ranged input members restriction).map fun r => evalAll input members r args) := by
  cases restriction <;>
  · rw [Expr.eval, if_pos hf]
    rfl

theorem present_of_values (vs : List Value) :
    ((vs.map fun v => [v]).filter fun args => !args.any Value.isNull).flatten =
      vs.filter fun v => !v.isNull := by
  induction vs with
  | nil => rfl
  | cons v vs ih =>
    cases hv : v.isNull <;> simp [hv, ← ih]

/-- A sum is null of no rows, and zero then. -/
theorem eval_sum {restriction : Option Expr} {vs : List Value} {v : Value}
    (hv : vs.foldlM QueryPushdown.Operator.accumulate (.int 0) = .ok v)
    (hvalues : (ranged input members restriction).map (fun r => evalAll input members r [arg]) =
      vs.map fun v => [v]) :
    (reduce .sum arg restriction).eval input members row = v := by
  obtain ⟨hnumber, hnumbers⟩ := Operator.isNumber_of_sum rfl hv
  have hall : (vs.map fun v => [v]).filter (fun args => !args.any Value.isNull) =
      vs.map fun v => [v] := List.filter_eq_self.2 fun args hargs => by
    obtain ⟨u, hu, rfl⟩ := List.mem_map.1 hargs
    rw [List.any_cons, Value.isNull_of_isNumber (hnumbers u hu)]
    rfl
  have hflatten : (vs.map fun v => [v]).flatten = vs := List.flatMap_singleton' vs
  have hsum : (Expr.call .sum [arg] restriction).eval input members row =
      if vs.isEmpty then .null else v := by
    rw [eval_call_aggregate rfl, hvalues]
    change (if (List.filter _ _).isEmpty then Value.null else Outcome.orNull
      (List.foldlM QueryPushdown.Operator.accumulate _ (List.flatten (List.filter _ _)))) = _
    rw [hall, hflatten, hv, List.isEmpty_map]
    rfl
  have hcoalesce : (reduce .sum arg restriction).eval input members row =
      (([(Expr.call .sum [arg] restriction).eval input members row, .int 0].find?
        fun v => !v.isNull)).getD .null := rfl
  rw [hcoalesce, hsum]
  cases vs with
  | nil => exact Except.ok.inj hv
  | cons u vs =>
    rw [List.isEmpty_cons, if_neg Bool.false_ne_true, List.find?_cons,
      Value.isNull_of_isNumber hnumber]
    rfl

/-- An aggregate of rows that stand for the elements of a list reduces the list. -/
theorem eval_reduce {op : AggregateOp} {restriction : Option Expr} {vs : List Value} {v : Value}
    (hv : (Value.list vs).aggregate op = .ok v)
    (hlength : (ranged input members restriction).length = vs.length)
    (hargs : op = .len ∨
      (ranged input members restriction).map (fun r => arg.eval input members r) = vs) :
    (reduce op arg restriction).eval input members row = v := by
  have hvalues : op ≠ .len → (ranged input members restriction).map
      (fun r => evalAll input members r [arg]) = vs.map fun v => [v] := fun hop => by
    rw [← hargs.resolve_left hop, List.map_map]
    rfl
  cases op with
  | len =>
    have hall : ((ranged input members restriction).map fun r => evalAll input members r []).filter
        (fun args => !args.any Value.isNull) =
        (ranged input members restriction).map fun r => evalAll input members r [] :=
      List.filter_eq_self.2 fun args hargs => by
        obtain ⟨r, -, rfl⟩ := List.mem_map.1 hargs
        rfl
    rw [reduce, eval_call_aggregate rfl]
    change Value.int (Int64.ofNat (List.length (List.filter _ _))) = v
    rw [hall, List.length_map, hlength]
    exact Except.ok.inj hv
  | sum => exact eval_sum hv (hvalues (by decide))
  | min =>
    rw [reduce, eval_call_aggregate rfl, hvalues (by decide)]
    change (Value.extreme Ordering.isLT (List.flatten (List.filter _ _))).orNull = v
    rw [present_of_values, Value.extreme_present hv]
    rfl
  | max =>
    rw [reduce, eval_call_aggregate rfl, hvalues (by decide)]
    change (Value.extreme Ordering.isGT (List.flatten (List.filter _ _))).orNull = v
    rw [present_of_values, Value.extreme_present hv]
    rfl

theorem aggregates_reduce (op : AggregateOp) (arg : Expr) (restriction : Option Expr) :
    (reduce op arg restriction).aggregates = true := by
  cases op <;> rfl

/-- Expressions denote a list row by row when each row stands for an element. -/
theorem map_eval_of_forall₂ {p : Place} {m : Nat} {rows : List Current} {vs : List Value} {ty : Ty}
    (h : List.Forall₂ (fun row v => (Shape.scalar arg ty).Holds ((p.upto m).on row) v) rows vs)
    (members : List Current) : rows.map (fun row => arg.eval p.input members row) = vs := by
  induction h with
  | nil => rfl
  | cons hv _ ih =>
    cases hv with
    | scalar he _ _ =>
      have hrow : arg.eval p.input members _ = _ := he.eval_on (p := p.upto m) members
      rw [List.map_cons, hrow, ih]

namespace Relation.Renders

variable {r : Relation} {p : Place} {m : Nat} {isOrdered : Bool} {ys : Yields} {vs : List Value}

/-- A select of one aggregate makes one row of all rows that are kept. -/
theorem rows_total (h : r.Renders p m isOrdered ys) (hopen : r.isOpen = true)
    {e : Expr} (he : e.aggregates = true) (name : String) :
    ({ r.select with orderBy := [], columns := [(e, name)] } : Select).rows p.input p.row =
      [[(name, e.eval p.input (r.select.kept p.input p.row)
        ((r.select.kept p.input p.row).headD p.row))]] := by
  have hunbounded : Select.isUnbounded { r.select with orderBy := [], columns := [(e, name)] } =
      true := isUnbounded_of_isOpen hopen
  rw [Select.rows_eq, Select.bounded_of_unbounded hunbounded]
  change Sql.deduplicated r.select.distinct ((ordered [] _ (batches p.row r.select.groupBy _ _
    (r.select.kept p.input p.row))).map _) = _
  rw [distinct_of_isOpen hopen, ordered_nil, batches, h.ungrouped, List.any_cons, he]
  rfl

/-- An aggregate over the rows that are kept reduces the elements in their order. -/
theorem total {op : AggregateOp} {v : Value} (h : r.Renders p m isOrdered ys)
    (hopen : r.isOpen = true)
    (hkept : List.Forall₂ (fun row v => r.shape.Holds ((p.upto m).on row) v)
      (r.select.kept p.input p.row) vs)
    (hv : (Value.list vs).aggregate op = .ok v)
    (harg : op = .len ∨ ∃ ty, r.shape = .scalar arg ty) (members : List Current) :
    (r.total (reduce op arg none)).eval p.input members p.row = v := by
  rw [Relation.total, Expr.eval, h.rows_total hopen (aggregates_reduce op arg none)]
  refine eval_reduce hv hkept.length_eq (harg.imp_right fun hshape => ?_)
  obtain ⟨ty, hshape⟩ := hshape
  rw [hshape] at hkept
  exact map_eval_of_forall₂ hkept _

/-- An array has the elements of a relation of one column. -/
theorem array {e : Expr} {ty : Ty} (h : r.Renders p m isOrdered (Yields.ofList vs))
    (hshape : r.shape = .scalar e ty) (he : e.aggregates = false) (name : String)
    (members : List Current) :
    (Expr.array { r.select with columns := [(e, name)] }).eval p.input members p.row =
      .list vs := by
  have hcolumns : r.shape.columns = .ok [e] := by
    rw [hshape]
    rfl
  have hbacked := (h.backed fun _ => ⟨_, hcolumns⟩).forall₂
  rw [hshape] at hbacked
  have hrows : ({ r.select with columns := [(e, name)] } : Select).rows p.input p.row =
      (r.windowRows p.input p.row).map fun row => evalColumns p.input [] row [(e, name)] :=
    rows_eq_windowRows h.ungrouped (by rw [List.any_cons, he]; rfl) fun _ a b => by
      rw [cellsOn, cellsOn, hcolumns]
      rfl
  rw [Expr.eval, hrows, List.filterMap_map]
  refine congrArg Value.list (Eq.trans ?_ (map_eval_of_forall₂ hbacked []))
  exact congrFun (List.filterMap_eq_map (f := fun row : Current => e.eval p.input [] row)) _

end Relation.Renders

section Members

/-- All conditions hold when each of them does. -/
theorem holds_connected (vs : List Value) : (connected false vs).holds = vs.all Value.holds := by
  unfold connected
  split
  · rename_i hany
    obtain ⟨v, hv, hfalse⟩ := List.any_eq_true.1 hany
    refine (List.all_eq_false.2 ⟨v, hv, ?_⟩).symm
    rw [Value.holds, beq_iff_eq.1 hfalse]
    decide
  · rename_i hnone
    split
    · rename_i hall
      refine (List.all_eq_true.2 fun v hv => ?_).symm
      have hsome := List.all_eq_true.1 hall v hv
      have hne : (v.asBool? == some false) = false := by
        simpa using fun he => hnone (List.any_eq_true.2 ⟨v, hv, beq_iff_eq.2 he⟩)
      rw [Value.holds]
      cases hb : v.asBool? with
      | none =>
        rw [hb] at hsome
        cases hsome
      | some b =>
        rw [hb] at hne
        cases b with
        | true => rfl
        | false => cases hne
    · rename_i hall
      obtain ⟨v, hv, hsome⟩ := List.all_eq_false.1 (Bool.not_eq_true _ ▸ hall)
      refine (List.all_eq_false.2 ⟨v, hv, ?_⟩).symm
      rw [Value.holds]
      cases hb : v.asBool? with
      | none => decide
      | some b =>
        rw [hb] at hsome
        exact absurd rfl hsome

theorem holds_all (es : List Expr) : ((Expr.all es).eval input members row).holds =
    es.all fun e => (e.eval input members row).holds := by
  match es with
  | [] => rfl
  | [e] => exact (Bool.and_true _).symm
  | e :: f :: es =>
    change (connected false (evalAll input members row (e :: f :: es))).holds = _
    rw [holds_connected, evalAll_eq, List.all_map]
    rfl

/-- The rows that pass the filters of members. -/
theorem ranged_restriction (m : Members) : ranged input members m.restriction =
    members.filter fun row => m.filter.all fun e => (e.eval input members row).holds := by
  unfold Members.restriction
  split
  · rename_i hnil
    rw [List.isEmpty_iff.1 hnil]
    exact (List.filter_eq_self.2 fun _ _ => rfl).symm
  · exact List.filter_congr fun row _ => holds_all m.filter

end Members

end Sql

end QueryPushdown
