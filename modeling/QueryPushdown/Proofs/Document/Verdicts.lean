import QueryPushdown.Proofs.Document.Lowering
import QueryPushdown.Proofs.Document.Matching

/-!
# What the matcher finds of combined filters

Of an alternative and of a negation the matcher finds what it finds of their parts, errors
included. So it decides a lowered predicate that has no conjunction as the interpreter decides the
predicate. A conjunction may test its conditions in another order, so it is decided only where all
conditions can be evaluated, and unless both sides have a condition under `$not` on one field: the
two are then put together under one `$not`, which asks less.
-/

namespace QueryPushdown

/-- What goes on only to repeat what was found. -/
theorem Outcome.bind_found (o : Outcome Bool) :
    (do if ← o then pure true else pure false) = o := by
  rcases o with e | _ | _ <;> rfl

namespace Filter

section Combined

variable {element : Value} {f g : Filter}

theorem accepts_single (name : String) (content : Bson) :
    accepts element (single name content) = fieldAccepts element name content := by
  rw [single, accepts_cons]
  exact Outcome.bind_found _

theorem accepts_path {path : String} (h : isOperator path = false) (content : Bson) :
    accepts element (single path content) = holds (element.atPath path) content := by
  rw [accepts_single]
  unfold fieldAccepts
  split
  · cases h
  · cases h
  · cases h
  · rw [if_neg (by simp [h])]

theorem holds_operator {op : String} (h : isOperator op = true) (v : Value) (operand : Bson) :
    holds v (operator op operand) = meets v op operand := by
  rw [operator, single, holds]
  have hops : (!List.isEmpty [(op, operand)] && isOperators [(op, operand)]) = true := by
    simp [isOperators, h]
  rw [if_pos hops, allHold_cons]
  exact Outcome.bind_found _

theorem strayOperand?_map (op : String) (fs : List Filter) :
    strayOperand? op (fs.map Bson.document) = none := by
  induction fs with
  | nil => rfl
  | cons f fs ih => exact ih

theorem acceptsAny_map (op : String) (fs : List Filter) :
    acceptsAny element op (.array (fs.map Bson.document)) =
      someAccepts element (fs.map Bson.document) := by
  rw [acceptsAny, strayOperand?_map]

theorem accepts_listed_or (fs : List Filter) :
    accepts element (listed "$or" fs) = someAccepts element (fs.map Bson.document) := by
  rw [listed, accepts_single]
  exact acceptsAny_map "$or" fs

theorem accepts_listed_nor (fs : List Filter) :
    accepts element (listed "$nor" fs) =
      (do pure !(← someAccepts element (fs.map Bson.document))) := by
  rw [listed, accepts_single, ← acceptsAny_map "$nor"]
  rfl

theorem someAccepts_append (fs gs : List Filter) :
    someAccepts element ((fs ++ gs).map Bson.document) = (do
      if ← someAccepts element (fs.map Bson.document) then pure true
      else someAccepts element (gs.map Bson.document)) := by
  induction fs with
  | nil => rfl
  | cons f fs ih =>
    rw [List.cons_append, List.map_cons, List.map_cons, someAccepts, someAccepts, ih]
    rcases accepts element f with e | _ | _ <;> rfl

theorem documents?_eq_some {items : List Bson} {fs : List Filter}
    (h : documents? items = some fs) : items = fs.map Bson.document := by
  induction items generalizing fs with
  | nil =>
    cases h
    rfl
  | cons b rest ih =>
    cases b with
    | document f =>
      obtain ⟨others, hothers, rfl⟩ := Option.map_eq_some_iff.1 h
      rw [List.map_cons, ih hothers]
    | _ => cases h

/-- Of what is listed under `$or` in a filter the matcher finds what it finds of the filter. -/
theorem someAccepts_operands (f : Filter) :
    someAccepts element ((operands "$or" f).map Bson.document) = accepts element f := by
  have hself : someAccepts element [.document f] = accepts element f := Outcome.bind_found _
  unfold operands
  split
  · rename_i name items
    split
    · rename_i hname
      subst hname
      cases hfs : documents? items with
      | none => exact hself
      | some fs =>
        rw [documents?_eq_some hfs]
        exact (accepts_listed_or fs).symm
    · exact hself
  · exact hself

/-- An alternative is decided by its first side, or by its second one if the first one fails. -/
theorem accepts_or (f g : Filter) : accepts element (f.or g) = (do
    if ← accepts element f then pure true else accepts element g) := by
  rw [Filter.or, accepts_listed_or, someAccepts_append, someAccepts_operands,
    someAccepts_operands]

/-- Turning a condition round decides the opposite. -/
theorem accepts_negated (h : Formed f) :
    accepts element f.negated = (do pure !(← accepts element f)) := by
  rcases h.negated_cases with hneg | ⟨path, operand, w, hpath, hw, rfl, hneg⟩ |
    ⟨path, ops, hpath, -, rfl, hneg⟩ | ⟨path, content, w, hpath, hw, rfl, hneg⟩
  all_goals rw [hneg]
  · rw [accepts_listed_nor]
    exact congrArg (fun o : Outcome Bool => (do pure !(← o) : Outcome Bool)) (Outcome.bind_found _)
  · have hself : accepts element [(path, operator "$ne" operand)] =
        (do pure !(← equals (element.atPath path) operand)) :=
      (accepts_path hpath _).trans (holds_operator rfl _ _)
    have htwice : ∀ o : Outcome Bool, o = (do pure !(← (do pure !(← o) : Outcome Bool))) := by
      rintro (e | _ | _) <;> rfl
    rw [accepts_path hpath, hself, hw.holds, ← hw.equals]
    exact htwice _
  · have hself : accepts element [(path, .document ops)] =
        holds (element.atPath path) (.document ops) := accepts_path hpath _
    rw [accepts_path hpath, hself]
    exact holds_operator rfl _ _
  · have hself : accepts element [(path, content)] = holds (element.atPath path) content :=
      accepts_path hpath _
    rw [accepts_path hpath, hself, holds_operator rfl, hw.holds, ← hw.equals]
    rfl

/-- Filters that have no condition under `$not` on one field both mean what they say together
wherever all their conditions can be evaluated. -/
theorem accepts_combined {x y : Bool} (hf : Formed f) (hg : Formed g)
    (hapart : ∀ path, denies f path = true → denies g path = false)
    (hx : truth .weak element f = some x) (hy : truth .weak element g = some y) :
    accepts element f = .ok x ∧ accepts element g = .ok y ∧
      accepts element (f.and g) = .ok (x && y) ∧ accepts element (f.or g) = .ok (x || y) := by
  have hfx := accepts_of_truth hx
  have hgy := accepts_of_truth hy
  refine ⟨hfx, hgy, accepts_of_truth ?_, ?_⟩
  · obtain ⟨-, -, htruth⟩ := hf.and hg hapart
    rw [htruth, hx, hy]
    rfl
  · rw [accepts_or, hfx, hgy]
    cases x <;> rfl

end Combined

/-- Two filters on the price and the stock of a part, and a part that both accept. -/
theorem accepts_combined_inStock :
    let cheap : Filter := single "price" (operator "$not" (operator "$gt" (.int64 5)))
    let inStock : Filter := [("price", operator "$gte" (.int64 1)), ("stock", .int64 2)]
    let part : Value := .mapping [("price", .int 3), ("stock", .int 2)]
    accepts part cheap = .ok true ∧ accepts part inStock = .ok true ∧
      accepts part (cheap.and inStock) = .ok true ∧ accepts part (cheap.or inStock) = .ok true := by
  have hint : ∀ i, Operand (.int64 i) (.int i) := fun i => .ofValue (v := .int i) rfl
  refine accepts_combined ?_ ?_ ?_ rfl rfl
  · exact formed_single rfl (.operators (by decide) (by decide) (by decide)
      (fun op operand hm hne => by
        cases List.mem_singleton.1 hm
        exact absurd rfl hne)
      fun operand hm => by
        cases List.mem_singleton.1 hm
        exact .operator (by decide) (by decide) (hint 5))
  · refine .of (by decide) (fun name content hm _ => ?_) fun name content hm hop => ?_
    · simp only [List.mem_cons, List.not_mem_nil, or_false, Prod.mk.injEq] at hm
      rcases hm with ⟨rfl, rfl⟩ | ⟨rfl, rfl⟩
      · exact .operator (by decide) (by decide) (hint 1)
      · exact .exact (hint 2)
    · simp only [List.mem_cons, List.not_mem_nil, or_false, Prod.mk.injEq] at hm
      rcases hm with ⟨rfl, rfl⟩ | ⟨rfl, rfl⟩ <;> cases hop
  · intro path hd
    by_cases hpath : "price" = path
    · subst hpath
      rfl
    · simp [denies, single, Fields.get?, hpath] at hd

/-- Two conditions under `$not` on one field end up under one `$not`, which accepts a value that one
of them refuses. -/
theorem accepts_clashing :
    let notAbove : Filter := single "a" (operator "$not" (operator "$gt" (.int64 5)))
    let notBelow : Filter := single "a" (operator "$not" (operator "$lt" (.int64 2)))
    let element : Value := .mapping [("a", .int 7)]
    accepts element notAbove = .ok false ∧ accepts element notBelow = .ok true ∧
      accepts element (notAbove.and notBelow) = .ok true :=
  ⟨rfl, rfl, rfl⟩

end Filter

namespace Term

variable {e : Filter.Element} {f : Filter} {input : Input} {v : Value} {t : Term}

/-- Whether no conjunction is among the connectives of a predicate. -/
def isAndFree : Term → Bool
  | step _ _ (.binary .and _) => false
  | step _ lhs (.binary .or rhs) => isAndFree lhs && isAndFree rhs
  | step _ subject (.unary .not) => isAndFree subject
  | _ => true

theorem separate_of_isAndFree (h : t.isAndFree = true) : t.Separate := by
  induction t using predicate_induction with
  | and id lhs rhs ihl ihr => cases h
  | or id lhs rhs ihl ihr =>
    obtain ⟨hl, hr⟩ := Bool.and_eq_true_iff.1 h
    exact ⟨ihl hl, ihr hr⟩
  | not id subject ih => exact ih h
  | elementary t ht =>
    rw [Separate]
    · trivial
    · exact ht.not_and
    · exact ht.not_or
    · exact ht.not_not

/-- What a term evaluates to does not depend on the scopes around the element. -/
def IsLocal (t : Term) : Prop :=
  ∀ (input : Input) (v : Value) (scope : Scope),
    t.outcome input (v :: scope) = t.outcome input [v]

theorem isLocal_literal (id : Nat) (w : Value) : (literal id w).IsLocal := fun _ _ _ => rfl

theorem isLocal_path {path : String} (h : t.path? = some path) : t.IsLocal := fun _ v _ => by
  rw [outcome_path h, outcome_path h]

theorem IsLocal.binary {id : Nat} {lhs rhs : Term} {op : BinaryOp} (hl : lhs.IsLocal)
    (hr : rhs.IsLocal) : (step id lhs (.binary op rhs)).IsLocal := by
  intro input v scope
  have hconnective : ∀ {stop : Bool}, op.stop? = some stop →
      (step id lhs (.binary op rhs)).outcome input (v :: scope) =
        (step id lhs (.binary op rhs)).outcome input [v] := fun hop => by
    rw [outcome_eq, outcome_eq, eval_connective hop, eval_connective hop, hl, hr]
  cases op with
  | and | or => exact hconnective rfl
  | _ =>
    rw [outcome_binary _ _ _ (by decide) (by decide), outcome_binary _ _ _ (by decide) (by decide),
      hl, hr]

/-- The operands of a comparison that is made a filter are a field of the element and a literal. -/
theorem isLocal_comparison {node id : Nat} {op : BinaryOp} {lhs rhs : Term}
    (h : Filter.comparison e node op lhs rhs = .ok f) : (step id lhs (.binary op rhs)).IsLocal := by
  have hsides : ∀ {path w} {s t : Term}, e.scalarPath? s = some path →
      t.scalarLiteral? = some w → s.IsLocal ∧ t.IsLocal := by
    intro path w s t hs ht
    obtain ⟨-, j, rfl⟩ := Filter.scalarLiteral?_eq_some ht
    exact ⟨isLocal_path (Filter.scalarPath?_eq_some hs), isLocal_literal j w⟩
  unfold Filter.comparison at h
  dsimp only at h
  split at h
  · rename_i g hg
    obtain ⟨sides, hcomparison, -⟩ := Option.bind_eq_some_iff.1 hg
    unfold Filter.comparison? at hcomparison
    split at hcomparison
    · rename_i hl hr
      obtain ⟨hl, hr⟩ := hsides hl hr
      exact hl.binary hr
    · split at hcomparison
      · rename_i hr hl
        obtain ⟨hr, hl⟩ := hsides hr hl
        exact hl.binary hr
      · cases hcomparison
  · cases h

theorem isLocal_matching {node id : Nat} {lhs rhs : Term}
    (h : Filter.matching e node lhs rhs = .ok f) :
    (step id lhs (.binary .matching rhs)).IsLocal := by
  unfold Filter.matching at h
  split at h
  · cases h
  · rename_i path hl
    split at h
    · exact (isLocal_path (Filter.scalarPath?_eq_some hl)).binary (isLocal_literal _ _)
    · cases h

theorem isLocal_flag (h : Filter.flag e t = .ok f) : t.IsLocal := by
  unfold Filter.flag at h
  split at h
  · rename_i path hpath _
    exact isLocal_path hpath
  · cases h

/-- A predicate that is made a filter looks at nothing but the element. -/
theorem isLocal_of_filterOf (h : t.filterOf e = .ok f) : t.IsLocal := by
  induction t using predicate_induction generalizing f with
  | and id lhs rhs ihl ihr | or id lhs rhs ihl ihr =>
    obtain ⟨g, hg, h⟩ := Refusal.bind_eq_ok h
    obtain ⟨g', hg', -⟩ := Refusal.bind_eq_ok h
    exact (ihl hg).binary (ihr hg')
  | not id subject ih =>
    obtain ⟨g, hg, -⟩ := Refusal.bind_eq_ok h
    intro input v scope
    rw [outcome_unary, outcome_unary, ih hg]
  | elementary t ht =>
    rcases filterOf_elementary ht h with ⟨id, w, rfl, hf⟩ | ⟨id, subject, name, rfl, hf⟩ |
      ⟨id, lhs, rhs, rfl, hf⟩ | ⟨id, op, lhs, rhs, rfl, hf⟩
    · exact isLocal_literal id w
    · exact isLocal_flag hf
    · exact isLocal_matching hf
    · exact isLocal_comparison hf

/-- A predicate without conjunctions, as a filter, is decided by the matcher as the interpreter
decides the predicate. -/
theorem accepts_of_filterOf {scope : Scope} {b : Bool} (h : t.filterOf e = .ok f)
    (hand : t.isAndFree = true) (hv : t.outcome input (v :: scope) = .ok (.bool b)) :
    Filter.accepts v f = .ok b := by
  rw [isLocal_of_filterOf h] at hv
  induction t using predicate_induction generalizing f b with
  | and id lhs rhs ihl ihr => cases hand
  | or id lhs rhs ihl ihr =>
    obtain ⟨hl, hr⟩ := Bool.and_eq_true_iff.1 hand
    obtain ⟨g, hg, h⟩ := Refusal.bind_eq_ok h
    obtain ⟨g', hg', h⟩ := Refusal.bind_eq_ok h
    cases h
    rw [Filter.accepts_or]
    rcases outcome_connective_eq_ok rfl hv with ⟨htrue, rfl⟩ | ⟨hfalse, hrest⟩
    · rw [ihl hg hl htrue]
      rfl
    · rw [ihl hg hl hfalse]
      exact ihr hg' hr hrest
  | not id subject ih =>
    obtain ⟨g, hg, h⟩ := Refusal.bind_eq_ok h
    cases h
    have hsound : g.Expresses input subject :=
      (filterOf_sound hg (separate_of_isAndFree (t := subject) hand)).1
    rw [outcome_unary] at hv
    obtain ⟨w, hw, hv⟩ := Outcome.bind_eq_ok.1 hv
    cases w with
    | bool c =>
      cases hv
      rw [Filter.accepts_negated hsound.1, ih hg hand hw]
      rfl
    | _ => cases hv
  | elementary t ht =>
    have hsound : f.Expresses input t := (filterOf_sound h (separate_of_isAndFree hand)).1
    refine Filter.accepts_of_truth ?_
    rw [hsound.2, truth_elementary ht, probe_of_outcome ht hv]
    rfl

/-- Neither above five nor named otherwise than with a `b` in front. -/
def smallB : Term :=
  let above := step 2 (literal 0 (.int 5)) (.binary .lt (step 1 (context 1 0) (.field "size")))
  let named := step 5 (step 4 (context 3 0) (.field "name"))
    (.binary .matching (literal 4 (.text "^b")))
  step 8 (step 7 above (.binary .or (step 6 named (.unary .not)))) (.unary .not)

theorem smallB_accepts :
    let e : Filter.Element := ⟨{}, .mapping [("size", .i64), ("name", .string)] none⟩
    let bolt : Value := .mapping [("size", .int 7), ("name", .text "bolt")]
    ∃ f, smallB.filterOf e = .ok f ∧ smallB.isAndFree = true ∧
      smallB.outcome (fun _ => .ok []) [bolt, .null] = .ok (.bool false) ∧
      Filter.accepts bolt f = .ok false := by
  have hfilter : smallB.filterOf ⟨{}, .mapping [("size", .i64), ("name", .string)] none⟩ = .ok _ :=
    rfl
  have houtcome : smallB.outcome (fun _ => .ok [])
      [.mapping [("size", .int 7), ("name", .text "bolt")], .null] = .ok (.bool false) := rfl
  exact ⟨_, hfilter, rfl, houtcome, accepts_of_filterOf hfilter rfl houtcome⟩

end Term

end QueryPushdown
