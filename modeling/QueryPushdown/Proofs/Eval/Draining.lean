import QueryPushdown.Proofs.Eval.Eager

/-!
# What steps make of values

On a complete value each step is an operation on lists: what it yields, drained, is what the list
operation gives. A bound from the end needs a buffer to be reserved, which is all that can keep a
window from its part of the list.
-/

namespace QueryPushdown

namespace Window

/-- How many places from the front a bound is, in a list of `n` elements. -/
def place (n : Nat) (bound : Int64) : Nat :=
  if 0 ≤ bound then bound.toInt.toNat else n - bound.toInt.natAbs

/-- The part of a list from one bound up to another. -/
def sublist {α : Type} (start stop : Option Int64) (xs : List α) : List α :=
  (xs.take ((stop.map (place xs.length)).getD xs.length)).drop (place xs.length (start.getD 0))

/-- How many elements the buffer of a slice is to hold. -/
def sliceBuffer (start stop : Option Int64) : Nat :=
  if start.getD 0 < 0 then (start.getD 0).toInt.natAbs
  else match stop with
    | none => 0
    | some stop => if 0 ≤ stop then 0 else stop.toInt.natAbs + 1

/-- How many elements the buffer of a position is to hold. -/
def indexBuffer (position : Int64) : Nat := if 0 ≤ position then 0 else position.toInt.natAbs

end Window

namespace Value

/-- The elements of a list or the characters of a text; nothing else has any. -/
def sequence (v : Value) : Outcome (List Value) :=
  match v with
  | list _ | text _ => .ok v.elements
  | v => .error (.fault (.sequenceRequired v.kind))

/-- A part of a list or of a text. -/
def slice (start stop : Option Int64) : Value → Outcome Value
  | text s => .ok (.text (String.ofList (Window.sublist start stop s.toList)))
  | list vs => .ok (.list (Window.sublist start stop vs))
  | v => .error (.fault (.sequenceRequired v.kind))

/-- The element of a list at a position, a negative one counting from the end. -/
def elementAt (position : Int64) (vs : List Value) : Outcome Value :=
  let place := if 0 ≤ position then position.toInt else position.toInt + vs.length
  match if 0 ≤ place then vs[place.toNat]? else none with
  | some v => .ok v
  | none => .error (.ofCause (.indexOutOfRange position.toInt vs.length))

/-- The first element that no later one betters, null for an empty list. -/
def extreme (test : Ordering → Bool) (vs : List Value) : Outcome Value := do
  pure ((← vs.foldlM (Operator.better test) none).getD .null)

/-- The number of characters, fields or elements, or another reduction of a list. -/
def aggregate (op : AggregateOp) (v : Value) : Outcome Value :=
  match op, v with
  | .len, text s => .ok (.int (Int64.ofNat s.length))
  | .len, mapping fields => .ok (.int (Int64.ofNat fields.length))
  | .len, list vs => .ok (.int (Int64.ofNat vs.length))
  | .sum, list vs => vs.foldlM Operator.accumulate (.int 0)
  | .min, list vs => extreme Ordering.isLT vs
  | .max, list vs => extreme Ordering.isGT vs
  | _, v => .error (.fault (.sequenceRequired v.kind))

/-- The only element of a list; `missing` stands in for none. -/
def only (context : String) (missing : Outcome Value) : List Value → Outcome Value
  | [] => missing
  | [v] => .ok v
  | _ => .error (.ofCause (.multipleResults context))

end Value

namespace Yields

variable {σ : Type}

theorem collect_eq_mapM (f : Value → Outcome Value) (vs : List Value) :
    collect (mapWith f (ofList vs)) = vs.mapM f := by
  induction vs with
  | nil => rfl
  | cons v vs ih =>
    rw [List.mapM_cons, ← ih]
    change collect (f v :: mapWith f (ofList vs)) = _
    cases f v <;> rfl

theorem fold_eq_foldlM (f : σ → Value → Outcome σ) (s : σ) (vs : List Value) :
    fold f s (ofList vs) = vs.foldlM f s := by
  induction vs generalizing s with
  | nil => rfl
  | cons v vs ih =>
    rw [List.foldlM_cons, ofList_cons, fold]
    exact congrArg (f s v >>= ·) (funext fun s' => ih s')

theorem foldAll_eq_foldlM (f : σ → Value → Outcome σ) (s : σ) (vs : List Value) :
    foldAll f (.ok s) (ofList vs) = vs.foldlM f s := by
  induction vs generalizing s with
  | nil => rfl
  | cons v vs ih =>
    rw [List.foldlM_cons, ofList_cons, foldAll]
    change foldAll f (f s v) (ofList vs) = _
    cases f s v with
    | error e => exact Related.foldAll_error f e _
    | ok s' => exact ih s'

/-- Filtering a list is filtering what it yields; the elements kept so far come in reverse. -/
theorem filterAuxM_eq (test : Value → Outcome Bool) (kept vs : List Value) :
    List.filterAuxM test vs kept =
      (do pure ((← collect (keep test (ofList vs))).reverse ++ kept)) := by
  induction vs generalizing kept with
  | nil => rfl
  | cons v vs ih =>
    rw [List.filterAuxM, ofList_cons, keep]
    cases test v with
    | error e => rfl
    | ok b =>
      change List.filterAuxM test vs (cond b (v :: kept) kept) = _
      rw [ih]
      cases b with
      | false => rfl
      | true =>
        simp only [cond_true, collect]
        cases collect (keep test (ofList vs)) with
        | error e => rfl
        | ok ws => simp [bind, Except.bind, pure, Except.pure]

theorem filterM_eq (test : Value → Outcome Bool) (vs : List Value) :
    vs.filterM test = collect (keep test (ofList vs)) := by
  rw [List.filterM, filterAuxM_eq]
  cases collect (keep test (ofList vs)) with
  | error e => rfl
  | ok ws => simp [bind, Except.bind, pure, Except.pure]

/-- Rows made one after the other come in reverse. -/
theorem fold_rows {α β : Type} (f : Value → Outcome α) (row : α → Value → β) (rows : List β)
    (vs : List Value) :
    fold (fun rows v => do pure (row (← f v) v :: rows)) rows (ofList vs) =
      (do pure ((← vs.mapM fun v => do pure (row (← f v) v)).reverse ++ rows)) := by
  induction vs generalizing rows with
  | nil => rfl
  | cons v vs ih =>
    rw [List.mapM_cons, ofList_cons, fold]
    cases f v with
    | error e => rfl
    | ok a =>
      change fold _ (row a v :: rows) (ofList vs) = (do
        let more ← (do pure (row a v :: (← vs.mapM _)))
        pure (more.reverse ++ rows))
      rw [ih]
      cases vs.mapM fun v => do pure (row (← f v) v) with
      | error e => rfl
      | ok more => simp [bind, Except.bind, pure, Except.pure]

theorem fold_count (n : Nat) (vs : List Value) :
    fold (fun (n : Nat) _ => .ok (n + 1)) n (ofList vs) = .ok (n + vs.length) := by
  induction vs generalizing n with
  | nil => rfl
  | cons v vs ih =>
    change fold (fun (n : Nat) _ => .ok (n + 1)) (n + 1) (ofList vs) = _
    rw [ih, List.length_cons, Nat.add_assoc, Nat.add_comm 1]

theorem nth_ofList (position : Int64) (n seen : Nat) (vs : List Value) :
    nth position n seen (ofList vs) = match vs[n]? with
      | some v => .ok v
      | none => .error (.ofCause (.indexOutOfRange position.toInt (seen + vs.length))) := by
  induction vs generalizing n seen with
  | nil => cases n <;> rfl
  | cons v vs ih =>
    cases n with
    | zero => rfl
    | succ n =>
      rw [ofList_cons, nth, ih, List.getElem?_cons_succ, List.length_cons, Nat.add_assoc,
        Nat.add_comm 1]

end Yields

namespace Window

variable {start stop : Option Int64} {position : Int64} {n : Nat}

theorem sublist_map {α β : Type} (f : α → β) (xs : List α) :
    sublist start stop (xs.map f) = (sublist start stop xs).map f := by
  rw [sublist, sublist, List.length_map, ← List.map_take, ← List.map_drop]

theorem place_of_nonneg {bound : Int64} (h : 0 ≤ bound) (n : Nat) :
    place n bound = bound.toInt.toNat := if_pos h

theorem place_of_neg {bound : Int64} (h : ¬ 0 ≤ bound) (n : Nat) :
    place n bound = n - bound.toInt.natAbs := if_neg h

theorem outcome_trailing_ofList (h : reserve n = .ok ()) (vs : List Value) :
    (trailing n (Pulls.ofList vs)).outcome = .ok (vs.drop (vs.length - n), vs.length) := by
  rw [outcome_trailing, h, Pulls.yields_ofList, Yields.collect_ofList]
  rfl

theorem outcome_fromEnd {k : Nat} (h : reserve k = .ok ()) (stop : Option Int64)
    (vs : List Value) : (fromEnd (Pulls.ofList vs) k stop).outcome = .ok (Pulls.ofList
      ((vs.take ((stop.map (place vs.length)).getD vs.length)).drop (vs.length - k))) := by
  rw [fromEnd_eq, Run.outcome_bind, outcome_trailing_ofList h, List.drop_take]
  refine congrArg (fun ws => Except.ok (Pulls.ofList ws)) (List.take_eq_take_iff.2 ?_)
  simp only [List.length_drop]
  cases stop with
  | none =>
    simp only [stopAt, Option.map_none, Option.getD_none]
    omega
  | some stop =>
    simp only [stopAt, Option.map_some, Option.getD_some, place]
    split <;> omega

/-- A slice of a list yields the part of the list between its bounds. -/
theorem slice_eq_sublist (h : reserve (sliceBuffer start stop) = .ok ()) (vs : List Value) :
    ∃ qs, (slice (Pulls.ofList vs) start stop).outcome = .ok qs ∧
      qs.yields = Yields.ofList (sublist start stop vs) := by
  unfold sliceBuffer at h
  unfold slice sublist
  dsimp only
  by_cases hstart : start.getD 0 < 0
  · -- A start from the end drains the sequence into a window.
    rw [if_pos hstart] at h ⊢
    rw [place_of_neg (Int64.not_le.2 hstart)]
    exact ⟨_, outcome_fromEnd h stop vs, Pulls.yields_ofList _⟩
  · -- A start from the front leaves it lazy; a stop from the end holds elements back.
    have hskip : ((Pulls.ofList vs).skip (start.getD 0).toInt.toNat).yields =
        Yields.ofList (vs.drop (start.getD 0).toInt.toNat) := by
      rw [Pulls.yields_skip, Pulls.yields_ofList, Yields.skip_ofList]
    rw [if_neg hstart] at h ⊢
    rw [place_of_nonneg (Int64.not_lt.1 hstart)]
    cases stop with
    | none =>
      refine ⟨_, rfl, ?_⟩
      rw [hskip, Option.map_none, Option.getD_none, List.take_length]
    | some stop =>
      rw [Option.map_some, Option.getD_some, List.drop_take]
      dsimp only at h ⊢
      by_cases hstop : 0 ≤ stop
      · rw [if_pos hstop, place_of_nonneg hstop]
        refine ⟨_, rfl, ?_⟩
        rw [Pulls.yields_take, hskip, Yields.take_ofList]
      · rw [if_neg hstop] at h ⊢
        rw [place_of_neg hstop, Run.outcome_bind, Run.outcome_lift, h]
        refine ⟨_, rfl, ?_⟩
        rw [Pulls.yields_holdBack, hskip, Yields.holdBack_ofList (Nat.zero_le _), List.nil_append,
          List.length_drop, Nat.sub_right_comm]

/-- A position in a list yields the element there. -/
theorem index_eq_elementAt (h : reserve (indexBuffer position) = .ok ()) (vs : List Value) :
    (index (Pulls.ofList vs) position).outcome = Value.elementAt position vs := by
  unfold indexBuffer at h
  unfold index Value.elementAt
  dsimp only
  by_cases hp : 0 ≤ position
  · have hnat : 0 ≤ position.toInt := Int64.le_iff_toInt_le.1 hp
    rw [if_pos hp, if_pos hp, if_pos hnat, Pulls.outcome_nth, Pulls.yields_ofList,
      Yields.nth_ofList]
    cases vs[position.toInt.toNat]? with
    | none =>
      change Except.error _ = Except.error _
      rw [Nat.zero_add]
    | some v => rfl
  · have hneg : position.toInt < 0 := Int64.lt_iff_toInt_lt.1 (Int64.not_le.1 hp)
    rw [if_neg hp] at h ⊢
    rw [if_neg hp, Run.outcome_bind, outcome_trailing_ofList h]
    -- The element is the first of the window, unless the list is too short to fill the window.
    by_cases hk : position.toInt.natAbs ≤ vs.length
    · have hlt : vs.length - position.toInt.natAbs < vs.length := by omega
      have hplace : (position.toInt + vs.length).toNat = vs.length - position.toInt.natAbs := by
        omega
      rw [if_pos (by omega), hplace, List.getElem?_eq_getElem hlt, List.drop_eq_getElem_cons hlt]
      change Run.outcome (if _ then _ else _) = _
      rw [if_neg (by rw [List.length_cons, List.length_drop]; omega)]
      rfl
    · rw [if_neg (by omega), Nat.sub_eq_zero_of_le (by omega), List.drop_zero]
      cases vs with
      | nil => rfl
      | cons v vs =>
        change Run.outcome (if _ then _ else _) = _
        rw [if_pos (Nat.lt_of_not_le hk)]
        rfl

end Window

namespace Evaluated

variable {w : Value}

theorem characters_eq (s : String) : characters s = Pulls.ofList (Value.text s).elements := by
  simp [characters, Pulls.ofList, Value.elements]

/-- A node that gives a value gives it drained. -/
theorem drained_value {α : Type} (r : Run α) (f : α → Value) :
    ((do pure (value (f (← r))) : Run Evaluated).outcome >>= fun e => e.toValue.outcome) =
      (do pure (f (← r.outcome))) := by
  rw [Run.outcome_bind]
  cases r.outcome <;> rfl

theorem drained (r : Run Value) :
    ((do pure (value (← r)) : Run Evaluated).outcome >>= fun e => e.toValue.outcome) =
      r.outcome := (drained_value r id).trans (bind_pure _)

/-- A use of the elements of a value goes through its sequence. -/
theorem outcome_overSequence {α : Type} (w : Value) (k : Pulls → Run α) :
    (do k (← (value w).toSequence) : Run α).outcome =
      (do (k (Pulls.ofList (← w.sequence))).outcome) := by
  rw [Run.outcome_bind]
  cases w with
  | text s => exact congrArg (fun ps => (k ps).outcome) (characters_eq s)
  | _ => rfl

/-- The characters of a text joined again. -/
theorem outcome_joined {s : String} {ps : Pulls}
    (h : ps.yields = Yields.ofList (Value.text s).elements) : (joined ps).outcome = .ok s := by
  have hjoin : String.join (s.toList.map String.singleton) = s := by
    rw [← String.toList_inj, String.toList_join, List.flatMap_map]
    simp
  rw [joined, Run.outcome_bind, Pulls.outcome_drain, h, Yields.collect_ofList]
  change Except.ok (String.join (List.filterMap Value.asText? (s.toList.map _))) = _
  rw [List.filterMap_map]
  change Except.ok (String.join (List.filterMap (fun c => some (String.singleton c)) s.toList)) = _
  rw [List.filterMap_eq_map', hjoin]

end Evaluated

/-- What a step makes of a value, a sequence drained into a list. -/
def Step.outcome (input : Input) (scope : Scope) (subject : Term) (w : Value) (action : Step) :
    Outcome Value :=
  (action.act input scope subject (.value w)).outcome >>= fun e => e.toValue.outcome

namespace Step

variable {input : Input} {scope : Scope} {subject : Term} {w : Value}

/-- A step over a sequence, drained for every list. -/
theorem outcome_over {action : Step} {k : Pulls → Run Evaluated}
    {f : List Value → Outcome Value}
    (hact : action.act input scope subject (.value w) = do k (← (Evaluated.value w).toSequence))
    (h : ∀ vs, ((k (Pulls.ofList vs)).outcome >>= fun e => e.toValue.outcome) = f vs) :
    action.outcome input scope subject w = (do f (← w.sequence)) := by
  rw [outcome, hact, Evaluated.outcome_overSequence, bind_assoc]
  exact congrArg _ (funext h)

theorem outcome_filter (predicate : Term) :
    (filter predicate).outcome input scope subject w = (do
      let vs ← w.sequence
      let kept ← vs.filterM fun v => do (← predicate.outcome input (v :: scope)).toBool
      pure (.list kept)) := by
  refine outcome_over rfl fun vs => ?_
  change (Evaluated.toValue (.pulls _)).outcome = _
  rw [Evaluated.outcome_toValue_of_yields rfl, Pulls.yields_map_keepIf, Pulls.yields_ofList,
    Yields.filterM_eq]
  simp only [Term.outcome_operand]
  rfl

theorem outcome_map (transform : Term) :
    (map transform).outcome input scope subject w = (do
      let vs ← w.sequence
      pure (.list (← vs.mapM fun v => transform.outcome input (v :: scope)))) := by
  refine outcome_over rfl fun vs => ?_
  change (Evaluated.toValue (.pulls _)).outcome = _
  rw [Evaluated.outcome_toValue_of_yields rfl, Pulls.yields_map_mapWith, Pulls.yields_ofList,
    Yields.collect_eq_mapM]
  rfl

theorem outcome_sort (keys : List (Term × Bool)) :
    (sort keys).outcome input scope subject w = (do
      let vs ← w.sequence
      let rows ← vs.mapM fun v => do
        pure (⟨← (evalKeys input (v :: scope) keys).outcome, v⟩ : Row)
      pure (.list (Sorting.rows rows (keys.map Prod.snd)))) := by
  refine outcome_over rfl fun vs => ?_
  refine (Evaluated.drained_value (Pulls.foldRun _ _ _) fun (rows : List Row) =>
    Value.list (Sorting.rows (List.reverse rows) (keys.map Prod.snd))).trans ?_
  rw [Pulls.outcome_foldRun, Pulls.yields_ofList]
  simp only [Run.outcome_bind, Run.outcome_pure]
  refine (congrArg (· >>= _) (Yields.fold_rows (fun v =>
    (evalKeys input (v :: scope) keys).outcome) Row.mk [] vs)).trans ?_
  rw [bind_assoc]
  refine congrArg _ (funext fun rows => ?_)
  rw [pure_bind, List.append_nil, List.reverse_reverse]

theorem outcome_slice {start stop : Option Int64}
    (h : Window.reserve (Window.sliceBuffer start stop) = .ok ()) :
    (slice start stop).outcome input scope subject w = w.slice start stop := by
  unfold outcome
  simp only [act]
  cases w with
  | text s =>
    obtain ⟨qs, hqs, hyields⟩ := Window.slice_eq_sublist h (Value.text s).elements
    have hpart : qs.yields = Yields.ofList
        (Value.text (String.ofList (Window.sublist start stop s.toList))).elements := by
      rw [hyields, Value.elements, Value.elements, Window.sublist_map, String.toList_ofList]
    unfold Evaluated.slice
    dsimp only
    rw [Evaluated.characters_eq, Run.outcome_bind, hqs]
    refine (Evaluated.drained_value _ Value.text).trans ?_
    rw [Evaluated.outcome_joined hpart]
    rfl
  | list vs =>
    obtain ⟨qs, hqs, hyields⟩ := Window.slice_eq_sublist h vs
    change ((do pure (.pulls (← Window.slice (Pulls.ofList vs) start stop)) :
      Run Evaluated).outcome >>= _) = _
    rw [Run.outcome_bind, hqs]
    change (Evaluated.toValue (.pulls qs)).outcome = _
    rw [Evaluated.outcome_toValue_of_yields rfl, hyields, Yields.collect_ofList]
    rfl
  | _ => rfl

theorem outcome_index {position : Int64}
    (h : Window.reserve (Window.indexBuffer position) = .ok ()) :
    (index position).outcome input scope subject w =
      (do Value.elementAt position (← w.sequence)) := by
  refine outcome_over rfl fun vs => ?_
  rw [← Window.index_eq_elementAt h]
  exact Evaluated.drained _

theorem outcome_groupby (key : Term) (aggregates : List (String × Term)) :
    (groupby key aggregates).outcome input scope subject w = (do
      let vs ← w.sequence
      let groups ← vs.foldlM (fun (groups : Groups) v => do
        pure (groups.insert (← key.outcome input (v :: scope)) v)) {}
      let members ← groups.groups.mapM fun (k, members) => do
        if aggregates.isEmpty then
          pure (Value.mapping [("key", k), ("group", .list members)])
        else
          let fields ← (evalFields input (.list members :: scope) aggregates).outcome
          pure (Value.mapping (Fields.extend [("key", k)] fields))
      pure (.list members)) := by
  refine outcome_over rfl fun vs => ?_
  rw [Run.outcome_bind, Pulls.outcome_foldRun, Pulls.yields_ofList, Yields.fold_eq_foldlM,
    bind_assoc]
  simp only [Term.outcome_operand, Run.outcome_pure]
  refine congrArg _ (funext fun groups => ?_)
  refine (Evaluated.drained_value _ Value.list).trans ?_
  rw [Run.outcome_mapM]
  refine congrArg (· >>= _) (congrArg (List.mapM · groups.groups) (funext fun group => ?_))
  split
  · rfl
  · exact Run.outcome_bind _ _

theorem outcome_distinct :
    distinct.outcome input scope subject w = (do pure (.list (Seen.fresh {} (← w.sequence)))) := by
  refine outcome_over rfl fun vs => ?_
  change (Evaluated.toValue (.pulls _)).outcome = _
  rw [Evaluated.outcome_toValue_of_yields rfl, Pulls.yields_distinct, Pulls.yields_ofList,
    Yields.distinct_ofList, Yields.collect_ofList]
  rfl

/-- The only element of a value, `missing` standing in for none. -/
private theorem outcome_only (missing : Run Value) :
    ((do pure (.value (← (Evaluated.value w).one subject missing)) : Run Evaluated).outcome >>=
      fun e => e.toValue.outcome) =
      (do Value.only subject.oneContext missing.outcome (← w.sequence)) := by
  refine (Evaluated.drained _).trans ?_
  unfold Evaluated.one
  rw [Evaluated.outcome_overSequence]
  refine congrArg _ (funext fun vs => ?_)
  rcases vs with - | ⟨v, - | ⟨u, vs⟩⟩ <;> rfl

theorem outcome_one : one.outcome input scope subject w = (do
    let missing := .error (.ofCause (.emptyResult subject.oneContext))
    Value.only subject.oneContext missing (← w.sequence)) := outcome_only _

theorem outcome_oneOr (default : Term) :
    (oneOr default).outcome input scope subject w = (do
      Value.only subject.oneContext (default.outcome input scope) (← w.sequence)) := outcome_only _

theorem outcome_aggregate (op : AggregateOp) :
    (aggregate op).outcome input scope subject w = w.aggregate op := by
  refine (Evaluated.drained _).trans ?_
  cases w with
  | list vs =>
    rw [Evaluated.aggregate_of_yields rfl]
    change (Operator.aggregate op (Pulls.ofList vs)).outcome = _
    cases op with
    | len =>
      rw [Operator.aggregate, Run.outcome_bind, Pulls.outcome_foldRun, Pulls.yields_ofList]
      simp only [Run.outcome_pure, Yields.fold_count, Nat.zero_add]
      rfl
    | sum =>
      rw [Operator.aggregate, Pulls.outcome_foldAll, Pulls.yields_ofList, Yields.foldAll_eq_foldlM]
      rfl
    | min | max =>
      rw [Operator.aggregate, Operator.extreme, Run.outcome_bind, Pulls.outcome_foldRun,
        Pulls.yields_ofList, Yields.fold_eq_foldlM]
      rfl
  | _ => cases op <;> rfl

theorem outcome_field (name : String) :
    (field name).outcome input scope subject w = w.field name :=
  Evaluated.drained (.ofOutcome (w.field name))

theorem outcome_unary (op : UnaryOp) :
    (unary op).outcome input scope subject w = Operator.unary op w :=
  Evaluated.drained (.ofOutcome (Operator.unary op w))

theorem outcome_binary {op : BinaryOp} (hand : op ≠ .and) (hor : op ≠ .or) (rhs : Term) :
    (binary op rhs).outcome input scope subject w =
      (do Operator.binary op w (← rhs.outcome input scope)) := by
  have hact : (binary op rhs).act input scope subject (.value w) = (do
      let b ← (← rhs.eval input scope).toValue
      pure (.value (← Operator.binary op w b))) := by
    cases op <;> first | rfl | exact absurd rfl hand | exact absurd rfl hor
  rw [outcome, hact, Term.outcome_operand, bind_assoc]
  refine congrArg _ (funext fun b => ?_)
  exact Evaluated.drained (.ofOutcome (Operator.binary op w b))

/-- What the second operand of a connective decides. -/
private theorem outcome_decide (rhs : Term) :
    ((do
      let b ← (← rhs.eval input scope).toValue
      pure (.value (.bool (← b.toBool))) : Run Evaluated).outcome >>= fun e => e.toValue.outcome) =
      (do pure (.bool (← (← rhs.outcome input scope).toBool))) := by
  rw [Term.outcome_operand, bind_assoc]
  exact congrArg _ (funext fun b => Evaluated.drained_value (.ofOutcome b.toBool) Value.bool)

/-- A connective looks at its first operand, and at what that leaves open. -/
private theorem outcome_connective {x : Outcome Bool} {rest : Bool → Run Evaluated} :
    ((do
      let b ← liftM x
      rest b : Run Evaluated).outcome >>= fun e => e.toValue.outcome) =
      x >>= fun b => (rest b).outcome >>= fun e => e.toValue.outcome := by
  rw [Run.outcome_bind, Run.outcome_lift, bind_assoc]

theorem outcome_and (rhs : Term) :
    (binary .and rhs).outcome input scope subject w = (do
      if ← w.toBool then pure (.bool (← (← rhs.outcome input scope).toBool))
      else pure (.bool false)) := by
  refine outcome_connective.trans (congrArg _ (funext fun b => ?_))
  cases b with
  | false => rfl
  | true => exact outcome_decide rhs

theorem outcome_or (rhs : Term) :
    (binary .or rhs).outcome input scope subject w = (do
      if ← w.toBool then pure (.bool true)
      else pure (.bool (← (← rhs.outcome input scope).toBool))) := by
  refine outcome_connective.trans (congrArg _ (funext fun b => ?_))
  cases b with
  | false => exact outcome_decide rhs
  | true => rfl

end Step

end QueryPushdown
