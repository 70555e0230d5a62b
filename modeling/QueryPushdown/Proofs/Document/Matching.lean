import QueryPushdown.Proofs.Document.Truth

/-!
# The matcher between the readings

The matcher takes conditions in order and stops at the first that fails. What it finds is the truth
in the strong reading, and it finds every truth of the weak one.
-/

namespace QueryPushdown.Filter

variable {v element : Value}

theorem acceptsAll_eq_ok {op : String} {content : Bson} {x : Bool}
    (h : acceptsAll element op content = .ok x) :
    ∃ items, content = .array items ∧ strayOperand? op items = none ∧
      everyAccepts element items = .ok x := by
  cases content with
  | array items =>
    rw [acceptsAll] at h
    split at h
    · cases h
    · rename_i hstray
      exact ⟨items, rfl, hstray, h⟩
  | _ => cases h

theorem acceptsAny_eq_ok {op : String} {content : Bson} {x : Bool}
    (h : acceptsAny element op content = .ok x) :
    ∃ items, content = .array items ∧ strayOperand? op items = none ∧
      someAccepts element items = .ok x := by
  cases content with
  | array items =>
    rw [acceptsAny] at h
    split at h
    · cases h
    · rename_i hstray
      exact ⟨items, rfl, hstray, h⟩
  | _ => cases h

mutual

/-- What the matcher finds about a value is its truth in the strong reading. -/
theorem condition_of_holds {b : Bson} {x : Bool} (h : holds v b = .ok x) :
    condition .strong v b = some x := by
  cases b with
  | document ops =>
    rw [condition]
    rw [holds] at h
    split
    · rename_i hops
      rw [if_pos hops] at h
      exact conditions_of_allHold h
    · rename_i hops
      rw [if_neg hops] at h
      exact Truth.ofOutcome_eq_some.2 h
  | _ => exact Truth.ofOutcome_eq_some.2 h
termination_by sizeOf b

theorem conditions_of_allHold {ops : List (String × Bson)} {x : Bool}
    (h : allHold v ops = .ok x) : conditions .strong v ops = some x := by
  match ops with
  | [] =>
    cases h
    rfl
  | (op, operand) :: rest =>
    rw [allHold_cons] at h
    obtain ⟨held, hheld, h⟩ := Outcome.bind_eq_ok.1 h
    have hop : operatorTruth .strong v op operand = some held := by
      unfold operatorTruth
      by_cases hnot : op = "$not"
      · subst hnot
        obtain ⟨b, hb, hheld⟩ := Outcome.bind_eq_ok.1 hheld
        cases hheld
        rw [if_pos rfl, condition_of_holds hb]
        rfl
      · rw [if_neg hnot, hheld]
        rfl
    rw [conditions]
    change Reading.strong.meet (operatorTruth .strong v op operand) _ = _
    rw [hop]
    cases held with
    | true =>
      rw [Reading.true_meet]
      exact conditions_of_allHold h
    | false =>
      cases h
      exact Reading.strong_false_meet _
termination_by sizeOf ops

end

mutual

/-- What the matcher finds about an element is the truth of the filter in the strong reading. -/
theorem truth_of_accepts {f : List (String × Bson)} {x : Bool} (h : accepts element f = .ok x) :
    truth .strong element f = some x := by
  match f with
  | [] =>
    cases h
    rfl
  | (name, content) :: rest =>
    rw [accepts_cons] at h
    obtain ⟨held, hheld, h⟩ := Outcome.bind_eq_ok.1 h
    have hfield : fieldTruth .strong element name content = some held := by
      unfold fieldAccepts at hheld
      split at hheld
      · obtain ⟨items, rfl, hstray, hitems⟩ := acceptsAll_eq_ok hheld
        exact truths_of_everyAccepts hstray hitems
      · obtain ⟨items, rfl, hstray, hitems⟩ := acceptsAny_eq_ok hheld
        change Truth.neg (refutations .strong element items) = _
        rw [refutations_of_someAccepts hstray hitems]
        cases held <;> rfl
      · obtain ⟨y, hy, hheld⟩ := Outcome.bind_eq_ok.1 hheld
        cases hheld
        obtain ⟨items, rfl, hstray, hitems⟩ := acceptsAny_eq_ok hy
        exact refutations_of_someAccepts hstray hitems
      · split at hheld
        · cases hheld
        · rename_i hop
          rw [fieldTruth_path _ _ (eq_false_of_ne_true hop)]
          exact condition_of_holds hheld
    rw [truth, hfield]
    cases held with
    | true =>
      rw [Reading.true_meet]
      exact truth_of_accepts h
    | false =>
      cases h
      exact Reading.strong_false_meet _
termination_by sizeOf f

theorem truths_of_everyAccepts {op : String} {items : List Bson} {x : Bool}
    (hstray : strayOperand? op items = none) (h : everyAccepts element items = .ok x) :
    truths .strong element items = some x := by
  match items with
  | [] =>
    cases h
    rfl
  | .document f :: rest =>
    rw [everyAccepts] at h
    obtain ⟨held, hheld, h⟩ := Outcome.bind_eq_ok.1 h
    rw [truths, truth_of_accepts hheld]
    cases held with
    | true =>
      rw [Reading.true_meet]
      exact truths_of_everyAccepts hstray h
    | false =>
      cases h
      exact Reading.strong_false_meet _
  | .null :: _ | .bool _ :: _ | .int32 _ :: _ | .int64 _ :: _ | .double _ :: _ | .text _ :: _
  | .array _ :: _ | .foreign _ :: _ => cases hstray
termination_by sizeOf items

theorem refutations_of_someAccepts {op : String} {items : List Bson} {x : Bool}
    (hstray : strayOperand? op items = none) (h : someAccepts element items = .ok x) :
    refutations .strong element items = some !x := by
  match items with
  | [] =>
    cases h
    rfl
  | .document f :: rest =>
    rw [someAccepts] at h
    obtain ⟨held, hheld, h⟩ := Outcome.bind_eq_ok.1 h
    rw [refutations, truth_of_accepts hheld]
    cases held with
    | true =>
      cases h
      exact Reading.strong_false_meet _
    | false =>
      change Reading.strong.meet (some true) _ = _
      rw [Reading.true_meet]
      exact refutations_of_someAccepts hstray h
  | .null :: _ | .bool _ :: _ | .int32 _ :: _ | .int64 _ :: _ | .double _ :: _ | .text _ :: _
  | .array _ :: _ | .foreign _ :: _ => cases hstray
termination_by sizeOf items

end

mutual

/-- The matcher finds every truth of the weak reading about a value. -/
theorem holds_of_condition {b : Bson} {x : Bool} (h : condition .weak v b = some x) :
    holds v b = .ok x := by
  cases b with
  | document ops =>
    rw [holds]
    rw [condition] at h
    split
    · rename_i hops
      rw [if_pos hops] at h
      exact allHold_of_conditions h
    · rename_i hops
      rw [if_neg hops] at h
      exact Truth.ofOutcome_eq_some.1 h
  | _ => exact Truth.ofOutcome_eq_some.1 h
termination_by sizeOf b

theorem allHold_of_conditions {ops : List (String × Bson)} {x : Bool}
    (h : conditions .weak v ops = some x) : allHold v ops = .ok x := by
  match ops with
  | [] =>
    cases h
    rfl
  | (op, operand) :: rest =>
    rw [conditions] at h
    obtain ⟨a, b, ha, hb, rfl⟩ := Reading.weak_eq_some h
    have hop : meets v op operand = .ok a := by
      by_cases hnot : op = "$not"
      · subst hnot
        rw [if_pos rfl] at ha
        obtain ⟨y, hy, rfl⟩ := Option.map_eq_some_iff.1 ha
        change (do pure !(← holds v operand)) = _
        rw [holds_of_condition hy]
        rfl
      · rw [if_neg hnot] at ha
        exact Truth.ofOutcome_eq_some.1 ha
    rw [allHold_cons, hop]
    cases a with
    | true => exact allHold_of_conditions hb
    | false => rfl
termination_by sizeOf ops

end

mutual

/-- The matcher finds every truth of the weak reading about an element. -/
theorem accepts_of_truth {f : List (String × Bson)} {x : Bool}
    (h : truth .weak element f = some x) : accepts element f = .ok x := by
  match f with
  | [] =>
    cases h
    rfl
  | (name, content) :: rest =>
    rw [truth] at h
    obtain ⟨a, b, ha, hb, rfl⟩ := Reading.weak_eq_some h
    rw [accepts_cons, fieldAccepts_of_fieldTruth ha]
    cases a with
    | true => exact accepts_of_truth hb
    | false => rfl
termination_by sizeOf f

theorem fieldAccepts_of_fieldTruth {name : String} {content : Bson} {x : Bool}
    (h : fieldTruth .weak element name content = some x) :
    fieldAccepts element name content = .ok x := by
  have hpath : ∀ {b : Bson}, name ≠ "$and" → name ≠ "$or" → name ≠ "$nor" →
      (if isOperator name then none else condition .weak (element.atPath name) b) = some x →
      fieldAccepts element name b = .ok x := by
    intro b hand hor hnor hb
    simp only [fieldAccepts]
    split at hb
    · cases hb
    · rename_i hop
      rw [if_neg hop]
      exact holds_of_condition hb
  cases content with
  | array items =>
    rw [fieldTruth] at h
    split at h
    · subst name
      obtain ⟨hstray, hitems⟩ := everyAccepts_of_truths "$and" h
      change acceptsAll element "$and" _ = _
      rw [acceptsAll, hstray]
      exact hitems
    · rename_i hand
      split at h
      · subst name
        obtain ⟨y, hy, rfl⟩ := Option.map_eq_some_iff.1 h
        obtain ⟨hstray, hitems⟩ := someAccepts_of_refutations "$or" hy
        change acceptsAny element "$or" _ = _
        rw [acceptsAny, hstray]
        exact hitems
      · rename_i hor
        split at h
        · subst name
          obtain ⟨hstray, hitems⟩ := someAccepts_of_refutations "$nor" h
          change (do pure !(← acceptsAny element "$nor" _)) = _
          rw [acceptsAny, hstray]
          dsimp only
          rw [hitems]
          cases x <;> rfl
        · rename_i hnor
          exact hpath hand hor hnor h
  | _ =>
    change (if isOperator name = true then none
      else condition .weak (element.atPath name) _) = some x at h
    have hop : isOperator name = false := by
      by_cases hop : isOperator name = true
      · rw [if_pos hop] at h
        cases h
      · exact eq_false_of_ne_true hop
    refine hpath ?_ ?_ ?_ h <;> rintro rfl <;> cases hop
termination_by sizeOf content

theorem everyAccepts_of_truths (op : String) {items : List Bson} {x : Bool}
    (h : truths .weak element items = some x) :
    strayOperand? op items = none ∧ everyAccepts element items = .ok x := by
  match items with
  | [] =>
    cases h
    exact ⟨rfl, rfl⟩
  | .document f :: rest =>
    rw [truths] at h
    obtain ⟨a, b, ha, hb, rfl⟩ := Reading.weak_eq_some h
    obtain ⟨hstray, hrest⟩ := everyAccepts_of_truths op hb
    refine ⟨hstray, ?_⟩
    rw [everyAccepts, accepts_of_truth ha]
    cases a with
    | true => exact hrest
    | false => rfl
  | .null :: _ | .bool _ :: _ | .int32 _ :: _ | .int64 _ :: _ | .double _ :: _ | .text _ :: _
  | .array _ :: _ | .foreign _ :: _ => cases h
termination_by sizeOf items

theorem someAccepts_of_refutations (op : String) {items : List Bson} {x : Bool}
    (h : refutations .weak element items = some x) :
    strayOperand? op items = none ∧ someAccepts element items = .ok !x := by
  match items with
  | [] =>
    cases h
    exact ⟨rfl, rfl⟩
  | .document f :: rest =>
    rw [refutations] at h
    obtain ⟨a, b, ha, hb, rfl⟩ := Reading.weak_eq_some h
    obtain ⟨y, hy, rfl⟩ := Option.map_eq_some_iff.1 ha
    obtain ⟨hstray, hrest⟩ := someAccepts_of_refutations op hb
    refine ⟨hstray, ?_⟩
    rw [someAccepts, accepts_of_truth hy]
    cases y with
    | true => rfl
    | false => exact hrest
  | .null :: _ | .bool _ :: _ | .int32 _ :: _ | .int64 _ :: _ | .double _ :: _ | .text _ :: _
  | .array _ :: _ | .foreign _ :: _ => cases h
termination_by sizeOf items

end

end QueryPushdown.Filter
