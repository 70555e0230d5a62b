import QueryPushdown.Proofs.Eval.Steps

/-!
# Bounds from either end

A slice gives the elements at the positions between its bounds, and an index the element at its
position, wherever the bounds stand: a negative one counts from the end. Each has its own way to go
through a sequence, skipping, ending, holding elements back or keeping the last ones, and all of
them come to the same. Only the buffer that a bound from the end asks for may be too large to
reserve.
-/

namespace QueryPushdown

namespace Window

variable {α : Type} {start stop : Option Int64} {position : Int64}

/-- Where a bound stands in a sequence of `n` elements. A negative one counts from the end, up to
the front. -/
def standing (n : Nat) (bound : Int64) : Int :=
  if bound < 0 then max (n + bound.toInt) 0 else bound.toInt

/-- The elements at the positions from one bound on and before another, from the front and up to the
end where a bound is missing. -/
def part (start stop : Option Int64) (xs : List α) : List α :=
  let lo := (start.map (standing xs.length)).getD 0
  let hi := (stop.map (standing xs.length)).getD xs.length
  (xs.zipIdx.filter fun p => lo ≤ p.2 ∧ p.2 < hi).map Prod.fst

theorem standing_eq_place (n : Nat) (bound : Int64) : standing n bound = place n bound := by
  unfold standing place
  by_cases h : 0 ≤ bound
  · have hnat : 0 ≤ bound.toInt := Int64.le_iff_toInt_le.1 h
    rw [if_neg (Int64.not_lt.2 h), if_pos h]
    omega
  · have hneg : bound.toInt < 0 := Int64.lt_iff_toInt_lt.1 (Int64.not_le.1 h)
    rw [if_pos (Int64.not_le.1 h), if_neg h]
    omega

/-- The elements from a place on are the last ones. -/
theorem filter_zipIdx_ge (xs : List α) (first start : Nat) :
    ((xs.zipIdx first).filter fun p => start ≤ p.2).map Prod.fst =
      xs.drop (start - first) := by
  induction xs generalizing first with
  | nil => rw [List.zipIdx_nil, List.filter_nil, List.map_nil, List.drop_nil]
  | cons x xs ih =>
    rw [List.zipIdx_cons, List.filter_cons]
    by_cases h : start ≤ first
    · rw [if_pos (decide_eq_true h), List.map_cons, ih, Nat.sub_eq_zero_of_le h,
        Nat.sub_eq_zero_of_le (by omega), List.drop_zero, List.drop_zero]
    · rw [if_neg (by simpa using h), ih, show start - first = start - (first + 1) + 1 by omega,
        List.drop_succ_cons]

theorem part_eq_sublist (start stop : Option Int64) (xs : List α) :
    part start stop xs = sublist start stop xs := by
  have hlo : (start.map (standing xs.length)).getD 0 = (place xs.length (start.getD 0) : Int) := by
    cases start with
    | none => rfl
    | some start => exact standing_eq_place _ _
  have hhi : (stop.map (standing xs.length)).getD xs.length =
      (((stop.map (place xs.length)).getD xs.length : Nat) : Int) := by
    cases stop with
    | none => rfl
    | some stop => exact standing_eq_place _ _
  unfold part sublist
  rw [hlo, hhi]
  simp only [Int.ofNat_le, Int.ofNat_lt, Bool.decide_and]
  rw [← List.filter_filter, filter_zipIdx_lt, filter_zipIdx_ge, Nat.sub_zero, Nat.sub_zero]

/-- A buffer is reserved before anything is drained into it. -/
theorem outcome_trailing_error {n : Nat} {e : Error} (h : reserve n = .error e) (ps : Pulls) :
    (trailing n ps).outcome = .error e := by
  rw [outcome_trailing, h]
  rfl

theorem slice_eq_error {e : Error} (h : reserve (sliceBuffer start stop) = .error e) (ps : Pulls) :
    (slice ps start stop).outcome = .error e := by
  unfold sliceBuffer at h
  unfold slice
  dsimp only
  by_cases hstart : start.getD 0 < 0
  · rw [if_pos hstart] at h ⊢
    rw [fromEnd_eq, Run.outcome_bind, outcome_trailing_error h]
    rfl
  · rw [if_neg hstart] at h ⊢
    cases stop with
    | none => cases h
    | some stop =>
      dsimp only at h ⊢
      by_cases hstop : 0 ≤ stop
      · rw [if_pos hstop] at h
        cases h
      · rw [if_neg hstop] at h ⊢
        rw [Run.outcome_bind, Run.outcome_lift, h]
        rfl

theorem index_eq_error {e : Error} (h : reserve (indexBuffer position) = .error e) (ps : Pulls) :
    (index ps position).outcome = .error e := by
  unfold indexBuffer at h
  unfold index
  by_cases hp : 0 ≤ position
  · rw [if_pos hp] at h
    cases h
  · rw [if_neg hp] at h ⊢
    rw [Run.outcome_bind, outcome_trailing_error h]
    rfl

end Window

namespace Step

variable {input : Input} {scope : Scope} {subject : Term} {w : Value} {vs : List Value}

theorem outcome_slice_eq (hvs : w.sequence = .ok vs) (start stop : Option Int64) :
    (slice start stop).outcome input scope subject w = (do
      Window.reserve (Window.sliceBuffer start stop)
      w.slice start stop) := by
  cases hroom : Window.reserve (Window.sliceBuffer start stop) with
  | ok _ => exact outcome_slice hroom
  | error e =>
    unfold outcome
    simp only [act]
    cases w with
    | text s =>
      unfold Evaluated.slice
      dsimp only
      rw [Run.outcome_bind, Window.slice_eq_error hroom]
      rfl
    | list vs =>
      change ((do pure (.pulls (← Window.slice (Pulls.ofList vs) start stop)) :
        Run Evaluated).outcome >>= _) = _
      rw [Run.outcome_bind, Window.slice_eq_error hroom]
      rfl
    | _ => cases hvs

theorem outcome_index_eq (hvs : w.sequence = .ok vs) (position : Int64) :
    (index position).outcome input scope subject w = (do
      Window.reserve (Window.indexBuffer position)
      Value.elementAt position vs) := by
  have hindex : (index position).outcome input scope subject w =
      (do (Window.index (Pulls.ofList (← w.sequence)) position).outcome) :=
    outcome_over rfl fun _ => Evaluated.drained _
  cases hroom : Window.reserve (Window.indexBuffer position) with
  | ok _ =>
    rw [outcome_index hroom, hvs]
    rfl
  | error e =>
    rw [hindex, hvs]
    exact Window.index_eq_error hroom _

/-- Whatever yields the elements of a list, a slice of it gives those between its bounds and an
index the element at its position, or reports the position and the length. On a text both go by its
characters. What they need to reserve is a buffer for a bound from the end. -/
theorem outcome_slice_index (input : Input) (scope : Scope) (subject : Term)
    (start stop : Option Int64) (position : Int64) :
    (∀ (e : Evaluated) (vs : List Value), e.toValue.outcome = .ok (.list vs) →
      (do (← (slice start stop).act input scope subject e).toValue : Run Value).outcome = (do
        Window.reserve (Window.sliceBuffer start stop)
        pure (.list (Window.part start stop vs))) ∧
      (do (← (index position).act input scope subject e).toValue : Run Value).outcome = (do
        Window.reserve (Window.indexBuffer position)
        Value.elementAt position vs)) ∧
    ∀ s : String,
      (do (← (slice start stop).act input scope subject (.value (.text s))).toValue :
        Run Value).outcome = (do
          Window.reserve (Window.sliceBuffer start stop)
          pure (.text (String.ofList (Window.part start stop s.toList)))) ∧
      (do (← (index position).act input scope subject (.value (.text s))).toValue :
        Run Value).outcome = (do
          Window.reserve (Window.indexBuffer position)
          Value.elementAt position (s.toList.map fun c => .text (String.singleton c))) := by
  refine ⟨fun e vs he => ⟨?_, ?_⟩, fun s => ⟨?_, ?_⟩⟩
  · rw [Run.outcome_bind, outcome_of_toValue _ he, outcome_slice_eq rfl, Window.part_eq_sublist]
    rfl
  · rw [Run.outcome_bind, outcome_of_toValue _ he, outcome_index_eq rfl]
    rfl
  · rw [Run.outcome_bind, outcome_of_toValue (w := .text s) _ rfl, outcome_slice_eq rfl,
      Window.part_eq_sublist]
    rfl
  · rw [Run.outcome_bind, outcome_of_toValue (w := .text s) _ rfl, outcome_index_eq rfl]
    rfl

/-- The elements 1, 2 and 3, with pulls in between that are passed over. -/
def gapped : Evaluated :=
  .pulls [⟨[], none⟩, .yielding (.int 1), ⟨[], none⟩, .yielding (.int 2), .yielding (.int 3)]

/-- The last two elements, the third one from the end, and characters of a text. -/
theorem gapped_slice_index :
    let drained (action : Step) (e : Evaluated) :=
      (do (← action.act (fun _ => .ok []) [] (.literal 0 .null) e).toValue : Run Value).outcome
    gapped.toValue.outcome = .ok (.list [.int 1, .int 2, .int 3]) ∧
    drained (slice (some (-2)) none) gapped = .ok (.list [.int 2, .int 3]) ∧
    drained (index (-3)) gapped = .ok (.int 1) ∧
    drained (index (-4)) gapped = .error (.ofCause (.indexOutOfRange (-4) 3)) ∧
    drained (slice (some 1) (some (-1))) (.value (.text "pear")) = .ok (.text "ea") ∧
    drained (index 4) (.value (.text "pear")) = .error (.ofCause (.indexOutOfRange 4 4)) := by
  have hvs : gapped.toValue.outcome = .ok (.list [.int 1, .int 2, .int 3]) := rfl
  have hends := outcome_slice_index (fun _ => .ok []) [] (.literal 0 .null)
  refine ⟨hvs, ?_, ?_, ?_, ?_, ?_⟩
  · exact ((hends (some (-2)) none 0).1 gapped _ hvs).1
  · exact ((hends none none (-3)).1 gapped _ hvs).2
  · exact ((hends none none (-4)).1 gapped _ hvs).2
  · exact ((hends (some 1) (some (-1)) 0).2 "pear").1
  · exact ((hends none none 4).2 "pear").2

end Step

end QueryPushdown
