import QueryPushdown.Proofs.Sql.Reading

/-!
# Bounds of selects

Slices with bounds from the start compose: the bounds that a select keeps, applied once, cut out what
the slices cut out one after the other. Words saturate, which no list of fewer elements than there
are positive words can tell.
-/

namespace QueryPushdown.Sql.Select

theorem toInt_nonneg {a : Int64} : 0 ≤ a ↔ 0 ≤ a.toInt := by
  rw [Int64.le_iff_toInt_le]
  rfl

theorem toInt_lt (a : Int64) : a.toInt < 2 ^ 63 := a.toInt_lt

theorem toInt_max_zero (a : Int64) : (max a 0).toInt = max a.toInt 0 := by
  have hmax : max a 0 = if a ≤ 0 then 0 else a := rfl
  have hle : a ≤ 0 ↔ a.toInt ≤ 0 := Int64.le_iff_toInt_le
  have hzero : (0 : Int64).toInt = 0 := rfl
  rw [hmax]
  split <;> rename_i h <;> rw [hle] at h <;> omega

theorem toInt_min (a b : Int64) : (min a b).toInt = min a.toInt b.toInt := by
  have hmin : min a b = if a ≤ b then a else b := rfl
  have hle : a ≤ b ↔ a.toInt ≤ b.toInt := Int64.le_iff_toInt_le
  rw [hmin]
  split <;> rename_i h <;> rw [hle] at h <;> omega

variable {a b : Int64}

/-- Positive words are far enough from the extreme ones to be subtracted. -/
theorem toInt_difference (ha : 0 ≤ a) (hb : 0 ≤ b) : (difference a b).toInt = a.toInt - b.toInt := by
  have ha := toInt_nonneg.1 ha
  have hb := toInt_nonneg.1 hb
  have hlt := toInt_lt a
  have hlt' := toInt_lt b
  have hmin : Int64.minValue.toInt = -2 ^ 63 := by decide
  have hmax : Int64.maxValue.toInt = 2 ^ 63 - 1 := by decide
  exact Int64.toInt_ofIntClamp (by rw [hmin]; omega) (by rw [hmax]; omega)

theorem toInt_total (ha : 0 ≤ a) (hb : 0 ≤ b) :
    (total a b).toInt = min (a.toInt + b.toInt) (2 ^ 63 - 1) := by
  have ha := toInt_nonneg.1 ha
  have hb := toInt_nonneg.1 hb
  have hmin : Int64.minValue.toInt = -2 ^ 63 := by decide
  have hmax : Int64.maxValue.toInt = 2 ^ 63 - 1 := by decide
  rw [total, Int64.ofIntClamp, dif_pos (by rw [hmin]; omega)]
  split <;> rename_i h <;> rw [hmax] at h
  · rw [Int64.toInt_ofIntLE]
    omega
  · rw [hmax]
    omega

/-- Bounds that count from the start. -/
structure IsForward (s : Select) : Prop where
  limit : ∀ limit, s.limit = some limit → 0 ≤ limit
  offset : ∀ offset, s.offset = some offset → 0 ≤ offset

variable {s : Select} {start stop : Option Int64}

theorem IsForward.of_unbounded (h : s.isUnbounded = true) : s.IsForward := by
  obtain ⟨hlimit, hoffset⟩ := Bool.and_eq_true_iff.1 h
  constructor
  · intro limit hl
    rw [hl] at hlimit
    cases hlimit
  · intro offset ho
    rw [ho] at hoffset
    cases hoffset

theorem bounded_of_unbounded {α : Type} (h : s.isUnbounded = true) (xs : List α) :
    s.bounded xs = xs := by
  obtain ⟨hlimit, hoffset⟩ := Bool.and_eq_true_iff.1 h
  rw [bounded, Option.isNone_iff_eq_none.1 hlimit, Option.isNone_iff_eq_none.1 hoffset]
  rfl

/-- The place that a bound counts up to. -/
def place (bound : Int64) : Nat := bound.toInt.toNat

theorem bounded_eq {α : Type} (s : Select) (xs : List α) : s.bounded xs =
    match s.limit.map place with
    | some limit => (xs.drop (place (s.offset.getD 0))).take limit
    | none => xs.drop (place (s.offset.getD 0)) := by
  unfold bounded
  cases s.limit <;> rfl

theorem place_width (ha : 0 ≤ a) (hb : 0 ≤ b) :
    place (max (difference a b) 0) = place a - place b := by
  have hdifference := toInt_difference ha hb
  have hb := toInt_nonneg.1 hb
  rw [place, toInt_max_zero, hdifference, place, place]
  omega

theorem place_min (a b : Int64) : place (min a b) = min (place a) (place b) := by
  rw [place, toInt_min, place, place]
  omega

theorem max_zero_nonneg (a : Int64) : 0 ≤ max a 0 := by
  rw [toInt_nonneg, toInt_max_zero]
  omega

theorem min_nonneg (ha : 0 ≤ a) (hb : 0 ≤ b) : 0 ≤ min a b := by
  have ha := toInt_nonneg.1 ha
  have hb := toInt_nonneg.1 hb
  rw [toInt_nonneg, toInt_min]
  omega

theorem isForward_slice (s : Select) (start stop : Option Int64) :
    (s.slice start stop).IsForward := by
  constructor
  · intro limit h
    unfold Select.slice at h
    cases hlimit : s.limit <;> cases hstop : stop <;> simp only [hlimit, hstop, Option.map] at h <;>
      cases h
    · exact max_zero_nonneg _
    · exact max_zero_nonneg _
    · exact min_nonneg (max_zero_nonneg _) (max_zero_nonneg _)
  · intro offset h
    unfold Select.slice at h
    dsimp only at h
    split at h
    · rename_i hpositive
      cases h
      exact Int64.le_of_lt hpositive
    · cases h

section Slice

variable (hs : s.IsForward) (hforward : Step.isForward start stop = true)

include hs in
theorem offset_nonneg : 0 ≤ s.offset.getD 0 := by
  cases ho : s.offset with
  | none => decide
  | some offset => exact hs.offset offset ho

include hs hforward

theorem place_offset_slice : place ((s.slice start stop).offset.getD 0) =
    min (place (s.offset.getD 0) + place (start.getD 0)) (2 ^ 63 - 1) := by
  have hoffset := offset_nonneg hs
  have hstart := Step.start_nonneg hforward
  have htotal := toInt_total hoffset hstart
  have hoffset := toInt_nonneg.1 hoffset
  have hstart := toInt_nonneg.1 hstart
  have hplace : place ((s.slice start stop).offset.getD 0) =
      place (total (s.offset.getD 0) (start.getD 0)) := by
    unfold slice
    dsimp only
    split
    · rfl
    · rename_i h
      rw [Int64.lt_iff_toInt_lt] at h
      change ¬ 0 < _ at h
      rw [place, place]
      change (0 : Int).toNat = _
      omega
  rw [hplace, place, htotal, place, place]
  omega

theorem limit_slice : (s.slice start stop).limit.map place =
    match s.limit.map place, stop.map place with
    | some limit, some stop => some (min (limit - place (start.getD 0)) (stop - place (start.getD 0)))
    | some limit, none => some (limit - place (start.getD 0))
    | none, some stop => some (stop - place (start.getD 0))
    | none, none => none := by
  have hstart := Step.start_nonneg hforward
  unfold slice
  cases hlimit : s.limit with
  | none =>
    cases hstop : stop with
    | none => rfl
    | some bound => exact congrArg some (place_width (Step.stop_nonneg hforward bound hstop) hstart)
  | some limit =>
    have hwidth := place_width (hs.limit limit hlimit) hstart
    cases hstop : stop with
    | none => exact congrArg some hwidth
    | some bound =>
      refine congrArg some ((place_min _ _).trans ?_)
      rw [hwidth, place_width (Step.stop_nonneg hforward bound hstop) hstart]

/-- The bounds of a select after a slice drop and take from what they cut out before. -/
theorem bounded_slice_eq {α : Type} {xs : List α} (hlength : xs.length < 2 ^ 63) :
    (s.slice start stop).bounded xs = match stop with
      | none => (s.bounded xs).drop (place (start.getD 0))
      | some stop =>
        ((s.bounded xs).drop (place (start.getD 0))).take (place stop - place (start.getD 0)) := by
  have hdrop : xs.drop (min (place (s.offset.getD 0) + place (start.getD 0)) (2 ^ 63 - 1)) =
      (xs.drop (place (s.offset.getD 0))).drop (place (start.getD 0)) := by
    rw [List.drop_drop]
    rcases Nat.le_total (place (s.offset.getD 0) + place (start.getD 0)) (2 ^ 63 - 1) with h | h
    · rw [Nat.min_eq_left h]
    · rw [Nat.min_eq_right h, List.drop_eq_nil_of_le (by omega), List.drop_eq_nil_of_le (by omega)]
  rw [bounded_eq, bounded_eq, place_offset_slice hs hforward, limit_slice hs hforward, hdrop]
  cases s.limit with
  | none => cases stop <;> rfl
  | some limit =>
    cases stop with
    | none => exact List.drop_take.symm
    | some stop =>
      change _ = List.take (place stop - place (start.getD 0))
        (List.drop (place (start.getD 0)) (List.take (place limit) _))
      rw [List.drop_take, List.take_take]
      exact congrArg (List.take · _) (Nat.min_comm ..)

/-- The bounds of a select after a slice cut out the slice of what they cut out before. -/
theorem bounded_slice {xs : List Value} (hlength : xs.length < 2 ^ 63) :
    (s.slice start stop).bounded xs = Window.between start stop (s.bounded xs) := by
  rw [bounded_slice_eq hs hforward hlength]
  cases stop <;> rfl

end Slice

end QueryPushdown.Sql.Select
