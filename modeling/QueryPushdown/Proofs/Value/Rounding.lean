import QueryPushdown.Proofs.Value.Equality

/-!
# Integers as floats

Rounding an integer to the nearest float keeps order, though not strictly: beyond `2 ^ 53` integers
next to each other may meet in one float. An integer that some float stands for exactly is rounded
to it, and no two integers up to `2 ^ 53` meet.
-/

namespace QueryPushdown

namespace Binary64

theorem unitsPerOne_pos : 0 < unitsPerOne := by decide +kernel

theorem divToEven_bounds (num den : Nat) :
    num / den ≤ divToEven num den ∧ divToEven num den ≤ num / den + 1 := by
  unfold divToEven
  dsimp only
  split <;> omega

theorem divToEven_le {a b : Nat} (h : a ≤ b) (den : Nat) : divToEven a den ≤ divToEven b den := by
  rcases Nat.lt_or_eq_of_le (Nat.div_le_div_right (c := den) h) with hlt | heq
  · have ha := (divToEven_bounds a den).2
    have hb := (divToEven_bounds b den).1
    omega
  · have hrest : a % den ≤ b % den := by
      have ha := Nat.div_add_mod a den
      have hb := Nat.div_add_mod b den
      rw [heq] at ha
      omega
    unfold divToEven
    dsimp only
    rw [heq]
    split <;> split <;> omega

theorem divToEven_mul {den : Nat} (h : 0 < den) (n : Nat) : divToEven (n * den) den = n := by
  unfold divToEven
  dsimp only
  rw [Nat.mul_mod_left, Nat.mul_div_cancel n h, if_neg (by omega)]

/-- Bits below the leading 53 that rounding takes from a whole number of units. -/
def excessBits (a : Nat) : Nat := a.log2 - 52

theorem magnitudeOfUnits_one (a : Nat) : magnitudeOfUnits a 1 =
    min (excessBits a * exponentStep + divToEven a (2 ^ excessBits a)) infiniteMagnitude := by
  have hshift : a.log2 + 1 - 53 = a.log2 - 52 := by omega
  rw [magnitudeOfUnits, Nat.div_one, Nat.one_mul, hshift]
  rfl

theorem divToEven_le_step (a : Nat) : divToEven a (2 ^ excessBits a) ≤ 2 * exponentStep := by
  have hlt : a < 2 ^ 53 * 2 ^ excessBits a := by
    rw [← Nat.pow_add]
    refine Nat.lt_of_lt_of_le Nat.lt_log2_self (Nat.pow_le_pow_right (by decide) ?_)
    unfold excessBits
    omega
  have hdiv : a / 2 ^ excessBits a < 2 ^ 53 := (Nat.div_lt_iff_lt_mul (Nat.two_pow_pos _)).2 hlt
  have hup := (divToEven_bounds a (2 ^ excessBits a)).2
  have hstep : 2 * exponentStep = 2 ^ 53 := rfl
  omega

theorem step_le_divToEven {a : Nat} (h : 52 ≤ a.log2) :
    exponentStep ≤ divToEven a (2 ^ excessBits a) := by
  have ha : a ≠ 0 := by
    rintro rfl
    exact absurd h (by decide)
  have hle : 2 ^ 52 * 2 ^ excessBits a ≤ a := by
    rw [← Nat.pow_add]
    refine Nat.le_trans (Nat.pow_le_pow_right (by decide) ?_) (Nat.log2_self_le ha)
    unfold excessBits
    omega
  exact Nat.le_trans ((Nat.le_div_iff_mul_le (Nat.two_pow_pos _)).2 hle) (divToEven_bounds _ _).1

/-- More units are not rounded to a smaller number. -/
theorem magnitudeOfUnits_le {a b : Nat} (h : a ≤ b) :
    magnitudeOfUnits a 1 ≤ magnitudeOfUnits b 1 := by
  rw [magnitudeOfUnits_one, magnitudeOfUnits_one]
  suffices hraw : excessBits a * exponentStep + divToEven a (2 ^ excessBits a) ≤
      excessBits b * exponentStep + divToEven b (2 ^ excessBits b) by omega
  have hlog : a.log2 ≤ b.log2 := by
    by_cases ha : a = 0
    · rw [ha]
      exact Nat.zero_le _
    · exact (Nat.le_log2 (by omega)).2 (Nat.le_trans (Nat.log2_self_le ha) h)
  rcases Nat.lt_or_eq_of_le (show excessBits a ≤ excessBits b from Nat.sub_le_sub_right hlog 52) with
    hlt | heq
  · -- a number with more excess bits starts where the ones with fewer end
    have ha := divToEven_le_step a
    have hb := step_le_divToEven (a := b) (by unfold excessBits at hlt; omega)
    have hsteps := Nat.mul_le_mul_right exponentStep hlt
    rw [Nat.succ_mul] at hsteps
    omega
  · rw [heq]
    exact Nat.add_le_add_left (divToEven_le h _) _

/-- The units of a finite number are not rounded. -/
theorem magnitudeOfUnits_unitsOfMagnitude {m : Nat} (h : m < infiniteMagnitude) :
    magnitudeOfUnits (unitsOfMagnitude m) 1 = m := by
  have hm := Nat.div_add_mod m exponentStep
  have hfraction : m % exponentStep < exponentStep := Nat.mod_lt _ exponentStep_pos
  have hmin : min m infiniteMagnitude = m := Nat.min_eq_left (Nat.le_of_lt h)
  rw [magnitudeOfUnits_one]
  unfold unitsOfMagnitude
  dsimp only
  generalize m / exponentStep = e at *
  generalize m % exponentStep = f at *
  cases e with
  | zero =>
    have hlog : excessBits f = 0 := by
      by_cases hf : f = 0
      · rw [hf]
        rfl
      · have := (Nat.log2_lt hf).2 (show f < 2 ^ 53 from Nat.lt_trans hfraction (by decide))
        unfold excessBits
        omega
    have hdiv := divToEven_mul Nat.one_pos f
    rw [Nat.mul_one] at hdiv
    rw [if_pos rfl, hlog, Nat.zero_mul, Nat.zero_add, Nat.pow_zero, hdiv]
    omega
  | succ e =>
    have hlog : excessBits ((exponentStep + f) * 2 ^ e) = e := by
      have hpos : 0 < exponentStep := exponentStep_pos
      have hlower : 2 ^ (52 + e) ≤ (exponentStep + f) * 2 ^ e := by
        rw [Nat.pow_add]
        exact Nat.mul_le_mul_right _ (Nat.le_add_right exponentStep f)
      have hupper : (exponentStep + f) * 2 ^ e < 2 ^ (53 + e) := by
        rw [Nat.pow_add]
        refine Nat.mul_lt_mul_of_pos_right ?_ (Nat.two_pow_pos _)
        have hstep : 2 ^ 53 = 2 * exponentStep := rfl
        omega
      have hne : (exponentStep + f) * 2 ^ e ≠ 0 :=
        Nat.ne_of_gt (Nat.lt_of_lt_of_le (Nat.two_pow_pos _) hlower)
      have hle := (Nat.le_log2 hne).2 hlower
      have hlt := (Nat.log2_lt hne).2 hupper
      unfold excessBits
      omega
    rw [if_neg (Nat.succ_ne_zero e), Nat.add_sub_cancel, hlog, divToEven_mul (Nat.two_pow_pos e)]
    rw [Nat.mul_succ, Nat.mul_comm] at hm
    omega

section Parts

variable {m : Nat}

theorem toNat_ofParts (negative : Bool) (h : m < signBit) :
    (ofParts negative m).bits.toNat = m + if negative then signBit else 0 := by
  have hbits : m + (if negative then signBit else 0) < 2 ^ 64 := by
    have hsign : 2 ^ 64 = 2 * signBit := rfl
    split <;> omega
  exact UInt64.toNat_ofNat_of_lt' hbits

theorem isNegative_ofParts (negative : Bool) (h : m < signBit) :
    (ofParts negative m).isNegative = negative := by
  rw [isNegative, toNat_ofParts negative h]
  cases negative with
  | false => exact decide_eq_false (Nat.not_le.2 h)
  | true => exact decide_eq_true (Nat.le_add_left signBit m)

theorem magnitude_ofParts (negative : Bool) (h : m < signBit) :
    (ofParts negative m).magnitude = m := by
  rw [magnitude, toNat_ofParts negative h]
  cases negative with
  | false => exact Nat.mod_eq_of_lt h
  | true => exact (Nat.add_mod_right m signBit).trans (Nat.mod_eq_of_lt h)

end Parts

theorem ofInt_magnitude_le (i : Int) :
    magnitudeOfUnits (i.natAbs * unitsPerOne) 1 ≤ infiniteMagnitude := Nat.min_le_right _ _

theorem isNegative_ofInt (i : Int) : (ofInt i).isNegative = decide (i < 0) :=
  isNegative_ofParts _ (Nat.lt_of_le_of_lt (ofInt_magnitude_le i) (by decide))

theorem magnitude_ofInt (i : Int) :
    (ofInt i).magnitude = magnitudeOfUnits (i.natAbs * unitsPerOne) 1 :=
  magnitude_ofParts _ (Nat.lt_of_le_of_lt (ofInt_magnitude_le i) (by decide))

theorem isNaN_ofInt (i : Int) : (ofInt i).isNaN = false := by
  rw [isNaN, magnitude_ofInt]
  exact decide_eq_false (Nat.not_lt.2 (ofInt_magnitude_le i))

theorem magnitude_ofInt_le {i j : Int} (h : i.natAbs ≤ j.natAbs) :
    (ofInt i).magnitude ≤ (ofInt j).magnitude := by
  rw [magnitude_ofInt, magnitude_ofInt]
  exact magnitudeOfUnits_le (Nat.mul_le_mul_right _ h)

/-- Integers in order are both negative, both not, or on either side of zero. -/
theorem ofInt_cases {i j : Int} (h : i ≤ j) :
    (i < 0 ∧ j < 0 ∧ (ofInt j).magnitude ≤ (ofInt i).magnitude) ∨ (i < 0 ∧ ¬ j < 0) ∨
      (¬ i < 0 ∧ ¬ j < 0 ∧ (ofInt i).magnitude ≤ (ofInt j).magnitude) := by
  by_cases hj : j < 0
  · exact .inl ⟨by omega, hj, magnitude_ofInt_le (by omega)⟩
  · by_cases hi : i < 0
    · exact .inr (.inl ⟨hi, hj⟩)
    · exact .inr (.inr ⟨hi, hj, magnitude_ofInt_le (by omega)⟩)

/-- Rounding keeps integers in order, by the rank of the floats. -/
theorem rank_ofInt_le {i j : Int} (h : i ≤ j) : (ofInt i).rank ≤ (ofInt j).rank := by
  unfold rank
  rw [isNegative_ofInt, isNegative_ofInt]
  rcases ofInt_cases h with ⟨hi, hj, hm⟩ | ⟨hi, hj⟩ | ⟨hi, hj, hm⟩ <;>
    simp only [hi, hj, decide_true, decide_false, if_true, Bool.false_eq_true, if_false] <;> omega

/-- Rounding keeps integers in order on the number line. -/
theorem position_ofInt_le {i j : Int} (h : i ≤ j) : (ofInt i).position ≤ (ofInt j).position := by
  unfold position
  rw [isNegative_ofInt, isNegative_ofInt]
  rcases ofInt_cases h with ⟨hi, hj, hm⟩ | ⟨hi, hj⟩ | ⟨hi, hj, hm⟩ <;>
    simp only [hi, hj, decide_true, decide_false, if_true, Bool.false_eq_true, if_false] <;> omega

theorem natAbs_position (x : Binary64) : x.position.natAbs = x.magnitude := by
  unfold position
  split
  · rw [Int.natAbs_neg, Int.natAbs_natCast]
  · exact Int.natAbs_natCast _

/-- Only a number stands where an integer is rounded to. -/
theorem same_ofInt_of_position {x : Binary64} {i : Int} (h : (ofInt i).position = x.position) :
    (ofInt i).same x = true := by
  have hmagnitude := congrArg Int.natAbs h
  rw [natAbs_position, natAbs_position, magnitude_ofInt] at hmagnitude
  refine same_of_position (isNaN_ofInt i) ?_ h
  rw [isNaN, ← hmagnitude]
  exact decide_eq_false (Nat.not_lt.2 (ofInt_magnitude_le i))

theorem eq_of_rank {x y : Binary64} (h : x.rank = y.rank) : x = y := by
  have hx := x.bits_eq
  have hy := y.bits_eq
  unfold rank at h
  have hbits : x.bits.toNat = y.bits.toNat := by
    cases hsx : x.isNegative <;> cases hsy : y.isNegative <;>
      simp only [hsx, hsy, Bool.false_eq_true, if_false, if_true] at h hx hy <;> omega
  obtain ⟨x⟩ := x
  obtain ⟨y⟩ := y
  exact congrArg Binary64.mk (UInt64.toNat_inj.1 hbits)

theorem natAbs_units (x : Binary64) : x.units.natAbs = unitsOfMagnitude x.magnitude := by
  unfold units
  split
  · rw [Int.natAbs_neg, Int.natAbs_natCast]
  · exact Int.natAbs_natCast _

/-- An integer with the units of a finite number is not rounded. -/
theorem units_ofInt {i : Int} {m : Nat} (hm : m < infiniteMagnitude)
    (h : unitsOfMagnitude m = i.natAbs * unitsPerOne) :
    (ofInt i).magnitude = m ∧ (ofInt i).units = i * unitsPerOne := by
  have hmagnitude : (ofInt i).magnitude = m := by
    rw [magnitude_ofInt, ← h, magnitudeOfUnits_unitsOfMagnitude hm]
  refine ⟨hmagnitude, ?_⟩
  unfold units
  rw [isNegative_ofInt, hmagnitude, h, Int.natCast_mul]
  by_cases hi : i < 0
  · rw [if_pos (decide_eq_true hi), Int.ofNat_natAbs_of_nonpos (Int.le_of_lt hi), Int.neg_mul,
      Int.neg_neg]
  · rw [if_neg (by simpa using hi), Int.natAbs_of_nonneg (Int.not_lt.1 hi)]

/-- An integer that a number stands for exactly is rounded to that number. -/
theorem same_ofInt {x : Binary64} {i : Int} (h : x.toInt? = some i) : (ofInt i).same x = true := by
  obtain ⟨hnan, hunits⟩ := toInt?_eq_some h
  have hfinite : x.magnitude < infiniteMagnitude := by
    unfold toInt? at h
    split at h
    · rename_i hx
      simpa [isFinite] using hx.1
    · cases h
  have hmagnitude : unitsOfMagnitude x.magnitude = i.natAbs * unitsPerOne := by
    rw [← natAbs_units, hunits, Int.natAbs_mul, Int.natAbs_natCast]
  obtain ⟨-, hrounded⟩ := units_ofInt hfinite hmagnitude
  exact same_of_position (isNaN_ofInt i) hnan (position_of_units (hrounded.trans hunits.symm))

/-- A number of 53 bits is a whole number of units that some float has. -/
theorem exists_magnitude {n : Nat} (h : n < 2 ^ 53) :
    ∃ m, m < infiniteMagnitude ∧ unitsOfMagnitude m = n * unitsPerOne := by
  by_cases hn : n = 0
  · exact ⟨0, by decide, by rw [hn, Nat.zero_mul]; rfl⟩
  · -- the leading bit moves to the place that the significand does not write
    have hlog : n.log2 ≤ 52 := by
      have := (Nat.log2_lt hn).2 h
      omega
    have hpow : ∀ k, k ≤ 52 → 2 ^ k * 2 ^ (52 - k) = exponentStep := fun k hk => by
      rw [← Nat.pow_add, Nat.add_sub_cancel' hk]
      rfl
    have hlower : exponentStep ≤ n * 2 ^ (52 - n.log2) := by
      rw [← hpow _ hlog]
      exact Nat.mul_le_mul_right _ (Nat.log2_self_le hn)
    have hupper : n * 2 ^ (52 - n.log2) < 2 * exponentStep := by
      rw [← hpow _ hlog, ← Nat.mul_assoc, Nat.mul_comm 2, ← Nat.pow_succ]
      exact Nat.mul_lt_mul_of_pos_right Nat.lt_log2_self (Nat.two_pow_pos _)
    refine ⟨(n * 2 ^ (52 - n.log2) - exponentStep) + exponentStep * (n.log2 + 1023), ?_, ?_⟩
    · have hmul := Nat.mul_le_mul_left exponentStep (show n.log2 + 1023 ≤ 1075 by omega)
      have hmax : infiniteMagnitude = exponentStep * 2047 := Nat.mul_comm _ _
      omega
    · have hlt : n * 2 ^ (52 - n.log2) - exponentStep < exponentStep := by omega
      unfold unitsOfMagnitude
      dsimp only
      rw [Nat.add_mul_div_left _ _ exponentStep_pos, Nat.div_eq_of_lt hlt, Nat.zero_add,
        Nat.add_mul_mod_self_left, Nat.mod_eq_of_lt hlt, if_neg (Nat.succ_ne_zero _),
        Nat.add_sub_cancel' hlower, Nat.mul_assoc, ← Nat.pow_add,
        show 52 - n.log2 + (n.log2 + 1023 - 1) = 1074 by omega, unitsPerOne]

/-- Integers of 53 bits are not rounded. -/
theorem toInt?_ofInt {i : Int} (h : i.natAbs < 2 ^ 53) : (ofInt i).toInt? = some i := by
  obtain ⟨m, hm, hunits⟩ := exists_magnitude h
  obtain ⟨hmagnitude, hunits⟩ := units_ofInt hm hunits
  have hne : (unitsPerOne : Int) ≠ 0 := Int.natCast_ne_zero.2 (Nat.ne_of_gt unitsPerOne_pos)
  rw [toInt?, isFinite, hmagnitude, hunits, if_pos ⟨decide_eq_true hm, Int.mul_emod_left _ _⟩,
    Int.mul_ediv_cancel _ hne]

end Binary64

end QueryPushdown
