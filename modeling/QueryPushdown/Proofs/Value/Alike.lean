import QueryPushdown.Eval.Operator
import QueryPushdown.Proofs.Eval.Tolerance
import QueryPushdown.Proofs.Value.Equality

/-!
# Values alike

Two values are alike when they differ at most in the signs of zeros and in the order of fields. No
operator tells them apart: it gives results that are alike, or fails on both. Only the order of all
values, which serves sorting, does.
-/

namespace QueryPushdown

namespace Binary64

/-- One number, or zeros of any signs. -/
def Alike (x y : Binary64) : Prop := x = y ∨ x.magnitude = 0 ∧ y.magnitude = 0

variable {x y x' y' : Binary64}

theorem Alike.refl (x : Binary64) : x.Alike x := .inl rfl

/-- Numbers that are equal are alike. -/
theorem alike_of_same (h : x.same y = true) : x.Alike y := by
  by_cases hx : x.magnitude = 0
  · obtain ⟨-, -, hp⟩ := position_of_same h
    refine .inr ⟨hx, ?_⟩
    unfold position at hp
    rw [hx] at hp
    split at hp <;> split at hp <;> omega
  · exact .inl (eq_of_same h hx)

theorem isNaN_of_zero (h : x.magnitude = 0) : x.isNaN = false := by
  rw [isNaN, h]
  decide

theorem isInfinite_of_zero (h : x.magnitude = 0) : x.isInfinite = false := by
  rw [isInfinite, h]
  decide

theorem position_of_zero (h : x.magnitude = 0) : x.position = 0 := by
  rw [position, h]
  split <;> rfl

theorem same_of_zero (hx : x.magnitude = 0) (hy : y.magnitude = 0) : x.same y = true :=
  same_of_position (isNaN_of_zero hx) (isNaN_of_zero hy)
    ((position_of_zero hx).trans (position_of_zero hy).symm)

theorem magnitude_ofParts_zero (negative : Bool) : (ofParts negative 0).magnitude = 0 := by
  cases negative <;> rfl

/-- No units round to a zero. -/
theorem magnitude_ofUnits_zero (negative : Bool) (den : Nat) :
    (ofUnits negative 0 den).magnitude = 0 := by
  have hround : ∀ n, divToEven 0 n = 0 := fun n => by
    unfold divToEven
    rw [Nat.zero_div, Nat.zero_mod, if_neg (by omega)]
  have hzero : magnitudeOfUnits 0 den = 0 := by
    unfold magnitudeOfUnits
    dsimp only
    rw [Nat.zero_div, hround]
    rfl
  rw [ofUnits, hzero, magnitude_ofParts_zero]

namespace Alike

/-- Numbers that are alike are equal, unless they are `NaN`. -/
theorem same (h : x.Alike y) (hx : x.isNaN = false) : x.same y = true := by
  rcases h with rfl | ⟨hx, hy⟩
  · exact same_of_position hx hx rfl
  · exact same_of_zero hx hy

theorem compare?_right (h : x.Alike y) (z : Binary64) : z.compare? x = z.compare? y := by
  rcases h with rfl | ⟨hx, hy⟩
  · rfl
  · exact compare?_of_same (same_of_zero hx hy) z

theorem compare?_eq (h : x.Alike x') (h' : y.Alike y') : x.compare? y = x'.compare? y' := by
  rw [h'.compare?_right, compare?_swap y' x, compare?_swap y' x', h.compare?_right]

/-- What is no zero is one number. -/
theorem eq (h : x.Alike y) (hx : x.magnitude ≠ 0) : x = y := h.resolve_right fun hz => hx hz.1

theorem magnitude_eq (h : x.Alike y) : x.magnitude = y.magnitude := by
  rcases h with rfl | ⟨hx, hy⟩
  · rfl
  · rw [hx, hy]

theorem isNaN_eq (h : x.Alike y) : x.isNaN = y.isNaN := by rw [isNaN, isNaN, h.magnitude_eq]

theorem isInfinite_eq (h : x.Alike y) : x.isInfinite = y.isInfinite := by
  rw [isInfinite, isInfinite, h.magnitude_eq]

theorem isZero_eq (h : x.Alike y) : x.isZero = y.isZero := by rw [isZero, isZero, h.magnitude_eq]

theorem units_eq (h : x.Alike y) : x.units = y.units := by
  rcases h with rfl | ⟨hx, hy⟩
  · rfl
  · rw [units_zero hx, units_zero hy]

theorem eq_of_isNaN (h : x.Alike y) (hx : x.isNaN = true) : x = y :=
  h.eq fun hz => by simp [isNaN_of_zero hz] at hx

theorem eq_of_isInfinite (h : x.Alike y) (hx : x.isInfinite = true) : x = y :=
  h.eq fun hz => by simp [isInfinite_of_zero hz] at hx

theorem eq_of_not_isZero (h : x.Alike y) (hx : x.isZero = false) : x = y :=
  h.eq fun hz => by simp [isZero, hz] at hx

theorem zeros (m n : Bool) : (zero m).Alike (zero n) :=
  .inr ⟨magnitude_ofParts_zero m, magnitude_ofParts_zero n⟩

theorem neg (h : x.Alike y) : (-x).Alike (-y) := by
  rcases h with rfl | ⟨hx, hy⟩
  · exact .refl _
  · change (ofParts _ x.magnitude).Alike (ofParts _ y.magnitude)
    rw [hx, hy]
    exact zeros _ _

theorem add (h : x.Alike x') (h' : y.Alike y') : (x + y).Alike (x' + y') := by
  change (Binary64.add x y).Alike (Binary64.add x' y')
  cases hx : x.isNaN with
  | true => 
    obtain rfl := h.eq_of_isNaN hx
    rw [Binary64.add, Binary64.add, if_pos hx, if_pos hx]
    exact .refl _
  | false =>
    cases hy : y.isNaN with
    | true =>
      obtain rfl := h'.eq_of_isNaN hy
      rw [Binary64.add, Binary64.add, ← h.isNaN_eq]
      simp only [hx, hy, Bool.false_eq_true, if_false, if_true]
      exact .refl _
    | false =>
      rw [Binary64.add, Binary64.add, ← h.isNaN_eq, ← h'.isNaN_eq, ← h.isInfinite_eq,
        ← h'.isInfinite_eq, ← h.units_eq, ← h'.units_eq]
      simp only [hx, hy, Bool.false_eq_true, if_false]
      cases hi : x.isInfinite with
      | true =>
        obtain rfl := h.eq_of_isInfinite hi
        cases hj : y.isInfinite with
        | true =>
          obtain rfl := h'.eq_of_isInfinite hj
          exact .refl _
        | false => exact .refl _
      | false =>
        cases hj : y.isInfinite with
        | true =>
          obtain rfl := h'.eq_of_isInfinite hj
          exact .refl _
        | false =>
          simp only [Bool.false_eq_true, if_false]
          split
          · exact zeros _ _
          · exact .refl _

theorem sub (h : x.Alike x') (h' : y.Alike y') : (x - y).Alike (x' - y') := by
  change (Binary64.sub x y).Alike (Binary64.sub x' y')
  rw [Binary64.sub, Binary64.sub, ← h.isNaN_eq, ← h'.isNaN_eq]
  split
  · rename_i hx
    obtain rfl := h.eq_of_isNaN hx
    exact .refl _
  · split
    · rename_i hy
      obtain rfl := h'.eq_of_isNaN hy
      exact .refl _
    · exact h.add h'.neg

theorem mul (h : x.Alike x') (h' : y.Alike y') : (x * y).Alike (x' * y') := by
  change (Binary64.mul x y).Alike (Binary64.mul x' y')
  rw [Binary64.mul, Binary64.mul, ← h.isNaN_eq, ← h'.isNaN_eq, ← h.isInfinite_eq,
    ← h'.isInfinite_eq, ← h.isZero_eq, ← h'.isZero_eq, ← h.units_eq, ← h'.units_eq]
  split
  · rename_i hx
    obtain rfl := h.eq_of_isNaN hx
    exact .refl _
  · split
    · rename_i hy
      obtain rfl := h'.eq_of_isNaN hy
      exact .refl _
    · split
      · split
        · exact .refl _
        · rename_i hz
          obtain ⟨hx, hy⟩ := Bool.or_eq_false_iff.1 (eq_false_of_ne_true hz)
          rw [h.eq_of_not_isZero hx, h'.eq_of_not_isZero hy]
          exact .refl _
      · have hzeros : ∀ m n, x.units.natAbs * y.units.natAbs = 0 →
            (ofUnits m (x.units.natAbs * y.units.natAbs) unitsPerOne).Alike
              (ofUnits n (x.units.natAbs * y.units.natAbs) unitsPerOne) := fun m n hz => by
          rw [hz]
          exact .inr ⟨magnitude_ofUnits_zero m _, magnitude_ofUnits_zero n _⟩
        rcases h with rfl | ⟨hx, -⟩
        · rcases h' with rfl | ⟨hy, -⟩
          · exact .refl _
          · exact hzeros _ _ (by rw [units_zero hy]; rfl)
        · exact hzeros _ _ (by rw [units_zero hx, Int.natAbs_zero, Nat.zero_mul])

theorem div (h : x.Alike x') (y : Binary64) : (x / y).Alike (x' / y) := by
  rcases h with rfl | ⟨hx, hx'⟩
  · exact .refl _
  · change (Binary64.div x y).Alike (Binary64.div x' y)
    have hzero : ∀ {z : Binary64}, z.magnitude = 0 → z.isZero = true := fun hz => by
      rw [isZero, hz]
      rfl
    rw [Binary64.div, Binary64.div, isNaN_of_zero hx, isNaN_of_zero hx', isInfinite_of_zero hx,
      isInfinite_of_zero hx', units_zero hx, units_zero hx', hzero hx, hzero hx']
    simp only [Bool.false_eq_true, if_false, if_true, Int.natAbs_zero, Nat.zero_mul]
    split
    · exact .refl _
    · split
      · exact zeros _ _
      · split
        · exact .refl _
        · exact .inr ⟨magnitude_ofUnits_zero _ _, magnitude_ofUnits_zero _ _⟩

end Alike

end Binary64

/-- Two values that differ at most in the signs of zeros and in the order of fields. No mapping names
a field twice. -/
inductive Value.Alike : Value → Value → Prop
  | null : Alike .null .null
  | bool (b : Bool) : Alike (.bool b) (.bool b)
  | int (i : Int64) : Alike (.int i) (.int i)
  | float {x y : Binary64} (h : x.Alike y) : Alike (.float x) (.float y)
  | text (s : String) : Alike (.text s) (.text s)
  | list {as bs : List Value} (hlength : as.length = bs.length)
    (h : ∀ (i : Nat) (hi : i < as.length) (hj : i < bs.length), Alike as[i] bs[i]) :
    Alike (.list as) (.list bs)
  | mapping {as bs : List (String × Value)} (ha : (Fields.names as).Nodup)
    (hb : (Fields.names bs).Nodup) (hhas : ∀ name, Fields.has as name = Fields.has bs name)
    (h : ∀ name a b, Fields.get? as name = some a → Fields.get? bs name = some b → Alike a b) :
    Alike (.mapping as) (.mapping bs)

namespace Value

variable {a a' b b' : Value}

theorem alike_list {as bs : List Value} :
    (list as).Alike (list bs) ↔ List.Forall₂ Alike as bs := by
  rw [List.forall₂_iff_get]
  constructor
  · intro h
    cases h with
    | list hlength h => exact ⟨hlength, h⟩
  · rintro ⟨hlength, h⟩
    exact .list hlength h

namespace Alike

theorem refl (h : a.Distinct) : a.Alike a := by
  induction h with
  | null => exact .null
  | bool b => exact .bool b
  | int i => exact .int i
  | float x => exact .float (.refl x)
  | text s => exact .text s
  | list _ ih => exact .list rfl fun i hi _ => ih _ (List.getElem_mem hi)
  | mapping hn _ ih =>
    refine .mapping hn hn (fun _ => rfl) fun name a b ha hb => ?_
    rw [ha] at hb
    cases hb
    exact ih _ (Fields.mem_of_get? ha)

theorem symm (h : a.Alike b) : b.Alike a := by
  induction h with
  | null => exact .null
  | bool b => exact .bool b
  | int i => exact .int i
  | float h => exact .float (h.imp Eq.symm And.symm)
  | text s => exact .text s
  | list hlength _ ih => exact .list hlength.symm fun i hi hj => ih i hj hi
  | mapping ha hb hhas _ ih =>
    exact .mapping hb ha (fun name => (hhas name).symm) fun name b a hb ha => ih name a b ha hb

theorem distinct (h : a.Alike b) : a.Distinct := by
  induction h with
  | null => exact .null
  | bool b => exact .bool b
  | int i => exact .int i
  | float _ => exact .float _
  | text s => exact .text s
  | list hlength _ ih =>
    refine .list fun v hv => ?_
    obtain ⟨i, hi, rfl⟩ := List.mem_iff_getElem.1 hv
    exact ih i hi (hlength ▸ hi)
  | mapping ha hb hhas _ ih =>
    refine .mapping ha fun f hf => ?_
    have hget := Fields.get?_of_mem ha hf
    obtain ⟨b, hb⟩ := Fields.exists_get? hhas hget
    exact ih _ _ _ hget hb

theorem kind_eq (h : a.Alike b) : a.kind = b.kind := by cases h <;> rfl

theorem isNumber_eq (h : a.Alike b) : a.isNumber = b.isNumber := by
  rw [isNumber, isNumber, h.kind_eq]

theorem toBool_eq (h : a.Alike b) : a.toBool = b.toBool := by cases h <;> rfl

/-- A value that equals itself equals whatever is like it. -/
theorem isEq_of_self (h : a.Alike b) (hself : a.isEq a = true) : a.isEq b = true := by
  induction h with
  | null => rfl
  | bool b => exact beq_self_eq_true b
  | int i => exact beq_self_eq_true i
  | float h => exact h.same (Binary64.position_of_same hself).1
  | text s => exact beq_self_eq_true s
  | list hlength _ ih =>
    obtain ⟨-, hself⟩ := isEqItems_iff.1 hself
    exact isEqItems_iff.2 ⟨hlength, fun i hi hj => ih i hi hj (hself i hi hi)⟩
  | @mapping as bs ha hb hhas _ ih =>
    obtain ⟨-, hself⟩ := Bool.and_eq_true_iff.1 hself
    refine Bool.and_eq_true_iff.2 ⟨beq_iff_eq.2 (Fields.length_eq_of_has ha hb hhas), ?_⟩
    refine isEqFields_iff.2 fun f hf => ?_
    have hget := Fields.get?_of_mem ha hf
    obtain ⟨b, hget'⟩ := Fields.exists_get? hhas hget
    obtain ⟨c, hc, hequal⟩ := isEqFields_iff.1 hself f hf
    rw [hget] at hc
    cases hc
    exact ⟨b, hget', ih _ _ _ hget hget' hequal⟩

/-- Equality takes values that are alike for one. -/
theorem isEq_eq (ha : a.Alike a') (hb : b.Alike b') : a.isEq b = a'.isEq b' := by
  have hle : ∀ {u u' v v' : Value}, u.Alike u' → v.Alike v' → u.isEq v = true →
      u'.isEq v' = true := by
    intro u u' v v' hu hv huv
    have hvu := isEq_symm hu.distinct hv.distinct huv
    have hu' := isEq_symm hu.distinct hu.symm.distinct (hu.isEq_of_self (isEq_trans huv hvu))
    exact isEq_trans hu' (isEq_trans huv (hv.isEq_of_self (isEq_trans hvu huv)))
  exact Bool.eq_iff_iff.2 ⟨hle ha hb, hle ha.symm hb.symm⟩

theorem key?_eq (h : a.Alike b) : a.key? = b.key? := by
  cases h with
  | float h =>
    rcases h with rfl | ⟨hx, hy⟩
    · rfl
    · exact key?_of_same (Binary64.same_of_zero hx hy)
  | _ => rfl

private theorem compareItems?_eq {as as' bs bs' : List Value} (ha : as.length = as'.length)
    (h : ∀ (i : Nat) (hi : i < as.length) (hj : i < as'.length) {b b' : Value}, b.Alike b' →
      as[i].compare? b = as'[i].compare? b') (hb : List.Forall₂ Alike bs bs') :
    compareItems? as bs = compareItems? as' bs' := by
  induction as generalizing as' bs bs' with
  | nil =>
    cases as' with
    | nil => cases hb <;> rfl
    | cons => cases ha
  | cons a as ih =>
    cases as' with
    | nil => cases ha
    | cons a' as' =>
      cases hb with
      | nil => rfl
      | cons hbb' hbs =>
        have hfirst := h 0 (Nat.zero_lt_succ _) (Nat.zero_lt_succ _) hbb'
        have hrest := ih (Nat.succ.inj ha)
          (fun i hi hj => h (i + 1) (Nat.succ_lt_succ hi) (Nat.succ_lt_succ hj)) hbs
        simp only [List.getElem_cons_zero] at hfirst
        rw [compareItems?, compareItems?, hfirst, hrest]

/-- The order of requests takes values that are alike for one. -/
theorem compare?_eq (ha : a.Alike a') (hb : b.Alike b') : a.compare? b = a'.compare? b' := by
  have hfloats : ∀ {x x' y y' : Binary64}, x.Alike x' → y.Alike y' →
      compareFloats x y = compareFloats x' y' := fun hx hy => by
    rw [compareFloats, compareFloats, hx.compare?_eq hy]
  induction ha generalizing b b' with
  | list hlength _ ih =>
    cases hb with
    | list hlength' h' => exact compareItems?_eq hlength ih (alike_list.1 (.list hlength' h'))
    | _ => rfl
  | float hx =>
    cases hb with
    | float hy => exact hfloats hx hy
    | int i => exact hfloats hx (.refl _)
    | _ => rfl
  | int i =>
    cases hb with
    | float hy => exact hfloats (.refl _) hy
    | _ => rfl
  | _ => cases hb <;> rfl

end Alike

theorem strictEqItems_iff {as bs : List Value} : strictEqItems as bs = true ↔
    as.length = bs.length ∧
      ∀ (i : Nat) (hi : i < as.length) (hj : i < bs.length), as[i].strictEq bs[i] = true := by
  refine Iff.trans ?_ (List.forall₂_iff_get (R := fun a b => Value.strictEq a b = true))
  induction as generalizing bs with
  | nil => cases bs <;> simp [strictEqItems]
  | cons a as ih =>
    cases bs with
    | nil => simp [strictEqItems]
    | cons b bs => rw [strictEqItems, Bool.and_eq_true_iff, ih, List.forall₂_cons]

theorem strictEqFields_iff {as bs : List (String × Value)} : strictEqFields as bs = true ↔
    ∀ f ∈ as, ∃ b, Fields.get? bs f.1 = some b ∧ f.2.strictEq b = true := by
  induction as with
  | nil => simp [strictEqFields]
  | cons f as ih =>
    obtain ⟨name, a⟩ := f
    rw [strictEqFields, Bool.and_eq_true_iff, ih, List.forall_mem_cons]
    cases Fields.get? bs name <;> simp

/-- Values without `NaN`, which equal themselves, are equal when they are alike. -/
theorem Alike.strictEq_of_self (h : a.Alike b) (hself : a.strictEq a = true) :
    a.strictEq b = true := by
  induction h with
  | null => rfl
  | bool b => exact beq_self_eq_true b
  | int i => exact beq_self_eq_true i
  | float h => exact h.same (Binary64.position_of_same hself).1
  | text s => exact beq_self_eq_true s
  | list hlength _ ih =>
    obtain ⟨-, hself⟩ := strictEqItems_iff.1 hself
    exact strictEqItems_iff.2 ⟨hlength, fun i hi hj => ih i hi hj (hself i hi hi)⟩
  | @mapping as bs ha hb hhas _ ih =>
    obtain ⟨-, hself⟩ := Bool.and_eq_true_iff.1 hself
    refine Bool.and_eq_true_iff.2 ⟨beq_iff_eq.2 (Fields.length_eq_of_has ha hb hhas), ?_⟩
    refine strictEqFields_iff.2 fun f hf => ?_
    have hget := Fields.get?_of_mem ha hf
    obtain ⟨b, hget'⟩ := Fields.exists_get? hhas hget
    obtain ⟨c, hc, hequal⟩ := strictEqFields_iff.1 hself f hf
    rw [hget] at hc
    cases hc
    exact ⟨b, hget', ih _ _ _ hget hget' hequal⟩

/-- Equal values are alike. -/
theorem alike_of_strictEq (ha : a.Distinct) (hb : b.Distinct) (h : a.strictEq b = true) :
    a.Alike b := by
  induction ha generalizing b with
  | null =>
    cases b with
    | null => exact .null
    | _ => cases h
  | bool x =>
    cases b with
    | bool y =>
      obtain rfl := beq_iff_eq.1 h
      exact .bool x
    | _ => cases h
  | int i =>
    cases b with
    | int j =>
      obtain rfl := beq_iff_eq.1 h
      exact .int i
    | _ => cases h
  | float x =>
    cases b with
    | float y => exact .float (Binary64.alike_of_same h)
    | _ => cases h
  | text s =>
    cases b with
    | text t =>
      obtain rfl := beq_iff_eq.1 h
      exact .text s
    | _ => cases h
  | @list as _ ih =>
    cases hb with
    | @list bs hbs =>
      obtain ⟨hlength, h⟩ := strictEqItems_iff.1 h
      exact .list hlength fun i hi hj =>
        ih _ (List.getElem_mem hi) (hbs _ (List.getElem_mem hj)) (h i hi hj)
    | _ => cases h
  | @mapping as hn _ ih =>
    cases hb with
    | @mapping bs hn' hbs =>
      obtain ⟨hlength, hfields⟩ := Bool.and_eq_true_iff.1 h
      rw [strictEqFields_iff] at hfields
      refine .mapping hn hn' ?_ fun name a b ha hb => ?_
      · have hhas := Fields.has_eq_of_length hn (beq_iff_eq.1 hlength) fun f hf => by
          obtain ⟨b, hget, -⟩ := hfields f hf
          rw [Fields.has, hget]
          rfl
        exact fun name => (hhas name).symm
      · obtain ⟨c, hc, hequal⟩ := hfields (name, a) (Fields.mem_of_get? ha)
        cases hb.symm.trans hc
        exact ih _ (Fields.mem_of_get? ha) (hbs _ (Fields.mem_of_get? hb)) hequal
    | _ => cases h

end Value

end QueryPushdown
