import QueryPushdown.Proofs.Typing.Inhabits
import QueryPushdown.Proofs.Value.Order
import QueryPushdown.Value.Key

/-!
# Equality of values

Equality is transitive, and symmetric on values whose mappings name no field twice. Scalars that have
keys are equal when their keys are, and nothing else equals a scalar that has one.
-/

namespace QueryPushdown

namespace Binary64

theorem exponentStep_pos : 0 < exponentStep := by decide

theorem unitsOfMagnitude_lt_pow (m : Nat) :
    unitsOfMagnitude m < exponentStep * 2 ^ (m / exponentStep) := by
  have hfraction : m % exponentStep < exponentStep := Nat.mod_lt _ exponentStep_pos
  unfold unitsOfMagnitude
  dsimp only
  generalize m / exponentStep = e at *
  generalize m % exponentStep = f at *
  cases e with
  | zero => simpa using hfraction
  | succ e =>
    rw [if_neg (Nat.succ_ne_zero e), Nat.add_sub_cancel, Nat.pow_succ, Nat.mul_comm (2 ^ e) 2,
      ← Nat.mul_assoc]
    exact Nat.mul_lt_mul_of_pos_right (by omega) (Nat.two_pow_pos e)

theorem pow_le_unitsOfMagnitude {n : Nat} (h : n / exponentStep ≠ 0) :
    exponentStep * 2 ^ (n / exponentStep - 1) ≤ unitsOfMagnitude n := by
  unfold unitsOfMagnitude
  dsimp only
  rw [if_neg h]
  exact Nat.mul_le_mul_right _ (Nat.le_add_right _ _)

/-- Larger magnitude bits stand for more units. -/
theorem unitsOfMagnitude_lt {m n : Nat} (h : m < n) : unitsOfMagnitude m < unitsOfMagnitude n := by
  rcases Nat.lt_or_ge (m / exponentStep) (n / exponentStep) with hlt | hge
  · have hpow : exponentStep * 2 ^ (m / exponentStep) ≤
        exponentStep * 2 ^ (n / exponentStep - 1) :=
      Nat.mul_le_mul_left _ (Nat.pow_le_pow_right (by decide) (by omega))
    have hupper := unitsOfMagnitude_lt_pow m
    have hlower := pow_le_unitsOfMagnitude (Nat.ne_of_gt (Nat.zero_lt_of_lt hlt))
    omega
  · have hsame : m / exponentStep = n / exponentStep :=
      Nat.le_antisymm (Nat.div_le_div_right (Nat.le_of_lt h)) hge
    have hfraction : m % exponentStep < n % exponentStep := by
      have hm := Nat.div_add_mod m exponentStep
      have hn := Nat.div_add_mod n exponentStep
      rw [hsame] at hm
      omega
    unfold unitsOfMagnitude
    dsimp only
    rw [hsame]
    split
    · exact hfraction
    · exact Nat.mul_lt_mul_of_pos_right (by omega) (Nat.two_pow_pos _)

theorem magnitude_of_units {m n : Nat} (h : unitsOfMagnitude m = unitsOfMagnitude n) : m = n := by
  rcases Nat.lt_trichotomy m n with hlt | heq | hgt
  · have := unitsOfMagnitude_lt hlt
    omega
  · exact heq
  · have := unitsOfMagnitude_lt hgt
    omega

/-- Numbers with as many units stand at one position. -/
theorem position_of_units {x y : Binary64} (h : x.units = y.units) : x.position = y.position := by
  have hzero : unitsOfMagnitude 0 = 0 := rfl
  unfold units at h
  unfold position
  cases hx : x.isNegative <;> cases hy : y.isNegative <;>
    simp only [hx, hy, Bool.false_eq_true, if_false, if_true] at h ⊢
  · rw [magnitude_of_units (by omega : unitsOfMagnitude x.magnitude = unitsOfMagnitude y.magnitude)]
  · rw [magnitude_of_units (by omega : unitsOfMagnitude x.magnitude = unitsOfMagnitude 0),
      magnitude_of_units (by omega : unitsOfMagnitude y.magnitude = unitsOfMagnitude 0)]
    rfl
  · rw [magnitude_of_units (by omega : unitsOfMagnitude x.magnitude = unitsOfMagnitude 0),
      magnitude_of_units (by omega : unitsOfMagnitude y.magnitude = unitsOfMagnitude 0)]
    rfl
  · rw [magnitude_of_units (by omega : unitsOfMagnitude x.magnitude = unitsOfMagnitude y.magnitude)]

theorem same_of_position {x y : Binary64} (hx : x.isNaN = false) (hy : y.isNaN = false)
    (h : x.position = y.position) : x.same y = true := by
  have heq : compare x.position y.position = .eq := by simp [h]
  rw [same, compare?, hx, hy, heq]
  rfl

theorem same_trans {x y z : Binary64} (hxy : x.same y = true) (hyz : y.same z = true) :
    x.same z = true := by
  obtain ⟨hx, -, hp⟩ := position_of_same hxy
  obtain ⟨-, hz, hq⟩ := position_of_same hyz
  exact same_of_position hx hz (hp.trans hq)

theorem toInt?_eq_some {x : Binary64} {i : Int} (h : x.toInt? = some i) :
    x.isNaN = false ∧ x.units = i * unitsPerOne := by
  unfold toInt? at h
  split at h
  · rename_i hboth
    obtain ⟨hfinite, hmod⟩ := hboth
    cases h
    refine ⟨?_, (Int.ediv_mul_cancel (Int.dvd_of_emod_eq_zero hmod)).symm⟩
    have hlt : x.magnitude < infiniteMagnitude := by simpa [isFinite] using hfinite
    simpa [isNaN] using Nat.le_of_lt hlt
  · cases h

theorem same_of_toInt? {x y : Binary64} {i : Int} (hx : x.toInt? = some i)
    (hy : y.toInt? = some i) : x.same y = true := by
  obtain ⟨hnx, hux⟩ := toInt?_eq_some hx
  obtain ⟨hny, huy⟩ := toInt?_eq_some hy
  exact same_of_position hnx hny (position_of_units (hux.trans huy.symm))

theorem bits_eq (x : Binary64) :
    x.bits.toNat = x.magnitude + if x.isNegative then signBit else 0 := by
  have hlt := x.bits.toNat_lt
  unfold magnitude isNegative signBit
  split <;> rename_i h <;> simp only [decide_eq_true_eq] at h <;> omega

theorem toInt?_of_isZero {x : Binary64} (h : x.magnitude = 0) : x.toInt? = some 0 := by
  have hfinite : x.isFinite = true := by
    rw [isFinite, h]
    decide
  rw [toInt?, units_zero h, hfinite, if_pos ⟨rfl, Int.zero_emod _⟩, Int.zero_ediv]

/-- Numbers that are the same differ in their bits only when they are zeros. -/
theorem eq_of_same {x y : Binary64} (h : x.same y = true) (hz : x.magnitude ≠ 0) : x = y := by
  obtain ⟨-, -, hp⟩ := position_of_same h
  have hx := x.bits_eq
  have hy := y.bits_eq
  unfold position at hp
  have hbits : x.bits.toNat = y.bits.toNat := by
    cases hsx : x.isNegative <;> cases hsy : y.isNegative <;>
      simp only [hsx, hsy, Bool.false_eq_true, if_false, if_true] at hp hx hy <;> omega
  obtain ⟨x⟩ := x
  obtain ⟨y⟩ := y
  exact congrArg Binary64.mk (UInt64.toNat_inj.1 hbits)

end Binary64

namespace Value

variable {a b c : Value} {x y : Binary64} {i : Int64}

theorem exactInt?_eq_some (h : exactInt? x = some i) : x.toInt? = some i.toInt := by
  unfold exactInt? at h
  split at h
  · rename_i n hn
    split at h
    · rename_i hrange
      cases h
      rw [hn, Int64.toInt_ofInt_of_le hrange.1 hrange.2]
    · cases h
  · cases h

theorem exactInt?_of_same (h : x.same y = true) : exactInt? x = exactInt? y := by
  rw [exactInt?, exactInt?, Binary64.toInt?_of_same h]

theorem same_of_exactInt? (hx : exactInt? x = some i) (hy : exactInt? y = some i) :
    x.same y = true :=
  Binary64.same_of_toInt? (exactInt?_eq_some hx) (exactInt?_eq_some hy)

theorem isEqFields_cons (name : String) (a : Value) (as bs : List (String × Value)) :
    isEqFields ((name, a) :: as) bs = true ↔
      (∃ b, Fields.get? bs name = some b ∧ a.isEq b = true) ∧ isEqFields as bs = true := by
  rw [isEqFields, Bool.and_eq_true_iff]
  cases Fields.get? bs name <;> simp

/-- Each field of the first mapping stands in the second one with an equal value. -/
theorem isEqFields_iff {as bs : List (String × Value)} : isEqFields as bs = true ↔
    ∀ f ∈ as, ∃ b, Fields.get? bs f.1 = some b ∧ f.2.isEq b = true := by
  induction as with
  | nil => simp [isEqFields]
  | cons f as ih => rw [isEqFields_cons, ih, List.forall_mem_cons]

mutual

theorem isEq_trans {a b c : Value} (hab : a.isEq b = true) (hbc : b.isEq c = true) :
    a.isEq c = true := by
  cases a with
  | null =>
    cases b with
    | null => exact hbc
    | _ => cases hab
  | bool x =>
    cases b with
    | bool y =>
      obtain rfl := eq_of_beq hab
      exact hbc
    | _ => cases hab
  | text s =>
    cases b with
    | text t =>
      obtain rfl := eq_of_beq hab
      exact hbc
    | _ => cases hab
  | int i =>
    cases b with
    | int j =>
      obtain rfl := eq_of_beq hab
      exact hbc
    | float x =>
      have hx : exactInt? x = some i := eq_of_beq hab
      cases c with
      | int k =>
        have hk : exactInt? x = some k := eq_of_beq hbc
        rw [hx] at hk
        cases hk
        exact beq_self_eq_true i
      | float y =>
        have hy : exactInt? y = some i := (exactInt?_of_same hbc).symm.trans hx
        exact beq_iff_eq.2 hy
      | _ => cases hbc
    | _ => cases hab
  | float x =>
    cases b with
    | int j =>
      have hx : exactInt? x = some j := eq_of_beq hab
      cases c with
      | int k =>
        obtain rfl := eq_of_beq hbc
        exact hab
      | float y => exact same_of_exactInt? hx (eq_of_beq hbc)
      | _ => cases hbc
    | float y =>
      cases c with
      | int k =>
        have hy : exactInt? y = some k := eq_of_beq hbc
        exact beq_iff_eq.2 ((exactInt?_of_same hab).trans hy)
      | float z => exact Binary64.same_trans hab hbc
      | _ => cases hbc
    | _ => cases hab
  | list as =>
    cases b with
    | list bs =>
      cases c with
      | list cs => exact isEqItems_trans hab hbc
      | _ => cases hbc
    | _ => cases hab
  | mapping as =>
    cases b with
    | mapping bs =>
      cases c with
      | mapping cs =>
        obtain ⟨hab, hfab⟩ := Bool.and_eq_true_iff.1 hab
        obtain ⟨hbc, hfbc⟩ := Bool.and_eq_true_iff.1 hbc
        exact Bool.and_eq_true_iff.2 ⟨beq_iff_eq.2 ((eq_of_beq hab).trans (eq_of_beq hbc)),
          isEqFields_trans hfab hfbc⟩
      | _ => cases hbc
    | _ => cases hab
termination_by sizeOf a

theorem isEqItems_trans {as bs cs : List Value} (hab : isEqItems as bs = true)
    (hbc : isEqItems bs cs = true) : isEqItems as cs = true := by
  match as, bs, cs with
  | [], [], _ => exact hbc
  | _ :: _, _ :: _, [] => cases hbc
  | a :: as, b :: bs, c :: cs =>
    obtain ⟨hab, hitems⟩ := Bool.and_eq_true_iff.1 hab
    obtain ⟨hbc, hitems'⟩ := Bool.and_eq_true_iff.1 hbc
    exact Bool.and_eq_true_iff.2 ⟨isEq_trans hab hbc, isEqItems_trans hitems hitems'⟩
termination_by sizeOf as

theorem isEqFields_trans {as bs cs : List (String × Value)} (hab : isEqFields as bs = true)
    (hbc : isEqFields bs cs = true) : isEqFields as cs = true := by
  match as with
  | [] => rfl
  | (name, a) :: as =>
    obtain ⟨⟨b, hb, hfirst⟩, hrest⟩ := (isEqFields_cons ..).1 hab
    obtain ⟨c, hc, hsecond⟩ := isEqFields_iff.1 hbc _ (Fields.mem_of_get? hb)
    exact (isEqFields_cons ..).2 ⟨⟨c, hc, isEq_trans hfirst hsecond⟩, isEqFields_trans hrest hbc⟩
termination_by sizeOf as

end

theorem isEqItems_iff {as bs : List Value} : isEqItems as bs = true ↔ as.length = bs.length ∧
    ∀ (i : Nat) (hi : i < as.length) (hj : i < bs.length), as[i].isEq bs[i] = true := by
  refine Iff.trans ?_ (List.forall₂_iff_get (R := fun a b => Value.isEq a b = true))
  induction as generalizing bs with
  | nil => cases bs <;> simp [isEqItems]
  | cons a as ih =>
    cases bs with
    | nil => simp [isEqItems]
    | cons b bs => rw [isEqItems, Bool.and_eq_true_iff, ih, List.forall₂_cons]

theorem isEq_symm {a b : Value} (ha : a.Distinct) (hb : b.Distinct) (h : a.isEq b = true) :
    b.isEq a = true := by
  induction ha generalizing b with
  | list hitems ih =>
    cases b with
    | list bs =>
      cases hb with
      | list hb =>
        obtain ⟨hlength, h⟩ := isEqItems_iff.1 h
        exact isEqItems_iff.2 ⟨hlength.symm, fun i hj hi =>
          ih _ (List.getElem_mem hi) (hb _ (List.getElem_mem hj)) (h i hi hj)⟩
    | _ => cases h
  | @mapping as hn hfields ih =>
    cases b with
    | mapping bs =>
      cases hb with
      | mapping hnb hb =>
        obtain ⟨hlength, h⟩ := Bool.and_eq_true_iff.1 h
        have hlength := eq_of_beq hlength
        have hfields := isEqFields_iff.1 h
        have hhas := Fields.has_eq_of_length hn hlength fun f hf => by
          obtain ⟨b, hget, -⟩ := hfields f hf
          rw [Fields.has, hget]
          rfl
        refine Bool.and_eq_true_iff.2 ⟨beq_iff_eq.2 hlength.symm, isEqFields_iff.2 fun f hf => ?_⟩
        have hname : Fields.has as f.1 = true := by
          rw [← hhas]
          exact Fields.has_iff_mem_names.2 (List.mem_map_of_mem hf)
        obtain ⟨a, hget⟩ := Option.isSome_iff_exists.1 hname
        have hmem := Fields.mem_of_get? hget
        obtain ⟨b, hb', hab⟩ := hfields _ hmem
        rw [Fields.get?_of_mem hnb hf] at hb'
        cases hb'
        exact ⟨a, hget, ih _ hmem (hb f hf) hab⟩
    | _ => cases h
  | null | bool | int | float | text => rwa [← isEq_comm_of_isScalar rfl]

theorem key?_float_of_exactInt? (h : exactInt? x = some i) : (float x).key? = some (.int i) := by
  rw [key?, (Binary64.toInt?_eq_some (exactInt?_eq_some h)).1, h]
  rfl

/-- The key of a float is that of an integer or its own. -/
theorem key?_float_eq_some {k : Key} (h : (float x).key? = some k) :
    (∃ i, exactInt? x = some i ∧ k = .int i) ∨ x.isNaN = false ∧ k = .float x.bits := by
  rw [key?] at h
  split at h
  · cases h
  · rename_i hnan
    cases hexact : exactInt? x with
    | some i =>
      rw [hexact] at h
      cases h
      exact .inl ⟨i, rfl, rfl⟩
    | none =>
      rw [hexact] at h
      cases h
      exact .inr ⟨eq_false_of_ne_true hnan, rfl⟩

theorem exactInt?_of_isZero (h : x.magnitude = 0) : exactInt? x = some 0 := by
  rw [exactInt?, Binary64.toInt?_of_isZero h]
  rfl

theorem key?_of_same (h : x.same y = true) : (float x).key? = (float y).key? := by
  obtain ⟨hx, hy, -⟩ := Binary64.position_of_same h
  cases hexact : exactInt? x with
  | some i =>
    rw [key?_float_of_exactInt? hexact, key?_float_of_exactInt? (exactInt?_of_same h ▸ hexact)]
  | none =>
    have hz : x.magnitude ≠ 0 := fun hz => by
      rw [exactInt?_of_isZero hz] at hexact
      cases hexact
    rw [Binary64.eq_of_same h hz]

/-- Values that are equal have one key, or none. -/
theorem key?_of_isEq {a b : Value} (h : a.isEq b = true) : a.key? = b.key? := by
  cases a with
  | null | list | mapping =>
    cases b <;> first | rfl | cases h
  | bool x =>
    cases b with
    | bool y => rw [eq_of_beq h]
    | _ => cases h
  | text s =>
    cases b with
    | text t => rw [eq_of_beq h]
    | _ => cases h
  | int i =>
    cases b with
    | int j => rw [eq_of_beq h]
    | float x => exact (key?_float_of_exactInt? (eq_of_beq h)).symm
    | _ => cases h
  | float x =>
    cases b with
    | int j => exact key?_float_of_exactInt? (eq_of_beq h)
    | float y => exact key?_of_same h
    | _ => cases h

/-- Values with one key are equal. -/
theorem isEq_of_key? {a b : Value} {k : Key} (ha : a.key? = some k) (hb : b.key? = some k) :
    a.isEq b = true := by
  cases a with
  | float x =>
    rcases key?_float_eq_some ha with ⟨i, hx, rfl⟩ | ⟨hx, rfl⟩
    · cases b with
      | int j =>
        cases hb
        exact beq_iff_eq.2 hx
      | float y =>
        rcases key?_float_eq_some hb with ⟨j, hy, hij⟩ | ⟨hy, hij⟩
        · cases hij
          exact same_of_exactInt? hx hy
        · cases hij
      | _ => cases hb
    · cases b with
      | float y =>
        rcases key?_float_eq_some hb with ⟨j, hy, hij⟩ | ⟨hy, hij⟩
        · cases hij
        · have hxy : x = y := congrArg Binary64.mk (Key.float.inj hij)
          exact Binary64.same_of_position hx hy (congrArg Binary64.position hxy)
      | _ => cases hb
  | list | mapping => cases ha
  | null | bool | text =>
    cases ha
    cases b with
    | float y => rcases key?_float_eq_some hb with ⟨j, hy, hij⟩ | ⟨hy, hij⟩ <;> cases hij
    | _ => cases hb <;> first | rfl | exact beq_self_eq_true _
  | int i =>
    cases ha
    cases b with
    | int j =>
      cases hb
      exact beq_self_eq_true i
    | float y =>
      rcases key?_float_eq_some hb with ⟨j, hy, hij⟩ | ⟨hy, hij⟩
      · cases hij
        exact beq_iff_eq.2 hy
      · cases hij
    | _ => cases hb

/-- Whether an element has a field that equals a value. -/
def binds (element : Value) (f : String × Value) : Bool :=
  match element.field f.1 with
  | .ok w => w.isEq f.2
  | .error _ => false

theorem binds_iff {element : Value} {f : String × Value} :
    element.binds f = true ↔ ∃ w, element.field f.1 = .ok w ∧ w.isEq f.2 = true := by
  unfold binds
  cases element.field f.1 <;> simp

/-- No field of an element names a field twice, at any depth. -/
def DistinctFields (element : Value) : Prop :=
  ∀ name w, element.field name = .ok w → w.Distinct

end Value

end QueryPushdown
