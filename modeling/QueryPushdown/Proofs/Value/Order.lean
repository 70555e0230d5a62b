import QueryPushdown.Value.Compare

/-!
# Sides of comparisons

All orders swap their outcome when their sides are exchanged, and the order of all values is transitive
on the values of one scalar type. Equality does not depend on the side either, as long as one of them
is a scalar. Floats that are the same compare alike with everything.
-/

namespace QueryPushdown

namespace Binary64

theorem totalCompare_swap (x y : Binary64) : y.totalCompare x = (x.totalCompare y).swap :=
  Std.OrientedOrd.eq_swap

theorem compare?_swap (x y : Binary64) : y.compare? x = (x.compare? y).map Ordering.swap := by
  have h : compare y.position x.position = (compare x.position y.position).swap :=
    Std.OrientedOrd.eq_swap
  unfold compare?
  rw [Bool.or_comm, h]
  split <;> rfl

theorem same_comm (x y : Binary64) : x.same y = y.same x := by
  unfold same
  rw [compare?_swap x y]
  cases x.compare? y with
  | none => rfl
  | some o => cases o <;> rfl

theorem position_of_same {x y : Binary64} (h : x.same y = true) :
    x.isNaN = false ∧ y.isNaN = false ∧ x.position = y.position := by
  unfold same compare? at h
  split at h
  · cases h
  · rename_i hnan
    obtain ⟨hx, hy⟩ := Bool.or_eq_false_iff.1 (eq_false_of_ne_true hnan)
    have heq : compare x.position y.position = .eq := by simpa using h
    exact ⟨hx, hy, Std.LawfulEqOrd.eq_of_compare heq⟩

theorem compare?_of_same {x y : Binary64} (h : x.same y = true) (z : Binary64) :
    z.compare? x = z.compare? y := by
  obtain ⟨hx, hy, hp⟩ := position_of_same h
  rw [compare?, compare?, hx, hy, hp]

theorem units_zero {x : Binary64} (h : x.magnitude = 0) : x.units = 0 := by
  unfold units
  rw [h]
  split <;> rfl

theorem toInt?_of_same {x y : Binary64} (h : x.same y = true) : x.toInt? = y.toInt? := by
  obtain ⟨-, -, hp⟩ := position_of_same h
  have hunits : x.magnitude = y.magnitude ∧ x.units = y.units := by
    unfold position at hp
    have hboth : x.isNegative = y.isNegative ∧ x.magnitude = y.magnitude ∨
        x.magnitude = 0 ∧ y.magnitude = 0 := by
      cases hx : x.isNegative <;> cases hy : y.isNegative <;>
        simp only [hx, hy, Bool.false_eq_true, if_false, if_true, true_and, false_and] at hp ⊢ <;>
        omega
    rcases hboth with ⟨hsign, hm⟩ | ⟨hx, hy⟩
    · exact ⟨hm, by rw [units, units, hsign, hm]⟩
    · exact ⟨by rw [hx, hy], by rw [units_zero hx, units_zero hy]⟩
  rw [toInt?, toInt?, isFinite, isFinite, hunits.1, hunits.2]

end Binary64

namespace Value

mutual

theorem totalCompare_swap (a b : Value) : b.totalCompare a = (a.totalCompare b).swap := by
  have hrank : ∀ m n : Nat, compare n m = (compare m n).swap := fun _ _ => Std.OrientedOrd.eq_swap
  cases a with
  | list as =>
    cases b with
    | list bs => exact totalCompareItems_swap as bs
    | _ => exact hrank _ _
  | mapping as =>
    cases b with
    | mapping bs => exact totalCompareFields_swap as bs
    | _ => exact hrank _ _
  | bool x =>
    cases b with
    | bool y => exact Std.OrientedOrd.eq_swap
    | _ => exact hrank _ _
  | int i =>
    cases b with
    | int j => exact Std.OrientedOrd.eq_swap
    | float y => exact Binary64.totalCompare_swap _ _
    | _ => exact hrank _ _
  | float x =>
    cases b with
    | int j => exact Binary64.totalCompare_swap _ _
    | float y => exact Binary64.totalCompare_swap _ _
    | _ => exact hrank _ _
  | text s =>
    cases b with
    | text t => exact Std.OrientedOrd.eq_swap
    | _ => exact hrank _ _
  | null => cases b <;> exact hrank _ _
termination_by sizeOf a

theorem totalCompareItems_swap (as bs : List Value) :
    totalCompareItems bs as = (totalCompareItems as bs).swap := by
  match as, bs with
  | [], [] => rfl
  | [], _ :: _ => rfl
  | _ :: _, [] => rfl
  | a :: as, b :: bs =>
    rw [totalCompareItems, totalCompareItems, totalCompare_swap a b, totalCompareItems_swap as bs]
    cases a.totalCompare b <;> rfl
termination_by sizeOf as

theorem totalCompareFields_swap (as bs : List (String × Value)) :
    totalCompareFields bs as = (totalCompareFields as bs).swap := by
  match as, bs with
  | [], [] => rfl
  | [], _ :: _ => rfl
  | _ :: _, [] => rfl
  | (m, a) :: as, (n, b) :: bs =>
    have hname : compare n m = (compare m n).swap := Std.OrientedOrd.eq_swap
    rw [totalCompareFields, totalCompareFields, hname, totalCompare_swap a b,
      totalCompareFields_swap as bs]
    cases compare m n <;> cases a.totalCompare b <;> rfl
termination_by sizeOf as

end

/-- Values of one scalar type are in a transitive order. -/
theorem totalCompare_trans {a b c : Value} (hs : a.ty.isScalar = true) (hb : b.ty = a.ty)
    (hc : c.ty = a.ty) (hab : (a.totalCompare b).isLE) (hbc : (b.totalCompare c).isLE) :
    (a.totalCompare c).isLE := by
  cases a with
  | list | mapping => cases hs
  | null => cases c <;> rfl
  | bool x =>
    cases b with
    | bool y =>
      cases c with
      | bool z => exact Std.TransOrd.isLE_trans (a := x) (b := y) hab hbc
      | _ => cases hc
    | _ => cases hb
  | int i =>
    cases b with
    | int j =>
      cases c with
      | int k => exact Std.TransOrd.isLE_trans (a := i) (b := j) hab hbc
      | _ => cases hc
    | _ => cases hb
  | float x =>
    cases b with
    | float y =>
      cases c with
      | float z => exact Std.TransOrd.isLE_trans (a := x.rank) (b := y.rank) hab hbc
      | _ => cases hc
    | _ => cases hb
  | text s =>
    cases b with
    | text t =>
      cases c with
      | text u => exact Std.TransOrd.isLE_trans (a := s) (b := t) hab hbc
      | _ => cases hc
    | _ => cases hb

theorem compareFloats_swap {x y : Binary64} {o : Ordering} (h : compareFloats x y = .ok o) :
    compareFloats y x = .ok o.swap := by
  unfold compareFloats at h ⊢
  rw [Binary64.compare?_swap x y]
  cases hc : x.compare? y with
  | none =>
    rw [hc] at h
    cases h
  | some o' =>
    rw [hc] at h
    cases h
    rfl

mutual

theorem compare?_swap {a b : Value} {o : Ordering} (h : a.compare? b = .ok o) :
    b.compare? a = .ok o.swap := by
  cases a with
  | list as =>
    cases b with
    | list bs => exact compareItems?_swap h
    | _ => cases h
  | bool x =>
    cases b with
    | bool y =>
      cases h
      exact congrArg Except.ok Std.OrientedOrd.eq_swap
    | _ => cases h
  | int i =>
    cases b with
    | int j =>
      cases h
      exact congrArg Except.ok Std.OrientedOrd.eq_swap
    | float y => exact compareFloats_swap h
    | _ => cases h
  | float x =>
    cases b with
    | int j => exact compareFloats_swap h
    | float y => exact compareFloats_swap h
    | _ => cases h
  | text s =>
    cases b with
    | text t =>
      cases h
      exact congrArg Except.ok Std.OrientedOrd.eq_swap
    | _ => cases h
  | null | mapping _ => cases b <;> cases h
termination_by sizeOf a

theorem compareItems?_swap {as bs : List Value} {o : Ordering} (h : compareItems? as bs = .ok o) :
    compareItems? bs as = .ok o.swap := by
  match as, bs with
  | [], [] =>
    cases h
    rfl
  | [], _ :: _ =>
    cases h
    rfl
  | _ :: _, [] =>
    cases h
    rfl
  | a :: as, b :: bs =>
    rw [compareItems?] at h ⊢
    obtain ⟨first, hfirst, h⟩ := Outcome.bind_eq_ok.1 h
    rw [compare?_swap hfirst]
    cases first with
    | eq => exact compareItems?_swap h
    | lt | gt =>
      cases h
      rfl
termination_by sizeOf as

end

theorem compare?_float_of_same {x y : Binary64} (h : x.same y = true) (v : Value) :
    v.compare? (float x) = v.compare? (float y) := by
  have hfloats : ∀ z, compareFloats z x = compareFloats z y := fun z => by
    rw [compareFloats, compareFloats, Binary64.compare?_of_same h]
  cases v with
  | int i => exact hfloats _
  | float z => exact hfloats z
  | _ => rfl

theorem isEq_comm_of_isScalar {a : Value} (h : a.isScalar = true) (b : Value) :
    a.isEq b = b.isEq a := by
  cases a with
  | list | mapping => cases h
  | null => cases b <;> rfl
  | bool x =>
    cases b with
    | bool y => exact Bool.beq_comm
    | _ => rfl
  | int i =>
    cases b with
    | int j => exact Bool.beq_comm
    | _ => rfl
  | float x =>
    cases b with
    | float y => exact x.same_comm y
    | _ => rfl
  | text s =>
    cases b with
    | text t => exact Bool.beq_comm
    | _ => rfl

end Value

end QueryPushdown
