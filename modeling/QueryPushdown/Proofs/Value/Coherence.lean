import QueryPushdown.Eval.Operator
import QueryPushdown.Proofs.Value.Totality

/-!
# The order of requests and equality

Equality of an integer and a float is exact, and their order goes by the float that the integer is
rounded to. Values that are equal compare as equal, if they can be compared; values that compare as
equal need not be equal. On the values whose integers are rounded to none of their floats but those
that stand for them, at any depth, exactly one of `<`, `==` and `>` holds, and `<=` is transitive;
on all values that hold an integer and a float that do not fit, it is not so.
-/

namespace QueryPushdown

namespace Value

variable {I : Int64 → Prop} {F : Binary64 → Prop} {a b c : Value} {o o₁ o₂ o₃ : Ordering}

theorem compareFloats_eq_ok {x y : Binary64} (h : compareFloats x y = .ok o) :
    x.isNaN = false ∧ y.isNaN = false ∧ compare x.position y.position = o := by
  unfold compareFloats Binary64.compare? at h
  cases hnan : x.isNaN || y.isNaN with
  | true =>
    rw [hnan] at h
    cases h
  | false =>
    rw [hnan] at h
    cases h
    obtain ⟨hx, hy⟩ := Bool.or_eq_false_iff.1 hnan
    exact ⟨hx, hy, rfl⟩

theorem compareFloats_of_same {x y : Binary64} (hxy : x.same y = true)
    (h : compareFloats x y = .ok o) : o = .eq := by
  obtain ⟨-, -, hp⟩ := Binary64.position_of_same hxy
  obtain ⟨-, -, rfl⟩ := compareFloats_eq_ok h
  rw [hp]
  exact Std.ReflOrd.compare_self

theorem same_of_compareFloats {x y : Binary64} (h : compareFloats x y = .ok .eq) :
    x.same y = true := by
  obtain ⟨hx, hy, hp⟩ := compareFloats_eq_ok h
  exact Binary64.same_of_position hx hy (Std.LawfulEqOrd.eq_of_compare hp)

/-- Lists are compared by their first elements, and by the others where these make no difference. -/
theorem compareItems?_cons {as bs : List Value} (h : compareItems? (a :: as) (b :: bs) = .ok o) :
    ∃ first rest, a.compare? b = .ok first ∧ o = first.then rest ∧
      (first = .eq → compareItems? as bs = .ok rest) := by
  rw [compareItems?] at h
  obtain ⟨first, hfirst, h⟩ := Outcome.bind_eq_ok.1 h
  refine ⟨first, o, hfirst, ?_⟩
  cases first with
  | eq => exact ⟨rfl, fun _ => h⟩
  | lt | gt =>
    cases h
    exact ⟨rfl, nofun⟩

mutual

/-- Equal values compare as equal. -/
theorem eq_of_isEq {a b : Value} {o : Ordering} (h : a.compare? b = .ok o)
    (heq : a.isEq b = true) : o = .eq := by
  cases a with
  | null | mapping => cases b <;> cases h
  | bool x =>
    cases b with
    | bool y =>
      cases h
      rw [eq_of_beq heq]
      exact Std.ReflOrd.compare_self
    | _ => cases h
  | text s =>
    cases b with
    | text t =>
      cases h
      rw [eq_of_beq heq]
      exact Std.ReflOrd.compare_self
    | _ => cases h
  | int i =>
    cases b with
    | int j =>
      cases h
      rw [eq_of_beq heq]
      exact Std.ReflOrd.compare_self
    | float y =>
      exact compareFloats_of_same (Binary64.same_ofInt (exactInt?_eq_some (eq_of_beq heq))) h
    | _ => cases h
  | float x =>
    cases b with
    | int j =>
      have hsame := Binary64.same_ofInt (exactInt?_eq_some (eq_of_beq heq))
      exact compareFloats_of_same (Binary64.same_comm _ _ ▸ hsame) h
    | float y => exact compareFloats_of_same heq h
    | _ => cases h
  | list as =>
    cases b with
    | list bs => exact eq_of_isEqItems h heq
    | _ => cases h
termination_by sizeOf a

theorem eq_of_isEqItems {as bs : List Value} {o : Ordering} (h : compareItems? as bs = .ok o)
    (heq : isEqItems as bs = true) : o = .eq := by
  match as, bs with
  | [], [] =>
    cases h
    rfl
  | [], _ :: _ | _ :: _, [] => cases heq
  | a :: as, b :: bs =>
    obtain ⟨hfirst, hrest⟩ := Bool.and_eq_true_iff.1 heq
    obtain ⟨first, rest, hab, rfl, hmore⟩ := compareItems?_cons h
    obtain rfl := eq_of_isEq hab hfirst
    exact eq_of_isEqItems (hmore rfl) hrest
termination_by sizeOf as

end

/-- The integers are rounded to no float that does not stand for them. -/
def Exact (I : Int64 → Prop) (F : Binary64 → Prop) : Prop :=
  ∀ i x, I i → F x → (Binary64.ofInt i.toInt).same x = true → exactInt? x = some i

theorem isEqItems_of_compare? {as bs : List Value}
    (h : ∀ a ∈ as, ∀ b ∈ bs, a.compare? b = .ok .eq → a.isEq b = true)
    (heq : compareItems? as bs = .ok .eq) : isEqItems as bs = true := by
  induction as generalizing bs with
  | nil =>
    cases bs with
    | nil => rfl
    | cons b bs => cases heq
  | cons a as ih =>
    cases bs with
    | nil => cases heq
    | cons b bs =>
      obtain ⟨first, rest, hab, hthen, hmore⟩ := compareItems?_cons heq
      obtain ⟨rfl, rfl⟩ := Ordering.then_eq_eq.1 hthen.symm
      refine Bool.and_eq_true_iff.2
        ⟨h a List.mem_cons_self b List.mem_cons_self hab, ih ?_ (hmore rfl)⟩
      exact fun v hv w hw => h v (List.mem_cons_of_mem _ hv) w (List.mem_cons_of_mem _ hw)

/-- Values that compare as equal are equal, if their integers are exact. -/
theorem isEq_of_compare? (hexact : Exact I F) (ha : a.NumbersIn I F) (hb : b.NumbersIn I F)
    (h : a.compare? b = .ok .eq) : a.isEq b = true := by
  induction ha generalizing b with
  | null | mapping => cases b <;> cases h
  | bool x =>
    cases b with
    | bool y => exact beq_iff_eq.2 (Std.LawfulEqOrd.eq_of_compare (Except.ok.inj h))
    | _ => cases h
  | text s =>
    cases b with
    | text t => exact beq_iff_eq.2 (Std.LawfulEqOrd.eq_of_compare (Except.ok.inj h))
    | _ => cases h
  | int hi =>
    cases hb with
    | int hj => exact beq_iff_eq.2 (Std.LawfulEqOrd.eq_of_compare (Except.ok.inj h))
    | float hy => exact beq_iff_eq.2 (hexact _ _ hi hy (same_of_compareFloats h))
    | _ => cases h
  | float hx =>
    cases hb with
    | int hj =>
      have hsame := same_of_compareFloats h
      exact beq_iff_eq.2 (hexact _ _ hj hx (Binary64.same_comm _ _ ▸ hsame))
    | float hy => exact same_of_compareFloats h
    | _ => cases h
  | list _ ih =>
    cases hb with
    | list hb => exact isEqItems_of_compare? (fun v hv w hw => ih v hv (hb w hw)) h
    | _ => cases h

theorem Exact.apart (h : Exact I F) : Apart Binary64.position I F := by
  intro i j x hi hj hx hix hjx
  have hi := h i x hi hx (Binary64.same_ofInt_of_position hix)
  have hj := h j x hj hx (Binary64.same_ofInt_of_position hjx)
  rw [hi] at hj
  exact Option.some.inj hj

/-- A number is compared with numbers only, by where floats stand. -/
theorem compareAt_of_compare? (ha : a.isNumber = true) (h : a.compare? b = .ok o) :
    b.isNumber = true ∧ compareAt Binary64.position a b = o := by
  cases a with
  | int i =>
    cases b with
    | int j =>
      cases h
      exact ⟨rfl, rfl⟩
    | float y => exact ⟨rfl, (compareFloats_eq_ok h).2.2⟩
    | _ => cases h
  | float x =>
    cases b with
    | int j => exact ⟨rfl, (compareFloats_eq_ok h).2.2⟩
    | float y => exact ⟨rfl, (compareFloats_eq_ok h).2.2⟩
    | _ => cases h
  | _ => cases ha

theorem compareItems?_composes {as bs cs : List Value} {o₁ o₂ o₃ : Ordering}
    (h : ∀ a ∈ as, ∀ b ∈ bs, ∀ c ∈ cs, ∀ {o₁ o₂ o₃}, a.compare? b = .ok o₁ →
      b.compare? c = .ok o₂ → a.compare? c = .ok o₃ → Composes o₁ o₂ o₃)
    (hab : compareItems? as bs = .ok o₁) (hbc : compareItems? bs cs = .ok o₂)
    (hac : compareItems? as cs = .ok o₃) : Composes o₁ o₂ o₃ := by
  induction as generalizing bs cs o₁ o₂ o₃ with
  | nil =>
    cases bs with
    | nil =>
      cases hab
      rw [hbc] at hac
      cases hac
      exact Composes.eq_first _
    | cons b bs =>
      cases hab
      cases cs with
      | nil =>
        cases hbc
        exact Composes.lt_gt _
      | cons c cs =>
        cases hac
        exact Composes.lt_first _
  | cons a as ih =>
    cases bs with
    | nil =>
      cases hab
      cases cs with
      | nil =>
        cases hac
        cases hbc
        exact Composes.eq_second _
      | cons c cs =>
        cases hbc
        exact Composes.gt_lt _
    | cons b bs =>
      cases cs with
      | nil =>
        cases hac
        cases hbc
        exact Composes.gt_second _
      | cons c cs =>
        obtain ⟨first, rest, hfirst, rfl, hrest⟩ := compareItems?_cons hab
        obtain ⟨first', rest', hfirst', rfl, hrest'⟩ := compareItems?_cons hbc
        obtain ⟨first'', rest'', hfirst'', rfl, hrest''⟩ := compareItems?_cons hac
        have hcomposes := h a List.mem_cons_self b List.mem_cons_self c List.mem_cons_self
          hfirst hfirst' hfirst''
        refine hcomposes.then fun he he' => ?_
        refine ih (fun v hv w hw u hu => h v (List.mem_cons_of_mem _ hv)
          w (List.mem_cons_of_mem _ hw) u (List.mem_cons_of_mem _ hu)) (hrest he) (hrest' he') (hrest'' (hcomposes.eq he he'))

theorem compare?_composes_numbers (hapart : Apart Binary64.position I F) (ha : a.NumbersIn I F)
    (hb : b.NumbersIn I F) (hc : c.NumbersIn I F) (hna : a.isNumber = true)
    (hab : a.compare? b = .ok o₁) (hbc : b.compare? c = .ok o₂) (hac : a.compare? c = .ok o₃) :
    Composes o₁ o₂ o₃ := by
  obtain ⟨hnb, rfl⟩ := compareAt_of_compare? hna hab
  obtain ⟨hnc, rfl⟩ := compareAt_of_compare? hnb hbc
  obtain ⟨-, rfl⟩ := compareAt_of_compare? hna hac
  exact compareAt_composes Binary64.position_ofInt_le hapart ha hb hc hna hnb hnc

/-- Values that can be compared pairwise are in order, if their integers are apart. -/
theorem compare?_composes (hapart : Apart Binary64.position I F) (ha : a.NumbersIn I F)
    (hb : b.NumbersIn I F) (hc : c.NumbersIn I F) (hab : a.compare? b = .ok o₁)
    (hbc : b.compare? c = .ok o₂) (hac : a.compare? c = .ok o₃) : Composes o₁ o₂ o₃ := by
  induction ha generalizing b c o₁ o₂ o₃ with
  | null | mapping => cases b <;> cases hab
  | bool x =>
    cases b with
    | bool y =>
      cases c with
      | bool z =>
        cases hab
        cases hbc
        cases hac
        exact composes_compare x y z
      | _ => cases hbc
    | _ => cases hab
  | text s =>
    cases b with
    | text t =>
      cases c with
      | text u =>
        cases hab
        cases hbc
        cases hac
        exact composes_compare s t u
      | _ => cases hbc
    | _ => cases hab
  | int hi => exact compare?_composes_numbers hapart (.int hi) hb hc rfl hab hbc hac
  | float hx => exact compare?_composes_numbers hapart (.float hx) hb hc rfl hab hbc hac
  | list _ ih =>
    cases hb with
    | list hb =>
      cases hc with
      | list hc =>
        exact compareItems?_composes (fun v hv w hw u hu => ih v hv (hb w hw) (hc u hu)) hab hbc hac
      | _ => cases hbc
    | _ => cases hab

/-- Exactly one of `<`, `==` and `>` holds of two values, and `<=` is one of the first two. -/
def Decided (a b : Value) : Prop :=
  ∃ less equal greater : Bool, Operator.binary .lt a b = .ok (.bool less) ∧
    Operator.binary .eq a b = .ok (.bool equal) ∧ Operator.binary .gt a b = .ok (.bool greater) ∧
    [less, equal, greater].count true = 1 ∧
    Operator.binary .le a b = .ok (.bool (less || equal))

theorem binary_of_compare? (h : a.compare? b = .ok o) :
    Operator.binary .lt a b = .ok (.bool o.isLT) ∧ Operator.binary .gt a b = .ok (.bool o.isGT) ∧
      Operator.binary .le a b = .ok (.bool o.isLE) := by
  have hordered : ∀ (op : BinaryOp) (test : Ordering → Bool),
      Operator.binary op a b = (do pure (.bool (test (← a.compare? b)))) →
      Operator.binary op a b = .ok (.bool (test o)) := fun op test hop => by
    rw [hop, h]
    rfl
  exact ⟨hordered .lt _ rfl, hordered .gt _ rfl, hordered .le _ rfl⟩

theorem decided_of_compare? (h : a.compare? b = .ok o) (heq : o = .eq ↔ a.isEq b = true) :
    Decided a b := by
  obtain ⟨hless, hgreater, hle⟩ := binary_of_compare? h
  have hisEq : a.isEq b = o.isEq := by
    rw [Bool.eq_iff_iff, ← heq]
    cases o <;> decide
  have hequal : Operator.binary .eq a b = .ok (.bool o.isEq) := by
    rw [← hisEq]
    rfl
  refine ⟨o.isLT, o.isEq, o.isGT, hless, hequal, hgreater, ?_, ?_⟩
  · cases o <;> rfl
  · rw [hle]
    cases o <;> rfl

/-- Values that compare as equal and are not equal are neither less nor equal nor greater. -/
theorem not_decided (h : a.compare? b = .ok .eq) (hne : a.isEq b = false) : ¬ Decided a b := by
  rintro ⟨less, equal, greater, hless, hequal, hgreater, hcount, -⟩
  obtain ⟨hless', hgreater', -⟩ := binary_of_compare? h
  have hequal' : Operator.binary .eq a b = .ok (.bool false) := by
    rw [← hne]
    rfl
  rw [hless'] at hless
  rw [hgreater'] at hgreater
  rw [hequal'] at hequal
  cases hless
  cases hgreater
  cases hequal
  cases hcount

/-- Equal values compare as equal. The order of requests goes along with equality, on the values
over some integers and floats, exactly when none of the integers is rounded to a float that does not
stand for it. -/
theorem compare?_coherent_iff (I : Int64 → Prop) (F : Binary64 → Prop) :
    (∀ a b : Value, ∀ o, a.compare? b = .ok o → a.isEq b = true → o = .eq) ∧
    ((∀ i x, I i → F x → (Binary64.ofInt i.toInt).same x = true → exactInt? x = some i) ↔
      ∀ a b : Value, a.NumbersIn I F → b.NumbersIn I F → ∀ o, a.compare? b = .ok o →
        (o = .eq ↔ a.isEq b = true) ∧ Decided a b ∧
        ∀ c : Value, c.NumbersIn I F → ∀ o₂ o₃, b.compare? c = .ok o₂ → a.compare? c = .ok o₃ →
          o.isLE → o₂.isLE → o₃.isLE) := by
  refine ⟨fun a b o h => eq_of_isEq h, fun hexact a b ha hb o h => ?_, fun hcoherent => ?_⟩
  · have heq : o = .eq ↔ a.isEq b = true := by
      constructor
      · rintro rfl
        exact isEq_of_compare? hexact ha hb h
      · exact eq_of_isEq h
    refine ⟨heq, decided_of_compare? h heq, fun c hc o₂ o₃ hbc hac => ?_⟩
    exact (compare?_composes (Exact.apart hexact) ha hb hc h hbc hac).isLE
  · intro i x hi hx hsame
    obtain ⟨hnan, hnan', hp⟩ := Binary64.position_of_same hsame
    have hcompare : (int i).compare? (float x) = .ok .eq := by
      change compareFloats (.ofInt i.toInt) x = _
      rw [compareFloats, Binary64.compare?, hnan, hnan', hp, Std.ReflOrd.compare_self]
      rfl
    exact eq_of_beq ((hcoherent (.int i) (.float x) (.int hi) (.float hx) .eq hcompare).1.1 rfl)

/-- Integers of 53 bits are rounded to the floats that stand for them. -/
theorem exact_precise : Exact (fun i => i.toInt.natAbs < 2 ^ 53) fun _ => True := by
  intro i x hi _ hsame
  rw [← exactInt?_of_same hsame, exactInt?, Binary64.toInt?_ofInt hi]
  dsimp only
  rw [if_pos ⟨Int64.le_toInt i, Int64.toInt_lt i⟩, Int64.ofInt_toInt]

theorem compare?_entry {m n : Value} (h : m.compare? n = .ok .eq) (s t : String) :
    (entry m s).compare? (entry n t) = .ok (compare s t) := by
  change compareItems? [m, .text s] [n, .text t] = _
  rw [compareItems?, h]
  change compareItems? [.text s] [.text t] = _
  rw [compareItems?, compare?]
  cases compare s t <;> rfl

theorem compare?_int_float {i : Int64} {x : Binary64}
    (h : (Binary64.ofInt i.toInt).compare? x = some .eq) :
    (int i).compare? (float x) = .ok .eq := by
  rw [compare?, compareFloats, h]

/-- The largest integer of 53 bits and the float that stands for it are told apart by what follows. -/
theorem entry_compare?_coherent :
    let a := entry (.int 9007199254740991) "a"
    let b := entry (.float ⟨0x433fffffffffffff⟩) "b"
    let c := entry (.int 9007199254740991) "c"
    a.compare? b = .ok .lt ∧ Decided a b ∧ ∀ o₂ o₃, b.compare? c = .ok o₂ → a.compare? c = .ok o₃ →
      o₂.isLE → o₃.isLE := by
  intro a b c
  have hint : (int 9007199254740991).Precise := .int (by decide)
  have hab : a.compare? b = .ok .lt :=
    compare?_entry (compare?_int_float (by decide +kernel)) "a" "b"
  obtain ⟨-, hdecided, htrans⟩ := (compare?_coherent_iff _ _).2.1 exact_precise a b
    (precise_entry hint _) (precise_entry (.float trivial) _) .lt hab
  exact ⟨hab, hdecided, fun o₂ o₃ hbc hac => htrans c (precise_entry hint _) o₂ o₃ hbc hac rfl⟩

/-- The integer after `10 ^ 16` compares as equal to the float `10 ^ 16` and is not equal to it, so
that none of `<`, `==` and `>` holds; the float compares as equal to the integer `10 ^ 16`, which is
less. -/
theorem compare?_not_coherent :
    let a := int 10000000000000001
    let b := float ⟨0x4341c37937e08000⟩
    let c := int 10000000000000000
    a.compare? b = .ok .eq ∧ a.isEq b = false ∧ ¬ Decided a b ∧
      b.compare? c = .ok .eq ∧ a.compare? c = .ok .gt := by
  intro a b c
  have hab : a.compare? b = .ok .eq := compare?_int_float (by decide +kernel)
  have hcb : c.compare? b = .ok .eq := compare?_int_float (by decide +kernel)
  have hne : a.isEq b = false := by decide +kernel
  exact ⟨hab, hne, not_decided hab hne, compare?_swap hcb, rfl⟩

end Value

end QueryPushdown
