import QueryPushdown.Proofs.Value.Rounding

/-!
# Where the order of all values is total

The order of all values compares two integers exactly, and an integer with a float after rounding
it to one. So an integer may be equal to a float that is equal to another integer. On the values
whose numbers do not meet like this, at any depth, the order is total; on all values that hold such
numbers it is not.
-/

namespace QueryPushdown

/-- Outcomes of comparing a first element with a second one, the second one with a third one, and
the first one with the third one, that fit together. -/
def Composes (first second outer : Ordering) : Prop :=
  (first = .eq → outer = second) ∧ (second = .eq → outer = first) ∧ (first = second → outer = first)

namespace Composes

variable {first second outer first' second' outer' exact : Ordering}

instance : Decidable (Composes first second outer) := inferInstanceAs (Decidable (_ ∧ _ ∧ _))

theorem isLE (h : Composes first second outer) (hfirst : first.isLE) (hsecond : second.isLE) :
    outer.isLE := by
  revert h hfirst hsecond
  cases first <;> cases second <;> cases outer <;> decide

theorem eq (h : Composes first second outer) (hfirst : first = .eq) (hsecond : second = .eq) :
    outer = .eq := (h.1 hfirst).trans hsecond

/-- A comparison that is asked where the first one finds no difference. -/
theorem «then» (h : Composes first second outer)
    (h' : first = .eq → second = .eq → Composes first' second' outer') :
    Composes (first.then first') (second.then second') (outer.then outer') := by
  by_cases heq : first = .eq ∧ second = .eq
  · obtain ⟨hfirst, hsecond⟩ := heq
    rw [h.eq hfirst hsecond, hfirst, hsecond]
    exact h' hfirst hsecond
  · revert h heq
    clear h'
    cases first <;> cases second <;> cases outer <;> simp [Composes, eq_comm]

/-- The outer comparison may be finer than one that fits, as long as equality at both sides makes it
equal. -/
theorem refine_outer (h : Composes first second outer) (hne : outer ≠ .eq → exact = outer)
    (heq : first = .eq → second = .eq → exact = .eq) : Composes first second exact := by
  revert h hne heq
  cases first <;> cases second <;> cases outer <;> cases exact <;> decide

theorem refine_first (h : Composes first second outer) (hne : first ≠ .eq → exact = first)
    (heq : second = .eq → outer = .eq → exact = .eq) : Composes exact second outer := by
  revert h hne heq
  cases first <;> cases second <;> cases outer <;> cases exact <;> decide

theorem refine_second (h : Composes first second outer) (hne : second ≠ .eq → exact = second)
    (heq : first = .eq → outer = .eq → exact = .eq) : Composes first exact outer := by
  revert h hne heq
  cases first <;> cases second <;> cases outer <;> cases exact <;> decide

section Ends

variable (o : Ordering)

/-! Comparisons that are settled where a list ends. -/

theorem eq_first : Composes .eq o o := by cases o <;> decide

theorem eq_second : Composes o .eq o := by cases o <;> decide

theorem lt_first : Composes .lt o .lt := by cases o <;> decide

theorem gt_second : Composes o .gt .gt := by cases o <;> decide

theorem lt_gt : Composes .lt .gt o := by cases o <;> decide

theorem gt_lt : Composes .gt .lt o := by cases o <;> decide

end Ends

/-- Lists fit together from their first difference on when their elements do. -/
theorem compareLex {α : Type} {c : α → α → Ordering} {as bs ds : List α}
    (h : ∀ a ∈ as, ∀ b ∈ bs, ∀ d ∈ ds, Composes (c a b) (c b d) (c a d)) :
    Composes (as.compareLex c bs) (bs.compareLex c ds) (as.compareLex c ds) := by
  induction as generalizing bs ds with
  | nil =>
    cases bs with
    | nil => exact eq_first _
    | cons b bs =>
      cases ds with
      | nil => exact lt_gt _
      | cons d ds => exact lt_first _
  | cons a as ih =>
    cases bs with
    | nil =>
      cases ds with
      | nil => exact eq_second _
      | cons d ds => exact gt_lt _
    | cons b bs =>
      cases ds with
      | nil => exact gt_second _
      | cons d ds =>
        rw [List.compareLex_cons_cons, List.compareLex_cons_cons, List.compareLex_cons_cons]
        refine (h a List.mem_cons_self b List.mem_cons_self d List.mem_cons_self).then fun _ _ => ?_
        exact ih fun a ha b hb d hd => h a (List.mem_cons_of_mem _ ha)
          b (List.mem_cons_of_mem _ hb) d (List.mem_cons_of_mem _ hd)

end Composes

theorem composes_compare {α : Type} [Ord α] [Std.TransOrd α] (a b c : α) :
    Composes (compare a b) (compare b c) (compare a c) := by
  refine ⟨fun h => Std.TransCmp.congr_left h,
    fun h => (Std.TransCmp.congr_right h).symm, fun h => ?_⟩
  cases hab : compare a b with
  | lt => exact Std.TransCmp.lt_trans hab (h ▸ hab)
  | gt => exact Std.TransCmp.gt_trans hab (h ▸ hab)
  | eq => exact (Std.TransCmp.congr_left hab).trans (h ▸ hab)

namespace Value

/-- All integers of a value, at any depth, are among some integers, and all its floats among some
floats. -/
inductive NumbersIn (I : Int64 → Prop) (F : Binary64 → Prop) : Value → Prop
  | null : NumbersIn I F .null
  | bool (b : Bool) : NumbersIn I F (.bool b)
  | int {i : Int64} (h : I i) : NumbersIn I F (.int i)
  | float {x : Binary64} (h : F x) : NumbersIn I F (.float x)
  | text (s : String) : NumbersIn I F (.text s)
  | list {items : List Value} (h : ∀ v ∈ items, NumbersIn I F v) : NumbersIn I F (.list items)
  | mapping {fields : List (String × Value)} (h : ∀ f ∈ fields, NumbersIn I F f.2) :
    NumbersIn I F (.mapping fields)

variable {I : Int64 → Prop} {F : Binary64 → Prop}

/-- Order of two numbers by where floats stand, and exact for two integers. -/
def compareAt (place : Binary64 → Int) : Value → Value → Ordering
  | int i, int j => compare i j
  | int i, float y => compare (place (.ofInt i.toInt)) (place y)
  | float x, int j => compare (place x) (place (.ofInt j.toInt))
  | float x, float y => compare (place x) (place y)
  | _, _ => .eq

/-- No float stands where two different integers are rounded to. -/
def Apart (place : Binary64 → Int) (I : Int64 → Prop) (F : Binary64 → Prop) : Prop :=
  ∀ i j x, I i → I j → F x → place (.ofInt i.toInt) = place x → place (.ofInt j.toInt) = place x →
    i = j

section Numbers

variable {place : Binary64 → Int}
  (hplace : ∀ {i j : Int}, i ≤ j → place (.ofInt i) ≤ place (.ofInt j))

include hplace

/-- Rounding makes integers equal at most. -/
theorem compare_eq_of_place {i j : Int64}
    (h : compare (place (.ofInt i.toInt)) (place (.ofInt j.toInt)) ≠ .eq) :
    compare i j = compare (place (.ofInt i.toInt)) (place (.ofInt j.toInt)) := by
  rcases Int.lt_trichotomy i.toInt j.toInt with hlt | heq | hgt
  · have hle := hplace (Int.le_of_lt hlt)
    have hne : place (.ofInt i.toInt) ≠ place (.ofInt j.toInt) := fun he => h (by simp [he])
    rw [Std.compare_eq_lt.2 (Int64.lt_iff_toInt_lt.2 hlt), Std.compare_eq_lt.2 (by omega)]
  · exact absurd (by simp [heq]) h
  · have hle := hplace (Int.le_of_lt hgt)
    have hne : place (.ofInt i.toInt) ≠ place (.ofInt j.toInt) := fun he => h (by simp [he])
    rw [Std.compare_eq_gt.2 (Int64.lt_iff_toInt_lt.2 hgt), Std.compare_eq_gt.2 (by omega)]

/-- Numbers that are apart are in order, whether they are integers or floats. -/
theorem compareAt_composes (hapart : Apart place I F) {a b c : Value} (ha : a.NumbersIn I F)
    (hb : b.NumbersIn I F) (hc : c.NumbersIn I F) (hna : a.isNumber = true)
    (hnb : b.isNumber = true) (hnc : c.isNumber = true) :
    Composes (compareAt place a b) (compareAt place b c) (compareAt place a c) := by
  have heq : ∀ {m n : Int}, compare m n = .eq → m = n := Std.LawfulEqOrd.eq_of_compare
  have hmeet : ∀ {i j x}, I i → I j → F x → place (.ofInt i.toInt) = place x →
      place (.ofInt j.toInt) = place x → compare i j = .eq := fun hi hj hx hix hjx => by
    rw [hapart _ _ _ hi hj hx hix hjx]
    exact Std.ReflOrd.compare_self
  cases ha with
  | int hi =>
    cases hb with
    | int hj =>
      cases hc with
      | int hk => exact composes_compare _ _ _
      | float hz =>
        exact (composes_compare _ _ _).refine_first (compare_eq_of_place hplace)
          fun hjz hiz => hmeet hi hj hz (heq hiz) (heq hjz)
      | _ => cases hnc
    | float hy =>
      cases hc with
      | int hk =>
        exact (composes_compare _ _ _).refine_outer (compare_eq_of_place hplace)
          fun hiy hyk => hmeet hi hk hy (heq hiy) (heq hyk).symm
      | float hz => exact composes_compare _ _ _
      | _ => cases hnc
    | _ => cases hnb
  | float hx =>
    cases hb with
    | int hj =>
      cases hc with
      | int hk =>
        exact (composes_compare _ _ _).refine_second (compare_eq_of_place hplace)
          fun hxj hxk => hmeet hj hk hx (heq hxj).symm (heq hxk).symm
      | float hz => exact composes_compare _ _ _
      | _ => cases hnc
    | float hy =>
      cases hc with
      | int hk => exact composes_compare _ _ _
      | float hz => exact composes_compare _ _ _
      | _ => cases hnc
    | _ => cases hnb
  | _ => cases hna

end Numbers

/-- Values of different rank are ordered by it. -/
theorem totalCompare_eq_then (a b : Value) : a.totalCompare b =
    (compare a.kind.rank b.kind.rank).then (a.totalCompare b) := by
  by_cases h : a.kind.rank = b.kind.rank
  · rw [h, Std.ReflOrd.compare_self]
    rfl
  · have hrank : a.totalCompare b = compare a.kind.rank b.kind.rank := by
      cases a <;> cases b <;> first | exact absurd rfl h | rfl
    rw [hrank]
    cases compare a.kind.rank b.kind.rank <;> rfl

theorem totalCompare_eq_compareAt {a b : Value} (ha : a.isNumber = true) (hb : b.isNumber = true) :
    a.totalCompare b = compareAt Binary64.rank a b := by
  cases a with
  | int i =>
    cases b with
    | int j => rfl
    | float y => rfl
    | _ => cases hb
  | float x =>
    cases b with
    | int j => rfl
    | float y => rfl
    | _ => cases hb
  | _ => cases ha

theorem totalCompareItems_eq (as bs : List Value) :
    totalCompareItems as bs = as.compareLex totalCompare bs := by
  induction as generalizing bs with
  | nil => cases bs <;> rfl
  | cons a as ih =>
    cases bs with
    | nil => rfl
    | cons b bs => rw [totalCompareItems, List.compareLex_cons_cons, ih]

/-- Order of two fields by name and then by value. -/
def compareFields (f g : String × Value) : Ordering :=
  (compare f.1 g.1).then (f.2.totalCompare g.2)

theorem totalCompareFields_eq (as bs : List (String × Value)) :
    totalCompareFields as bs = as.compareLex compareFields bs := by
  induction as generalizing bs with
  | nil => cases bs <;> rfl
  | cons a as ih =>
    cases bs with
    | nil => rfl
    | cons b bs =>
      rw [totalCompareFields, List.compareLex_cons_cons, ih]
      rfl

theorem isNumber_of_rank {a b : Value} (ha : a.isNumber = true) (h : a.kind.rank = b.kind.rank) :
    b.isNumber = true := by
  cases a with
  | int | float =>
    cases b with
    | int | float => rfl
    | _ => cases h
  | _ => cases ha

theorem composes_of_rank {a b c : Value}
    (h : a.kind.rank = b.kind.rank → b.kind.rank = c.kind.rank →
      Composes (a.totalCompare b) (b.totalCompare c) (a.totalCompare c)) :
    Composes (a.totalCompare b) (b.totalCompare c) (a.totalCompare c) := by
  rw [totalCompare_eq_then a b, totalCompare_eq_then b c, totalCompare_eq_then a c]
  exact (composes_compare _ _ _).then fun hab hbc =>
    h (Std.LawfulEqOrd.eq_of_compare hab) (Std.LawfulEqOrd.eq_of_compare hbc)

/-- Values whose numbers are apart are in order. -/
theorem totalCompare_composes (hapart : Apart Binary64.rank I F) {a b c : Value}
    (ha : a.NumbersIn I F) (hb : b.NumbersIn I F) (hc : c.NumbersIn I F) :
    Composes (a.totalCompare b) (b.totalCompare c) (a.totalCompare c) := by
  refine composes_of_rank fun hab hbc => ?_
  induction ha generalizing b c with
  | null =>
    cases b with
    | null =>
      cases c with
      | null => decide
      | _ => cases hbc
    | _ => cases hab
  | bool x =>
    cases b with
    | bool y =>
      cases c with
      | bool z => exact composes_compare x y z
      | _ => cases hbc
    | _ => cases hab
  | text s =>
    cases b with
    | text t =>
      cases c with
      | text u => exact composes_compare s t u
      | _ => cases hbc
    | _ => cases hab
  | int hi =>
    have hnb := isNumber_of_rank rfl hab
    have hnc := isNumber_of_rank hnb hbc
    rw [totalCompare_eq_compareAt rfl hnb, totalCompare_eq_compareAt hnb hnc,
      totalCompare_eq_compareAt rfl hnc]
    exact compareAt_composes Binary64.rank_ofInt_le hapart (.int hi) hb hc rfl hnb hnc
  | float hx =>
    have hnb := isNumber_of_rank rfl hab
    have hnc := isNumber_of_rank hnb hbc
    rw [totalCompare_eq_compareAt rfl hnb, totalCompare_eq_compareAt hnb hnc,
      totalCompare_eq_compareAt rfl hnc]
    exact compareAt_composes Binary64.rank_ofInt_le hapart (.float hx) hb hc rfl hnb hnc
  | list _ ih =>
    cases hb with
    | list hb =>
      cases hc with
      | list hc =>
        simp only [totalCompare, totalCompareItems_eq]
        exact .compareLex fun v hv w hw u hu =>
          composes_of_rank (ih v hv (hb w hw) (hc u hu))
      | _ => cases hbc
    | _ => cases hab
  | mapping _ ih =>
    cases hb with
    | mapping hb =>
      cases hc with
      | mapping hc =>
        simp only [totalCompare, totalCompareFields_eq]
        exact .compareLex fun f hf g hg e he => (composes_compare _ _ _).then fun _ _ =>
          composes_of_rank (ih f hf (hb g hg) (hc e he))
      | _ => cases hbc
    | _ => cases hab

theorem totalCompare_self (a : Value) : a.totalCompare a = .eq := by
  have h := totalCompare_swap a a
  revert h
  cases a.totalCompare a <;> decide

/-- The order of all values is reflexive and antisymmetric. It is transitive on the values over some
integers and floats exactly when no two of the integers meet in one of the floats. -/
theorem totalCompare_total_iff (I : Int64 → Prop) (F : Binary64 → Prop) :
    (∀ a b : Value, a.totalCompare a = .eq ∧ b.totalCompare a = (a.totalCompare b).swap) ∧
    ((∀ i j x, I i → I j → F x → Binary64.ofInt i.toInt = x → Binary64.ofInt j.toInt = x → i = j) ↔
      ∀ a b c : Value, a.NumbersIn I F → b.NumbersIn I F → c.NumbersIn I F →
        ((a.totalCompare b).isLE → (b.totalCompare c).isLE → (a.totalCompare c).isLE) ∧
        (a.totalCompare b = .eq → b.totalCompare c = .eq → a.totalCompare c = .eq)) := by
  refine ⟨fun a b => ⟨totalCompare_self a, totalCompare_swap a b⟩, fun hapart => ?_,
    fun htrans => ?_⟩
  · intro a b c ha hb hc
    have hcomposes : Composes (a.totalCompare b) (b.totalCompare c) (a.totalCompare c) :=
      totalCompare_composes (fun i j x hi hj hx hix hjx => hapart i j x hi hj hx
        (Binary64.eq_of_rank hix) (Binary64.eq_of_rank hjx)) ha hb hc
    exact ⟨hcomposes.isLE, hcomposes.eq⟩
  · -- an integer, the float it is rounded to and another integer that is rounded to it
    intro i j x hi hj hx hix hjx
    have hij := (htrans (.int i) (.float x) (.int j) (.int hi) (.float hx) (.int hj)).2
    rw [← hix] at hij
    have hmeet : (float (.ofInt i.toInt)).totalCompare (int j) = .eq := by
      rw [hix, ← hjx]
      exact Std.ReflOrd.compare_self
    exact Std.LawfulEqOrd.eq_of_compare (hij Std.ReflOrd.compare_self hmeet)

/-- Integers of 53 bits, at any depth. -/
abbrev Precise (v : Value) : Prop := v.NumbersIn (fun i => i.toInt.natAbs < 2 ^ 53) fun _ => True

/-- A list of a number and a text. -/
def entry (n : Value) (s : String) : Value := .list [n, .text s]

theorem precise_entry {n : Value} (h : n.Precise) (s : String) : (entry n s).Precise :=
  .list fun v hv => by
    rcases List.mem_cons.1 hv with rfl | hv
    · exact h
    · rw [List.mem_singleton.1 hv]
      exact .text s

/-- Integers of 53 bits do not meet in any float. -/
theorem eq_of_ofInt {i j : Int64} (hi : i.toInt.natAbs < 2 ^ 53) (hj : j.toInt.natAbs < 2 ^ 53)
    (h : Binary64.ofInt i.toInt = Binary64.ofInt j.toInt) : i = j := by
  have htoInt := congrArg Binary64.toInt? h
  rw [Binary64.toInt?_ofInt hi, Binary64.toInt?_ofInt hj] at htoInt
  exact Int64.toInt_inj.1 (Option.some.inj htoInt)

/-- The largest integer of 53 bits and the float that stands for it are told apart by what follows. -/
theorem entry_totalCompare_total :
    let a := entry (.int 9007199254740991) "a"
    let b := entry (.float ⟨0x433fffffffffffff⟩) "b"
    let c := entry (.int 9007199254740991) "c"
    (a.totalCompare b).isLE ∧ (b.totalCompare c).isLE ∧ (a.totalCompare c).isLE := by
  intro a b c
  have hapart := (totalCompare_total_iff (fun i => i.toInt.natAbs < 2 ^ 53) fun _ => True).2.1
    fun i j x hi hj _ hix hjx => eq_of_ofInt hi hj (hix.trans hjx.symm)
  have hint : (int 9007199254740991).Precise := .int (by decide)
  have hab : (a.totalCompare b).isLE := by decide +kernel
  have hbc : (b.totalCompare c).isLE := by decide +kernel
  exact ⟨hab, hbc, (hapart a b c (precise_entry hint _) (precise_entry (.float trivial) _)
    (precise_entry hint _)).1 hab hbc⟩

/-- Both `2 ^ 53` and the integer after it are equal to the float `2 ^ 53`, and not to each other. -/
theorem totalCompare_not_trans :
    (int 9007199254740993).totalCompare (float ⟨0x4340000000000000⟩) = .eq ∧
    (float ⟨0x4340000000000000⟩).totalCompare (int 9007199254740992) = .eq ∧
    (int 9007199254740993).totalCompare (int 9007199254740992) = .gt := by
  decide +kernel

end Value

end QueryPushdown
