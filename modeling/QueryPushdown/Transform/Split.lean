import QueryPushdown.Request.Arena
import QueryPushdown.Transform.ReadSet

/-!
# Splitting predicates

A predicate is a conjunction of conjuncts. Splitting keeps those that pass a test in one part and
leaves the others to a second part, both in their order. A part of several conjuncts from both
sides of an `and` is a new `and`; a conjunction that falls to one part whole is reused; an empty
part is the literal `true`.
-/

namespace QueryPushdown

namespace Term

/-- The conjuncts of a predicate, left to right. -/
def conjuncts : Term → List Term
  | step _ lhs (.binary .and rhs) => conjuncts lhs ++ conjuncts rhs
  | t => [t]

/-- The conjunction of two parts that may be empty. -/
def conjoin : Option Term → Option Term → Alloc (Option Term)
  | some lhs, some rhs => do pure (some (← alloc (step · lhs (.binary .and rhs))))
  | some lhs, none => pure (some lhs)
  | none, rhs => pure rhs

/-- The conjuncts that pass a test, and the others. -/
def partition (keep : Term → Bool) : Term → Alloc (Option Term × Option Term)
  | step id lhs (.binary .and rhs) => do
    let (lhsKept, lhsLeft) ← partition keep lhs
    let (rhsKept, rhsLeft) ← partition keep rhs
    if lhsLeft.isNone && rhsLeft.isNone then
      pure (some (step id lhs (.binary .and rhs)), none)
    else if lhsKept.isNone && rhsKept.isNone then
      pure (none, some (step id lhs (.binary .and rhs)))
    else
      let kept ← conjoin lhsKept rhsKept
      let left ← conjoin lhsLeft rhsLeft
      pure (kept, left)
  | t => pure (if keep t then (some t, none) else (none, some t))

theorem partition_eq_pure {keep : Term → Bool} {t : Term}
    (h : ∀ id lhs rhs, t = step id lhs (.binary .and rhs) → False) :
    t.partition keep = pure (if keep t then (some t, none) else (none, some t)) := by
  cases t with
  | step id subject action => cases action with
    | binary op rhs => cases op <;> first | rfl | exact absurd rfl (h _ _ _)
    | _ => rfl
  | _ => rfl

/-- The conjuncts of a part that may be empty. -/
def conjunctsOf (part : Option Term) : List Term := (part.map conjuncts).getD []

@[simp] theorem conjunctsOf_none : conjunctsOf none = [] := rfl

@[simp] theorem conjunctsOf_some (t : Term) : conjunctsOf (some t) = t.conjuncts := rfl

theorem conjuncts_eq_singleton {t : Term}
    (h : ∀ id lhs rhs, t = step id lhs (.binary .and rhs) → False) : t.conjuncts = [t] := by
  cases t with
  | step id subject action => cases action with
    | binary op rhs => cases op <;> first | rfl | exact absurd rfl (h _ _ _)
    | _ => rfl
  | _ => rfl

theorem conjuncts_ne_nil (t : Term) : t.conjuncts ≠ [] := by
  induction t using conjuncts.induct with
  | case1 id lhs rhs ihl ihr => simp [conjuncts, ihl]
  | case2 t h => simp [conjuncts_eq_singleton h]

theorem conjunctsOf_conjoin (lhs rhs : Option Term) (a : Arena) :
    conjunctsOf (conjoin lhs rhs a).1 = conjunctsOf lhs ++ conjunctsOf rhs := by
  cases lhs <;> cases rhs <;>
    simp [conjoin, alloc, conjuncts, bind, StateT.bind, Alloc.pure_apply]

theorem filter_eq_self_of_filter_not {α : Type} (keep : α → Bool) (xs : List α)
    (h : xs.filter (fun x => !keep x) = []) : xs.filter keep = xs := by
  rw [List.filter_eq_self]
  intro x hx
  have := List.filter_eq_nil_iff.1 h x hx
  simpa using this

theorem filter_not_eq_self_of_filter {α : Type} (keep : α → Bool) (xs : List α)
    (h : xs.filter keep = []) : xs.filter (fun x => !keep x) = xs := by
  rw [List.filter_eq_self]
  intro x hx
  simpa using List.filter_eq_nil_iff.1 h x hx

/-- A partition keeps the conjuncts that pass the test, in order, and leaves the others. -/
theorem conjuncts_partition (keep : Term → Bool) (t : Term) (a : Arena) :
    conjunctsOf (t.partition keep a).1.1 = t.conjuncts.filter keep ∧
    conjunctsOf (t.partition keep a).1.2 = t.conjuncts.filter (fun c => !keep c) := by
  induction t using conjuncts.induct generalizing a with
  | case1 id lhs rhs ihl ihr =>
    have hl := ihl a
    rcases hp : lhs.partition keep a with ⟨⟨lk, ll⟩, a₁⟩
    have hr := ihr a₁
    rcases hq : rhs.partition keep a₁ with ⟨⟨rk, rl⟩, a₂⟩
    rw [hp] at hl
    rw [hq] at hr
    obtain ⟨hlk, hll⟩ := hl
    obtain ⟨hrk, hrl⟩ := hr
    simp only [partition, bind, StateT.bind, hp, hq, conjuncts, List.filter_append, ← hlk, ← hll,
      ← hrk, ← hrl]
    by_cases hleft : (ll.isNone && rl.isNone) = true
    · obtain ⟨rfl, rfl⟩ : ll = none ∧ rl = none := by simpa using hleft
      simp only [Option.isNone_none, Bool.and_self, if_true, Alloc.pure_apply, conjunctsOf_some,
        conjunctsOf_none, conjuncts, List.append_nil, and_true] at hll hrl ⊢
      rw [hlk, hrk, filter_eq_self_of_filter_not keep _ hll.symm,
        filter_eq_self_of_filter_not keep _ hrl.symm]
    · rw [if_neg hleft]
      by_cases hkept : (lk.isNone && rk.isNone) = true
      · obtain ⟨rfl, rfl⟩ : lk = none ∧ rk = none := by simpa using hkept
        simp only [Option.isNone_none, Bool.and_self, if_true, Alloc.pure_apply, conjunctsOf_some,
          conjunctsOf_none, conjuncts, List.append_nil, true_and] at hlk hrk ⊢
        rw [hll, hrl, filter_not_eq_self_of_filter keep _ hlk.symm,
          filter_not_eq_self_of_filter keep _ hrk.symm]
      · rw [if_neg hkept]
        simp only [pure]
        exact ⟨conjunctsOf_conjoin .., conjunctsOf_conjoin ..⟩
  | case2 t h =>
    have hc : t.conjuncts = [t] := conjuncts_eq_singleton h
    rw [partition_eq_pure h, hc]
    by_cases hk : keep t = true <;> simp [hk, Alloc.pure_apply, hc]

/-- A part, or the literal `true` in its stead. -/
def orTrue : Option Term → Alloc Term
  | some t => pure t
  | none => alloc (literal · (.bool true))

/-- Splits a predicate: the part whose conjuncts pass a test, and the remainder. -/
def split (keep : Term → Bool) (t : Term) : Alloc (Term × Term) := do
  let (kept, left) ← t.partition keep
  let kept ← orTrue kept
  let left ← orTrue left
  pure (kept, left)

section Asking

variable {σ : Type}

/-- Asks a test that has a state about a conjunct, in the arena as it is by then. -/
def ask (keep : Request → StateM σ Bool) (t : Term) : StateT σ Alloc Bool := fun s arena =>
  (keep ⟨arena, t⟩ s, arena)

/-- The conjuncts that pass a test with a state, and the others. -/
def partitionM (keep : Request → StateM σ Bool) : Term → StateT σ Alloc (Option Term × Option Term)
  | step id lhs (.binary .and rhs) => do
    let (lhsKept, lhsLeft) ← partitionM keep lhs
    let (rhsKept, rhsLeft) ← partitionM keep rhs
    if lhsLeft.isNone && rhsLeft.isNone then
      pure (some (step id lhs (.binary .and rhs)), none)
    else if lhsKept.isNone && rhsKept.isNone then
      pure (none, some (step id lhs (.binary .and rhs)))
    else
      let kept ← conjoin lhsKept rhsKept
      let left ← conjoin lhsLeft rhsLeft
      pure (kept, left)
  | t => do pure (if ← ask keep t then (some t, none) else (none, some t))

/-- Splits a predicate by a test with a state. -/
def splitM (keep : Request → StateM σ Bool) (t : Term) : StateT σ Alloc (Term × Term) := do
  let (kept, left) ← t.partitionM keep
  let kept ← orTrue kept
  let left ← orTrue left
  pure (kept, left)

end Asking

theorem orTrue_eq_some {part : Option Term} {a : Arena}
    (h : (orTrue part a).1.isLiteralBool true = false) : part = some (orTrue part a).1 := by
  cases part with
  | some t => rfl
  | none => simp [orTrue, alloc, isLiteralBool] at h

/-- When neither part is the literal `true`, the parts share out the conjuncts. -/
theorem conjuncts_split {keep : Term → Bool} {t : Term} {a : Arena}
    (hk : (t.split keep a).1.1.isLiteralBool true = false)
    (hl : (t.split keep a).1.2.isLiteralBool true = false) :
    (t.split keep a).1.1.conjuncts = t.conjuncts.filter keep ∧
      (t.split keep a).1.2.conjuncts = t.conjuncts.filter fun c => !keep c := by
  obtain ⟨hkept, hleft⟩ := conjuncts_partition keep t a
  let kept := orTrue (t.partition keep a).1.1 (t.partition keep a).2
  let left := orTrue (t.partition keep a).1.2 kept.2
  change kept.1.isLiteralBool true = false at hk
  change left.1.isLiteralBool true = false at hl
  rw [orTrue_eq_some hk, conjunctsOf_some] at hkept
  rw [orTrue_eq_some hl, conjunctsOf_some] at hleft
  exact ⟨hkept, hleft⟩

/-- When neither part is the literal `true`, the part that is kept has fewer conjuncts. -/
theorem length_conjuncts_split_lt {keep : Term → Bool} {t : Term} {a : Arena}
    (hk : (t.split keep a).1.1.isLiteralBool true = false)
    (hl : (t.split keep a).1.2.isLiteralBool true = false) :
    (t.split keep a).1.1.conjuncts.length < t.conjuncts.length := by
  obtain ⟨hkept, hleft⟩ := conjuncts_split hk hl
  rw [hkept]
  obtain ⟨c, hc⟩ := List.exists_mem_of_ne_nil _ (hleft ▸ conjuncts_ne_nil _)
  refine List.length_filter_lt_length_iff_exists.2 ⟨c, (List.mem_filter.1 hc).1, ?_⟩
  simpa using (List.mem_filter.1 hc).2

end Term

/-- A predicate split in two. -/
structure Split where
  kept : Request
  remainder : Request

namespace Request

/-- Splits a predicate by a test of its conjuncts. -/
def splitBy (r : Request) (keep : Term → Bool) : Split :=
  let ((kept, remainder), arena) := (r.root.split keep).run r.arena
  ⟨⟨arena, kept⟩, ⟨arena, remainder⟩⟩

/-- Splits a predicate by a test with a state, which is asked about one conjunct after the other. -/
def splitByM {σ : Type} (r : Request) (keep : Request → StateM σ Bool) : StateM σ Split := fun s =>
  let (((kept, remainder), s), arena) := (r.root.splitM keep s).run r.arena
  (⟨⟨arena, kept⟩, ⟨arena, remainder⟩⟩, s)

/-- Splits a predicate into the conjuncts that read only these fields of the element, and the
others. -/
def splitFields (r : Request) (fields : List String) : Split :=
  r.splitBy fun t => (t.readSet 0).within fields

end Request

end QueryPushdown
