import QueryPushdown.Proofs.Document.Combining
import QueryPushdown.Proofs.Document.Paths
import QueryPushdown.Proofs.Pattern.Anchored
import QueryPushdown.Proofs.Transform.Splitting

/-!
# Truth of predicates

A predicate is made of elementary tests by `and`, `or` and `not`. Its truth takes the tests in no
order, as a filter does: whatever the interpreter finds is true in the strong reading. Lowering a
predicate keeps its truth in every reading, as long as no two conjuncts negate the same field.
-/

namespace QueryPushdown

namespace Term

section

variable (input : Input) (v : Value)

/-- What an operand reads of an element. A path reads null where nothing stands. -/
def reading (t : Term) : Outcome Value :=
  match t.path? with
  | some path => .ok (v.atPath path)
  | none => t.outcome input [v]

/-- An elementary test as filters make it. -/
def probe : Term → Outcome Bool
  | step _ lhs (.binary op rhs) => do
    let a ← lhs.reading input v
    match op, Pattern.Anchored.ofTerm? rhs with
    | .matching, some (.exact text) => pure (a.isEq (.text text))
    | op, _ => (← Operator.binary op a (← rhs.reading input v)).toBool
  | t =>
    match t.path? with
    | some path => .ok ((v.atPath path).isEq (.bool true))
    | none => do (← t.outcome input [v]).toBool

/-- Truth of a predicate on an element. -/
def truth (R : Reading) : Term → Truth
  | step _ lhs (.binary .and rhs) => R.meet (truth R lhs) (truth R rhs)
  | step _ lhs (.binary .or rhs) => (R.meet (truth R lhs).neg (truth R rhs).neg).neg
  | step _ subject (.unary .not) => (truth R subject).neg
  | t => .ofOutcome (t.probe input v)

end

/-- The elementary tests of a predicate. -/
def tests : Term → List Term
  | step _ lhs (.binary .and rhs) => tests lhs ++ tests rhs
  | step _ lhs (.binary .or rhs) => tests lhs ++ tests rhs
  | step _ subject (.unary .not) => tests subject
  | t => [t]

variable {input : Input} {scope : Scope} {v : Value}

/-- A term that is neither a conjunction, an alternative nor a negation. -/
structure IsElementary (t : Term) : Prop where
  not_and : ∀ id lhs rhs, t = step id lhs (.binary .and rhs) → False
  not_or : ∀ id lhs rhs, t = step id lhs (.binary .or rhs) → False
  not_not : ∀ id subject, t = step id subject (.unary .not) → False

theorem truth_elementary {R : Reading} {t : Term} (h : t.IsElementary) :
    t.truth input v R = .ofOutcome (t.probe input v) := by
  rw [truth]
  · exact h.not_and
  · exact h.not_or
  · exact h.not_not

theorem tests_elementary {t : Term} (h : t.IsElementary) : t.tests = [t] := by
  rw [tests]
  · exact h.not_and
  · exact h.not_or
  · exact h.not_not

theorem predicate_induction {P : Term → Prop}
    (and : ∀ id lhs rhs, P lhs → P rhs → P (step id lhs (.binary .and rhs)))
    (or : ∀ id lhs rhs, P lhs → P rhs → P (step id lhs (.binary .or rhs)))
    (not : ∀ id subject, P subject → P (step id subject (.unary .not)))
    (elementary : ∀ t, t.IsElementary → P t) (t : Term) : P t := by
  induction t using tests.induct with
  | case1 id lhs rhs ihl ihr => exact and id lhs rhs ihl ihr
  | case2 id lhs rhs ihl ihr => exact or id lhs rhs ihl ihr
  | case3 id subject ih => exact not id subject ih
  | case4 t hand hor hnot => exact elementary t ⟨hand, hor, hnot⟩

theorem reading_of_outcome {t : Term} {w : Value} (h : t.outcome input [v] = .ok w) :
    t.reading input v = .ok w := by
  unfold reading
  split
  · rename_i path hpath
    rw [atPath_of_outcome hpath h]
  · exact h

theorem reading_path {t : Term} {path : String} (h : t.path? = some path) :
    t.reading input v = .ok (v.atPath path) := by
  rw [reading, h]

theorem reading_literal (id : Nat) (w : Value) : (literal id w).reading input v = .ok w := rfl

theorem probe_binary (id : Nat) (lhs rhs : Term) {op : BinaryOp}
    (hop : op = .matching → ∀ text, Pattern.Anchored.ofTerm? rhs ≠ some (.exact text)) :
    (step id lhs (.binary op rhs)).probe input v = (do
      let a ← lhs.reading input v
      (← Operator.binary op a (← rhs.reading input v)).toBool) := by
  rw [probe]
  congr 1
  funext a
  split
  · rename_i text hexact
    exact absurd hexact (hop rfl text)
  · rfl

theorem probe_exact (id : Nat) (lhs : Term) {rhs : Term} {text : String}
    (h : Pattern.Anchored.ofTerm? rhs = some (.exact text)) :
    (step id lhs (.binary .matching rhs)).probe input v = (do
      pure ((← lhs.reading input v).isEq (.text text))) := by
  rw [probe, h]

/-- Matching with an exact pattern compares texts. -/
theorem isEq_of_matching {rhs : Term} {a c : Value} {text : String} {b : Bool}
    (h : Pattern.Anchored.ofTerm? rhs = some (.exact text)) (hc : rhs.outcome input [v] = .ok c)
    (hb : Operator.binary .matching a c = .ok (.bool b)) : a.isEq (.text text) = b := by
  unfold Pattern.Anchored.ofTerm? at h
  split at h
  · rename_i pattern
    cases hc
    cases a with
    | text s =>
      obtain ⟨found, hfound, hb⟩ := Outcome.bind_eq_ok.1 hb
      cases hb
      unfold Operator.matching at hfound
      split at hfound
      · rename_i hsearch
        cases hfound
        exact (Pattern.search_of_ofText? h hsearch).symm
      · cases hfound
      · cases hfound
    | _ => cases hb
  · cases h

/-- An elementary test that the interpreter decides is decided alike by filters. -/
theorem probe_of_outcome {t : Term} {b : Bool} (ht : t.IsElementary)
    (h : t.outcome input [v] = .ok (.bool b)) : t.probe input v = .ok b := by
  have hother : (match t.path? with
      | some path => (.ok ((v.atPath path).isEq (.bool true)) : Outcome Bool)
      | none => do (← t.outcome input [v]).toBool) = .ok b := by
    split
    · rename_i path hpath
      rw [atPath_of_outcome hpath h]
      cases b <;> rfl
    · rw [h]
      rfl
  cases t with
  | step id subject action =>
    cases action with
    | binary op rhs =>
      have hand : op ≠ .and := fun he => ht.not_and id subject rhs (he ▸ rfl)
      have hor : op ≠ .or := fun he => ht.not_or id subject rhs (he ▸ rfl)
      rw [outcome_binary id subject rhs hand hor] at h
      obtain ⟨a, ha, h⟩ := Outcome.bind_eq_ok.1 h
      obtain ⟨c, hc, h⟩ := Outcome.bind_eq_ok.1 h
      have hplain : (do
          let a ← subject.reading input v
          (← Operator.binary op a (← rhs.reading input v)).toBool) = (.ok b : Outcome Bool) := by
        rw [reading_of_outcome ha, reading_of_outcome hc]
        change (Operator.binary op a c >>= Value.toBool) = _
        rw [h]
        rfl
      by_cases hexact : op = .matching ∧ ∃ text, Pattern.Anchored.ofTerm? rhs = some (.exact text)
      · obtain ⟨rfl, text, htext⟩ := hexact
        rw [probe_exact id subject htext, reading_of_outcome ha]
        exact congrArg Except.ok (isEq_of_matching htext hc h)
      · rw [probe_binary id subject rhs fun hop text htext => hexact ⟨hop, text, htext⟩]
        exact hplain
    | _ => exact hother
  | _ => exact hother

/-- What the interpreter finds of a predicate is true in the strong reading. -/
theorem truth_of_outcome {t : Term} {b : Bool} (h : t.outcome input [v] = .ok (.bool b)) :
    t.truth input v .strong = some b := by
  induction t using predicate_induction generalizing b with
  | and id lhs rhs ihl ihr =>
    rw [truth]
    rcases outcome_connective_eq_ok rfl h with ⟨hl, rfl⟩ | ⟨hl, hr⟩
    · rw [ihl hl]
      exact Reading.strong_false_meet _
    · rw [ihl hl, Bool.not_false, Reading.true_meet, ihr hr]
  | or id lhs rhs ihl ihr =>
    rw [truth]
    rcases outcome_connective_eq_ok rfl h with ⟨hl, rfl⟩ | ⟨hl, hr⟩
    · rw [ihl hl]
      change (Reading.strong.meet (some false) _).neg = _
      rw [Reading.strong_false_meet]
      rfl
    · rw [ihl hl]
      change (Reading.strong.meet (some true) _).neg = _
      rw [Reading.true_meet, ihr hr, Truth.neg_neg]
  | not id subject ih =>
    rw [outcome_unary] at h
    obtain ⟨w, hw, h⟩ := Outcome.bind_eq_ok.1 h
    cases w with
    | bool c =>
      cases h
      rw [truth, ih hw]
      rfl
    | _ => cases h
  | elementary t ht =>
    rw [truth_elementary ht, probe_of_outcome ht h]
    rfl

/-- A predicate whose elementary tests are all boolean has a truth in the weak reading. -/
theorem truth_of_tests {t : Term}
    (h : ∀ c ∈ t.tests, ∃ b, c.outcome input [v] = .ok (.bool b)) :
    ∃ b, t.truth input v .weak = some b := by
  induction t using predicate_induction with
  | and id lhs rhs ihl ihr =>
    rw [tests] at h
    obtain ⟨a, ha⟩ := ihl fun c hc => h c (List.mem_append_left _ hc)
    obtain ⟨b, hb⟩ := ihr fun c hc => h c (List.mem_append_right _ hc)
    rw [truth, ha, hb]
    exact ⟨a && b, rfl⟩
  | or id lhs rhs ihl ihr =>
    rw [tests] at h
    obtain ⟨a, ha⟩ := ihl fun c hc => h c (List.mem_append_left _ hc)
    obtain ⟨b, hb⟩ := ihr fun c hc => h c (List.mem_append_right _ hc)
    rw [truth, ha, hb]
    exact ⟨!(!a && !b), rfl⟩
  | not id subject ih =>
    rw [tests] at h
    obtain ⟨b, hb⟩ := ih h
    rw [truth, hb]
    exact ⟨!b, rfl⟩
  | elementary t ht =>
    obtain ⟨b, hb⟩ := h t (by rw [tests_elementary ht]; exact List.mem_singleton_self t)
    rw [truth_elementary ht, probe_of_outcome ht hb]
    exact ⟨b, rfl⟩

theorem truth_of_conjuncts {t : Term}
    (h : ∀ c ∈ t.conjuncts, ∃ b, c.truth input v .weak = some b) :
    ∃ b, t.truth input v .weak = some b := by
  induction t using conjuncts.induct with
  | case1 id lhs rhs ihl ihr =>
    rw [conjuncts, List.forall_mem_append] at h
    obtain ⟨a, ha⟩ := ihl h.1
    obtain ⟨b, hb⟩ := ihr h.2
    rw [truth, ha, hb]
    exact ⟨a && b, rfl⟩
  | case2 t ht => exact h t (by simp [conjuncts_eq_singleton ht])

/-- A conjunction is true when all of its conjuncts are. -/
theorem truth_eq_true {t : Term} : t.truth input v .strong = some true ↔
    ∀ c ∈ t.conjuncts, c.truth input v .strong = some true := by
  induction t using conjuncts.induct with
  | case1 id lhs rhs ihl ihr =>
    rw [truth, Reading.strong_eq_true, ihl, ihr, conjuncts, List.forall_mem_append]
  | case2 t ht => simp [conjuncts_eq_singleton ht]

end Term

end QueryPushdown
