import QueryPushdown.Proofs.Eval.Sorting
import QueryPushdown.Proofs.Eval.Yielding

/-!
# What orders decide

Groups and aggregates take rows in the order of their tables, so the order of a sort reaches them only
through the bounds of a slice, and what they make of the elements must not depend on it. A sort by keys
is determined when their order is transitive. The order of all values is on the values of one scalar
type; where a number of the one kind stands for one of the other, an integer beyond the precision of
floats may equal floats that are in order with each other.
-/

namespace QueryPushdown

/-- Whether a sort puts a list in order and no bounds have been set since. -/
def Term.isOrdered : Term → Bool
  | .step _ _ (.sort _) => true
  | .step _ subject (.filter _) | .step _ subject (.map _) => subject.isOrdered
  | .step _ subject (.slice start stop) =>
    start.getD 0 == 0 && stop.isNone && subject.isOrdered
  | _ => false

/-- The evaluation of a term goes through an element. -/
def Term.Passes (input : Input) (scope : Scope) (t : Term) (v : Value) : Prop :=
  ∃ e ys, (t.eval input scope).outcome = .ok e ∧ e.yields? = some ys ∧ .ok v ∈ ys

/-- Groups and aggregates may take the elements of a list in this order. It is the order of the list
unless a sort has made that. -/
def Term.Takes (input : Input) (scope : Scope) (t : Term) (us : List Value) : Prop :=
  ∃ vs, t.outcome input scope = .ok (.list vs) ∧ us.Perm vs ∧ (t.isOrdered = false → us = vs)

/-- A step makes the same of the elements in every order in which they may be taken. -/
def Step.OrderFree (input : Input) (scope : Scope) (subject : Term) (action : Step) : Prop :=
  ∀ us, subject.Takes input scope us → ∀ w, subject.outcome input scope = .ok w →
    action.outcome input scope subject (.list us) = action.outcome input scope subject w

/-- Groups and aggregates do not depend on orders that they are not given. -/
def Step.Settles (input : Input) (scope : Scope) (subject : Term) : Step → Prop
  | .groupby key aggregates => (groupby key aggregates).OrderFree input scope subject
  | .aggregate op => (aggregate op).OrderFree input scope subject
  | _ => True

theorem Step.orderFree_of_unordered {input : Input} {scope : Scope} {subject : Term}
    (h : subject.isOrdered = false) (action : Step) : action.OrderFree input scope subject := by
  rintro us ⟨vs, hvs, -, hus⟩ w hw
  obtain rfl := Except.ok.inj (hw.symm.trans hvs)
  rw [hus h]

theorem Step.settles_of_unordered {input : Input} {scope : Scope} {subject : Term}
    (h : subject.isOrdered = false) (action : Step) : action.Settles input scope subject := by
  cases action with
  | groupby key aggregates => exact orderFree_of_unordered h _
  | aggregate op => exact orderFree_of_unordered h _
  | _ => trivial

mutual

/-- Whether no order that a select leaves open decides what a term evaluates to. -/
def Term.Ranked (input : Input) (scope : Scope) : Term → Prop
  | .source _ _ | .literal _ _ | .context _ _ => True
  | .record _ fields => fieldsRanked input scope fields
  | .step _ subject action => subject.Ranked input scope ∧ action.Ranked input scope subject ∧
      action.Settles input scope subject

/-- Whether this is so beneath a step. -/
def Step.Ranked (input : Input) (scope : Scope) (subject : Term) : Step → Prop
  | .binary _ t | .oneOr t => t.Ranked input scope
  | .filter t | .map t => ∀ v, subject.Passes input scope v → t.Ranked input (v :: scope)
  | .sort keys => (∀ v, subject.Passes input scope v → keysRanked input (v :: scope) keys) ∧
      ∀ (vs : List Value) (ks : Value → List Value), subject.outcome input scope = .ok (.list vs) →
        (∀ v ∈ vs, (evalKeys input (v :: scope) keys).outcome = .ok (ks v)) →
        ∀ j, Sorting.RankedAt (vs.map fun v => ⟨ks v, v⟩) j
  | .groupby key aggregates => (∀ v, subject.Passes input scope v → key.Ranked input (v :: scope)) ∧
      ∀ (us : List Value) (ks : Value → Value), subject.Takes input scope us →
        (∀ v ∈ us, key.outcome input (v :: scope) = .ok (ks v)) →
        ∀ g ∈ gather Value.isEq (us.map fun v => (ks v, v)),
          fieldsRanked input (.list g.2 :: scope) aggregates
  | .field _ | .unary _ | .slice _ _ | .index _ | .distinct | .one | .aggregate _ => True

def fieldsRanked (input : Input) (scope : Scope) : List (String × Term) → Prop
  | [] => True
  | (_, t) :: rest => t.Ranked input scope ∧ fieldsRanked input scope rest

def keysRanked (input : Input) (scope : Scope) : List (Term × Bool) → Prop
  | [] => True
  | (t, _) :: rest => t.Ranked input scope ∧ keysRanked input scope rest

end

mutual

/-- Whether no list is sorted anywhere in a term. -/
def Term.isUnsorted : Term → Bool
  | .source _ _ | .literal _ _ | .context _ _ => true
  | .record _ fields => fieldsUnsorted fields
  | .step _ subject action => subject.isUnsorted && action.isUnsorted

def Step.isUnsorted : Step → Bool
  | .sort _ => false
  | .binary _ t | .oneOr t | .filter t | .map t => t.isUnsorted
  | .groupby key aggregates => key.isUnsorted && fieldsUnsorted aggregates
  | .field _ | .unary _ | .slice _ _ | .index _ | .distinct | .one | .aggregate _ => true

def fieldsUnsorted : List (String × Term) → Bool
  | [] => true
  | (_, t) :: rest => t.isUnsorted && fieldsUnsorted rest

end

theorem Term.isOrdered_eq_false (t : Term) (h : t.isUnsorted = true) : t.isOrdered = false := by
  cases t with
  | step id subject action =>
    rw [isUnsorted, Bool.and_eq_true] at h
    have hsubject := subject.isOrdered_eq_false h.1
    cases action with
    | sort keys => cases h.2
    | filter | map => exact hsubject
    | slice => rw [isOrdered, hsubject, Bool.and_false]
    | _ => rfl
  | _ => rfl

mutual

/-- Where nothing is sorted, no order is left open. -/
theorem Term.ranked_of_unsorted (input : Input) (scope : Scope) (t : Term)
    (h : t.isUnsorted = true) : t.Ranked input scope := by
  cases t with
  | source | literal | context => trivial
  | record id fields => exact fieldsRanked_of_unsorted input scope fields h
  | step id subject action =>
    rw [Term.isUnsorted, Bool.and_eq_true] at h
    exact ⟨subject.ranked_of_unsorted input scope h.1,
      action.ranked_of_unsorted input scope subject h.2,
      action.settles_of_unordered (subject.isOrdered_eq_false h.1)⟩

theorem Step.ranked_of_unsorted (input : Input) (scope : Scope) (subject : Term) (action : Step)
    (h : action.isUnsorted = true) : action.Ranked input scope subject := by
  cases action with
  | binary op t => exact t.ranked_of_unsorted input scope h
  | oneOr t => exact t.ranked_of_unsorted input scope h
  | filter t => exact fun v _ => t.ranked_of_unsorted input (v :: scope) h
  | map t => exact fun v _ => t.ranked_of_unsorted input (v :: scope) h
  | sort keys => cases h
  | groupby key aggregates =>
    rw [Step.isUnsorted, Bool.and_eq_true] at h
    exact ⟨fun v _ => key.ranked_of_unsorted input (v :: scope) h.1,
      fun _ _ _ _ g _ => fieldsRanked_of_unsorted input (.list g.2 :: scope) aggregates h.2⟩
  | _ => trivial

theorem fieldsRanked_of_unsorted (input : Input) (scope : Scope) (fields : List (String × Term))
    (h : fieldsUnsorted fields = true) : fieldsRanked input scope fields := by
  cases fields with
  | nil => trivial
  | cons f fields =>
    rw [fieldsUnsorted, Bool.and_eq_true] at h
    exact ⟨f.2.ranked_of_unsorted input scope h.1,
      fieldsRanked_of_unsorted input scope fields h.2⟩

end

end QueryPushdown
