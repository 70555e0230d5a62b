import QueryPushdown.Proofs.Sql.Expressions

/-!
# Pipelines

A pipeline is a source under filters, maps, sorts, slices and steps that drop equal elements, in any
order, all of whose operands are plain. It carries each row of the source up its steps, which may drop
the row, and is evaluated without failure when no operand fails on what is carried to its step.
-/

namespace QueryPushdown

/-- The row of a collection: its fields in order, scalars of exactly the declared types. -/
def Collection.HasRow (c : Collection) (row : Value) : Prop :=
  ∃ fields : Fields Value, row = .mapping fields ∧
    List.Forall₂ (fun f v => v.1 = f.1 ∧ (f.2.isScalar = true → v.2.ty = f.2)) c.fields fields

/-- What a step makes of one element, bounds and equal elements aside: nothing if it is dropped. -/
def Step.carry (input : Input) (v : Value) : Step → Outcome (Option Value)
  | .filter predicate => do
    pure (if ← (← predicate.outcome input [v]).toBool then some v else none)
  | .map transform => do pure (some (← transform.outcome input [v]))
  | .sort keys => do
    let _ ← (evalKeys input [v] keys).outcome
    pure (some v)
  | _ => pure (some v)

/-- Steps over the elements of a list that keep their type. -/
def Step.keepsType : Step → Bool
  | .filter _ | .sort _ | .slice _ _ | .distinct => true
  | _ => false

theorem Step.infer_of_keepsType {schema : Schema} {frames : Frames} {subject ty : Ty} {action : Step}
    (hk : action.keepsType = true) (h : action.infer schema frames subject = .ok ty) :
    ty = subject := by
  cases action with
  | filter predicate =>
    obtain ⟨item, _, h⟩ := Outcome.bind_eq_ok.1 h
    obtain ⟨pty, _, h⟩ := Outcome.bind_eq_ok.1 h
    obtain ⟨_, _, h⟩ := Outcome.bind_eq_ok.1 h
    exact (Except.ok.inj h).symm
  | sort keys =>
    obtain ⟨item, _, h⟩ := Outcome.bind_eq_ok.1 h
    obtain ⟨_, _, h⟩ := Outcome.bind_eq_ok.1 h
    exact (Except.ok.inj h).symm
  | slice start stop =>
    obtain ⟨-, -, h⟩ := Outcome.bind_eq_ok.1 h
    exact (Except.ok.inj h).symm
  | distinct =>
    obtain ⟨-, -, h⟩ := Outcome.bind_eq_ok.1 h
    exact (Except.ok.inj h).symm
  | _ => cases hk

namespace Term

/-- A source under row operations with plain operands. -/
inductive Pipeline (name : String) : Term → Prop
  | source (id : Nat) : Pipeline name (source id name)
  | filter (id : Nat) {subject predicate : Term} (h : Pipeline name subject)
    (hp : predicate.Plain) : Pipeline name (step id subject (.filter predicate))
  | map (id : Nat) {subject transform : Term} (h : Pipeline name subject)
    (hf : transform.Plain) : Pipeline name (step id subject (.map transform))
  | sort (id : Nat) {subject : Term} {keys : List (Term × Bool)} (h : Pipeline name subject)
    (hk : ∀ k ∈ keys, k.1.Plain) : Pipeline name (step id subject (.sort keys))
  | slice (id : Nat) {subject : Term} (start stop : Option Int64) (h : Pipeline name subject) :
    Pipeline name (step id subject (.slice start stop))
  | distinct (id : Nat) {subject : Term} (h : Pipeline name subject) :
    Pipeline name (step id subject .distinct)

/-- A pipeline, or the only element of one. -/
inductive Relational (name : String) : Term → Prop
  | list {t : Term} (h : t.Pipeline name) : Relational name t
  | one (id : Nat) {t : Term} (h : t.Pipeline name) : Relational name (step id t .one)
  | oneOr (id default : Nat) (v : Value) {t : Term} (h : t.Pipeline name) :
    Relational name (step id t (.oneOr (literal default v)))

/-- A pipeline makes a list. -/
theorem Pipeline.isList {schema : Schema} {name : String} {t : Term} {ty : Ty} (ht : t.Pipeline name)
    (h : t.infer schema [] = .ok ty) : ty.isList = true := by
  have hkeeps : ∀ {id : Nat} {s : Term} {action : Step} {ty : Ty}, action.keepsType = true →
      (∀ {ty}, s.infer schema [] = .ok ty → ty.isList = true) →
      (step id s action).infer schema [] = .ok ty → ty.isList = true := by
    intro id s action ty hk hs h
    obtain ⟨sty, hsty, h⟩ := Outcome.bind_eq_ok.1 h
    rw [Step.infer_of_keepsType hk h]
    exact hs hsty
  induction ht generalizing ty with
  | source id =>
    rw [infer] at h
    split at h
    · cases h
      rfl
    · cases h
  | map id _ _ _ =>
    obtain ⟨sty, _, h⟩ := Outcome.bind_eq_ok.1 h
    obtain ⟨item, _, h⟩ := Outcome.bind_eq_ok.1 h
    obtain ⟨tty, _, h⟩ := Outcome.bind_eq_ok.1 h
    cases h
    rfl
  | filter id _ _ ih | sort id _ _ ih => exact hkeeps rfl ih h
  | slice id start stop _ ih => exact hkeeps rfl ih h
  | distinct id _ ih => exact hkeeps rfl ih h

/-- What the steps above a source make of one row. -/
def carry (input : Input) (row : Value) : Term → Outcome (Option Value)
  | step _ subject action => do
    match ← subject.carry input row with
    | some v => action.carry input v
    | none => pure none
  | _ => pure (some row)

/-- A value that the steps make of one of the rows. -/
def Carries (input : Input) (rows : List Value) (t : Term) (v : Value) : Prop :=
  ∃ row ∈ rows, t.carry input row = .ok (some v)

/-- No operand fails on what it is evaluated on. -/
def CarriesAll (input : Input) (rows : List Value) (t : Term) : Prop :=
  ∀ row ∈ rows, ∃ w, t.carry input row = .ok w

section

variable {input : Input} {rows : List Value} {id : Nat} {t : Term} {action : Step} {v : Value}

theorem carry_step {row : Value} (h : t.carry input row = .ok (some v)) :
    (step id t action).carry input row = action.carry input v := by
  rw [carry, h]
  rfl

theorem CarriesAll.subject (h : (step id t action).CarriesAll input rows) :
    t.CarriesAll input rows := by
  intro row hrow
  obtain ⟨w, hw⟩ := h row hrow
  obtain ⟨u, hu, -⟩ := Outcome.bind_eq_ok.1 hw
  exact ⟨u, hu⟩

/-- A step gives a result on what the steps below it make of the rows. -/
theorem CarriesAll.step (h : (step id t action).CarriesAll input rows)
    (hv : t.Carries input rows v) : ∃ w, action.carry input v = .ok w ∧
      ∀ u, w = some u → (step id t action).Carries input rows u := by
  obtain ⟨row, hrow, hv⟩ := hv
  obtain ⟨w, hw⟩ := h row hrow
  refine ⟨w, (carry_step hv).symm.trans hw, ?_⟩
  rintro u rfl
  exact ⟨row, hrow, hw⟩

theorem CarriesAll.filter {predicate : Term}
    (h : (Term.step id t (.filter predicate)).CarriesAll input rows) (hv : t.Carries input rows v) :
    predicate.outcome input [v] = .ok (.bool (predicate.isTrue input [v])) ∧
      (predicate.isTrue input [v] = true →
        (Term.step id t (.filter predicate)).Carries input rows v) := by
  obtain ⟨w, hw, hcarries⟩ := h.step hv
  obtain ⟨u, hu, hw⟩ := Outcome.bind_eq_ok.1 hw
  obtain ⟨b, hb, hw⟩ := Outcome.bind_eq_ok.1 hw
  obtain rfl := toBool_eq_ok hb
  refine ⟨outcome_of_isTrue ⟨b, hu⟩, fun htrue => hcarries v ?_⟩
  rw [isTrue_of_outcome hu] at htrue
  cases hw
  rw [if_pos htrue]

theorem CarriesAll.map {transform : Term}
    (h : (Term.step id t (.map transform)).CarriesAll input rows) (hv : t.Carries input rows v) :
    transform.outcome input [v] = .ok (transform.outcome input [v]).orNull ∧
      (Term.step id t (.map transform)).Carries input rows (transform.outcome input [v]).orNull := by
  obtain ⟨w, hw, hcarries⟩ := h.step hv
  obtain ⟨u, hu, hw⟩ := Outcome.bind_eq_ok.1 hw
  cases hw
  rw [hu]
  exact ⟨rfl, hcarries u rfl⟩

theorem CarriesAll.passes (h : (Term.step id t action).CarriesAll input rows)
    (hpass : action.carry input v = .ok (some v)) (hv : t.Carries input rows v) :
    (Term.step id t action).Carries input rows v := by
  obtain ⟨w, hw, hcarries⟩ := h.step hv
  cases hpass.symm.trans hw
  exact hcarries v rfl

/-- The values of sort keys. -/
def keyValues (input : Input) (keys : List (Term × Bool)) (v : Value) : List Value :=
  (evalKeys input [v] keys).outcome.toOption.getD []

theorem CarriesAll.sort {keys : List (Term × Bool)}
    (h : (Term.step id t (.sort keys)).CarriesAll input rows) (hv : t.Carries input rows v) :
    (evalKeys input [v] keys).outcome = .ok (keyValues input keys v) ∧
      (Term.step id t (.sort keys)).Carries input rows v := by
  obtain ⟨w, hw, hcarries⟩ := h.step hv
  obtain ⟨ks, hks, hw⟩ := Outcome.bind_eq_ok.1 hw
  cases hw
  rw [keyValues, hks]
  exact ⟨rfl, hcarries v rfl⟩

end

end Term

end QueryPushdown
