import QueryPushdown.Proofs.Eval.Congruence

/-!
# What operands evaluate to

Steps that make one value out of others depend on what their operands evaluate to. A connective that
gives a truth value has its first operand decide, or leaves it to the second one.
-/

namespace QueryPushdown

/-- The operand at which a connective stops. -/
def BinaryOp.stop? : BinaryOp → Option Bool
  | .and => some false
  | .or => some true
  | _ => none

namespace Term

variable {input : Input} {scope : Scope}

theorem outcome_source (id : Nat) {name : String} {elements : List Value}
    (h : input name = .ok elements) : (source id name).outcome input scope = .ok (.list elements) := by
  have heval : ((source id name).eval input scope).outcome = .ok (.value (.list elements)) := by
    rw [eval, Run.outcome_bind, Input.scan, Run.outcome_accessing, h]
    rfl
  rw [outcome_eq, heval]
  rfl

/-- An element of the scope is there. -/
theorem outcome_context_eq_ok {id up : Nat} {v : Value}
    (h : (context id up).outcome input scope = .ok v) : scope[up]? = some v := by
  rw [outcome_eq, eval, Run.outcome_bind, Run.outcome_lift, Scope.read] at h
  cases hv : scope[up]? with
  | none =>
    rw [hv] at h
    cases h
  | some w =>
    rw [hv] at h
    exact congrArg some (Except.ok.inj h)

theorem outcome_field (id : Nat) (subject : Term) (name : String) :
    (step id subject (.field name)).outcome input scope =
      (do (← subject.outcome input scope).field name) := by
  rw [outcome_eq]
  simp only [eval, Step.act]
  rw [outcome_operand]
  cases subject.outcome input scope with
  | error e => rfl
  | ok v =>
    change (Run.outcome (liftM (v.field name) >>= fun w => pure (.value w)) >>=
      fun e : Evaluated => e.toValue.outcome) = v.field name
    rw [Run.outcome_bind, Run.outcome_lift]
    cases v.field name <;> rfl

theorem outcome_record (id : Nat) (fields : List (String × Term)) :
    (record id fields).outcome input scope =
      (do pure (.mapping (← (evalFields input scope fields).outcome))) := by
  rw [outcome_eq, eval, Run.outcome_bind]
  cases (evalFields input scope fields).outcome <;> rfl

theorem outcome_evalFields_cons (name : String) (t : Term) (rest : List (String × Term)) :
    (evalFields input scope ((name, t) :: rest)).outcome = (do
      let v ← t.outcome input scope
      pure ((name, v) :: (← (evalFields input scope rest).outcome))) := by
  rw [evalFields, outcome_operand]
  congr 1
  funext v
  exact Run.outcome_bind _ _

theorem outcome_evalKeys_cons (t : Term) (descending : Bool) (rest : List (Term × Bool)) :
    (evalKeys input scope ((t, descending) :: rest)).outcome = (do
      let v ← t.outcome input scope
      pure (v :: (← (evalKeys input scope rest).outcome))) := by
  rw [evalKeys, outcome_operand]
  congr 1
  funext v
  exact Run.outcome_bind _ _

/-- Whether a term evaluates to `true`. -/
def isTrue (input : Input) (scope : Scope) (t : Term) : Bool :=
  match t.outcome input scope with
  | .ok (.bool b) => b
  | _ => false

theorem isTrue_of_outcome {t : Term} {b : Bool} (h : t.outcome input scope = .ok (.bool b)) :
    t.isTrue input scope = b := by
  simp [isTrue, h]

theorem outcome_of_isTrue {t : Term} (h : ∃ b, t.outcome input scope = .ok (.bool b)) :
    t.outcome input scope = .ok (.bool (t.isTrue input scope)) := by
  obtain ⟨b, hb⟩ := h
  rw [hb, isTrue_of_outcome hb]

/-- What a term decides as an operand of a connective. -/
private theorem outcome_decide (t : Term) :
    (do let v ← (← t.eval input scope).toValue
        pure (.value (.bool (← v.toBool))) : Run Evaluated).outcome =
      (do pure (.value (.bool (← (← t.outcome input scope).toBool)))) := by
  rw [outcome_operand]
  congr 1
  funext v
  exact Run.outcome_bind _ _

/-- A connective stops at the first operand that decides it. -/
theorem eval_connective {op : BinaryOp} {stop : Bool} (h : op.stop? = some stop) (id : Nat)
    (lhs rhs : Term) : ((step id lhs (.binary op rhs)).eval input scope).outcome = (do
      if (← (← lhs.outcome input scope).toBool) = stop then pure (.value (.bool stop))
      else pure (.value (.bool (← (← rhs.outcome input scope).toBool)))) := by
  cases op <;> cases h <;>
  · simp only [eval, Step.act]
    rw [outcome_operand]
    congr 1
    funext a
    rw [Run.outcome_bind]
    congr 1
    funext b
    cases b <;> first | rfl | exact outcome_decide rhs

theorem toBool_eq_ok {w : Value} {b : Bool} (h : w.toBool = .ok b) : w = .bool b := by
  cases w <;> cases h
  rfl

/-- A term that evaluates to a value evaluates to something first. -/
theorem eval_of_outcome {t : Term} {w : Value} (h : t.outcome input scope = .ok w) :
    ∃ e, (t.eval input scope).outcome = .ok e ∧ e.toValue.outcome = .ok w :=
  Outcome.bind_eq_ok.1 (t.outcome_eq input scope ▸ h)

theorem outcome_connective_eq_ok {id : Nat} {lhs rhs : Term} {op : BinaryOp} {stop b : Bool}
    (hop : op.stop? = some stop)
    (h : (step id lhs (.binary op rhs)).outcome input scope = .ok (.bool b)) :
    (lhs.outcome input scope = .ok (.bool stop) ∧ b = stop) ∨
      (lhs.outcome input scope = .ok (.bool !stop) ∧ rhs.outcome input scope = .ok (.bool b)) := by
  obtain ⟨e, he, hb⟩ := eval_of_outcome h
  rw [eval_connective hop] at he
  obtain ⟨a, ha, he⟩ := Outcome.bind_eq_ok.1 he
  obtain ⟨x, hx, he⟩ := Outcome.bind_eq_ok.1 he
  obtain rfl := toBool_eq_ok hx
  change (if x = stop then _ else _) = _ at he
  split at he
  · rename_i hstop
    cases he
    cases hb
    exact .inl ⟨hstop ▸ ha, rfl⟩
  · rename_i hgo
    obtain ⟨c, hc, he⟩ := Outcome.bind_eq_ok.1 he
    obtain ⟨y, hy, he⟩ := Outcome.bind_eq_ok.1 he
    obtain rfl := toBool_eq_ok hy
    cases he
    cases hb
    exact .inr ⟨Bool.eq_not_of_ne hgo ▸ ha, hc⟩

theorem bool_of_connective {id : Nat} {lhs rhs : Term} {op : BinaryOp} {stop : Bool} {w : Value}
    (hop : op.stop? = some stop)
    (h : (step id lhs (.binary op rhs)).outcome input scope = .ok w) : ∃ b, w = .bool b := by
  rw [outcome_eq, eval_connective hop] at h
  obtain ⟨e, he, hw⟩ := Outcome.bind_eq_ok.1 h
  obtain ⟨a, -, he⟩ := Outcome.bind_eq_ok.1 he
  obtain ⟨x, -, he⟩ := Outcome.bind_eq_ok.1 he
  split at he
  · cases he
    cases hw
    exact ⟨stop, rfl⟩
  · obtain ⟨c, -, he⟩ := Outcome.bind_eq_ok.1 he
    obtain ⟨y, -, he⟩ := Outcome.bind_eq_ok.1 he
    cases he
    cases hw
    exact ⟨y, rfl⟩

theorem outcome_unary (id : Nat) (subject : Term) (op : UnaryOp) :
    (step id subject (.unary op)).outcome input scope =
      (do Operator.unary op (← subject.outcome input scope)) := by
  rw [outcome_eq]
  simp only [eval, Step.act]
  rw [outcome_operand]
  cases subject.outcome input scope with
  | error e => rfl
  | ok v =>
    change (Run.outcome (liftM (Operator.unary op v) >>= fun w => pure (.value w)) >>=
      fun e : Evaluated => e.toValue.outcome) = Operator.unary op v
    rw [Run.outcome_bind, Run.outcome_lift]
    cases Operator.unary op v <;> rfl

theorem outcome_binary (id : Nat) (lhs rhs : Term) {op : BinaryOp} (hand : op ≠ .and)
    (hor : op ≠ .or) : (step id lhs (.binary op rhs)).outcome input scope = (do
      let a ← lhs.outcome input scope
      Operator.binary op a (← rhs.outcome input scope)) := by
  rw [outcome_eq]
  have hact : ∀ e, (Step.binary op rhs).act input scope lhs e = (do
      let a ← e.toValue
      let b ← (← rhs.eval input scope).toValue
      pure (.value (← Operator.binary op a b))) := by
    intro e
    cases op <;> first | rfl | exact absurd rfl hand | exact absurd rfl hor
  simp only [eval, hact]
  rw [outcome_operand]
  cases lhs.outcome input scope with
  | error e => rfl
  | ok a =>
    change (Run.outcome _ >>= fun e : Evaluated => e.toValue.outcome) =
      (rhs.outcome input scope >>= Operator.binary op a)
    rw [outcome_operand]
    cases rhs.outcome input scope with
    | error e => rfl
    | ok b =>
      change (Run.outcome (liftM (Operator.binary op a b) >>= fun w => pure (.value w)) >>=
        fun e : Evaluated => e.toValue.outcome) = Operator.binary op a b
      rw [Run.outcome_bind, Run.outcome_lift]
      cases Operator.binary op a b <;> rfl

end Term

end QueryPushdown
