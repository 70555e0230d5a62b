import QueryPushdown.Proofs.Eval.Steps
import QueryPushdown.Transform.Split

/-!
# Read sets

A term evaluates alike under scopes that differ in one frame only, as long as both frames have the same
contents in the fields that the term reads of it. Nothing else of the frames can be told from the
evaluation, which errors there are and which sources are accessed included.
-/

namespace QueryPushdown

/-- A scope with another frame at a level, of the same contents under the names that satisfy `F`. -/
structure Scope.AgreesOn (F : String → Prop) (level : Nat) (scope other : Scope) : Prop where
  length_eq : other.length = scope.length
  elsewhere : ∀ i, i ≠ level → other[i]? = scope[i]?
  frame : ∃ fields more, scope[level]? = some (.mapping fields) ∧
    other[level]? = some (.mapping more) ∧
    ∀ name, F name → Fields.get? more name = Fields.get? fields name

namespace Scope.AgreesOn

variable {F : String → Prop} {level up : Nat} {scope other : Scope}

theorem push (h : scope.AgreesOn F level other) (v : Value) :
    AgreesOn F (level + 1) (v :: scope) (v :: other) where
  length_eq := congrArg (· + 1) h.length_eq
  elsewhere i hi := by
    cases i with
    | zero => rfl
    | succ i => exact h.elsewhere i fun he => hi (congrArg (· + 1) he)
  frame := h.frame

theorem append (h : scope.AgreesOn F level other) (frames : Scope) :
    AgreesOn F (level + frames.length) (frames ++ scope) (frames ++ other) := by
  induction frames with
  | nil => exact h
  | cons v frames ih => exact ih.push v

/-- All other frames are the same. -/
theorem read_eq (h : scope.AgreesOn F level other) (hup : up ≠ level) :
    other.read up = scope.read up := by
  rw [Scope.read, Scope.read, h.elsewhere up hup, h.length_eq]

theorem read_field_eq (h : scope.AgreesOn F level other) {name : String} (hname : F name) :
    (do (← other.read level).field name) = (do (← scope.read level).field name) := by
  obtain ⟨fields, more, hscope, hother, hsame⟩ := h.frame
  rw [Scope.read, Scope.read, hscope, hother]
  change Value.field (.mapping more) name = Value.field (.mapping fields) name
  rw [Value.field, Value.field, hsame name hname]

end Scope.AgreesOn

theorem ReadSet.forall_mem_add {F : String → Prop} {names : List String} {name : String} :
    (∀ other ∈ add names name, F other) ↔ (∀ other ∈ names, F other) ∧ F name := by
  unfold add
  split
  next h => exact ⟨fun hall => ⟨hall, hall _ (List.contains_iff_mem.1 h)⟩, fun hall => hall.1⟩
  next => rw [List.forall_mem_append, List.forall_mem_singleton]

namespace Term

/-- A term reads nothing of the element bound `level` scopes outwards but fields whose names satisfy
`F`. -/
inductive ReadsOnly (F : String → Prop) : Nat → Term → Prop
  | field {level up : Nat} (id contextId : Nat) {name : String} (h : up = level → F name) :
    ReadsOnly F level (step id (context contextId up) (.field name))
  | node {level : Nat} {t : Term} (hup : ∀ id up, t = context id up → up ≠ level)
    (h : ∀ c ∈ t.children, ReadsOnly F (level + c.2) c.1) : ReadsOnly F level t

/-- Whether a term is a field of an element in scope. -/
def IsFrameField (t : Term) : Prop :=
  ∃ id contextId up name, t = step id (context contextId up) (.field name)

section Collecting

variable {F : String → Prop} {level : Nat} {met : List String}

theorem readsOnly_iff {t : Term} (ht : ¬ t.IsFrameField) : t.ReadsOnly F level ↔
    (∀ id up, t = context id up → up ≠ level) ∧
      ∀ c ∈ t.children, c.1.ReadsOnly F (level + c.2) := by
  constructor
  · intro h
    cases h with
    | field id contextId _ => exact absurd ⟨_, _, _, _, rfl⟩ ht
    | node hup h => exact ⟨hup, h⟩
  · rintro ⟨hup, h⟩
    exact .node hup h

theorem readsOnly_step {id : Nat} {subject : Term} {action : Step}
    (ht : ¬ (step id subject action).IsFrameField) : (step id subject action).ReadsOnly F level ↔
      subject.ReadsOnly F level ∧ ∀ c ∈ action.operands, c.1.ReadsOnly F (level + c.2) := by
  rw [readsOnly_iff ht, children, List.forall_mem_cons, Nat.add_zero]
  exact ⟨fun h => h.2, fun h => ⟨fun _ _ he => (by cases he), h⟩⟩

theorem not_isFrameField_binary (id : Nat) (lhs rhs : Term) (op : BinaryOp) :
    ¬ (step id lhs (.binary op rhs)).IsFrameField := by
  rintro ⟨_, _, _, _, h⟩
  cases h

/-- Names were collected, all of which satisfy `F`. -/
def Collected (F : String → Prop) (found : Option (List String)) : Prop :=
  ∃ names, found = some names ∧ ∀ name ∈ names, F name

theorem collected_some : Collected F (some met) ↔ ∀ name ∈ met, F name :=
  ⟨fun ⟨_, he, h⟩ => Option.some.inj he ▸ h, fun h => ⟨met, rfl, h⟩⟩

/-- What is collected after other names. -/
theorem collected_bind {found : Option (List String)} {more : List String → Option (List String)}
    {P : Prop} (h : ∀ met, Collected F (more met) ↔ (∀ name ∈ met, F name) ∧ P) :
    Collected F (found >>= more) ↔ Collected F found ∧ P := by
  cases found with
  | none =>
    constructor
    · rintro ⟨_, he, _⟩
      cases he
    · rintro ⟨⟨_, he, _⟩, _⟩
      cases he
  | some met => exact (h met).trans (and_congr_left' collected_some.symm)

theorem collectReads_step {id : Nat} {subject : Term} {action : Step}
    (ht : ¬ (step id subject action).IsFrameField) :
    collectReads level met (step id subject action) = (do
      let met ← collectReads level met subject
      collectStepReads level met action) := by
  cases subject with
  | context contextId up => cases action with
    | field name => exact absurd ⟨_, _, _, _, rfl⟩ ht
    | _ => rfl
  | _ => rfl

theorem collected_fields {fields : List (String × Term)}
    (h : ∀ f ∈ fields, ∀ level met, Collected F (collectReads level met f.2) ↔
      (∀ name ∈ met, F name) ∧ f.2.ReadsOnly F level) :
    Collected F (collectFieldReads level met fields) ↔
      (∀ name ∈ met, F name) ∧ ∀ f ∈ fields, f.2.ReadsOnly F level := by
  induction fields generalizing met with
  | nil => exact collected_some.trans ⟨fun h => ⟨h, fun _ hf => by cases hf⟩, fun h => h.1⟩
  | cons f fields ih =>
    obtain ⟨hf, hfields⟩ := List.forall_mem_cons.1 h
    rw [List.forall_mem_cons, ← and_assoc, ← hf]
    exact collected_bind fun met => ih hfields

theorem collected_keys {keys : List (Term × Bool)}
    (h : ∀ k ∈ keys, ∀ level met, Collected F (collectReads level met k.1) ↔
      (∀ name ∈ met, F name) ∧ k.1.ReadsOnly F level) :
    Collected F (collectKeyReads level met keys) ↔
      (∀ name ∈ met, F name) ∧ ∀ k ∈ keys, k.1.ReadsOnly F level := by
  induction keys generalizing met with
  | nil => exact collected_some.trans ⟨fun h => ⟨h, fun _ hk => by cases hk⟩, fun h => h.1⟩
  | cons k keys ih =>
    obtain ⟨hk, hkeys⟩ := List.forall_mem_cons.1 h
    rw [List.forall_mem_cons, ← and_assoc, ← hk]
    exact collected_bind fun met => ih hkeys

theorem collected_operands {action : Step}
    (h : ∀ c ∈ action.operands, ∀ level met, Collected F (collectReads level met c.1) ↔
      (∀ name ∈ met, F name) ∧ c.1.ReadsOnly F level) :
    Collected F (collectStepReads level met action) ↔
      (∀ name ∈ met, F name) ∧ ∀ c ∈ action.operands, c.1.ReadsOnly F (level + c.2) := by
  cases action with
  | binary op rhs =>
    rw [collectStepReads]
    simpa [Step.operands] using h (rhs, 0) (by simp [Step.operands]) level met
  | filter predicate =>
    rw [collectStepReads]
    simpa [Step.operands] using h (predicate, 1) (by simp [Step.operands]) (level + 1) met
  | map transform =>
    rw [collectStepReads]
    simpa [Step.operands] using h (transform, 1) (by simp [Step.operands]) (level + 1) met
  | sort keys =>
    rw [Step.operands, List.forall_mem_map] at *
    exact collected_keys h
  | groupby key aggregates =>
    rw [Step.operands, List.forall_mem_cons, List.forall_mem_map] at *
    rw [← and_assoc, ← h.1]
    exact collected_bind fun met => collected_fields h.2
  | oneOr default =>
    rw [collectStepReads]
    simpa [Step.operands] using h (default, 0) (by simp [Step.operands]) level met
  | _ =>
    rw [collectStepReads, collected_some]
    simp [Step.operands]

theorem collectReads_field {id contextId up : Nat} {name : String} :
    Collected F (collectReads level met (step id (context contextId up) (.field name))) ↔
      (∀ name ∈ met, F name) ∧ (up = level → F name) := by
  rw [collectReads, collected_some]
  by_cases hup : up = level
  · rw [if_pos hup, ReadSet.forall_mem_add, imp_iff_right hup]
  · rw [if_neg hup, iff_true_intro (fun h => absurd h hup), and_true]

theorem readsOnly_field {id contextId up : Nat} {name : String} :
    (step id (context contextId up) (.field name)).ReadsOnly F level ↔ (up = level → F name) := by
  refine ⟨fun h => ?_, .field id contextId⟩
  cases h with
  | field _ _ h => exact h
  | node _ h =>
    intro hup
    cases h (context contextId up, 0) (List.mem_cons_self ..) with
    | node hne => exact absurd hup (hne _ _ rfl)

/-- Exactly the fields that a term reads are collected, on top of those met before. -/
theorem collected_reads (t : Term) : ∀ level met, Collected F (collectReads level met t) ↔
    (∀ name ∈ met, F name) ∧ t.ReadsOnly F level := by
  induction t using children_induction with
  | h t ih =>
    intro level met
    by_cases ht : t.IsFrameField
    · obtain ⟨_, _, _, _, rfl⟩ := ht
      rw [collectReads_field, readsOnly_field]
    · cases t with
      | source | literal =>
        rw [readsOnly_iff ht, collectReads, collected_some]
        simp [children]
      | context id up =>
        rw [readsOnly_iff ht, collectReads]
        by_cases hup : up = level
        · rw [if_pos hup]
          refine ⟨?_, fun ⟨_, hne, _⟩ => absurd hup (hne _ _ rfl)⟩
          rintro ⟨_, he, _⟩
          cases he
        · rw [if_neg hup, collected_some]
          simp [children, hup]
      | record id fields =>
        rw [readsOnly_iff ht, collectReads, children, List.forall_mem_map, collected_fields]
        · simp
        · exact fun f hf => ih (f.2, 0) (List.mem_map.2 ⟨f, hf, rfl⟩)
      | step id subject action =>
        rw [children, List.forall_mem_cons] at ih
        rw [readsOnly_step ht, collectReads_step ht, ← and_assoc, ← ih.1]
        exact collected_bind fun met => collected_operands ih.2

/-- A read set is within these fields when the term reads no others. -/
theorem within_readSet {t : Term} {fields : List String} :
    (t.readSet level).within fields = true ↔ t.ReadsOnly (· ∈ fields) level := by
  have hreads : (t.readSet level).within fields = true ↔
      Collected (· ∈ fields) (collectReads level [] t) := by
    rw [readSet]
    cases collectReads level [] t with
    | none =>
      refine ⟨fun h => (by cases h), ?_⟩
      rintro ⟨_, he, _⟩
      cases he
    | some names => simp [ReadSet.within, collected_some]
  rw [hreads, collected_reads]
  simp

/-- Every field that a term reads of the element is in its read set. -/
theorem readsOnly_of_readSet {t : Term} {fields : List String}
    (h : t.readSet level = .only fields) : t.ReadsOnly (· ∈ fields) level := by
  rw [← within_readSet, h]
  simp [ReadSet.within]

/-- A predicate reads what its conjuncts read. -/
theorem readsOnly_of_conjuncts {t : Term} (h : ∀ c ∈ t.conjuncts, c.ReadsOnly F level) :
    t.ReadsOnly F level := by
  induction t using conjuncts.induct with
  | case1 id lhs rhs ihl ihr =>
    rw [conjuncts, List.forall_mem_append] at h
    rw [readsOnly_step (not_isFrameField_binary id lhs rhs .and)]
    refine ⟨ihl h.1, fun c hc => ?_⟩
    obtain rfl := List.mem_singleton.1 hc
    exact ihr h.2
  | case2 t ht => exact h t (by simp [conjuncts_eq_singleton ht])

end Collecting

section Evaluating

variable {input : Input} {scope other : Scope}

theorem evalFields_congr {fields : List (String × Term)}
    (h : ∀ f ∈ fields, f.2.eval input other = f.2.eval input scope) :
    evalFields input other fields = evalFields input scope fields := by
  induction fields with
  | nil => rfl
  | cons f fields ih =>
    obtain ⟨hf, hfields⟩ := List.forall_mem_cons.1 h
    rw [evalFields, evalFields, hf, ih hfields]

theorem evalKeys_congr {keys : List (Term × Bool)}
    (h : ∀ k ∈ keys, k.1.eval input other = k.1.eval input scope) :
    evalKeys input other keys = evalKeys input scope keys := by
  induction keys with
  | nil => rfl
  | cons k keys ih =>
    obtain ⟨hk, hkeys⟩ := List.forall_mem_cons.1 h
    rw [evalKeys, evalKeys, hk, ih hkeys]

/-- A step does the same under two scopes when its operands do, under all elements that it binds. -/
theorem act_congr {action : Step} {subject : Term} {e : Evaluated}
    (h : ∀ c ∈ action.operands, ∀ frames : Scope, frames.length = c.2 →
      c.1.eval input (frames ++ other) = c.1.eval input (frames ++ scope)) :
    action.act input other subject e = action.act input scope subject e := by
  cases action with
  | binary op rhs =>
    have hrhs : rhs.eval input other = rhs.eval input scope :=
      h (rhs, 0) (by simp [Step.operands]) [] rfl
    cases op <;> simp only [Step.act, hrhs]
  | filter predicate =>
    have hp : ∀ v, predicate.eval input (v :: other) = predicate.eval input (v :: scope) :=
      fun v => h (predicate, 1) (by simp [Step.operands]) [v] rfl
    simp only [Step.act, hp]
  | map transform =>
    have ht : ∀ v, transform.eval input (v :: other) = transform.eval input (v :: scope) :=
      fun v => h (transform, 1) (by simp [Step.operands]) [v] rfl
    simp only [Step.act, ht]
  | sort keys =>
    have hkeys : ∀ v, evalKeys input (v :: other) keys = evalKeys input (v :: scope) keys :=
      fun v => evalKeys_congr fun k hk => h (k.1, 1) (List.mem_map.2 ⟨k, hk, rfl⟩) [v] rfl
    simp only [Step.act, hkeys]
  | groupby key aggregates =>
    rw [Step.operands, List.forall_mem_cons, List.forall_mem_map] at h
    have hk : ∀ v, key.eval input (v :: other) = key.eval input (v :: scope) :=
      fun v => h.1 [v] rfl
    have hfields : ∀ v, evalFields input (v :: other) aggregates =
        evalFields input (v :: scope) aggregates :=
      fun v => evalFields_congr fun f hf => h.2 f hf [v] rfl
    simp only [Step.act, hk, hfields]
  | oneOr default =>
    have hd : default.eval input other = default.eval input scope :=
      h (default, 0) (by simp [Step.operands]) [] rfl
    simp only [Step.act, hd]
  | _ => simp only [Step.act]

theorem eval_frameField {id contextId up : Nat} {name : String} :
    (step id (context contextId up) (.field name)).eval input scope =
      (do pure (.value (← (do (← scope.read up).field name : Outcome Value)))) := by
  rw [eval, eval]
  cases scope.read up with
  | error e => rfl
  | ok v =>
    change (liftM (v.field name) >>= fun w => pure (Evaluated.value w) : Run Evaluated) = _
    rfl

theorem ReadsOnly.eval_eq {F : String → Prop} {level : Nat} {t : Term} (ht : t.ReadsOnly F level)
    (h : scope.AgreesOn F level other) : t.eval input other = t.eval input scope := by
  induction ht generalizing scope other with
  | @field level up id contextId name hname =>
    have hread : (do (← other.read up).field name) = (do (← scope.read up).field name) := by
      by_cases hup : up = level
      · subst hup
        exact h.read_field_eq (hname rfl)
      · rw [h.read_eq hup]
    rw [eval_frameField, eval_frameField, hread]
  | @node level t hup _ ih =>
    cases t with
    | source | literal => rfl
    | context id up => rw [eval, eval, h.read_eq (hup id up rfl)]
    | record id fields =>
      rw [eval, eval, evalFields_congr fun f hf => ih (f.2, 0) (List.mem_map.2 ⟨f, hf, rfl⟩) h]
    | step id subject action =>
      obtain ⟨hs, ha⟩ := List.forall_mem_cons.1 ih
      rw [eval, eval, hs h]
      refine congrArg _ (funext fun e => act_congr fun c hc frames hframes => ?_)
      exact ha c hc (hframes ▸ h.append frames)

/-- A term sees no more of an element than the fields in its read set: with those unchanged, it
evaluates to the same value or fails with the same error, after the same accesses to sources. -/
theorem eval_eq_of_readSet {t : Term} {level : Nat} {fields : List String} (input : Input)
    (ht : t.readSet level = .only fields) (h : scope.AgreesOn (· ∈ fields) level other) :
    t.eval input other = t.eval input scope :=
  (readsOnly_of_readSet ht).eval_eq h

end Evaluating

/-- The orders of a customer, the element in scope. -/
def ordersOf : Term :=
  step 5 (source 0 "orders") (.filter
    (step 4 (step 2 (context 1 0) (.field "customer"))
      (.binary .eq (step 6 (context 3 1) (.field "id")))))

/-- Which orders are a customer's does not depend on its name. -/
theorem ordersOf_eval_eq :
    ordersOf.readSet 0 = .only ["id"] ∧
    ordersOf.eval .empty [.mapping [("name", .text "n"), ("id", .int 1)]] =
      ordersOf.eval .empty [.mapping [("id", .int 1)]] := by
  have hreads : ordersOf.readSet 0 = .only ["id"] := by decide
  refine ⟨hreads, eval_eq_of_readSet .empty hreads ⟨rfl, fun i hi => ?_, _, _, rfl, rfl, ?_⟩⟩
  · cases i with
    | zero => exact absurd rfl hi
    | succ i => rfl
  · intro name hname
    obtain rfl := List.mem_singleton.1 hname
    rfl

end Term

end QueryPushdown
