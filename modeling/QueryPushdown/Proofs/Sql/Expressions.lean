import QueryPushdown.Proofs.Eval.Operands
import QueryPushdown.Proofs.Sql.Shapes

/-!
# Plain terms as columns

A plain term reads fields of the current element, compares them with each other and with literals,
connects the comparisons and puts them into records. Where the shape of the element reads it off a
row, the shape that a plain term is lowered to reads what the term evaluates to off the same row.
-/

namespace QueryPushdown

namespace Term

/-- Terms made of the current element, fields, records, scalar literals, comparisons and
connectives. -/
inductive Plain : Term → Prop
  | element (id : Nat) : Plain (context id 0)
  | literal (id : Nat) {v : Value} (h : v.isScalar = true) : Plain (literal id v)
  | record (id : Nat) {fields : List (String × Term)} (h : ∀ f ∈ fields, Plain f.2) :
    Plain (record id fields)
  | field (id : Nat) {subject : Term} (name : String) (h : Plain subject) :
    Plain (step id subject (.field name))
  | not (id : Nat) {subject : Term} (h : Plain subject) : Plain (step id subject (.unary .not))
  | comparison (id : Nat) {lhs rhs : Term} {op : BinaryOp} (hop : op.isComparison = true)
    (hl : Plain lhs) (hr : Plain rhs) : Plain (step id lhs (.binary op rhs))
  | and (id : Nat) {lhs rhs : Term} (hl : Plain lhs) (hr : Plain rhs) :
    Plain (step id lhs (.binary .and rhs))
  | or (id : Nat) {lhs rhs : Term} (hl : Plain lhs) (hr : Plain rhs) :
    Plain (step id lhs (.binary .or rhs))

end Term

/-- Steps that make one value out of others. -/
def Step.isOperator : Step → Bool
  | .field _ | .unary _ | .binary _ _ => true
  | _ => false

namespace Sql

/-- An action gives a result unless it refuses, whichever aliases are free. -/
def Gives {α : Type} (x : Lowering α) (a : α) : Prop := ∃ next after, x next = .ok (a, after)

namespace Gives

variable {α β : Type} {target : Target} {scopes : List Binding} {node : Nat} {t : Term}

theorem bind {x : Lowering α} {f : α → Lowering β} {b : β} (h : Gives (x >>= f) b) :
    ∃ a, Gives x a ∧ Gives (f a) b := by
  obtain ⟨next, after, h⟩ := h
  obtain ⟨⟨a, between⟩, ha, hb⟩ := Refusal.bind_eq_ok h
  exact ⟨a, ⟨next, between, ha⟩, ⟨between, after, hb⟩⟩

/-- What follows both branches of a choice follows the choice. -/
theorem ite_bind {c : Prop} [Decidable c] {x y : Lowering α} {f : α → Lowering β} {b : β}
    (h : Gives (if c then x >>= f else y >>= f) b) :
    ∃ a, Gives (if c then x else y) a ∧ Gives (f a) b := by
  split at h
  · rename_i hc
    rw [if_pos hc]
    exact h.bind
  · rename_i hc
    rw [if_neg hc]
    exact h.bind

theorem pure {a b : α} (h : Gives (Pure.pure a) b) : a = b := by
  obtain ⟨next, after, h⟩ := h
  cases h
  rfl

theorem refuse {obstacle : Obstacle} {a : α} (h : Gives (Sql.refuse node obstacle) a) : False := by
  obtain ⟨next, after, h⟩ := h
  cases h

theorem orRefuse {x : Except Obstacle α} {a : α} (h : Gives (Sql.orRefuse node x) a) :
    x = .ok a := by
  cases x with
  | error obstacle => exact h.refuse.elim
  | ok b => rw [h.pure]

theorem typeOf {ty : Ty} (h : Gives (Sql.typeOf target scopes t) ty) :
    t.infer target.schema (scopes.map Binding.ty) = .ok ty := by
  unfold Sql.typeOf at h
  split at h
  · rename_i hty
    rw [hty, h.pure]
  · exact h.refuse.elim

theorem itemTypeOf {item : Ty} (h : Gives (Sql.itemTypeOf target scopes t) item) :
    ∃ ty, t.infer target.schema (scopes.map Binding.ty) = .ok ty ∧ ty.item? = some item := by
  obtain ⟨ty, hty, h⟩ := h.bind
  refine ⟨ty, hty.typeOf, ?_⟩
  cases hitem : ty.item? with
  | none =>
    rw [hitem] at h
    exact h.refuse.elim
  | some i =>
    rw [hitem] at h
    rw [h.pure]

theorem singleColumn {x : Lowering Shape} {e : Expr} (h : Gives (Sql.singleColumn node x) e) :
    ∃ ty, Gives x (.scalar e ty) := by
  obtain ⟨s, hs, h⟩ := h.bind
  cases s with
  | scalar e' ty => exact ⟨ty, h.pure ▸ hs⟩
  | mapping | unreadable => exact h.refuse.elim

/-- A list inside a row is no plain column. -/
theorem toArray {ty : Ty} {r : Lowering Relation} {s : Shape}
    (h : Gives (Relation.toArray target node ty r) s) : ∃ r', Gives r r' := by
  unfold Relation.toArray at h
  split at h
  · exact h.refuse.elim
  · obtain ⟨r', hr, -⟩ := h.bind
    exact ⟨r', hr⟩

end Gives

section Plain

variable {target : Target} {input : Input} {table : Nat} {row : Fields Value} {shape : Shape}
  {item : Ty} {element : Value}

theorem Shape.ReadsFields.get? {shapes : List (String × Shape)} {tys : List (String × Ty)}
    {fields : List (String × Value)} {name : String} {s : Shape}
    (h : ReadsFields table row shapes tys fields) (hs : Fields.get? shapes name = some s) :
    ∃ ty v, Fields.get? tys name = some ty ∧ Fields.get? fields name = some v ∧
      s.Reads table row ty v := by
  induction shapes generalizing tys fields with
  | nil => cases hs
  | cons f shapes ih =>
    cases h with
    | @cons first _ ty v _ _ _ hread hrest =>
      rw [Fields.get?] at hs
      rw [Fields.get?, Fields.get?]
      by_cases hname : first = name
      · rw [if_pos hname] at hs
        cases hs
        exact ⟨ty, v, if_pos hname, if_pos hname, hread⟩
      · rw [if_neg hname] at hs
        rw [if_neg hname, if_neg hname]
        exact ih hrest hs

/-- What a term is lowered to under an element reads what the term evaluates to. -/
def Lowered (target : Target) (input : Input) (table : Nat) (row : Fields Value) (shape : Shape)
    (item : Ty) (element : Value) (t : Term) : Prop :=
  ∀ s w, Gives (shapeOf target [.element shape item] t) s → t.outcome input [element] = .ok w →
    ∃ ty, t.infer target.schema [item] = .ok ty ∧ s.Reads table row ty w

theorem Lowered.column {t : Term} {e : Expr} {w : Value} {node : Nat}
    (h : Lowered target input table row shape item element t)
    (he : Gives (singleColumn node (shapeOf target [.element shape item] t)) e)
    (hw : t.outcome input [element] = .ok w) :
    e.value? table row = some w ∧ w.ty.isScalar = true ∧
      t.infer target.schema [item] = .ok w.ty := by
  obtain ⟨ty, he⟩ := he.singleColumn
  obtain ⟨ty', hty, hread⟩ := h _ w he hw
  cases hread with
  | scalar hv hs => exact ⟨hv, hs, hty⟩

theorem Lowered.fields {fields : List (String × Term)} {shapes : List (String × Shape)}
    {ws : List (String × Value)}
    (h : ∀ f ∈ fields, Lowered target input table row shape item element f.2)
    (hs : Gives (fieldShapes target [.element shape item] fields) shapes)
    (hw : (evalFields input [element] fields).outcome = .ok ws) :
    ∃ tys, inferFields target.schema [item] fields = .ok tys ∧
      Shape.ReadsFields table row shapes tys ws := by
  induction fields generalizing shapes ws with
  | nil =>
    rw [fieldShapes] at hs
    cases hw
    rw [← hs.pure]
    exact ⟨[], rfl, .nil⟩
  | cons f fields ih =>
    obtain ⟨name, t⟩ := f
    obtain ⟨ht, hfields⟩ := List.forall_mem_cons.1 h
    rw [fieldShapes] at hs
    obtain ⟨s, hs, hrest⟩ := hs.bind
    obtain ⟨others, hothers, hrest⟩ := hrest.bind
    rw [Term.outcome_evalFields_cons] at hw
    obtain ⟨w, hfirst, hw⟩ := Outcome.bind_eq_ok.1 hw
    obtain ⟨ws', hws, hw⟩ := Outcome.bind_eq_ok.1 hw
    cases hw
    obtain ⟨ty, hty, hread⟩ := ht s w hs hfirst
    obtain ⟨tys, htys, hreads⟩ := ih hfields hothers hws
    rw [← hrest.pure]
    refine ⟨(name, ty) :: tys, ?_, .cons hread hreads⟩
    rw [inferFields, hty, htys]
    rfl

/-- An operator makes no rows. -/
theorem not_gives_stepRelation {scopes : List Binding} {whole : Term} {subject : Lowering Relation}
    {action : Step} {r : Relation} (ha : action.isOperator = true) :
    ¬ Gives (stepRelation target scopes whole subject action) r := by
  intro h
  cases action <;> cases ha <;>
  · simp only [stepRelation] at h
    exact h.refuse

/-- An operator is lowered to columns. -/
theorem Gives.stepShape {id : Nat} {subject : Term} {action : Step} {scopes : List Binding}
    {s : Shape} (h : Gives (shapeOf target scopes (.step id subject action)) s)
    (ha : action.isOperator = true) :
    ∃ ty, (Term.step id subject action).infer target.schema (scopes.map Binding.ty) = .ok ty ∧
      Gives (Sql.stepShape target scopes id ty
        { term := subject
          relation := relationOf target scopes subject
          shape := shapeOf target scopes subject
          members := membersOf target scopes subject } action) s := by
  rw [shapeOf] at h
  obtain ⟨ty, hty, h⟩ := h.bind
  refine ⟨ty, hty.typeOf, ?_⟩
  split at h
  · obtain ⟨r, hr⟩ := h.toArray
    exact absurd hr (not_gives_stepRelation ha)
  · exact h

theorem lowered_element (hread : shape.Reads table row item element) (id : Nat) :
    Lowered target input table row shape item element (.context id 0) := by
  intro s w hs hw
  rw [shapeOf] at hs
  obtain ⟨ty, hty, hs⟩ := hs.bind
  have hty : Except.ok item = Except.ok ty := hty.typeOf
  cases hty
  cases hw
  split at hs
  · obtain ⟨r, hr⟩ := hs.toArray
    exact hr.refuse.elim
  · obtain ⟨b, hb, hs⟩ := hs.bind
    cases hb.pure
    cases hs.pure
    exact ⟨item, rfl, hread⟩

theorem lowered_literal (id : Nat) {v : Value} (h : v.isScalar = true) :
    Lowered target input table row shape item element (.literal id v) := by
  intro s w hs hw
  cases hw
  refine ⟨v.ty, rfl, ?_⟩
  have hty : v.ty.isScalar = true := by cases v <;> first | rfl | cases h
  have hlist : v.ty.isList = false := by cases v <;> first | rfl | cases h
  have hshape : literalShape id v = Pure.pure (.scalar (.value v) v.ty) := by
    cases v <;> first | rfl | cases h
  rw [shapeOf, hlist, if_neg Bool.false_ne_true, hshape] at hs
  rw [← hs.pure]
  exact .scalar rfl hty

theorem lowered_record (id : Nat) {fields : List (String × Term)}
    (h : ∀ f ∈ fields, Lowered target input table row shape item element f.2) :
    Lowered target input table row shape item element (.record id fields) := by
  intro s w hs hw
  rw [shapeOf] at hs
  obtain ⟨shapes, hshapes, hs⟩ := hs.bind
  rw [Term.outcome_record] at hw
  obtain ⟨ws, hws, hw⟩ := Outcome.bind_eq_ok.1 hw
  cases hw
  obtain ⟨tys, htys, hreads⟩ := Lowered.fields h hshapes hws
  rw [← hs.pure]
  refine ⟨.mapping tys none, ?_, .mapping hreads⟩
  rw [Term.infer, htys]
  rfl

theorem lowered_field (id : Nat) {subject : Term} (name : String)
    (h : Lowered target input table row shape item element subject) :
    Lowered target input table row shape item element (.step id subject (.field name)) := by
  intro s w hs hw
  obtain ⟨ty, hty, hs⟩ := hs.stepShape rfl
  rw [Sql.stepShape] at hs
  obtain ⟨shape', hshape, hs⟩ := hs.bind
  rw [Term.outcome_field] at hw
  obtain ⟨u, hu, hw⟩ := Outcome.bind_eq_ok.1 hw
  obtain ⟨sty, hsty, hread⟩ := h shape' u hshape hu
  cases hread with
  | scalar | unreadable => exact hs.refuse.elim
  | @mapping shapes tys source fields hreads =>
    simp only at hs
    cases hget : Fields.get? shapes name with
    | none =>
      rw [hget] at hs
      exact hs.refuse.elim
    | some s' =>
      rw [hget] at hs
      cases hs.pure
      obtain ⟨fty, v, hfty, hv, hread⟩ := hreads.get? hget
      rw [Value.field, hv] at hw
      cases hw
      refine ⟨fty, ?_, hread⟩
      rw [Term.infer, hsty]
      change Typing.field (.mapping tys source) name = _
      rw [Typing.field, hfty]

theorem reads_bool {e : Expr} {b : Bool} (h : e.value? table row = some (.bool b)) :
    Shape.Reads table row (.scalar e .bool) .bool (.bool b) :=
  .scalar h rfl

theorem lowered_not (id : Nat) {subject : Term}
    (h : Lowered target input table row shape item element subject) :
    Lowered target input table row shape item element (.step id subject (.unary .not)) := by
  intro s w hs hw
  obtain ⟨ty, hty, hs⟩ := hs.stepShape rfl
  rw [Sql.stepShape] at hs
  obtain ⟨e, he, hs⟩ := hs.bind
  cases hs.pure
  rw [Term.outcome_unary] at hw
  obtain ⟨u, hu, hw⟩ := Outcome.bind_eq_ok.1 hw
  obtain ⟨hv, -, hsty⟩ := h.column he hu
  cases u with
  | bool b =>
    cases hw
    have hbool : (Term.step id subject (.unary .not)).infer target.schema [item] = .ok .bool := by
      rw [Term.infer, hsty]
      rfl
    cases hbool.symm.trans hty
    refine ⟨.bool, hbool, reads_bool ?_⟩
    rw [Expr.value?, hv]
    rfl
  | _ => cases hw

/-- A comparison compares two columns. -/
theorem Gives.comparison {subject : Subject} {id : Nat} {ty : Ty} {op : BinaryOp} {operand : Term}
    {rhs : Lowering Shape} {s : Shape} (hop : op.isComparison = true)
    (h : Gives (subject.binary id ty op operand rhs) s) :
    ∃ a b operator, Gives subject.column a ∧ Gives (Sql.singleColumn operand.id rhs) b ∧
      operator.toBinary = op ∧ s = .scalar (.operation a operator b) ty := by
  cases op with
  | eq | ne | ge | gt | le | lt =>
    simp only [Subject.binary, reduceCtorEq, false_and, if_false] at h
    obtain ⟨a, ha, h⟩ := h.bind
    obtain ⟨b, hb, h⟩ := h.bind
    exact ⟨a, b, _, ha, hb, rfl, h.pure.symm⟩
  | _ => cases hop

/-- A comparison gives a truth value. -/
theorem bool_of_comparison {op : BinaryOp} {a b w : Value} (hop : op.isComparison = true)
    (h : QueryPushdown.Operator.binary op a b = .ok w) : ∃ x, w = .bool x := by
  cases op with
  | eq | ne =>
    cases h
    exact ⟨_, rfl⟩
  | ge | gt | le | lt =>
    obtain ⟨o, -, h⟩ := Outcome.bind_eq_ok.1 h
    cases h
    exact ⟨_, rfl⟩
  | _ => cases hop

theorem infer_comparison {id : Nat} {lhs rhs : Term} {op : BinaryOp} {schema : Schema}
    {frames : Frames} {ty : Ty} (hop : op.isComparison = true)
    (h : (Term.step id lhs (.binary op rhs)).infer schema frames = .ok ty) : ty = .bool := by
  rw [Term.infer] at h
  obtain ⟨a, -, h⟩ := Outcome.bind_eq_ok.1 h
  rw [Step.infer] at h
  obtain ⟨b, -, h⟩ := Outcome.bind_eq_ok.1 h
  cases op <;> cases hop <;> exact (Except.ok.inj h).symm

theorem infer_connective {id : Nat} {lhs rhs : Term} {op : BinaryOp} {stop : Bool}
    {schema : Schema} {frames : Frames} {ty : Ty} (hop : op.stop? = some stop)
    (h : (Term.step id lhs (.binary op rhs)).infer schema frames = .ok ty) : ty = .bool := by
  rw [Term.infer] at h
  obtain ⟨a, -, h⟩ := Outcome.bind_eq_ok.1 h
  rw [Step.infer] at h
  obtain ⟨b, -, h⟩ := Outcome.bind_eq_ok.1 h
  cases op <;> cases hop <;>
  · obtain ⟨-, -, h⟩ := Outcome.bind_eq_ok.1 h
    obtain ⟨-, -, h⟩ := Outcome.bind_eq_ok.1 h
    exact (Except.ok.inj h).symm

theorem lowered_comparison (id : Nat) {lhs rhs : Term} {op : BinaryOp}
    (hop : op.isComparison = true) (hl : Lowered target input table row shape item element lhs)
    (hr : Lowered target input table row shape item element rhs) :
    Lowered target input table row shape item element (.step id lhs (.binary op rhs)) := by
  intro s w hs hw
  obtain ⟨ty, hty, hs⟩ := hs.stepShape rfl
  obtain rfl := infer_comparison hop hty
  rw [Sql.stepShape] at hs
  obtain ⟨a, b, operator, ha, hb, hoperator, rfl⟩ := hs.comparison hop
  rw [Term.outcome_binary id lhs rhs (by rintro rfl; cases hop) (by rintro rfl; cases hop)] at hw
  obtain ⟨u, hu, hw⟩ := Outcome.bind_eq_ok.1 hw
  obtain ⟨v, hv, hw⟩ := Outcome.bind_eq_ok.1 hw
  obtain ⟨x, rfl⟩ := bool_of_comparison hop hw
  refine ⟨.bool, hty, reads_bool ?_⟩
  rw [Expr.value?, (hl.column ha hu).1, (hr.column hb hv).1, hoperator]
  change (QueryPushdown.Operator.binary op u v).toOption = _
  rw [hw]
  rfl

/-- A connective tests two columns one after the other. -/
theorem Gives.connective {subject : Subject} {id : Nat} {ty : Ty} {op : BinaryOp} {operand : Term}
    {rhs : Lowering Shape} {s : Shape} {stop : Bool} (hop : op.stop? = some stop)
    (h : Gives (subject.binary id ty op operand rhs) s) :
    ∃ a b e, Gives subject.column a ∧ Gives (Sql.singleColumn operand.id rhs) b ∧
      s = .scalar e ty ∧ e.value? table row = (decided? table row stop [a, b]).map .bool := by
  cases op <;> cases hop <;>
  · rw [Subject.binary] at h
    obtain ⟨a, ha, h⟩ := h.bind
    obtain ⟨b, hb, h⟩ := h.bind
    exact ⟨a, b, _, ha, hb, h.pure.symm, by rw [Expr.value?]⟩

theorem lowered_connective (id : Nat) {lhs rhs : Term} {op : BinaryOp} {stop : Bool}
    (hop : op.stop? = some stop) (hl : Lowered target input table row shape item element lhs)
    (hr : Lowered target input table row shape item element rhs) :
    Lowered target input table row shape item element (.step id lhs (.binary op rhs)) := by
  intro s w hs hw
  obtain ⟨ty, hty, hs⟩ := hs.stepShape rfl
  obtain rfl := infer_connective hop hty
  rw [Sql.stepShape] at hs
  obtain ⟨a, b, e, ha, hb, rfl, he⟩ := hs.connective hop
  obtain ⟨y, rfl⟩ := Term.bool_of_connective hop hw
  refine ⟨.bool, hty, reads_bool ?_⟩
  rw [he]
  rcases Term.outcome_connective_eq_ok hop hw with ⟨hx, rfl⟩ | ⟨hx, hy⟩
  · rw [decided?_cons, (hl.column ha hx).1]
    exact congrArg _ (if_pos rfl)
  · rw [decided?_cons, (hl.column ha hx).1, decided?_singleton (hr.column hb hy).1]
    exact congrArg _ (if_neg (by simp))

/-- Plain terms are lowered to columns of what they evaluate to. -/
theorem lowered_of_plain {t : Term} (ht : t.Plain)
    (hread : shape.Reads table row item element) :
    Lowered target input table row shape item element t := by
  induction ht with
  | element id => exact lowered_element hread id
  | literal id h => exact lowered_literal id h
  | record id h ih => exact lowered_record id ih
  | field id name h ih => exact lowered_field id name ih
  | not id h ih => exact lowered_not id ih
  | comparison id hop hl hr ihl ihr => exact lowered_comparison id hop ihl ihr
  | and id hl hr ihl ihr | or id hl hr ihl ihr => exact lowered_connective id rfl ihl ihr

end Plain

end Sql

end QueryPushdown
