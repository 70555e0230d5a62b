import QueryPushdown.Proofs.Sql.Aggregates

/-!
# What columns hold

A column that is made of others holds what the operator makes of their values. Values of columns are
flat, and so is whatever operators and aggregates make of flat values.
-/

namespace QueryPushdown

namespace Operator

variable {a b v : Value}

theorem isFlat_unary {op : UnaryOp} (h : unary op a = .ok v) : v.isFlat = true := by
  unfold unary at h
  split at h
  · cases h
    rfl
  · split at h
    · cases h
      rfl
    · cases h
  · cases h
    rfl
  · cases h

theorem isFlat_arithmetic {op : BinaryOp} {exact : Int → Int → Int}
    {rounded : Binary64 → Binary64 → Binary64} (h : arithmetic op exact rounded a b = .ok v) :
    v.isFlat = true := by
  unfold arithmetic at h
  split at h
  · split at h <;> cases h
    rfl
  · split at h <;> cases h
    rfl

/-- Only sums of mappings are mappings. -/
theorem isFlat_add (h : add a b = .ok v) (ha : a.isFlat = true) (hb : b.isFlat = true) :
    v.isFlat = true := by
  unfold add at h
  split at h
  · cases h
    rfl
  · cases h
    refine Value.areFlat_iff.2 fun v hv => ?_
    exact (List.mem_append.1 hv).elim (Value.areFlat_iff.1 ha v) (Value.areFlat_iff.1 hb v)
  · cases ha
  · exact isFlat_arithmetic h

theorem isFlat_divide (h : divide a b = .ok v) : v.isFlat = true := by
  unfold divide at h
  split at h
  · split at h <;> cases h
    rfl
  · cases h

theorem isFlat_binary {op : BinaryOp} (h : binary op a b = .ok v) (ha : a.isFlat = true)
    (hb : b.isFlat = true) : v.isFlat = true := by
  cases op with
  | add => exact isFlat_add h ha hb
  | sub | mul => exact isFlat_arithmetic h
  | div => exact isFlat_divide h
  | matching =>
    simp only [binary] at h
    split at h
    · obtain ⟨_, -, h⟩ := Outcome.bind_eq_ok.1 h
      cases h
      rfl
    · cases h
  | and | or =>
    obtain ⟨_, -, h⟩ := Outcome.bind_eq_ok.1 h
    obtain ⟨_, -, h⟩ := Outcome.bind_eq_ok.1 h
    cases h
    rfl
  | eq | ne =>
    cases h
    rfl
  | _ =>
    obtain ⟨_, -, h⟩ := Outcome.bind_eq_ok.1 h
    cases h
    rfl

end Operator

namespace Value

/-- An extreme element is one of the elements, or null when there are none. -/
theorem mem_of_extreme {test : Ordering → Bool} {vs : List Value} {v : Value}
    (h : extreme test vs = .ok v) : v = .null ∨ v ∈ vs := by
  have hfold : ∀ {best best' : Option Value}, vs.foldlM (Operator.better test) best = .ok best' →
      best' = best ∨ ∃ u ∈ vs, best' = some u := by
    clear h
    induction vs with
    | nil => exact fun h => .inl (Except.ok.inj h).symm
    | cons u vs ih =>
      intro best best' h
      rw [List.foldlM_cons] at h
      obtain ⟨next, hnext, h⟩ := Outcome.bind_eq_ok.1 h
      have hnext : next = best ∨ next = some u := by
        cases best with
        | none => exact .inr (Except.ok.inj hnext).symm
        | some b =>
          obtain ⟨o, -, hnext⟩ := Outcome.bind_eq_ok.1 hnext
          split at hnext
          · exact .inr (Except.ok.inj hnext).symm
          · exact .inl (Except.ok.inj hnext).symm
      rcases ih h with rfl | ⟨w, hw, rfl⟩
      · exact hnext.imp_right fun hu => ⟨u, List.mem_cons_self, hu⟩
      · exact .inr ⟨w, List.mem_cons_of_mem _ hw, rfl⟩
  obtain ⟨best, hbest, h⟩ := Outcome.bind_eq_ok.1 h
  cases h
  rcases hfold hbest with rfl | ⟨u, hu, rfl⟩
  · exact .inl rfl
  · exact .inr hu

theorem isFlat_of_isNumber {v : Value} (h : v.isNumber = true) : v.isFlat = true := by
  cases v <;> first | rfl | cases h

/-- Lists of flat elements are reduced to flat values. -/
theorem isFlat_aggregate {op : AggregateOp} {vs : List Value} {v : Value}
    (h : (Value.list vs).aggregate op = .ok v) (hvs : op = .len ∨ ∀ u ∈ vs, u.isFlat = true) :
    v.isFlat = true := by
  cases op with
  | len =>
    cases h
    rfl
  | sum => exact isFlat_of_isNumber (Operator.isNumber_of_sum rfl h).1
  | min | max =>
    rcases mem_of_extreme h with rfl | hv
    · rfl
    · exact hvs.resolve_left (by decide) v hv

end Value

namespace Sql

variable {q : Place} {scope : Scope} {ty aty bty : Ty} {id : Nat} {u v w : Value} {a b e : Expr}

theorem Shape.Holds.not (h : (Shape.scalar a aty).Holds q u) (hty : ty.Inhabits v)
    (hv : QueryPushdown.Operator.unary .not u = .ok v) :
    (Shape.scalar (.not a) ty).Holds q v := by
  cases h with
  | scalar ha _ _ => exact .scalar (ha.not hv) (Operator.isFlat_unary hv) hty

theorem Shape.Holds.neg (h : (Shape.scalar a aty).Holds q u) (hty : ty.Inhabits v)
    (hv : QueryPushdown.Operator.unary .neg u = .ok v) :
    (Shape.scalar (.neg a) ty).Holds q v := by
  cases h with
  | scalar ha _ _ => exact .scalar (ha.neg hv) (Operator.isFlat_unary hv) hty

/-- A test of a text against an anchored pattern. -/
theorem Shape.Holds.matching {pattern : Pattern.Anchored} {text : String}
    (h : (Shape.scalar a aty).Holds q u) (hp : Pattern.Anchored.ofText? text = some pattern)
    (hv : QueryPushdown.Operator.binary .matching u (.text text) = .ok v) :
    (Shape.scalar (matchingExpr a pattern) .bool).Holds q v := by
  cases h with
  | scalar ha _ _ =>
    cases u with
    | text s =>
      obtain ⟨found, hfound, hv⟩ := Outcome.bind_eq_ok.1 hv
      cases hv
      have hsearch : Pattern.search text s = .ok found := by
        unfold QueryPushdown.Operator.matching at hfound
        split at hfound <;> cases hfound
        assumption
      rw [Pattern.search_of_ofText? hp hsearch]
      exact .scalar (ha.matching pattern) rfl (.bool _)
    | _ => cases hv

theorem operatorOf?_toBinary {op : BinaryOp} {operator : Operator}
    (h : operatorOf? op ty = some operator) :
    operator.toBinary = op ∧ op ≠ .and ∧ op ≠ .or := by
  cases op with
  | add =>
    cases h
    refine ⟨?_, by decide, by decide⟩
    split <;> rfl
  | _ =>
    cases h
    try exact ⟨rfl, by decide, by decide⟩

/-- A column of two holds what the operator makes of their values. The first operand of a connective
may decide alone, and then the second one need not have a value. -/
theorem Combines.holds {input : Input} {lhs rhs : Term} {op : BinaryOp}
    (h : Combines ty a b op rhs e) (hty : ty.Inhabits v)
    (ha : ∀ u, lhs.outcome input scope = .ok u → (Shape.scalar a aty).Holds q u)
    (hb : ∀ w, rhs.outcome input scope = .ok w → (Shape.scalar b bty).Holds q w)
    (hv : (Term.step id lhs (.binary op rhs)).outcome input scope = .ok v) :
    (Shape.scalar e ty).Holds q v := by
  have hconnected : ∀ {stop : Bool} {x : Bool}, op.stop? = some stop → v = .bool x →
      ∀ members row, q.Admits members row →
      connected stop (evalAll q.input members row [a, b]) = .bool x := by
    rintro stop x hop rfl members row hm
    rw [evalAll, evalAll, evalAll]
    rcases Term.outcome_connective_eq_ok hop hv with ⟨hl, rfl⟩ | ⟨hl, hr⟩
    · cases ha _ hl with
      | scalar ha _ _ =>
        rw [ha members row hm]
        exact Expr.Denotes.connected_first _ _
    · cases ha _ hl with
      | scalar ha _ _ =>
        cases hb _ hr with
        | scalar hb _ _ =>
          rw [ha members row hm, hb members row hm]
          exact Expr.Denotes.connected_second _ _
  have hbinary : op ≠ .and → op ≠ .or → ∃ u w, lhs.outcome input scope = .ok u ∧
      rhs.outcome input scope = .ok w ∧ QueryPushdown.Operator.binary op u w = .ok v := by
    intro hand hor
    rw [Term.outcome_binary id lhs rhs hand hor] at hv
    obtain ⟨u, hu, hv⟩ := Outcome.bind_eq_ok.1 hv
    obtain ⟨w, hw, hv⟩ := Outcome.bind_eq_ok.1 hv
    exact ⟨u, w, hu, hw, hv⟩
  cases h with
  | and rhs =>
    obtain ⟨x, rfl⟩ := Term.bool_of_connective rfl hv
    exact .scalar (fun members row hm => by rw [Expr.eval, hconnected rfl rfl members row hm]) rfl hty
  | or rhs =>
    obtain ⟨x, rfl⟩ := Term.bool_of_connective rfl hv
    exact .scalar (fun members row hm => by rw [Expr.eval, hconnected rfl rfl members row hm]) rfl hty
  | divide hdivisor =>
    obtain ⟨u, w, hu, hw, hv⟩ := hbinary (by decide) (by decide)
    cases ha u hu with
    | scalar ha _ _ =>
      cases hb w hw with
      | scalar hb _ _ => exact .scalar (ha.divide hb hv) (Operator.isFlat_divide hv) hty
  | operation rhs _ _ hoperator =>
    obtain ⟨hop, hand, hor⟩ := operatorOf?_toBinary hoperator
    obtain ⟨u, w, hu, hw, hv⟩ := hbinary hand hor
    cases ha u hu with
    | scalar ha hflat _ =>
      cases hb w hw with
      | scalar hb hflat' _ =>
        exact .scalar (ha.operation hb (hop ▸ hv)) (Operator.isFlat_binary hv hflat hflat') hty

/-- A field of a mapping. -/
theorem Shape.Holds.field {shapes : List (String × Shape)} {name : String} {s : Shape}
    (h : (Shape.mapping shapes).Holds q u) (hs : Fields.get? shapes name = some s)
    (hv : u.field name = .ok v) : s.Holds q v := by
  cases h with
  | @mapping _ fields h =>
    have hget := (Shape.fieldsHold_iff.1 h).get? name
    rw [hs] at hget
    rw [Value.field] at hv
    cases hfield : Fields.get? fields name with
    | none =>
      rw [hfield] at hget
      cases hget
    | some w =>
      rw [hfield] at hget hv
      cases hv
      cases hget with
      | some h => exact h

/-- One mapping extended by another. -/
theorem Shape.Holds.merged {as more : List (String × Shape)} (h : (Shape.mapping as).Holds q u)
    (h' : (Shape.mapping more).Holds q w)
    (hv : QueryPushdown.Operator.binary .add u w = .ok v) :
    (Shape.mapping (Fields.extend as more)).Holds q v := by
  cases h with
  | mapping h =>
    cases h' with
    | mapping h' =>
      cases hv
      exact .mapping (Shape.fieldsHold_iff.2
        ((Shape.fieldsHold_iff.1 h).extend (Shape.fieldsHold_iff.1 h')))

theorem Shape.Holds.length (h : (Shape.scalar a aty).Holds q u) (hu : Ty.string.Inhabits u)
    (hty : ty.Inhabits v) (hv : u.aggregate .len = .ok v) :
    (Shape.scalar (.call .length [a] none) ty).Holds q v := by
  cases h with
  | scalar ha _ _ =>
    cases hu with
    | null => cases hv
    | text s =>
      cases hv
      exact .scalar ha.length rfl hty

theorem Shape.Holds.count {shapes : List (String × Shape)} (h : (Shape.mapping shapes).Holds q u)
    (hty : ty.Inhabits v) (hv : u.aggregate .len = .ok v) :
    (Shape.scalar (.value (.int (Int64.ofNat shapes.length))) ty).Holds q v := by
  cases h with
  | @mapping _ fields h =>
    cases hv
    have hlength : shapes.length = fields.length := (Shape.fieldsHold_iff.1 h).length_eq
    rw [← hlength] at hty ⊢
    exact .scalar (.value q _) rfl hty

mutual

/-- The columns of a literal hold it. -/
theorem literalShape_holds {id n m : Nat} (v : Value) {s : Shape} (q : Place)
    (h : Lowers (literalShape id v) n s m) : s.Holds q v := by
  cases v with
  | mapping fields =>
    rw [literalShape] at h
    obtain ⟨shapes, k, hshapes, h⟩ := h.bind
    obtain ⟨rfl, rfl⟩ := h.pure
    exact .mapping (literalFields_hold fields q hshapes)
  | list items =>
    rw [literalShape] at h
    exact h.refuse.elim
  | _ =>
    rw [literalShape] at h
    · obtain ⟨rfl, rfl⟩ := h.pure
      exact .scalar (.value q _) rfl (by constructor)
    all_goals exact fun _ he => nomatch he

theorem literalFields_hold {id n m : Nat} (fields : List (String × Value))
    {shapes : List (String × Shape)} (q : Place) (h : Lowers (literalFields id fields) n shapes m) :
    Shape.FieldsHold q shapes fields := by
  cases fields with
  | nil =>
    rw [literalFields] at h
    obtain ⟨rfl, rfl⟩ := h.pure
    exact .nil
  | cons f fields =>
    rw [literalFields] at h
    obtain ⟨s, k, hs, h⟩ := h.bind
    obtain ⟨others, k', hothers, h⟩ := h.bind
    obtain ⟨rfl, rfl⟩ := h.pure
    exact .cons (literalShape_holds f.2 q hs) (literalFields_hold fields q hothers)

end

/-- Elements that are held in one column are flat. -/
theorem isFlat_of_forall₂ {place : Current → Place} {rows : List Current} {vs : List Value}
    (h : List.Forall₂ (fun row v => (Shape.scalar a aty).Holds (place row) v) rows vs) :
    ∀ v ∈ vs, v.isFlat = true := by
  induction h with
  | nil => exact fun _ hv => (nomatch hv)
  | cons hv _ ih =>
    cases hv with
    | scalar _ hflat _ => exact List.forall_mem_cons.2 ⟨hflat, ih⟩

end Sql

end QueryPushdown
