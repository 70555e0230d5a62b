import QueryPushdown.Proofs.Eval.Congruence
import QueryPushdown.Proofs.Eval.Sorting
import QueryPushdown.Proofs.Typing.Operators

/-!
# Sequences of types

A sequence that was not drained has a type when everything it yields is sound for the elements of
that type. The operators on sequences keep this.
-/

namespace QueryPushdown

/-- Lists of the one type have elements of the other. -/
def Ty.HasItems (ty item : Ty) : Prop := ty = .list item ∨ ty = .any ∧ item = .any

/-- A value inhabits the type, a sequence yields what inhabits its element type. -/
inductive Evaluated.Has (ty : Ty) : Evaluated → Prop
  | value {v : Value} (h : ty.Inhabits v) : Has ty (.value v)
  | pulls {ps : Pulls} {item : Ty} (hi : ty.HasItems item)
    (h : Yields.Sound item.Inhabits ps.yields) : Has ty (.pulls ps)

namespace Ty

variable {ty item : Ty}

theorem HasItems.item? (h : ty.HasItems item) : ty.item? = some item := by
  rcases h with rfl | ⟨rfl, rfl⟩ <;> rfl

theorem HasItems.list {vs : List Value} (h : ty.HasItems item) (hvs : ∀ v ∈ vs, item.Inhabits v) :
    ty.Inhabits (.list vs) := by
  rcases h with rfl | ⟨rfl, rfl⟩
  · exact .list hvs
  · exact .any _

theorem HasItems.of_listItem {op : String} (h : Typing.listItem op ty = .ok item) :
    ty.HasItems item := by
  cases ty <;> cases h
  · exact .inl rfl
  · exact .inr ⟨rfl, rfl⟩

theorem item?_of_sequenceItem {op : String} (h : Typing.sequenceItem op ty = .ok item) :
    ty.item? = some item := by
  unfold Typing.sequenceItem at h
  split at h
  · rename_i hitem
    cases h
    exact hitem
  · cases h

/-- A type of one text has all texts. -/
theorem Inhabits.text_any {s : String} (h : ty.Inhabits (.text s)) (s' : String) :
    ty.Inhabits (.text s') := by
  cases h
  · exact .any _
  · exact .text s'

end Ty

theorem Evaluated.aggregate_of_ne_len {op : AggregateOp} (h : op ≠ .len) (e : Evaluated) :
    e.aggregate op = (do Operator.aggregate op (← e.toPulls)) := by
  cases e with
  | pulls ps => cases op <;> rfl
  | value v => cases v <;> cases op <;> first | rfl | exact absurd rfl h

namespace Evaluated.Has

variable {ty item : Ty} {e : Evaluated} {P : Value → Prop}

theorem toValue (h : e.Has ty) : Outcome.Sound ty.Inhabits e.toValue.outcome := by
  cases h with
  | value h => exact h
  | pulls hi h =>
    simp only [Evaluated.toValue, Run.outcome_bind, Pulls.outcome_drain]
    exact h.collect.bind fun vs hvs => hi.list hvs

/-- Drained for its elements, a value is a list. -/
theorem toPulls (h : e.Has ty) (hi : ty.item? = some item) :
    Outcome.Sound (fun ps => ty.HasItems item ∧ Yields.Sound item.Inhabits ps.yields)
      e.toPulls.outcome := by
  cases h with
  | @pulls ps item' hi' h =>
    have hitem : item' = item := Option.some.inj (hi'.item?.symm.trans hi)
    exact hitem ▸ ⟨hi', h⟩
  | @value v h =>
    cases v with
    | list vs =>
      simp only [Evaluated.toPulls, Run.outcome_pure, Outcome.Sound, Pulls.yields_ofList]
      cases h with
      | any =>
        cases hi
        exact ⟨.inr ⟨rfl, rfl⟩, .ofList fun v _ => .any v⟩
      | list h =>
        cases hi
        exact ⟨.inl rfl, .ofList h⟩
    | _ => rfl

theorem toSequence (h : e.Has ty) (hi : ty.item? = some item) :
    Outcome.Sound (fun ps => Yields.Sound item.Inhabits ps.yields) e.toSequence.outcome := by
  have hps := (h.toPulls hi).mono fun ps hps => hps.2
  cases h with
  | pulls hi' h => exact hps
  | @value v h =>
    cases v with
    | text s =>
      have hchars : ∀ s' : String, item.Inhabits (.text s') := by
        intro s'
        cases h <;> cases hi
        · exact .any _
        · exact .text s'
      exact Evaluated.characters_meets (E := Error.IsBound) hchars s
    | _ => exact hps

/-- Whatever its type, a node is drained without asking for a scope or source that is missing. -/
theorem elements (h : e.Has ty) :
    Outcome.Sound (fun ps => Yields.Sound (fun _ => True) ps.yields) e.toPulls.outcome := by
  cases h with
  | pulls hi h => exact fun y hy => (h y hy).mono fun _ _ => trivial
  | @value v h =>
    cases v with
    | list vs =>
      simp only [Evaluated.toPulls, Run.outcome_pure, Outcome.Sound, Pulls.yields_ofList]
      exact .ofList fun v _ => trivial
    | _ => rfl

private theorem joined {ps : Pulls} (h : Yields.Sound P ps.yields) :
    Outcome.Sound (fun _ => True) (Evaluated.joined ps).outcome :=
  Evaluated.joined_meets (E := Error.IsBound) h

theorem slice (h : e.Has ty) (hi : ty.item? = some item) (start stop : Option Int64) :
    Outcome.Sound (Evaluated.Has ty) (e.slice start stop).outcome := by
  have hlist : Outcome.Sound (Evaluated.Has ty)
      (do pure (Evaluated.pulls (← Window.slice (← e.toPulls) start stop)) :
        Run Evaluated).outcome := by
    simp only [Run.outcome_bind]
    refine (h.toPulls hi).bind fun ps hps => ?_
    exact (Window.slice_sound start stop hps.2).bind fun qs hqs => .pulls hps.1 hqs
  cases h with
  | pulls hi' h => exact hlist
  | @value v hv =>
    cases v with
    | text s =>
      have hseq := Has.toSequence (.value hv) hi
      simp only [Evaluated.slice, Run.outcome_bind]
      refine (Window.slice_sound start stop hseq).bind fun qs hqs => ?_
      exact (joined hqs).bind fun s' _ => Has.value (hv.text_any s')
    | _ => exact hlist

private theorem next? {ps : Pulls} (h : Yields.Sound P ps.yields) :
    Outcome.Sound (fun o => ∀ v rest, o = some (v, rest) → P v ∧ Yields.Sound P rest.yields)
      ps.next?.outcome :=
  Pulls.next?_meets (E := Error.IsBound) h

/-- The only element is one of the elements, or else what stands in for it. -/
theorem one (h : e.Has ty) (hi : ty.item? = some item) (subject : Term) {missing : Run Value}
    (hitem : ∀ v, item.Inhabits v → P v) (hm : Outcome.Sound P missing.outcome) :
    Outcome.Sound P (e.one subject missing).outcome := by
  simp only [Evaluated.one, Run.outcome_bind]
  refine (h.toSequence hi).bind fun ps hps => ?_
  refine (next? hps).bind fun o ho => ?_
  cases o with
  | none => exact hm
  | some first =>
    obtain ⟨v, rest⟩ := first
    obtain ⟨hv, hrest⟩ := ho v rest rfl
    simp only [Run.outcome_bind]
    refine (next? hrest).bind fun o _ => ?_
    cases o with
    | none => exact hitem v hv
    | some _ => rfl

end Evaluated.Has

namespace Typing

variable {ty t item : Ty} {ps : Pulls}

/-- The best element is one of the elements, null when there is none. -/
theorem extreme_sound (test : Ordering → Bool) (h : Yields.Sound item.Inhabits ps.yields) :
    Outcome.Sound item.Inhabits (Operator.extreme test ps).outcome := by
  simp only [Operator.extreme, Run.outcome_bind, Pulls.outcome_foldRun]
  refine (h.fold (I := fun best => ∀ v, best = some v → item.Inhabits v) ?_ ?_).bind ?_
  · intro best v hbest hv
    cases best with
    | none =>
      rintro w ⟨⟩
      exact hv
    | some current =>
      refine (Value.compare?_sound v current).bind fun o _ => ?_
      cases test o with
      | true =>
        rintro w ⟨⟩
        exact hv
      | false => exact hbest
  · intro v hv
    cases hv
  · intro best hbest
    cases best with
    | none => exact .null _
    | some v => exact hbest v rfl

/-- Adding elements of the type found for their sum keeps the sum in that type. -/
theorem sum_sound (h : Yields.Sound item.Inhabits ps.yields) (hzero : t.Inhabits (.int 0))
    (hadd : item = .null ∨ arithmetic .add t item = .ok t) :
    Outcome.Sound t.Inhabits (ps.foldAll Operator.accumulate (.ok (.int 0))).outcome := by
  rw [Pulls.outcome_foldAll]
  refine h.foldAll (fun s v hs hv => ?_) hzero
  rcases hadd with rfl | hadd
  · cases hv
    rfl
  · unfold Operator.accumulate
    split
    · exact addNumbers_sound hadd hs hv
    · rfl

theorem sum_operand (h : aggregate .sum ty = .ok t) :
    ∃ item, ty.HasItems item ∧ t.Inhabits (.int 0) ∧
      (item = .null ∨ arithmetic .add t item = .ok t) := by
  obtain ⟨item, hitem, h⟩ := Outcome.bind_eq_ok.1 h
  refine ⟨item, .of_listItem hitem, ?_⟩
  cases item with
  | null =>
    cases h
    exact ⟨.int 0, .inl rfl⟩
  | i64 =>
    cases h
    exact ⟨.int 0, .inr rfl⟩
  | f64 =>
    cases h
    exact ⟨.widened 0, .inr rfl⟩
  | any =>
    cases h
    exact ⟨.any _, .inr rfl⟩
  | _ => cases h

theorem length_sound {e : Evaluated} (he : e.Has ty) :
    Outcome.Sound Ty.i64.Inhabits (e.aggregate .len).outcome := by
  have hcount : Outcome.Sound Ty.i64.Inhabits
      (do Operator.aggregate .len (← e.toPulls) : Run Value).outcome := by
    simp only [Operator.aggregate, Run.outcome_bind, Pulls.outcome_foldRun]
    refine he.elements.bind fun ps hps => ?_
    have hlen := hps.fold (I := fun _ : Nat => True) (f := fun n _ => .ok (n + 1)) (s := 0)
      (fun _ _ _ _ => trivial) trivial
    exact hlen.bind fun n _ => Ty.Inhabits.int _
  cases e with
  | pulls ps => exact hcount
  | value v =>
    cases v with
    | text s => exact Ty.Inhabits.int _
    | mapping fields => exact Ty.Inhabits.int _
    | _ => exact hcount

/-- A reduction of a sequence of its operand type gives a value of its type. -/
theorem aggregate_sound {op : AggregateOp} {e : Evaluated} (h : aggregate op ty = .ok t)
    (he : e.Has ty) : Outcome.Sound t.Inhabits (e.aggregate op).outcome := by
  cases op with
  | len =>
    have ht : t = .i64 := by cases ty <;> cases h <;> rfl
    exact ht ▸ length_sound he
  | sum =>
    obtain ⟨item, hitem, hzero, hadd⟩ := sum_operand h
    rw [Evaluated.aggregate_of_ne_len (by decide), Run.outcome_bind]
    exact (he.toPulls hitem.item?).bind fun ps hps => sum_sound hps.2 hzero hadd
  | min | max =>
    have hitem := Ty.HasItems.of_listItem h
    rw [Evaluated.aggregate_of_ne_len (by decide), Run.outcome_bind]
    exact (he.toPulls hitem.item?).bind fun ps hps => extreme_sound _ hps.2

end Typing

end QueryPushdown
