import QueryPushdown.Proofs.Eval.Congruence
import QueryPushdown.Transform.Shift

/-!
# Moved references

A term whose references were moved evaluates under the new scopes as it did under the old ones. A
node is kept only when all its operands are, because operands that are allocated anew have numbers
that the arena did not hold before.
-/

namespace QueryPushdown

namespace Term

section Steps

variable {scopes : Int} {level : Nat}

private theorem move_context_eq (id up : Nat) (a : Arena) :
    (move scopes level (context id up) a) =
      match movedUp? scopes level up with
      | some up => alloc (context · up) a
      | none => (context id up, a) := by
  rw [move]
  cases movedUp? scopes level up <;> rfl

private theorem move_record_eq (id : Nat) (fields : List (String × Term)) (a : Arena) :
    (move scopes level (record id fields) a) =
      let moved := moveFields scopes level fields a
      if moved.1.map (·.2.id) = fields.map (·.2.id) then (record id fields, moved.2)
      else alloc (record · moved.1) moved.2 := by
  rw [move]
  simp only [bind, StateT.bind]
  rcases moveFields scopes level fields a with ⟨moved, b⟩
  by_cases h : moved.map (·.2.id) = fields.map (·.2.id)
  · simp only [h, if_true]
    rfl
  · simp only [h, if_false]

private theorem move_step_eq (id : Nat) (subject : Term) (action : Step) (a : Arena) :
    (move scopes level (step id subject action) a) =
      let s := move scopes level subject a
      let b := moveStep scopes level action s.2
      if s.1.id = subject.id ∧ b.1.operandIds = action.operandIds then
        (step id subject action, b.2)
      else alloc (step · s.1 b.1) b.2 := by
  rw [move]
  simp only [bind, StateT.bind]
  rcases move scopes level subject a with ⟨s, b⟩
  rcases hm : moveStep scopes level action b with ⟨act, c⟩
  simp only [hm]
  by_cases h : s.id = subject.id ∧ act.operandIds = action.operandIds
  · rw [if_pos h, if_pos h]
    rfl
  · rw [if_neg h, if_neg h]

end Steps

variable (scopes : Int)

mutual

theorem size_le_move (level : Nat) (t : Term) (a : Arena) :
    a.size ≤ (t.move scopes level a).2.size := by
  cases t with
  | source id name => exact Nat.le_refl _
  | literal id value => exact Nat.le_refl _
  | context id up =>
    rw [move_context_eq]
    split <;> simp
  | record id fields =>
    rw [move_record_eq]
    have h := size_le_moveFields level fields a
    dsimp only
    split
    · exact h
    · simp only [size_alloc]
      omega
  | step id subject action =>
    rw [move_step_eq]
    have h₁ := size_le_move level subject a
    have h₂ := size_le_moveStep level action (subject.move scopes level a).2
    dsimp only
    split
    · exact Nat.le_trans h₁ h₂
    · simp only [size_alloc]
      omega
termination_by sizeOf t

theorem size_le_moveStep (level : Nat) (action : Step) (a : Arena) :
    a.size ≤ (moveStep scopes level action a).2.size := by
  cases action with
  | binary op rhs => exact size_le_move level rhs a
  | filter predicate => exact size_le_move (level + 1) predicate a
  | map transform => exact size_le_move (level + 1) transform a
  | sort keys => exact size_le_moveKeys (level + 1) keys a
  | groupby key aggregates =>
    exact Nat.le_trans (size_le_move (level + 1) key a) (size_le_moveFields (level + 1) aggregates _)
  | oneOr default => exact size_le_move level default a
  | _ => exact Nat.le_refl _
termination_by sizeOf action

theorem size_le_moveFields (level : Nat) (fields : List (String × Term)) (a : Arena) :
    a.size ≤ (moveFields scopes level fields a).2.size := by
  match fields with
  | [] => exact Nat.le_refl _
  | (_, t) :: rest =>
    exact Nat.le_trans (size_le_move level t a) (size_le_moveFields level rest _)
termination_by sizeOf fields

theorem size_le_moveKeys (level : Nat) (keys : List (Term × Bool)) (a : Arena) :
    a.size ≤ (moveKeys scopes level keys a).2.size := by
  match keys with
  | [] => exact Nat.le_refl _
  | (t, _) :: rest =>
    exact Nat.le_trans (size_le_move level t a) (size_le_moveKeys level rest _)
termination_by sizeOf keys

end

/-- What an operand becomes when it is moved in an arena of at least `n` nodes. -/
def MovedAfter (level n : Nat) (s t : Term) : Prop :=
  ∃ a : Arena, n ≤ a.size ∧ t = (s.move scopes level a).1

variable {scopes}

theorem moveFields_moved (level : Nat) (fields : List (String × Term)) {n : Nat} {a : Arena}
    (h : n ≤ a.size) :
    List.Forall₂ (fun f g => f.1 = g.1 ∧ MovedAfter scopes level n f.2 g.2) fields
      (moveFields scopes level fields a).1 := by
  induction fields generalizing a with
  | nil => exact .nil
  | cons f rest ih =>
    exact .cons ⟨rfl, a, h, rfl⟩ (ih (Nat.le_trans h (size_le_move scopes level f.2 a)))

theorem moveKeys_moved (level : Nat) (keys : List (Term × Bool)) {n : Nat} {a : Arena}
    (h : n ≤ a.size) :
    List.Forall₂ (fun k l => MovedAfter scopes level n k.1 l.1 ∧ k.2 = l.2) keys
      (moveKeys scopes level keys a).1 := by
  induction keys generalizing a with
  | nil => exact .nil
  | cons k rest ih =>
    exact .cons ⟨⟨a, h, rfl⟩, rfl⟩ (ih (Nat.le_trans h (size_le_move scopes level k.1 a)))

theorem moveStep_moved (level : Nat) (action : Step) {n : Nat} {a : Arena} (h : n ≤ a.size) :
    action.Alike (fun bound => MovedAfter scopes (level + bound) n)
      (moveStep scopes level action a).1 := by
  cases action with
  | binary op rhs => exact .binary ⟨a, h, rfl⟩
  | filter predicate => exact .filter ⟨a, h, rfl⟩
  | map transform => exact .map ⟨a, h, rfl⟩
  | sort keys => exact .sort (moveKeys_moved (level + 1) keys h)
  | groupby key aggregates =>
    exact .groupby ⟨a, h, rfl⟩
      (moveFields_moved (level + 1) aggregates
        (Nat.le_trans h (size_le_move scopes (level + 1) key a)))
  | oneOr default => exact .oneOr ⟨a, h, rfl⟩
  | _ => exact .bare rfl

/-- A moved term is the term itself or carries a new number. -/
theorem move_eq_or_new (level : Nat) (t : Term) (a : Arena) :
    (t.move scopes level a).1 = t ∨ a.size ≤ (t.move scopes level a).1.id := by
  cases t with
  | source id name => exact .inl rfl
  | literal id value => exact .inl rfl
  | context id up =>
    rw [move_context_eq]
    split
    · exact .inr (Nat.le_refl _)
    · exact .inl rfl
  | record id fields =>
    rw [move_record_eq]
    dsimp only
    split
    · exact .inl rfl
    · exact .inr (size_le_moveFields scopes level fields a)
  | step id subject action =>
    rw [move_step_eq]
    dsimp only
    split
    · exact .inl rfl
    · exact .inr (Nat.le_trans (size_le_move scopes level subject a)
        (size_le_moveStep scopes level action _))

theorem MovedAfter.eq_of_id {level n : Nat} {s t : Term} (h : MovedAfter scopes level n s t)
    (hs : s.id < n) (hid : t.id = s.id) : t = s := by
  obtain ⟨a, hn, rfl⟩ := h
  rcases move_eq_or_new level s a with he | hnew
  · exact he
  · omega

private theorem fields_eq_of_ids {level n : Nat} {fs gs : List (String × Term)}
    (h : List.Forall₂ (fun f g => f.1 = g.1 ∧ MovedAfter scopes level n f.2 g.2) fs gs)
    (hn : ∀ f ∈ fs, f.2.id < n) (hids : gs.map (·.2.id) = fs.map (·.2.id)) : gs = fs := by
  induction h with
  | nil => rfl
  | @cons f g fs gs hfg h ih =>
    simp only [List.map_cons, List.cons.injEq] at hids
    have he := hfg.2.eq_of_id (hn f List.mem_cons_self) hids.1
    rw [ih (fun f hf => hn f (List.mem_cons_of_mem _ hf)) hids.2, Prod.ext hfg.1.symm he]

private theorem keys_eq_of_ids {level n : Nat} {ks ls : List (Term × Bool)}
    (h : List.Forall₂ (fun k l => MovedAfter scopes level n k.1 l.1 ∧ k.2 = l.2) ks ls)
    (hn : ∀ k ∈ ks, k.1.id < n) (hids : ls.map (·.1.id) = ks.map (·.1.id)) : ls = ks := by
  induction h with
  | nil => rfl
  | @cons k l ks ls hkl h ih =>
    simp only [List.map_cons, List.cons.injEq] at hids
    have he := hkl.1.eq_of_id (hn k List.mem_cons_self) hids.1
    rw [ih (fun k hk => hn k (List.mem_cons_of_mem _ hk)) hids.2, Prod.ext he hkl.2.symm]

theorem step_eq_of_ids {level n : Nat} {a b : Step}
    (h : a.Alike (fun bound => MovedAfter scopes (level + bound) n) b)
    (hn : ∀ c ∈ a.operands, c.1.id < n) (hids : b.operandIds = a.operandIds) : b = a := by
  cases h with
  | bare _ => rfl
  | binary h =>
    rw [h.eq_of_id (hn _ List.mem_cons_self) (by simpa [Step.operandIds, Step.operands] using hids)]
  | filter h =>
    rw [h.eq_of_id (hn _ List.mem_cons_self) (by simpa [Step.operandIds, Step.operands] using hids)]
  | map h =>
    rw [h.eq_of_id (hn _ List.mem_cons_self) (by simpa [Step.operandIds, Step.operands] using hids)]
  | sort h =>
    rw [keys_eq_of_ids h (fun k hk => hn _ (List.mem_map.2 ⟨k, hk, rfl⟩))
      (by simpa [Step.operandIds, Step.operands, Function.comp_def] using hids)]
  | groupby h hs =>
    simp only [Step.operandIds, Step.operands, List.map_cons, List.map_map, List.cons.injEq,
      Function.comp_def] at hids
    rw [h.eq_of_id (hn _ List.mem_cons_self) hids.1,
      fields_eq_of_ids hs
        (fun f hf => hn _ (List.mem_cons_of_mem _ (List.mem_map.2 ⟨f, hf, rfl⟩))) hids.2]
  | oneOr h =>
    rw [h.eq_of_id (hn _ List.mem_cons_self) (by simpa [Step.operandIds, Step.operands] using hids)]

/-- Up to its number, a moved step is the step on moved operands. -/
theorem move_step {level id : Nat} {subject : Term} {action : Step} {a : Arena}
    (hs : subject.id < a.size) (ha : ∀ c ∈ action.operands, c.1.id < a.size) :
    ∃ (j : Nat) (b : Arena), a.size ≤ b.size ∧
      ((step id subject action).move scopes level a).1 =
        step j (subject.move scopes level a).1 (moveStep scopes level action b).1 := by
  rw [move_step_eq]
  dsimp only
  split
  · rename_i h
    refine ⟨id, (subject.move scopes level a).2, size_le_move scopes level subject a, ?_⟩
    have hsubject : (subject.move scopes level a).1 = subject :=
      MovedAfter.eq_of_id ⟨a, Nat.le_refl _, rfl⟩ hs h.1
    have haction := step_eq_of_ids (moveStep_moved level action
      (size_le_move scopes level subject a)) ha h.2
    rw [hsubject, haction]
  · exact ⟨_, _, size_le_move scopes level subject a, rfl⟩

theorem move_record {level id : Nat} {fields : List (String × Term)} {a : Arena}
    (hf : ∀ f ∈ fields, f.2.id < a.size) :
    ∃ j, ((record id fields).move scopes level a).1 = record j (moveFields scopes level fields a).1 := by
  rw [move_record_eq]
  dsimp only
  split
  · rename_i h
    exact ⟨id, by rw [fields_eq_of_ids (moveFields_moved level fields (Nat.le_refl _)) hf h]⟩
  · exact ⟨_, rfl⟩

end Term

variable {T : Tolerance} {input : Input} {scope scope' : Scope} {scopes : Int}

/-- Under `level` common scopes, a reference `up` scopes outwards reads alike once it was moved. -/
def Scope.Carries (T : Tolerance) (scope scope' : Scope) (scopes : Int) (level up : Nat) : Prop :=
  ∀ frames : Scope, frames.length = level →
    Outcome.Related T Eq (Scope.read (frames ++ scope) up)
      (Scope.read (frames ++ scope') ((movedUp? scopes level up).getD up))

/-- What a moved term has in common with the term: the value, under any scopes between. -/
def Term.Moves (T : Tolerance) (input : Input) (scope scope' : Scope) (scopes : Int)
    (level : Nat) (t : Term) : Prop :=
  ∀ (a : Arena) (frames : Scope), t.id < a.size → frames.length = level →
    Outcome.Related T (Evaluated.Related T) (t.eval input (frames ++ scope)).outcome
      ((t.move scopes level a).1.eval input (frames ++ scope')).outcome

namespace Term

theorem Moves.agree {level n bound : Nat} {s t : Term} (frames : Scope)
    (h : Moves T input scope scope' scopes (level + bound) s) (hf : frames.length = level)
    (hs : s.id < n) (hm : MovedAfter scopes (level + bound) n s t) :
    Agree T input (frames ++ scope) (frames ++ scope') bound s t := by
  obtain ⟨a, hn, rfl⟩ := hm
  intro inner hi
  have hlen : (inner ++ frames).length = level + bound := by
    rw [List.length_append, hi, hf, Nat.add_comm]
  have he := h a (inner ++ frames) (by omega) hlen
  rw [List.append_assoc, List.append_assoc] at he
  exact he.outcome

private theorem context_moves {level up id : Nat} (h : scope.Carries T scope' scopes level up) :
    Moves T input scope scope' scopes level (context id up) := by
  intro a frames ha hf
  have hmoved : ∃ j, (move scopes level (context id up) a).1 =
      context j ((movedUp? scopes level up).getD up) := by
    rw [move_context_eq]
    cases movedUp? scopes level up <;> exact ⟨_, rfl⟩
  obtain ⟨j, hj⟩ := hmoved
  rw [hj]
  simp only [eval, Run.outcome_bind]
  exact (h frames hf).bind_eq fun v => .ok (.value v)

private theorem record_moves {level id : Nat} {fields : List (String × Term)}
    (ho : (record id fields).Ordered)
    (ih : ∀ f ∈ fields, Moves T input scope scope' scopes level f.2) :
    Moves T input scope scope' scopes level (record id fields) := by
  intro a frames ha hf
  have hid : ∀ f ∈ fields, f.2.id < a.size := fun f hm =>
    Nat.lt_trans (ho.id_lt _ (List.mem_map.2 ⟨f, hm, rfl⟩)) ha
  have hrecord : ∃ j, ((record id fields).move scopes level a).1 =
      record j (moveFields scopes level fields a).1 := move_record hid
  obtain ⟨j, hj⟩ := hrecord
  rw [hj]
  have hmoved := @moveFields_moved scopes level fields _ _ (Nat.le_refl a.size)
  refine eval_record_related (List.forall₂_iff_get.2 ?_)
  obtain ⟨hlen, hget⟩ := List.forall₂_iff_get.1 hmoved
  refine ⟨hlen, fun i h₁ h₂ => ⟨(hget i h₁ h₂).1, ?_⟩⟩
  have hm := List.get_mem fields ⟨i, h₁⟩
  have hzero : Moves T input scope scope' scopes (level + 0) (fields.get ⟨i, h₁⟩).2 := ih _ hm
  exact hzero.agree frames hf (hid _ hm) (hget i h₁ h₂).2

private theorem step_moves {level id : Nat} {subject : Term} {action : Step}
    (hnames : ∀ s t, Evaluated.NamesPair T s t) (ho : (step id subject action).Ordered)
    (hs : Moves T input scope scope' scopes level subject)
    (ha : ∀ c ∈ action.operands, Moves T input scope scope' scopes (level + c.2) c.1) :
    Moves T input scope scope' scopes level (step id subject action) := by
  intro a frames hid hf
  have hchild : ∀ c ∈ (step id subject action).children, c.1.id < a.size := fun c hc =>
    Nat.lt_trans (ho.id_lt c hc) hid
  have hsubject : subject.id < a.size := hchild (subject, 0) List.mem_cons_self
  have haction : ∀ c ∈ action.operands, c.1.id < a.size := fun c hc =>
    hchild c (List.mem_cons_of_mem _ hc)
  have hstep : ∃ (j : Nat) (b : Arena), a.size ≤ b.size ∧
      ((step id subject action).move scopes level a).1 =
        step j (subject.move scopes level a).1 (moveStep scopes level action b).1 :=
    move_step hsubject haction
  obtain ⟨j, b, hb, hj⟩ := hstep
  rw [hj]
  refine eval_step_related (hnames _ _) (hs a frames hsubject hf) ?_
  refine (moveStep_moved level action hb).mono fun n s t hc hm => ?_
  exact Moves.agree frames (ha _ hc) hf (haction _ hc) hm

/-- A moved term evaluates under the new scopes as the term did under the old ones, provided that
each of its references does. -/
theorem moves (hnames : ∀ s t, Evaluated.NamesPair T s t) (t : Term) :
    ∀ level, t.Ordered → t.References (scope.Carries T scope' scopes) level →
      Moves T input scope scope' scopes level t := by
  induction t using children_induction with
  | h t ih =>
    intro level ho hr
    have hchild : ∀ c ∈ t.children, Moves T input scope scope' scopes (level + c.2) c.1 :=
      fun c hc => ih c hc _ (ho.child c hc) (hr.child c hc)
    cases t with
    | source id name => exact fun _ _ _ _ => .self (fun _ => .refl _) _
    | literal id value => exact fun _ _ _ _ => .self (fun _ => .refl _) _
    | context id up =>
      cases hr with
      | node hup _ => exact context_moves (hup id up rfl)
    | record id fields =>
      exact record_moves ho fun f hf => hchild (f.2, 0) (List.mem_map.2 ⟨f, hf, rfl⟩)
    | step id subject action =>
      exact step_moves hnames ho (hchild (subject, 0) List.mem_cons_self) fun c hc =>
        hchild c (List.mem_cons_of_mem _ hc)

end Term

end QueryPushdown
