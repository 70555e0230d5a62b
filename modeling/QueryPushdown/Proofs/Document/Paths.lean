import QueryPushdown.Document.Answer
import QueryPushdown.Document.Lowering
import QueryPushdown.Proofs.Eval.Operands

/-!
# Paths and projections

A dotted path stands for a chain of field accesses, so reading it gives what the chain evaluates to,
and a projection gives what the transform that it was made of evaluates to.
-/

namespace QueryPushdown

variable {name path : String}

theorem isPathName_iff : Term.isPathName name = true ↔
    name ≠ "" ∧ '.' ∉ name.toList ∧ name.toList.head? ≠ some '$' := by
  simp [Term.isPathName, and_assoc]

theorem pathNames_name (h : Term.isPathName name = true) : pathNames name = [name] := by
  rw [pathNames, List.splitOn_eq_singleton (isPathName_iff.1 h).2.1, List.map_singleton,
    String.ofList_toList]

/-- The last field of a path. -/
theorem pathNames_snoc (path : String) (h : Term.isPathName name = true) :
    pathNames (path ++ "." ++ name) = pathNames path ++ [name] := by
  have hchars : (path ++ "." ++ name).toList = path.toList ++ '.' :: name.toList := by
    rw [String.toList_append, String.toList_append, List.append_assoc]
    rfl
  rw [pathNames, hchars, List.splitOn_append_cons_self, List.map_append]
  exact congrArg _ (pathNames_name h)

namespace Projection

theorem read_snoc (v : Value) (names : List String) (name : String) :
    read v (names ++ [name]) = (do (← read v names).field name) := by
  induction names generalizing v with
  | nil =>
    change (do read (← v.field name) []) = v.field name
    cases v.field name <;> rfl
  | cons n rest ih =>
    change (do read (← v.field n) (rest ++ [name])) = (do (← (do read (← v.field n) rest)).field name)
    cases v.field n with
    | error e => rfl
    | ok w => exact ih w

theorem atPath?_of_read {v w : Value} {names : List String} (h : read v names = .ok w) :
    v.atPath? names = some w := by
  induction names generalizing v with
  | nil =>
    cases h
    rfl
  | cons n rest ih =>
    obtain ⟨u, hu, hw⟩ := Outcome.bind_eq_ok.1 h
    have hrest := ih hw
    cases v with
    | mapping fields =>
      rw [Value.field] at hu
      split at hu
      · rename_i x hget
        cases hu
        rw [Value.atPath?, hget]
        exact hrest
      · cases hu
    | _ => cases hu

end Projection

namespace Term

variable {t : Term} {input : Input} {scope : Scope} {v : Value}

private theorem path?_next (id : Nat) (subject : Term) (name : String)
    (h : ∀ j, subject = context j 0 → False) : (step id subject (.field name)).path? =
      if isPathName name then subject.path?.map fun path => path ++ "." ++ name else none := by
  rw [path?]
  exact h

private theorem path?_other (t : Term)
    (hfirst : ∀ id j name, t = step id (context j 0) (.field name) → False)
    (hnext : ∀ id subject name, t = step id subject (.field name) → False) : t.path? = none := by
  rw [path?]
  · exact hfirst
  · exact hnext

/-- Paths are made of a first field and further ones. -/
theorem path_induction {P : Term → String → Prop}
    (first : ∀ id j name, isPathName name = true → P (step id (context j 0) (.field name)) name)
    (next : ∀ id subject name path, isPathName name = true → subject.path? = some path →
      P subject path → P (step id subject (.field name)) (path ++ "." ++ name))
    (h : t.path? = some path) : P t path := by
  induction t using path?.induct generalizing path with
  | case1 id j name hname =>
    rw [path?, if_pos hname] at h
    cases h
    exact first id j _ hname
  | case2 id j name hname =>
    rw [path?, if_neg hname] at h
    cases h
  | case3 id subject name hsubject hname ih =>
    rw [path?_next id subject name hsubject, if_pos hname] at h
    obtain ⟨p, hp, rfl⟩ := Option.map_eq_some_iff.1 h
    exact next id subject name p hname hp (ih hp)
  | case4 id subject name hsubject hname =>
    rw [path?_next id subject name hsubject, if_neg hname] at h
    cases h
  | case5 t hfirst hnext =>
    rw [path?_other t hfirst hnext] at h
    cases h

/-- A path starts like its first field, so it is no operator. -/
theorem path_head (h : t.path? = some path) :
    path.toList ≠ [] ∧ path.toList.head? ≠ some '$' := by
  refine path_induction (P := fun _ path => path.toList ≠ [] ∧ path.toList.head? ≠ some '$')
    (fun id j name hname => ?_) (fun id subject name p hname hp ih => ?_) h
  · obtain ⟨hne, -, hhead⟩ := isPathName_iff.1 hname
    exact ⟨fun he => hne (String.toList_eq_nil_iff.1 he), hhead⟩
  · obtain ⟨c, cs, he⟩ := List.exists_cons_of_ne_nil ih.1
    rw [he] at ih
    rw [String.toList_append, String.toList_append, he]
    exact ⟨List.cons_ne_nil _ _, ih.2⟩

theorem isOperator_path (h : t.path? = some path) : Filter.isOperator path = false := by
  simpa [Filter.isOperator] using (path_head h).2

/-- A path reads what the field accesses evaluate to. -/
theorem outcome_path (h : t.path? = some path) (v : Value) (scope : Scope) :
    t.outcome input (v :: scope) = Projection.read v (pathNames path) := by
  refine path_induction
    (P := fun t path => t.outcome input (v :: scope) = Projection.read v (pathNames path))
    (fun id j name hname => ?_) (fun id subject name p hname hp ih => ?_) h
  · rw [outcome_field, pathNames_name hname]
    change v.field name = (do Projection.read (← v.field name) [])
    cases v.field name <;> rfl
  · rw [outcome_field, ih, pathNames_snoc p hname, Projection.read_snoc]

theorem atPath_of_outcome {w : Value} (h : t.path? = some path)
    (hw : t.outcome input (v :: scope) = .ok w) : v.atPath path = w := by
  rw [outcome_path h] at hw
  rw [Value.atPath, Projection.atPath?_of_read hw]
  rfl

mutual

/-- A projection gives what its transform evaluates to. -/
theorem apply_of_projectionOf {t : Term} {p : Projection} (h : t.projectionOf = .ok p) :
    p.apply v = t.outcome input (v :: scope) := by
  cases t with
  | context id up =>
    rw [projectionOf] at h
    split at h
    · rename_i hup
      subst hup
      cases h
      rfl
    · cases h
  | record id fields =>
    rw [projectionOf] at h
    obtain ⟨ps, hps, h⟩ := Refusal.bind_eq_ok h
    cases h
    rw [Projection.apply, applyFields_of_projectionsOf hps, outcome_record]
  | step id subject action =>
    cases action with
    | field name =>
      rw [projectionOf] at h
      split at h
      · rename_i path hpath
        cases h
        rw [outcome_path hpath]
        rfl
      · cases h
    | _ => cases h
  | _ => cases h
termination_by sizeOf t

theorem applyFields_of_projectionsOf {fields : List (String × Term)}
    {ps : List (String × Projection)} (h : projectionsOf fields = .ok ps) :
    Projection.applyFields v ps = (evalFields input (v :: scope) fields).outcome := by
  match fields with
  | [] =>
    cases h
    rfl
  | (name, t) :: rest =>
    rw [projectionsOf] at h
    obtain ⟨p, hp, h⟩ := Refusal.bind_eq_ok h
    obtain ⟨others, hothers, h⟩ := Refusal.bind_eq_ok h
    cases h
    rw [Projection.applyFields, apply_of_projectionOf hp, applyFields_of_projectionsOf hothers,
      outcome_evalFields_cons]
termination_by sizeOf fields

end

end Term

end QueryPushdown
