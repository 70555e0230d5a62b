import Mathlib.Data.Option.Basic
import QueryPushdown.Proofs.Value.Alike

/-!
# Operators on values alike

Applied to values that are alike, an operator either fails on both sides or gives values that are
alike.
-/

namespace QueryPushdown

/-- Any two errors may stand for each other, and none excuses a value. -/
def Tolerance.anyError : Tolerance where
  pairs _ _ := True
  first _ := False
  second _ := False
  pairs_refl _ := trivial

/-- Two outcomes that are both values, in relation `R`, or both errors. -/
abbrev Outcome.Lockstep {α β : Type} (R : α → β → Prop) : Outcome α → Outcome β → Prop :=
  Outcome.Related Tolerance.anyError R

namespace Outcome.Lockstep

variable {α β : Type} {R : α → β → Prop} {x : Outcome α} {y : Outcome β}

theorem errors (e f : Error) : Outcome.Lockstep R (.error e) (.error f) :=
  .error trivial

theorem ok_or_error (h : Outcome.Lockstep R x y) :
    (∃ a b, x = .ok a ∧ y = .ok b ∧ R a b) ∨ ∃ e f, x = .error e ∧ y = .error f := by
  cases h with
  | ok h => exact .inl ⟨_, _, rfl, rfl, h⟩
  | error _ => exact .inr ⟨_, _, rfl, rfl⟩
  | first h => exact h.elim
  | second h => exact h.elim

theorem of_ok {a : α} (h : Outcome.Lockstep R (.ok a) y) : ∃ b, y = .ok b ∧ R a b := by
  cases h with
  | ok h => exact ⟨_, rfl, h⟩
  | second h => exact h.elim

theorem of_error {e : Error} (h : Outcome.Lockstep R (.error e) y) : ∃ f, y = .error f := by
  cases h with
  | error _ => exact ⟨_, rfl⟩
  | first h => exact h.elim
  | second h => exact h.elim

theorem of_map {γ δ : Type} {S : γ → δ → Prop} {f : α → γ} {g : β → δ}
    (h : Outcome.Lockstep S (x.map f) (y.map g)) (hR : ∀ a b, S (f a) (g b) → R a b) :
    Outcome.Lockstep R x y := by
  rcases x with e | a <;> rcases y with e' | b
  · exact .errors e e'
  · obtain ⟨_, hb⟩ := h.of_error
    cases hb
  · obtain ⟨_, hb, -⟩ := h.of_ok
    cases hb
  · obtain ⟨_, hb, hab⟩ := h.of_ok
    cases hb
    exact .ok (hR a b hab)

theorem mapM {γ δ : Type} {P : γ → δ → Prop} {f : γ → Outcome α} {g : δ → Outcome β}
    {cs : List γ} {ds : List δ} (h : List.Forall₂ P cs ds)
    (hfg : ∀ c d, P c d → Outcome.Lockstep R (f c) (g d)) :
    Outcome.Lockstep (List.Forall₂ R) (cs.mapM f) (ds.mapM g) := by
  induction h with
  | nil => exact .ok .nil
  | cons hcd _ ih =>
    rw [List.mapM_cons, List.mapM_cons]
    exact (hfg _ _ hcd).bind fun a b hab => ih.bind fun as bs habs => .ok (.cons hab habs)

end Outcome.Lockstep

variable {a a' b b' v w : Value}

/-- Fields extended alike. -/
theorem Value.Alike.extend {fs gs fs' gs' : List (String × Value)}
    (hf : (Value.mapping fs).Alike (.mapping fs')) (hg : (Value.mapping gs).Alike (.mapping gs')) :
    (Value.mapping (Fields.extend fs gs)).Alike (.mapping (Fields.extend fs' gs')) := by
  cases hf with
  | mapping hn hn' hhas halike =>
    cases hg with
    | mapping hm hm' hhas' halike' =>
      refine .mapping (Fields.nodup_names_extend hn gs) (Fields.nodup_names_extend hn' gs')
        (fun name => ?_) fun name a b ha hb => ?_
      · rw [Fields.has, Fields.has, Fields.get?_extend _ hm, Fields.get?_extend _ hm',
          Option.isSome_or, Option.isSome_or]
        exact congrArg₂ or (hhas' name) (hhas name)
      · rw [Fields.get?_extend _ hm] at ha
        rw [Fields.get?_extend _ hm'] at hb
        have hname := hhas' name
        cases hx : Fields.get? gs name with
        | none =>
          cases hy : Fields.get? gs' name with
          | none =>
            rw [hx, Option.none_or] at ha
            rw [hy, Option.none_or] at hb
            exact halike name a b ha hb
          | some y => simp [Fields.has, hx, hy] at hname
        | some x =>
          cases hy : Fields.get? gs' name with
          | none => simp [Fields.has, hx, hy] at hname
          | some y =>
            rw [hx, Option.some_or, Option.some.injEq] at ha
            rw [hy, Option.some_or, Option.some.injEq] at hb
            subst ha hb
            exact halike' name x y hx hy

theorem Value.Alike.asFloat? (h : v.Alike w) :
    Option.Rel Binary64.Alike v.asFloat? w.asFloat? := by
  cases h with
  | int i => exact .some (.refl _)
  | float h => exact .some h
  | _ => exact .none

theorem Value.field_alike (h : v.Alike w) (name : String) :
    Outcome.Lockstep Value.Alike (v.field name) (w.field name) := by
  cases h with
  | @mapping as bs _ _ hhas h =>
    simp only [Value.field]
    have hname := hhas name
    cases ha : Fields.get? as name with
    | none =>
      cases hb : Fields.get? bs name with
      | none => exact .errors _ _
      | some b => simp [Fields.has, ha, hb] at hname
    | some a =>
      cases hb : Fields.get? bs name with
      | none => simp [Fields.has, ha, hb] at hname
      | some b => exact .ok (h name a b ha hb)
  | _ => exact .errors _ _

namespace Operator

theorem unary_alike (op : UnaryOp) (h : v.Alike w) :
    Outcome.Lockstep Value.Alike (unary op v) (unary op w) := by
  cases op with
  | not =>
    cases h with
    | bool b => exact .ok (.bool _)
    | _ => exact .errors _ _
  | neg =>
    cases h with
    | int i =>
      simp only [unary]
      split
      · exact .ok (.int _)
      · exact .errors _ _
    | float h => exact .ok (.float h.neg)
    | _ => exact .errors _ _

/-- An operation on two values that are read as floats. -/
private theorem onFloats_alike {x x' y y' : Option Binary64}
    {f g : Binary64 → Binary64 → Outcome Value} (e e' : Error)
    (hfg : ∀ {x x' y y' : Binary64}, x.Alike x' → y.Alike y' →
      Outcome.Lockstep Value.Alike (f x y) (g x' y')) :
    Option.Rel Binary64.Alike x x' → Option.Rel Binary64.Alike y y' →
    Outcome.Lockstep Value.Alike
      (match x, y with
        | some x, some y => f x y
        | _, _ => .error e)
      (match x', y' with
        | some x, some y => g x y
        | _, _ => .error e') := by
  intro hx hy
  cases hx with
  | none => exact .errors _ _
  | some hx =>
    cases hy with
    | none => exact .errors _ _
    | some hy => exact hfg hx hy

theorem arithmetic_alike {op : BinaryOp} {exact : Int → Int → Int}
    {rounded : Binary64 → Binary64 → Binary64}
    (hr : ∀ {x x' y y' : Binary64}, x.Alike x' → y.Alike y' →
      (rounded x y).Alike (rounded x' y')) (ha : a.Alike a') (hb : b.Alike b') :
    Outcome.Lockstep Value.Alike (arithmetic op exact rounded a b)
      (arithmetic op exact rounded a' b') := by
  have hfloats := onFloats_alike (mismatch op a b) (mismatch op a' b')
    (fun hx hy => .ok (.float (hr hx hy))) ha.asFloat? hb.asFloat?
  cases ha with
  | int i =>
    cases hb with
    | int j =>
      simp only [arithmetic]
      split
      · exact .ok (.int _)
      · exact .errors _ _
    | _ => exact hfloats
  | _ => exact hfloats

theorem addNumbers_alike (ha : a.Alike a') (hb : b.Alike b') :
    Outcome.Lockstep Value.Alike (addNumbers a b) (addNumbers a' b') :=
  arithmetic_alike .add ha hb

theorem add_alike (ha : a.Alike a') (hb : b.Alike b') :
    Outcome.Lockstep Value.Alike (add a b) (add a' b') := by
  have hnumbers := addNumbers_alike ha hb
  cases ha with
  | text s =>
    cases hb with
    | text t => exact .ok (.text _)
    | _ => exact hnumbers
  | list hlength h =>
    cases hb with
    | list hlength' h' =>
      have happend := List.rel_append (Value.alike_list.1 (.list hlength h))
        (Value.alike_list.1 (.list hlength' h'))
      exact .ok (Value.alike_list.2 happend)
    | _ => exact hnumbers
  | mapping hn hn' hhas h =>
    cases hb with
    | mapping hm hm' hhas' h' =>
      exact .ok (Value.Alike.extend (.mapping hn hn' hhas h) (.mapping hm hm' hhas' h'))
    | _ => exact hnumbers
  | _ => cases hb <;> exact hnumbers

theorem divide_alike (ha : a.Alike a') (hb : b.Alike b') :
    Outcome.Lockstep Value.Alike (divide a b) (divide a' b') := by
  refine onFloats_alike _ _ (fun {x x' y y'} hx hy => ?_) ha.asFloat? hb.asFloat?
  rw [← hy.isZero_eq]
  cases hz : y.isZero with
  | true => exact .errors _ _
  | false =>
    obtain rfl := hy.eq_of_not_isZero hz
    exact .ok (.float (hx.div y))

theorem binary_alike (op : BinaryOp) (ha : a.Alike a') (hb : b.Alike b') :
    Outcome.Lockstep Value.Alike (binary op a b) (binary op a' b') := by
  have hbool : ∀ x : Outcome Bool,
      Outcome.Lockstep Value.Alike (do pure (.bool (← x))) (do pure (.bool (← x))) := fun x =>
    (Outcome.Related.refl x).bind_eq fun b => .ok (.bool b)
  have hordered : ∀ test : Ordering → Bool,
      Outcome.Lockstep Value.Alike (do pure (.bool (test (← a.compare? b))))
        (do pure (.bool (test (← a'.compare? b')))) := fun test => by
    rw [ha.compare?_eq hb]
    exact (Outcome.Related.refl _).bind_eq fun o => .ok (.bool _)
  cases op with
  | eq | ne =>
    simp only [binary, ha.isEq_eq hb]
    exact .ok (.bool _)
  | ge | gt | le | lt => exact hordered _
  | add => exact add_alike ha hb
  | sub => exact arithmetic_alike .sub ha hb
  | mul => exact arithmetic_alike .mul ha hb
  | div => exact divide_alike ha hb
  | and | or =>
    simp only [binary, ha.toBool_eq, hb.toBool_eq]
    refine (Outcome.Related.refl _).bind_eq fun x => ?_
    exact (Outcome.Related.refl _).bind_eq fun y => .ok (.bool _)
  | matching =>
    cases ha with
    | text s =>
      cases hb with
      | text t => exact hbool _
      | _ => exact .errors _ _
    | _ => exact .errors _ _

theorem accumulate_alike (ha : a.Alike a') (hb : b.Alike b') :
    Outcome.Lockstep Value.Alike (accumulate a b) (accumulate a' b') := by
  unfold accumulate
  rw [← hb.isNumber_eq]
  split
  · exact addNumbers_alike ha hb
  · exact .errors _ _

end Operator

end QueryPushdown
