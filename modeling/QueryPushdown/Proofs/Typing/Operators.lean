import QueryPushdown.Eval.Operator
import QueryPushdown.Proofs.Typing.Safety
import QueryPushdown.Request.Typing

/-!
# Typed operators

Operators on values of the operand types give values of the type that is inferred for them.
-/

namespace QueryPushdown

namespace Value

theorem toBool_sound (v : Value) : Outcome.Sound (fun _ => True) v.toBool := by
  cases v with
  | bool b => trivial
  | _ => rfl

theorem compare?_sound (a b : Value) : Outcome.Sound (fun _ => True) (a.compare? b) :=
  compare?_meets (E := Error.IsBound) (fun _ _ => rfl) rfl a b

end Value

namespace Typing

variable {ty t a b : Ty} {v x y : Value}

theorem field_sound {name : String} (h : field ty name = .ok t) (hv : ty.Inhabits v) :
    Outcome.Sound t.Inhabits (v.field name) := by
  cases hv with
  | any v =>
    cases h
    cases v with
    | mapping fields =>
      rw [Value.field]
      cases Fields.get? fields name with
      | none => rfl
      | some w => exact .any w
    | _ => rfl
  | @mapping tys source fields hn hnames hf =>
    simp only [field] at h
    simp only [Value.field]
    cases hget : Fields.get? fields name with
    | none => rfl
    | some w =>
      cases hty : Fields.get? tys name with
      | none =>
        rw [hty] at h
        cases h
      | some u =>
        rw [hty] at h
        cases h
        exact hf name w t hget hty
  | _ => rfl

theorem unary_sound {op : UnaryOp} (h : unary op ty = .ok t) (hv : ty.Inhabits v) :
    Outcome.Sound t.Inhabits (Operator.unary op v) := by
  cases op with
  | not =>
    cases hv with
    | any v =>
      cases h
      cases v with
      | bool b => exact .any _
      | _ => rfl
    | bool b =>
      cases h
      exact .bool _
    | _ => rfl
  | neg =>
    cases hv with
    | any v =>
      cases h
      cases v with
      | int i =>
        simp only [Operator.unary]
        cases Operator.fit? (-i.toInt) with
        | some k => exact .any _
        | none => rfl
      | float x => exact .any _
      | _ => rfl
    | int i =>
      cases h
      simp only [Operator.unary]
      cases Operator.fit? (-i.toInt) with
      | some k => exact .int k
      | none => rfl
    | widened i =>
      cases h
      simp only [Operator.unary]
      cases Operator.fit? (-i.toInt) with
      | some k => exact .widened k
      | none => rfl
    | float x =>
      cases h
      exact .float _
    | _ => rfl

/-- Exact arithmetic gives an integer, which inhabits the type found for two integers. -/
private theorem arithmetic_int {op : BinaryOp} {i j : Int64} (h : arithmetic op a b = .ok t)
    (ha : a.Inhabits (.int i)) (hb : b.Inhabits (.int j)) (hop : op ≠ .div) (k : Int64) :
    t.Inhabits (.int k) := by
  cases ha <;> cases hb <;> simp [arithmetic, hop, Ty.isNumeric] at h <;> subst h <;>
    first | exact .any _ | exact .int k | exact .widened k

/-- A division, or arithmetic with a float, is not typed as an integer. -/
private theorem arithmetic_float {op : BinaryOp} (h : arithmetic op a b = .ok t)
    (ha : a.Inhabits x) (hb : b.Inhabits y) (hx : x.isNumber = true) (hy : y.isNumber = true)
    (hop : x.kind = .f64 ∨ y.kind = .f64 ∨ op = .div) (z : Binary64) : t.Inhabits (.float z) := by
  cases ha <;> cases hb <;> simp [Value.isNumber, Value.kind, Kind.isNumber] at hx hy <;>
    simp [arithmetic, Ty.isNumeric] at h <;>
    first
    | (subst h; first | exact .any _ | exact .float z)
    | (simp [Value.kind] at hop
       simp [hop] at h
       subst h
       exact .float z)

private theorem arithmetic_sound {op : BinaryOp} {exact : Int → Int → Int}
    {rounded : Binary64 → Binary64 → Binary64} (h : arithmetic op a b = .ok t)
    (ha : a.Inhabits x) (hb : b.Inhabits y) (hop : op ≠ .div) :
    Outcome.Sound t.Inhabits (Operator.arithmetic op exact rounded x y) := by
  have hfloat : x.isNumber = true → y.isNumber = true → (x.kind = .f64 ∨ y.kind = .f64) →
      ∀ z, t.Inhabits (.float z) := fun hx hy hk z =>
    arithmetic_float h ha hb hx hy (hk.imp_right .inl) z
  cases x with
  | int i =>
    cases y with
    | int j =>
      simp only [Operator.arithmetic]
      cases Operator.fit? (exact i.toInt j.toInt) with
      | none => rfl
      | some k => exact arithmetic_int h ha hb hop k
    | float y => exact hfloat rfl rfl (.inr rfl) _
    | _ => rfl
  | float x =>
    cases y with
    | int j => exact hfloat rfl rfl (.inl rfl) _
    | float y => exact hfloat rfl rfl (.inl rfl) _
    | _ => rfl
  | _ => rfl

theorem addNumbers_sound (h : arithmetic .add a b = .ok t) (ha : a.Inhabits x)
    (hb : b.Inhabits y) : Outcome.Sound t.Inhabits (Operator.addNumbers x y) :=
  arithmetic_sound h ha hb (by decide)

private theorem divide_sound (h : arithmetic .div a b = .ok t) (ha : a.Inhabits x)
    (hb : b.Inhabits y) : Outcome.Sound t.Inhabits (Operator.divide x y) := by
  have hfloat : x.isNumber = true → y.isNumber = true → ∀ z, t.Inhabits (.float z) :=
    fun hx hy z => arithmetic_float h ha hb hx hy (.inr (.inr rfl)) z
  unfold Operator.divide
  cases hx : x.asFloat? with
  | none => rfl
  | some u =>
    cases hy : y.asFloat? with
    | none => rfl
    | some w =>
      have hxn : x.isNumber = true := by cases x <;> first | rfl | cases hx
      have hyn : y.isNumber = true := by cases y <;> first | rfl | cases hy
      dsimp only
      split
      · rfl
      · exact hfloat hxn hyn _

/-- Mappings that are joined have the fields of both. -/
private theorem extend_inhabits {tys more : Fields Ty} {source source' : Option String}
    {fs gs : Fields Value} (ha : (Ty.mapping tys source).Inhabits (.mapping fs))
    (hb : (Ty.mapping more source').Inhabits (.mapping gs)) (hn : (Fields.names more).Nodup) :
    (Ty.mapping (Fields.extend tys more) none).Inhabits (.mapping (Fields.extend fs gs)) := by
  cases ha with
  | mapping hfs hfnames hf =>
    cases hb with
    | mapping hgs hgnames hg =>
      refine .mapping (Fields.nodup_names_extend hfs gs) (fun name => ?_) ?_
      · have h₁ := hfnames name
        have h₂ := hgnames name
        simp only [Fields.has] at h₁ h₂ ⊢
        rw [Fields.get?_extend fs hgs, Fields.get?_extend tys hn, Option.isSome_or,
          Option.isSome_or, h₁, h₂]
      · intro name v ty hv hty
        rw [Fields.get?_extend fs hgs] at hv
        rw [Fields.get?_extend tys hn] at hty
        have h₂ := hgnames name
        simp only [Fields.has] at h₂
        cases hgv : Fields.get? gs name with
        | none =>
          cases hgt : Fields.get? more name with
          | none =>
            rw [hgv, Option.none_or] at hv
            rw [hgt, Option.none_or] at hty
            exact hf name v ty hv hty
          | some u => simp [hgv, hgt] at h₂
        | some w =>
          cases hgt : Fields.get? more name with
          | none => simp [hgv, hgt] at h₂
          | some u =>
            rw [hgv, Option.some_or, Option.some.injEq] at hv
            rw [hgt, Option.some_or, Option.some.injEq] at hty
            exact hg name v ty (hv ▸ hgv) (hty ▸ hgt)

private theorem add_sound (h : arithmetic .add a b = .ok t) (ha : a.Inhabits x)
    (hb : b.Inhabits y) (had : a.Distinct) (hbd : b.Distinct) :
    Outcome.Sound t.Inhabits (Operator.add x y) := by
  have hnumbers : Outcome.Sound t.Inhabits (Operator.addNumbers x y) := addNumbers_sound h ha hb
  cases x with
  | text s =>
    cases y with
    | text s' =>
      cases ha <;> cases hb <;> cases h <;> first | exact .any _ | exact .text _
    | _ => exact hnumbers
  | list xs =>
    cases y with
    | list ys =>
      cases ha with
      | any =>
        cases h
        exact .any _
      | list hxs =>
        cases hb with
        | any =>
          cases h
          exact .any _
        | list hys =>
          cases h
          cases had with
          | list had =>
            refine Ty.Inhabits.list fun v hv => ?_
            rcases List.mem_append.1 hv with hv | hv
            · exact (hxs v hv).unify_left _
            · exact (hys v hv).unify_right had
    | _ => exact hnumbers
  | mapping fs =>
    cases y with
    | mapping gs =>
      have hfs := ha
      have hgs := hb
      cases ha with
      | any =>
        cases h
        exact .any _
      | mapping =>
        cases hb with
        | any =>
          cases h
          exact .any _
        | mapping =>
          cases h
          cases hbd with
          | mapping hbn _ => exact extend_inhabits hfs hgs hbn
    | _ => exact hnumbers
  | _ => exact hnumbers

/-- An operator on values of its operand types gives a value of its type. -/
theorem binary_sound {op : BinaryOp} (h : binary op a b = .ok t) (ha : a.Inhabits x)
    (hb : b.Inhabits y) (had : a.Distinct) (hbd : b.Distinct) :
    Outcome.Sound t.Inhabits (Operator.binary op x y) := by
  cases op with
  | eq | ne =>
    cases h
    exact .bool _
  | ge | gt | le | lt =>
    cases h
    exact (Value.compare?_sound x y).bind fun o _ => Ty.Inhabits.bool _
  | add => exact add_sound h ha hb had hbd
  | sub | mul => exact arithmetic_sound h ha hb (by decide)
  | div => exact divide_sound h ha hb
  | and | or =>
    obtain ⟨_, _, h⟩ := Outcome.bind_eq_ok.1 h
    obtain ⟨_, _, h⟩ := Outcome.bind_eq_ok.1 h
    cases h
    refine x.toBool_sound.bind fun p _ => y.toBool_sound.bind fun q _ => ?_
    exact Ty.Inhabits.bool _
  | matching =>
    obtain ⟨_, _, h⟩ := Outcome.bind_eq_ok.1 h
    obtain ⟨_, _, h⟩ := Outcome.bind_eq_ok.1 h
    cases h
    cases x with
    | text s =>
      cases y with
      | text p =>
        simp only [Operator.binary, Operator.matching]
        cases Pattern.search p s with
        | ok found => exact Ty.Inhabits.bool _
        | error m => cases m <;> rfl
      | _ => rfl
    | _ => rfl

end Typing

end QueryPushdown
