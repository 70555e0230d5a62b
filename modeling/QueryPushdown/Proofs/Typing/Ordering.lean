import QueryPushdown.Proofs.Typing.Inhabits

/-!
# The order of types

One type lies below another when it says at least as much of a value. `null` is the bottom, `any` the
top, integers lie below floats, and lists and mappings are compared by their contents, a mapping
without a source lying above those that have one. Types that lie below each other are the same.
-/

namespace QueryPushdown

namespace Ty

/-- The first type says at least as much of a value as the second one. -/
inductive Below : Ty → Ty → Prop
  | null (b : Ty) : Below .null b
  | any (a : Ty) : Below a .any
  | bool : Below .bool .bool
  | i64 : Below .i64 .i64
  | f64 : Below .f64 .f64
  | widened : Below .i64 .f64
  | string : Below .string .string
  | list {a b : Ty} (h : Below a b) : Below (.list a) (.list b)
  | mapping {as bs : List (String × Ty)} {s t : Option String}
    (hnames : ∀ name, Fields.has as name = Fields.has bs name) (hsource : s = t ∨ t = none)
    (h : ∀ name a b, Fields.get? as name = some a → Fields.get? bs name = some b → Below a b) :
    Below (.mapping as s) (.mapping bs t)

variable {a b c : Ty}

theorem Below.refl (ha : a.Distinct) : a.Below a := by
  induction ha with
  | null => exact .null _
  | any => exact .any _
  | bool => exact .bool
  | i64 => exact .i64
  | f64 => exact .f64
  | string => exact .string
  | list _ ih => exact .list ih
  | mapping hn _ ih =>
    refine .mapping (fun _ => rfl) (.inl rfl) fun name x y hx hy => ?_
    cases hx.symm.trans hy
    exact ih _ (Fields.mem_of_get? hx)

theorem Below.trans (hab : a.Below b) (hbc : b.Below c) : a.Below c := by
  induction hab generalizing c with
  | null => exact .null c
  | any =>
    cases hbc
    exact .any _
  | bool => exact hbc
  | i64 => exact hbc
  | f64 => exact hbc
  | string => exact hbc
  | widened =>
    cases hbc with
    | f64 => exact .widened
    | any => exact .any _
  | list _ ih =>
    cases hbc with
    | list hbc => exact .list (ih hbc)
    | any => exact .any _
  | mapping hnames hsource h ih =>
    cases hbc with
    | mapping hnames' hsource' h' =>
      refine .mapping (fun name => (hnames name).trans (hnames' name)) ?_ fun name x z hx hz => ?_
      · rcases hsource' with rfl | rfl
        · exact hsource
        · exact .inr rfl
      · obtain ⟨y, hy⟩ := Fields.exists_get? hnames hx
        exact ih name x y hx hy (h' name y z hy hz)
    | any => exact .any _

/-- What inhabits a type inhabits all types above it. -/
theorem Below.inhabits {v : Value} (hab : a.Below b) (h : a.Inhabits v) : b.Inhabits v := by
  induction hab generalizing v with
  | null =>
    cases h
    exact .null _
  | any => exact .any v
  | bool => exact h
  | i64 => exact h
  | f64 => exact h
  | string => exact h
  | widened =>
    cases h with
    | null => exact .null _
    | int i => exact .widened i
  | list _ ih =>
    cases h with
    | null => exact .null _
    | list h => exact .list fun v hv => ih (h v hv)
  | mapping hnames _ _ ih =>
    cases h with
    | null => exact .null _
    | mapping hn hnames' h =>
      refine .mapping hn (fun name => (hnames' name).trans (hnames name)) fun name v y hv hy => ?_
      obtain ⟨x, hx⟩ := Fields.exists_get? (fun name => (hnames name).symm) hy
      exact ih name x y hx hy (h name v x hv hx)

/-- Each field of the first mapping stands in the second one with the same type. -/
theorem sameFields_iff {as bs : List (String × Ty)} : sameFields as bs = true ↔
    ∀ f ∈ as, ∃ b, Fields.get? bs f.1 = some b ∧ f.2.same b = true := by
  induction as with
  | nil => simp [sameFields]
  | cons f as ih =>
    obtain ⟨name, a⟩ := f
    rw [sameFields, Bool.and_eq_true, ih, List.forall_mem_cons]
    cases Fields.get? bs name <;> simp

/-- Mappings are the same when they have the same names, the same source and the same types. -/
theorem same_mapping_iff {as bs : List (String × Ty)} {s t : Option String}
    (ha : (Fields.names as).Nodup) (hb : (Fields.names bs).Nodup) :
    (mapping as s).same (mapping bs t) = true ↔
      (∀ name, Fields.has as name = Fields.has bs name) ∧ s = t ∧
        ∀ name a b, Fields.get? as name = some a → Fields.get? bs name = some b →
          a.same b = true := by
  rw [same, Bool.and_eq_true, Bool.and_eq_true, beq_iff_eq, beq_iff_eq, sameFields_iff]
  constructor
  · rintro ⟨⟨hlength, hfields⟩, hsource⟩
    refine ⟨fun name => ?_, hsource, fun name a b hget hget' => ?_⟩
    · refine (Fields.has_eq_of_length ha hlength (fun f hf => ?_) name).symm
      obtain ⟨b, hb, -⟩ := hfields f hf
      rw [Fields.has, hb, Option.isSome_some]
    · obtain ⟨c, hc, hsame⟩ := hfields _ (Fields.mem_of_get? hget)
      cases hc.symm.trans hget'
      exact hsame
  · rintro ⟨hnames, hsource, h⟩
    refine ⟨⟨Fields.length_eq_of_has ha hb hnames, fun f hf => ?_⟩, hsource⟩
    have hget := Fields.get?_of_mem ha hf
    obtain ⟨b, hget'⟩ := Fields.exists_get? hnames hget
    exact ⟨b, hget', h f.1 f.2 b hget hget'⟩

/-- Types that lie below each other are the same. -/
theorem Below.antisymm (hab : a.Below b) (hba : b.Below a) (ha : a.Distinct) (hb : b.Distinct) :
    a.same b = true := by
  induction hab with
  | null | any =>
    cases hba
    rfl
  | bool | i64 | f64 | string => rfl
  | widened => cases hba
  | list _ ih =>
    cases hba with
    | list hba =>
      cases ha with
      | list ha =>
        cases hb with
        | list hb => exact ih hba ha hb
  | mapping hnames hsource _ ih =>
    cases hba with
    | mapping _ hsource' hba =>
      cases ha with
      | mapping hn ha =>
        cases hb with
        | mapping hn' hb =>
          refine (same_mapping_iff hn hn').2 ⟨hnames, ?_, fun name x y hx hy => ?_⟩
          · rcases hsource with rfl | rfl
            · rfl
            · exact hsource'.elim Eq.symm id
          · exact ih name x y hx hy (hba name y x hy hx) (ha _ (Fields.mem_of_get? hx))
              (hb _ (Fields.mem_of_get? hy))

/-- Types that are the same lie below each other. -/
theorem below_of_same (ha : a.Distinct) (hb : b.Distinct) (h : a.same b = true) :
    a.Below b ∧ b.Below a := by
  induction ha generalizing b with
  | list _ ih =>
    cases hb with
    | list hb =>
      obtain ⟨hab, hba⟩ := ih hb h
      exact ⟨.list hab, .list hba⟩
    | _ => cases h
  | mapping hn _ ih =>
    cases hb with
    | mapping hn' hb =>
      obtain ⟨hnames, rfl, hfields⟩ := (same_mapping_iff hn hn').1 h
      have hboth : ∀ name x y, Fields.get? _ name = some x → Fields.get? _ name = some y →
          Below x y ∧ Below y x := fun name x y hx hy =>
        ih _ (Fields.mem_of_get? hx) (hb _ (Fields.mem_of_get? hy)) (hfields name x y hx hy)
      exact ⟨.mapping hnames (.inl rfl) fun name x y hx hy => (hboth name x y hx hy).1,
        .mapping (fun name => (hnames name).symm) (.inl rfl)
          fun name y x hy hx => (hboth name x y hx hy).2⟩
    | _ => cases h
  | null | bool | i64 | f64 | string | any =>
    cases hb <;> first | exact ⟨.refl (by constructor), .refl (by constructor)⟩ | cases h

/-- Sameness is the equivalence that the order of types gives. -/
theorem same_iff_below (ha : a.Distinct) (hb : b.Distinct) :
    a.same b = true ↔ a.Below b ∧ b.Below a :=
  ⟨below_of_same ha hb, fun h => h.1.antisymm h.2 ha hb⟩

/-- Types are the same when the same types lie above them. -/
theorem same_iff_bounds (ha : a.Distinct) (hb : b.Distinct) :
    a.same b = true ↔ ∀ c, a.Below c ↔ b.Below c := by
  rw [same_iff_below ha hb]
  constructor
  · rintro ⟨hab, hba⟩ c
    exact ⟨hba.trans, hab.trans⟩
  · intro h
    exact ⟨(h b).2 (.refl hb), (h a).1 (.refl ha)⟩

end Ty

end QueryPushdown
