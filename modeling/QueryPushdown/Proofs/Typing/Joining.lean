import QueryPushdown.Proofs.Typing.Ordering

/-!
# The join of types

The join of two types is the least type above both, at any depth. That makes it idempotent,
commutative and associative up to the order of fields, with `null` as its neutral element and `any`
absorbing everything. What lies below a type adds nothing to it, so that types that are the same join
to the first of them as it stands. The elements of a list meet in the least type above theirs, in
whatever order they come.
-/

namespace QueryPushdown

namespace Ty

variable {a b c : Ty}

theorem unify_any_right (ty : Ty) : unify ty .any = .any := by cases ty <;> rfl

theorem unify_null_right (ty : Ty) : unify ty .null = ty := by cases ty <;> rfl

/-- The join of mappings that have the same names. -/
theorem unify_mapping {as bs : List (String × Ty)} {s t : Option String}
    (ha : (Fields.names as).Nodup) (hb : (Fields.names bs).Nodup)
    (hnames : ∀ name, Fields.has as name = Fields.has bs name) :
    (mapping as s).unify (mapping bs t) =
      mapping (unifyFields as bs) (if s == t then s else none) := by
  rw [unify, if_pos]
  rw [Bool.and_eq_true, beq_iff_eq, List.all_eq_true]
  refine ⟨Fields.length_eq_of_has ha hb hnames, fun f hf => ?_⟩
  exact (hnames f.1).symm.trans (Fields.has_iff_mem_names.2 (List.mem_map_of_mem hf))

/-- Mappings join to a mapping when their names are the same, and to `any` otherwise. -/
theorem unify_mapping_cases {as : List (String × Ty)} (ha : (Fields.names as).Nodup)
    (bs : List (String × Ty)) (s t : Option String) :
    (mapping as s).unify (mapping bs t) = any ∨
      (∀ name, Fields.has as name = Fields.has bs name) ∧
        (mapping as s).unify (mapping bs t) =
          mapping (unifyFields as bs) (if s == t then s else none) := by
  rw [unify]
  split
  · rename_i hsame
    obtain ⟨hlength, hall⟩ := Bool.and_eq_true_iff.1 hsame
    have hnames := Fields.has_eq_of_length ha (eq_of_beq hlength) (List.all_eq_true.1 hall)
    exact .inr ⟨fun name => (hnames name).symm, rfl⟩
  · exact .inl rfl

theorem get?_unifyFields_of_get? {as bs : List (String × Ty)} {name : String}
    (ha : Fields.get? as name = some a) (hb : Fields.get? bs name = some b) :
    Fields.get? (unifyFields as bs) name = some (a.unify b) := by
  rw [get?_unifyFields, ha, hb]
  rfl

theorem below_unify_left (ha : a.Distinct) (b : Ty) : a.Below (a.unify b) := by
  induction ha generalizing b with
  | null => exact .null _
  | any =>
    rw [unify_any_left]
    exact .any _
  | bool => cases b <;> first | exact .bool | exact .any _
  | i64 => cases b <;> first | exact .i64 | exact .widened | exact .any _
  | f64 => cases b <;> first | exact .f64 | exact .any _
  | string => cases b <;> first | exact .string | exact .any _
  | list ha ih =>
    cases b with
    | list b => exact .list (ih b)
    | null => exact .refl (.list ha)
    | _ => exact .any _
  | @mapping as s hn ha ih =>
    cases b with
    | mapping bs t =>
      rcases unify_mapping_cases hn bs s t with hjoin | ⟨hnames, hjoin⟩
      · rw [hjoin]
        exact .any _
      · rw [hjoin]
        refine .mapping (fun name => (has_unifyFields as bs name).symm) ?_ fun name x z hx hz => ?_
        · split
          · exact .inl rfl
          · exact .inr rfl
        · obtain ⟨y, hy⟩ := Fields.exists_get? hnames hx
          cases (get?_unifyFields_of_get? hx hy).symm.trans hz
          exact ih _ (Fields.mem_of_get? hx) y
    | null => exact .refl (.mapping hn ha)
    | _ => exact .any _

theorem below_unify_right (ha : a.Distinct) (hb : b.Distinct) : b.Below (a.unify b) := by
  induction ha generalizing b with
  | null => exact .refl hb
  | any =>
    rw [unify_any_left]
    exact .any _
  | bool => cases b <;> first | exact .null _ | exact .bool | exact .any _
  | i64 => cases b <;> first | exact .null _ | exact .i64 | exact .f64 | exact .any _
  | f64 => cases b <;> first | exact .null _ | exact .f64 | exact .widened | exact .any _
  | string => cases b <;> first | exact .null _ | exact .string | exact .any _
  | list _ ih =>
    cases hb with
    | list hb => exact .list (ih hb)
    | null => exact .null _
    | _ => exact .any _
  | @mapping as s hn _ ih =>
    cases hb with
    | @mapping bs t hn' hb =>
      rcases unify_mapping_cases hn bs s t with hjoin | ⟨hnames, hjoin⟩
      · rw [hjoin]
        exact .any _
      · rw [hjoin]
        refine .mapping (fun name => ?_) ?_ fun name y z hy hz => ?_
        · rw [has_unifyFields, hnames]
        · split
          · exact .inl (eq_of_beq ‹_›).symm
          · exact .inr rfl
        · obtain ⟨x, hx⟩ := Fields.exists_get? (fun name => (hnames name).symm) hy
          cases (get?_unifyFields_of_get? hx hy).symm.trans hz
          exact ih _ (Fields.mem_of_get? hx) (hb _ (Fields.mem_of_get? hy))
    | null => exact .null _
    | _ => exact .any _

/-- What lies above both types lies above their join. -/
theorem Below.unify (hac : a.Below c) (hbc : b.Below c) (ha : a.Distinct) (hb : b.Distinct) :
    (a.unify b).Below c := by
  induction hac generalizing b with
  | null => exact hbc
  | any => exact .any _
  | bool => cases hbc <;> exact .bool
  | i64 => cases hbc <;> exact .i64
  | f64 => cases hbc <;> exact .f64
  | widened =>
    cases hbc with
    | null => exact .widened
    | f64 => exact .f64
    | widened => exact .widened
  | string => cases hbc <;> exact .string
  | list hac ih =>
    cases hbc with
    | null => exact .list hac
    | list hbc =>
      cases ha with
      | list ha =>
        cases hb with
        | list hb => exact .list (ih hbc ha hb)
  | @mapping as cs s u hnames hsource h ih =>
    cases hbc with
    | null => exact .mapping hnames hsource h
    | @mapping bs _ t _ hnames' hsource' h' =>
      cases ha with
      | mapping hn ha =>
        cases hb with
        | mapping hn' hb =>
          have hsame : ∀ name, Fields.has as name = Fields.has bs name :=
            fun name => (hnames name).trans (hnames' name).symm
          rw [unify_mapping hn hn' hsame]
          refine .mapping (fun name => (has_unifyFields as bs name).trans (hnames name)) ?_
            fun name w z hw hz => ?_
          · split
            · exact hsource
            -- of sources that differ, both lie below no other than `none`
            · rename_i hne
              rcases hsource with rfl | rfl
              · exact .inr (hsource'.resolve_left fun he => hne (by rw [he, beq_self_eq_true]))
              · exact .inl rfl
          · obtain ⟨x, hx⟩ := Fields.exists_get? (fun name => (hnames name).symm) hz
            obtain ⟨y, hy⟩ := Fields.exists_get? hsame hx
            cases (get?_unifyFields_of_get? hx hy).symm.trans hw
            exact ih name x z hx hz (h' name y z hy hz) (ha _ (Fields.mem_of_get? hx))
              (hb _ (Fields.mem_of_get? hy))

/-- The join is the least type above both. -/
theorem unify_below_iff (ha : a.Distinct) (hb : b.Distinct) :
    (a.unify b).Below c ↔ a.Below c ∧ b.Below c :=
  ⟨fun h => ⟨(below_unify_left ha b).trans h, (below_unify_right ha hb).trans h⟩,
    fun h => h.1.unify h.2 ha hb⟩

theorem unifyFields_eq_self {as bs : List (String × Ty)}
    (h : ∀ f ∈ as, f.2.unify ((Fields.get? bs f.1).getD .any) = f.2) : unifyFields as bs = as := by
  induction as with
  | nil => rfl
  | cons f rest ih =>
    obtain ⟨hf, hrest⟩ := List.forall_mem_cons.1 h
    rw [unifyFields, hf, ih hrest]

/-- What lies below a type adds nothing to it. -/
theorem unify_eq_left (hba : b.Below a) (ha : a.Distinct) (hb : b.Distinct) : a.unify b = a := by
  induction hba with
  | null => exact unify_null_right _
  | any => exact unify_any_left _
  | bool | i64 | f64 | widened | string => rfl
  | list _ ih =>
    cases ha with
    | list ha =>
      cases hb with
      | list hb => exact congrArg Ty.list (ih ha hb)
  | @mapping bs as t s hnames hsource _ ih =>
    cases ha with
    | mapping hn ha =>
      cases hb with
      | mapping hn' hb =>
        have hsame := fun name => (hnames name).symm
        rw [unify_mapping hn hn' hsame]
        congr 1
        · refine unifyFields_eq_self fun f hf => ?_
          have hx := Fields.get?_of_mem hn hf
          obtain ⟨y, hy⟩ := Fields.exists_get? hsame hx
          rw [hy, Option.getD_some]
          exact ih f.1 y f.2 hy hx (ha f hf) (hb _ (Fields.mem_of_get? hy))
        · rcases hsource with rfl | rfl
          · rw [beq_self_eq_true, if_pos rfl]
          · exact ite_self none

/-- Types that are the same join to the first of them as it stands. -/
theorem unify_of_same (ha : a.Distinct) (hb : b.Distinct) (h : a.same b = true) :
    a.unify b = a :=
  unify_eq_left ((same_iff_below ha hb).1 h).2 ha hb

theorem unify_same_comm (ha : a.Distinct) (hb : b.Distinct) :
    (a.unify b).same (b.unify a) = true := by
  refine (same_iff_bounds (ha.unify hb) (hb.unify ha)).2 fun c => ?_
  rw [unify_below_iff ha hb, unify_below_iff hb ha, and_comm]

theorem unify_same_assoc (ha : a.Distinct) (hb : b.Distinct) (hc : c.Distinct) :
    ((a.unify b).unify c).same (a.unify (b.unify c)) = true := by
  have hab := ha.unify hb
  have hbc := hb.unify hc
  refine (same_iff_bounds (hab.unify hc) (ha.unify hbc)).2 fun d => ?_
  rw [unify_below_iff hab hc, unify_below_iff ha hb, unify_below_iff ha hbc, unify_below_iff hb hc,
    and_assoc]

/-- The join is one of types up to the order of fields. -/
theorem unify_same_congr (ha : a.Distinct) (hb : b.Distinct) (hc : c.Distinct)
    (h : a.same b = true) : (a.unify c).same (b.unify c) = true := by
  refine (same_iff_bounds (ha.unify hc) (hb.unify hc)).2 fun d => ?_
  rw [unify_below_iff ha hc, unify_below_iff hb hc, (same_iff_bounds ha hb).1 h d]

end Ty

namespace Value

variable {items others : List Value} {c : Ty}

theorem meetAll_below_iff {found : Ty} (hf : found.Distinct) (h : ∀ v ∈ items, v.Distinct) :
    (meetAll found items).Below c ↔ found.Below c ∧ ∀ v ∈ items, v.ty.Below c := by
  induction items generalizing found with
  | nil => exact ⟨fun hc => ⟨hc, by simp⟩, And.left⟩
  | cons w rest ih =>
    obtain ⟨hw, hrest⟩ := List.forall_mem_cons.1 h
    have hwd := hw.inhabits_ty.2
    rw [meetAll, ih (hf.unify hwd) hrest, Ty.unify_below_iff hf hwd, List.forall_mem_cons, and_assoc]

/-- The elements of a list meet in the least type above theirs. -/
theorem itemTy?_below_iff (h : ∀ v ∈ items, v.Distinct) (hne : items ≠ []) :
    ((itemTy? items).getD .any).Below c ↔ ∀ v ∈ items, v.ty.Below c := by
  cases items with
  | nil => exact absurd rfl hne
  | cons w rest =>
    obtain ⟨hw, hrest⟩ := List.forall_mem_cons.1 h
    rw [itemTy?, Option.getD_some, meetAll_below_iff hw.inhabits_ty.2 hrest, List.forall_mem_cons]

theorem distinct_itemTy? (h : ∀ v ∈ items, v.Distinct) :
    ((itemTy? items).getD .any).Distinct := by
  cases (Distinct.list h).inhabits_ty.2 with
  | list hd => exact hd

theorem ty_below_itemTy? (h : ∀ v ∈ items, v.Distinct) {v : Value} (hv : v ∈ items) :
    v.ty.Below ((itemTy? items).getD .any) :=
  (itemTy?_below_iff h (List.ne_nil_of_mem hv)).1 (.refl (distinct_itemTy? h)) v hv

/-- The type in which elements meet does not depend on their order. -/
theorem itemTy?_same_of_perm (h : ∀ v ∈ items, v.Distinct) (horder : items.Perm others) :
    ((itemTy? items).getD .any).same ((itemTy? others).getD .any) = true := by
  have ho : ∀ v ∈ others, v.Distinct := fun v hv => h v (horder.mem_iff.2 hv)
  by_cases hne : items = []
  · subst hne
    cases horder.nil_eq
    rfl
  · have hne' : others ≠ [] := fun he => hne (he ▸ horder).eq_nil
    refine (Ty.same_iff_bounds (distinct_itemTy? h) (distinct_itemTy? ho)).2 fun c => ?_
    rw [itemTy?_below_iff h hne, itemTy?_below_iff ho hne']
    exact forall_congr' fun v => imp_congr horder.mem_iff .rfl

end Value

namespace Ty

variable {a b c : Ty}

/-- Types form a semilattice under their join, up to the order of fields, and the values of a type are
values of every type above it. A list gives its elements one type above theirs, and the same one in
whatever order they come. -/
theorem unify_semilattice (ha : a.Distinct) (hb : b.Distinct) (hc : c.Distinct)
    {items others : List Value} (hitems : ∀ v ∈ items, v.Distinct) (horder : items.Perm others) :
    a.unify a = a ∧
    (a.same b = true → a.unify b = a) ∧
    (a.same b = true → (a.unify c).same (b.unify c) = true) ∧
    (a.unify b).same (b.unify a) = true ∧
    ((a.unify b).unify c).same (a.unify (b.unify c)) = true ∧
    (null.unify a = a ∧ a.unify null = a) ∧
    (any.unify a = any ∧ a.unify any = any) ∧
    ((a.unify b).Below c ↔ a.Below c ∧ b.Below c) ∧
    (∀ v, a.Inhabits v ∨ b.Inhabits v → (a.unify b).Inhabits v) ∧
    ∃ item other, (Value.list items).ty = list item ∧ (Value.list others).ty = list other ∧
      item.same other = true ∧ ∀ v ∈ items, item.Inhabits v := by
  refine ⟨unify_eq_left (.refl ha) ha ha, unify_of_same ha hb, unify_same_congr ha hb hc,
    unify_same_comm ha hb, unify_same_assoc ha hb hc, ⟨rfl, unify_null_right a⟩,
    ⟨unify_any_left a, unify_any_right a⟩, unify_below_iff ha hb, ?_, _, _, rfl, rfl,
    Value.itemTy?_same_of_perm hitems horder, ?_⟩
  · rintro v (hv | hv)
    · exact hv.unify_left b
    · exact hv.unify_right ha
  · intro v hv
    exact (Value.ty_below_itemTy? hitems hv).inhabits (hitems v hv).inhabits_ty.1

/-- The type of an open account. -/
def openAccount (number owners : Ty) : Ty :=
  mapping [("number", number), ("owners", list owners)] (some "open")

/-- The type of a closed account, with its fields the other way round. -/
def closedAccount (number owners : Ty) : Ty :=
  mapping [("owners", list owners), ("number", number)] (some "closed")

theorem distinct_openAccount {number owners : Ty} (hn : number.Distinct) (ho : owners.Distinct) :
    (openAccount number owners).Distinct :=
  .mapping (by simp [Fields.names])
    (List.forall_mem_cons.2 ⟨hn, List.forall_mem_singleton.2 (.list ho)⟩)

theorem distinct_closedAccount {number owners : Ty} (hn : number.Distinct)
    (ho : owners.Distinct) : (closedAccount number owners).Distinct :=
  .mapping (by simp [Fields.names])
    (List.forall_mem_cons.2 ⟨.list ho, List.forall_mem_singleton.2 hn⟩)

/-- Lists of an integer and of a float, and null. -/
def readings : List Value := [.list [.int 1], .null, .list [.float ⟨0⟩]]

theorem distinct_readings : ∀ v ∈ readings, v.Distinct := by
  have hsingle : ∀ v : Value, v.Distinct → (Value.list [v]).Distinct := fun v hv =>
    .list (List.forall_mem_singleton.2 hv)
  exact List.forall_mem_cons.2 ⟨hsingle _ (.int 1), List.forall_mem_cons.2
    ⟨.null, List.forall_mem_singleton.2 (hsingle _ (.float ⟨0⟩))⟩⟩

/-- Mappings with their fields in different orders, and with sources that differ or are the same. -/
theorem accounts_unify_semilattice :
    (openAccount i64 null).Distinct ∧ (closedAccount f64 string).Distinct ∧
    (openAccount null any).Distinct ∧
    (∀ v ∈ readings, v.Distinct) ∧ readings.Perm readings.reverse ∧
    ((openAccount i64 null).unify (closedAccount f64 string)).same
      ((closedAccount f64 string).unify (openAccount i64 null)) = true ∧
    (((openAccount i64 null).unify (closedAccount f64 string)).unify (openAccount null any)).same
      ((openAccount i64 null).unify
        ((closedAccount f64 string).unify (openAccount null any))) = true ∧
    ∃ item other, (Value.list readings).ty = list item ∧
      (Value.list readings.reverse).ty = list other ∧ item.same other = true ∧
        ∀ v ∈ readings, item.Inhabits v := by
  have ha := distinct_openAccount .i64 .null
  have hb := distinct_closedAccount .f64 .string
  have hc := distinct_openAccount .null .any
  have horder := readings.reverse_perm.symm
  obtain ⟨-, -, -, hcomm, hassoc, -, -, -, -, hitem⟩ :=
    unify_semilattice ha hb hc distinct_readings horder
  exact ⟨ha, hb, hc, distinct_readings, horder, hcomm, hassoc, hitem⟩

end Ty

end QueryPushdown
