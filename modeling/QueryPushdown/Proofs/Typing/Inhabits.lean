import Mathlib.Data.List.Perm.Subperm
import QueryPushdown.Value.Basic

/-!
# Values of types

A value inhabits the types it may be given. The join of two types is inhabited by the values of
both, so every value inhabits the type it is found to have.
-/

namespace QueryPushdown

/-- The names of a mapping differ, at every depth of a type. -/
inductive Ty.Distinct : Ty → Prop
  | null : Distinct .null
  | bool : Distinct .bool
  | i64 : Distinct .i64
  | f64 : Distinct .f64
  | string : Distinct .string
  | any : Distinct .any
  | list {item : Ty} (h : Distinct item) : Distinct (.list item)
  | mapping {fields : List (String × Ty)} {source : Option String}
    (hn : (Fields.names fields).Nodup) (h : ∀ f ∈ fields, Distinct f.2) :
    Distinct (.mapping fields source)

/-- The names of a mapping differ, at every depth of a value. -/
inductive Value.Distinct : Value → Prop
  | null : Distinct .null
  | bool (b : Bool) : Distinct (.bool b)
  | int (i : Int64) : Distinct (.int i)
  | float (x : Binary64) : Distinct (.float x)
  | text (s : String) : Distinct (.text s)
  | list {items : List Value} (h : ∀ v ∈ items, Distinct v) : Distinct (.list items)
  | mapping {fields : List (String × Value)} (hn : (Fields.names fields).Nodup)
    (h : ∀ f ∈ fields, Distinct f.2) : Distinct (.mapping fields)

/-- A type is inhabited by null, by the values of its kind, an integer also being a float, and by
mappings that have exactly its fields. -/
inductive Ty.Inhabits : Ty → Value → Prop
  | null (ty : Ty) : Inhabits ty .null
  | any (v : Value) : Inhabits .any v
  | bool (b : Bool) : Inhabits .bool (.bool b)
  | int (i : Int64) : Inhabits .i64 (.int i)
  | widened (i : Int64) : Inhabits .f64 (.int i)
  | float (x : Binary64) : Inhabits .f64 (.float x)
  | text (s : String) : Inhabits .string (.text s)
  | list {item : Ty} {items : List Value} (h : ∀ v ∈ items, Inhabits item v) :
    Inhabits (.list item) (.list items)
  | mapping {tys : List (String × Ty)} {source : Option String} {fields : List (String × Value)}
    (hn : (Fields.names fields).Nodup)
    (hnames : ∀ name, Fields.has fields name = Fields.has tys name)
    (h : ∀ name v ty, Fields.get? fields name = some v → Fields.get? tys name = some ty →
      Inhabits ty v) :
    Inhabits (.mapping tys source) (.mapping fields)

/-- Distinct names, all of which occur in a list that is no longer, are its only names. -/
theorem Fields.has_eq_of_length {α β : Type} {a : Fields α} {b : Fields β}
    (hn : (names a).Nodup) (hlen : a.length = b.length) (hall : ∀ f ∈ a, has b f.1 = true)
    (name : String) : has b name = has a name := by
  have hsub : names a ⊆ names b := by
    intro n hm
    obtain ⟨f, hf, rfl⟩ := List.mem_map.1 hm
    exact has_iff_mem_names.1 (hall f hf)
  have hperm : (names a).Perm (names b) := by
    refine (List.subperm_of_subset hn hsub).perm_of_length_le ?_
    simp [names, hlen]
  rw [Bool.eq_iff_iff, has_iff_mem_names, has_iff_mem_names]
  exact hperm.symm.mem_iff

/-- Fields that two mappings with the same names have in common. -/
theorem Fields.exists_get? {α β : Type} {as : Fields α} {bs : Fields β}
    (h : ∀ name, has as name = has bs name) {name : String} {a : α} (ha : get? as name = some a) :
    ∃ b, get? bs name = some b := by
  refine Option.isSome_iff_exists.1 ?_
  have hname := h name
  rw [has, ha] at hname
  exact hname.symm

theorem Fields.length_eq_of_has {α β : Type} {as : Fields α} {bs : Fields β}
    (ha : (names as).Nodup) (hb : (names bs).Nodup) (h : ∀ name, has as name = has bs name) :
    as.length = bs.length := by
  have hmem : ∀ name, name ∈ names as ↔ name ∈ names bs := fun name => by
    rw [← has_iff_mem_names, ← has_iff_mem_names, h]
  have hperm := (List.perm_ext_iff_of_nodup ha hb).2 hmem
  simpa [names] using hperm.length_eq

namespace Ty

theorem unify_any_left (ty : Ty) : unify .any ty = .any := by cases ty <;> rfl

theorem names_unifyFields (a b : List (String × Ty)) :
    Fields.names (unifyFields a b) = Fields.names a := by
  induction a with
  | nil => rfl
  | cons f rest ih =>
    obtain ⟨name, t⟩ := f
    rw [unifyFields]
    exact congrArg (name :: ·) ih

theorem get?_unifyFields (a b : List (String × Ty)) (name : String) :
    Fields.get? (unifyFields a b) name =
      (Fields.get? a name).map fun t => t.unify ((Fields.get? b name).getD .any) := by
  induction a with
  | nil => rfl
  | cons f rest ih =>
    obtain ⟨n, t⟩ := f
    rw [unifyFields]
    by_cases h : n = name
    · subst h
      simp [Fields.get?]
    · simpa [Fields.get?, h] using ih

theorem has_unifyFields (a b : List (String × Ty)) (name : String) :
    Fields.has (unifyFields a b) name = Fields.has a name := by
  rw [Fields.has, get?_unifyFields, Option.isSome_map, Fields.has]

/-- The join of two types is inhabited by the values of the first. -/
theorem Inhabits.unify_left {a : Ty} {v : Value} (h : a.Inhabits v) (b : Ty) :
    (a.unify b).Inhabits v := by
  induction h generalizing b with
  | null ty => exact .null _
  | any v =>
    rw [unify_any_left]
    exact .any v
  | bool x => cases b <;> first | exact .bool x | exact .any _
  | int i => cases b <;> first | exact .int i | exact .widened i | exact .any _
  | widened i => cases b <;> first | exact .widened i | exact .any _
  | float x => cases b <;> first | exact .float x | exact .any _
  | text s => cases b <;> first | exact .text s | exact .any _
  | @list item items h ih =>
    cases b with
    | list b => exact .list fun v hv => ih v hv b
    | null => exact .list h
    | _ => exact .any _
  | @mapping tys source fields hn hnames h ih =>
    cases b with
    | mapping b source' =>
      rw [unify]
      split
      · refine .mapping hn (fun name => by rw [hnames, has_unifyFields]) fun name v ty hv hty => ?_
        rw [get?_unifyFields] at hty
        obtain ⟨t, ht, rfl⟩ := Option.map_eq_some_iff.1 hty
        exact ih name v t hv ht _
      · exact .any _
    | null => exact .mapping hn hnames h
    | _ => exact .any _

/-- The join of two types is inhabited by the values of the second. -/
theorem Inhabits.unify_right {b : Ty} {v : Value} (h : b.Inhabits v) {a : Ty} (ha : a.Distinct) :
    (a.unify b).Inhabits v := by
  induction h generalizing a with
  | null ty => exact .null _
  | any v => cases a <;> exact .any v
  | bool x => cases a <;> first | exact .bool x | exact .any _
  | int i => cases a <;> first | exact .int i | exact .widened i | exact .any _
  | widened i => cases a <;> first | exact .widened i | exact .any _
  | float x => cases a <;> first | exact .float x | exact .any _
  | text s => cases a <;> first | exact .text s | exact .any _
  | @list item items h ih =>
    cases ha with
    | list ha => exact .list fun v hv => ih v hv ha
    | null => exact .list h
    | _ => exact .any _
  | @mapping tys source fields hn hnames h ih =>
    cases ha with
    | @mapping a source' ha hd =>
      rw [unify]
      split
      · rename_i hsame
        rw [Bool.and_eq_true, beq_iff_eq] at hsame
        have hhas := Fields.has_eq_of_length ha hsame.1 (List.all_eq_true.1 hsame.2)
        refine .mapping hn (fun name => by rw [hnames, hhas, has_unifyFields]) ?_
        intro name v ty hv hty
        rw [get?_unifyFields] at hty
        obtain ⟨t, ht, rfl⟩ := Option.map_eq_some_iff.1 hty
        have hb : Fields.has tys name = true := by rw [hhas, Fields.has, ht, Option.isSome_some]
        obtain ⟨u, hu⟩ := Option.isSome_iff_exists.1 hb
        rw [hu, Option.getD_some]
        exact ih name v u hv hu (hd _ (Fields.mem_of_get? ht))
      · exact .any _
    | null => exact .mapping hn hnames h
    | _ => exact .any _

theorem Distinct.unify {a b : Ty} (ha : a.Distinct) (hb : b.Distinct) : (a.unify b).Distinct := by
  induction ha generalizing b with
  | null => exact hb
  | any =>
    rw [unify_any_left]
    exact .any
  | bool => cases b <;> constructor
  | i64 => cases b <;> constructor
  | f64 => cases b <;> constructor
  | string => cases b <;> constructor
  | @list item h ih =>
    cases hb with
    | list hb => exact .list (ih hb)
    | null => exact .list h
    | _ => exact .any
  | @mapping fields source hn h ih =>
    cases hb with
    | @mapping b source' hbn hb =>
      rw [Ty.unify]
      split
      · refine .mapping (by rwa [names_unifyFields]) fun f hf => ?_
        have hget := Fields.get?_of_mem (by rwa [names_unifyFields]) hf
        rw [get?_unifyFields] at hget
        obtain ⟨t, ht, hty⟩ := Option.map_eq_some_iff.1 hget
        rw [← hty]
        refine ih _ (Fields.mem_of_get? ht) ?_
        cases hu : Fields.get? b f.1 with
        | none => exact .any
        | some u => exact hb _ (Fields.mem_of_get? hu)
      · exact .any
    | null => exact .mapping hn h
    | _ => exact .any

end Ty

namespace Value

theorem meetAll_spec {items : List Value} {found : Ty} (hf : found.Distinct)
    (h : ∀ v ∈ items, v.ty.Inhabits v ∧ v.ty.Distinct) :
    (meetAll found items).Distinct ∧ (∀ u, found.Inhabits u → (meetAll found items).Inhabits u) ∧
      ∀ v ∈ items, (meetAll found items).Inhabits v := by
  induction items generalizing found with
  | nil => exact ⟨hf, fun u hu => hu, by simp⟩
  | cons w rest ih =>
    obtain ⟨hw, hwd⟩ := h w List.mem_cons_self
    obtain ⟨hd, hfound, hrest⟩ := ih (hf.unify hwd) fun v hv => h v (List.mem_cons_of_mem _ hv)
    rw [meetAll]
    refine ⟨hd, fun u hu => hfound u (hu.unify_left _), fun v hv => ?_⟩
    rcases List.mem_cons.1 hv with rfl | hv
    · exact hfound v (hw.unify_right hf)
    · exact hrest v hv

theorem get?_fieldTys (fields : List (String × Value)) (name : String) :
    Fields.get? (fieldTys fields) name = (Fields.get? fields name).map ty := by
  induction fields with
  | nil => rfl
  | cons f rest ih =>
    obtain ⟨n, v⟩ := f
    rw [fieldTys]
    by_cases h : n = name
    · simp [Fields.get?, h]
    · simpa [Fields.get?, h] using ih

theorem fieldTys_eq_map (fields : List (String × Value)) :
    fieldTys fields = fields.map fun f => (f.1, f.2.ty) := by
  induction fields with
  | nil => rfl
  | cons f rest ih => rw [fieldTys, ih, List.map_cons]

/-- A value inhabits the type it is found to have. -/
theorem Distinct.inhabits_ty {v : Value} (h : v.Distinct) : v.ty.Inhabits v ∧ v.ty.Distinct := by
  induction h with
  | null => exact ⟨.null _, .null⟩
  | bool b => exact ⟨.bool b, .bool⟩
  | int i => exact ⟨.int i, .i64⟩
  | float x => exact ⟨.float x, .f64⟩
  | text s => exact ⟨.text s, .string⟩
  | @list items h ih =>
    rw [ty]
    cases items with
    | nil => exact ⟨.list (fun v hv => by cases hv), .list .any⟩
    | cons w rest =>
      obtain ⟨hw, hwd⟩ := ih w List.mem_cons_self
      obtain ⟨hd, hfound, hrest⟩ := meetAll_spec hwd fun v hv => ih v (List.mem_cons_of_mem _ hv)
      rw [itemTy?, Option.getD_some]
      refine ⟨.list fun v hv => ?_, .list hd⟩
      rcases List.mem_cons.1 hv with rfl | hv
      · exact hfound v hw
      · exact hrest v hv
  | @mapping fields hn h ih =>
    rw [ty]
    constructor
    · refine .mapping hn (fun name => ?_) fun name v ty hv hty => ?_
      · rw [Fields.has, Fields.has, get?_fieldTys, Option.isSome_map]
      · rw [get?_fieldTys, hv, Option.map_some, Option.some.injEq] at hty
        exact hty ▸ (ih _ (Fields.mem_of_get? hv)).1
    · rw [fieldTys_eq_map]
      refine .mapping ?_ fun f hf => ?_
      · simpa [Fields.names, Function.comp_def] using hn
      · obtain ⟨g, hg, rfl⟩ := List.mem_map.1 hf
        exact (ih g hg).2

end Value

end QueryPushdown
