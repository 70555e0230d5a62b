import QueryPushdown.Proofs.Pairs
import QueryPushdown.Proofs.Value.Equality
import QueryPushdown.Store.Table

/-!
# Kept tables

Whatever is saved and deleted, a table keeps elements with exactly the fields of the collection, each
under the keys of its identity, and no two under one identity. So at most one element has given
values in its identity fields, and it is the one that a look-up finds.
-/

namespace QueryPushdown

theorem Value.field_mapping {fields : Fields Value} {name : String} {v : Value} :
    (mapping fields).field name = .ok v ↔ Fields.get? fields name = some v := by
  simp only [field]
  cases Fields.get? fields name <;> simp

theorem Fields.get?_map_names {α β : Type} (fields : Fields α) (g : String → β) {name : String}
    (h : Fields.has fields name = true) :
    Fields.get? (fields.map fun f => (f.1, g f.1)) name = some (g name) := by
  unfold Fields.has at h
  induction fields with
  | nil => cases h
  | cons f fields ih =>
    obtain ⟨n, a⟩ := f
    by_cases hn : n = name
    · simp [Fields.get?, hn]
    · simp only [Fields.get?, hn, if_false] at h
      simpa [Fields.get?, hn] using ih h

namespace Collection

/-- What is kept of an item: the fields of the collection in order, null where one is missing. -/
def elementOf (c : Collection) (item : Value) : Value :=
  .mapping (c.fields.map fun f => (f.1, (item.field f.1).toOption.getD .null))

theorem field_elementOf {c : Collection} {name : String} (h : Fields.has c.fields name = true)
    (item : Value) :
    (c.elementOf item).field name = .ok ((item.field name).toOption.getD .null) :=
  Value.field_mapping.2
    (Fields.get?_map_names c.fields (fun n => (item.field n).toOption.getD .null) h)

end Collection

namespace Store

/-- An element of a collection and the keys it is stored under. -/
structure Stored (c : Collection) (identity : Identity) (element : Value) : Prop where
  reads : ∀ name, Fields.has c.fields name = true → ∃ v, element.field name = .ok v
  distinct : element.DistinctFields
  keys : c.identity ≠ [] → List.Forall₂
    (fun name key => ∃ v, element.field name = .ok v ∧ v.key? = some key) c.identity identity

namespace Stored

variable {c : Collection} {identity keys : Identity} {element : Value} {values : List Value}

/-- An element that has certain values in its identity fields is stored under their keys. -/
theorem keys_eq (h : Stored c identity element) (hid : c.identity ≠ [])
    (hb : List.Forall₂ (fun name v => element.binds (name, v) = true) c.identity values)
    (hk : List.Forall₂ (fun v key => v.key? = some key) values keys) : identity = keys := by
  have hkeys : List.Forall₂ (fun name key => ∃ v, element.field name = .ok v ∧ v.key? = some key)
      c.identity keys := forall₂_trans (fun name v key hv hk => by
    obtain ⟨w, hw, hwv⟩ := Value.binds_iff.1 hv
    exact ⟨w, hw, (Value.key?_of_isEq hwv).trans hk⟩) hb hk
  refine List.right_unique_forall₂' ?_ (h.keys hid) hkeys
  rintro name k l ⟨v, hv, hvk⟩ ⟨w, hw, hwl⟩
  rw [hv] at hw
  cases hw
  exact Option.some.inj (hvk.symm.trans hwl)

/-- An element stored under the keys of certain values has them in its identity fields. -/
theorem binds (h : Stored c keys element) (hid : c.identity ≠ [])
    (hk : List.Forall₂ (fun v key => v.key? = some key) values keys) :
    List.Forall₂ (fun name v => element.binds (name, v) = true) c.identity values :=
  forall₂_trans (fun name key v hkey hv => by
    obtain ⟨w, hw, hwk⟩ := hkey
    exact Value.binds_iff.2 ⟨w, hw, Value.isEq_of_key? hwk hv⟩) (h.keys hid) hk.flip

end Stored

namespace Table

variable {t t' : Table} {item : Value} {identity : Identity} {d : Document}
  {rows : List (Identity × Document)}

/-- Tables that saving and deleting elements makes of an empty one. -/
inductive Kept : Table → Prop
  | empty (c : Collection) : Kept ⟨c, [], 0⟩
  | save {t t' : Table} {item : Value} (h : Kept t) (hitem : item.Distinct)
    (hs : t.save item = .ok t') : Kept t'
  | delete {t t' : Table} {item : Value} (h : Kept t) (hd : t.delete item = .ok t') : Kept t'

/-- What saving and deleting elements preserves. -/
structure Keyed (t : Table) : Prop where
  stored : ∀ row ∈ t.rows, ∃ element, row.2.toValue = .ok element ∧
    Stored t.collection row.1 element
  nodup : (t.rows.map Prod.fst).Nodup

theorem identityOf_eq_ok {values : List Value} : t.identityOf values = .ok identity ↔
    List.Forall₂ (fun v key => v.key? = some key) values identity := by
  rw [identityOf, Outcome.mapM_eq_ok]
  refine ⟨fun h => h.imp fun v key hk => ?_, fun h => h.imp fun v key hk => ?_⟩
  · split at hk
    · cases hk
      assumption
    · cases hk
  · rw [hk]

theorem put_eq (identity : Identity) (d : Document) (rows : List (Identity × Document)) :
    (put identity d rows).map Prod.fst =
      if identity ∈ rows.map Prod.fst then rows.map Prod.fst else rows.map Prod.fst ++ [identity] := by
  induction rows with
  | nil => rfl
  | cons row rows ih =>
    obtain ⟨i, e⟩ := row
    rw [put]
    by_cases h : i = identity
    · simp [h]
    · rw [if_neg h, List.map_cons, ih, List.map_cons]
      simp only [List.mem_cons, Ne.symm h, false_or]
      split <;> rfl

theorem nodup_put (identity : Identity) (d : Document) (h : (rows.map Prod.fst).Nodup) :
    ((put identity d rows).map Prod.fst).Nodup := by
  rw [put_eq]
  split
  · exact h
  · rename_i hnot
    exact List.nodup_append.2 ⟨h, List.pairwise_singleton _ _, fun i hi j hj he =>
      hnot (List.mem_singleton.1 hj ▸ he ▸ hi)⟩

theorem mem_of_mem_put {row : Identity × Document} (h : row ∈ put identity d rows) :
    row = (identity, d) ∨ row ∈ rows := by
  induction rows with
  | nil => exact .inl (List.mem_singleton.1 h)
  | cons first rows ih =>
    obtain ⟨i, e⟩ := first
    rw [put] at h
    split at h
    · rename_i hi
      subst hi
      exact (List.mem_cons.1 h).imp_right (List.mem_cons_of_mem _)
    · rcases List.mem_cons.1 h with rfl | h
      · exact .inr List.mem_cons_self
      · exact (ih h).imp_right (List.mem_cons_of_mem _)

theorem drop_sublist (identity : Identity) (rows : List (Identity × Document)) :
    (drop identity rows).Sublist rows := by
  induction rows with
  | nil => exact .slnil
  | cons row rows ih =>
    obtain ⟨i, e⟩ := row
    rw [drop]
    split
    · exact List.sublist_cons_self _ _
    · exact ih.cons_cons _

theorem dropEqual_sublist {kept : List (Identity × Document)} (h : dropEqual item rows = .ok kept) :
    kept.Sublist rows := by
  induction rows generalizing kept with
  | nil =>
    cases h
    exact .slnil
  | cons row rows ih =>
    obtain ⟨i, e⟩ := row
    rw [dropEqual] at h
    obtain ⟨v, -, h⟩ := Outcome.bind_eq_ok.1 h
    split at h
    · cases h
      exact List.sublist_cons_self _ _
    · obtain ⟨rest, hrest, h⟩ := Outcome.bind_eq_ok.1 h
      cases h
      exact (ih hrest).cons_cons _

theorem Keyed.fewer (h : t.Keyed) {kept : List (Identity × Document)} (hk : kept.Sublist t.rows) :
    Keyed { t with rows := kept } where
  stored row hrow := h.stored row (hk.subset hrow)
  nodup := (hk.map Prod.fst).nodup h.nodup

theorem Keyed.more (h : t.Keyed) {element : Value} (hd : d.toValue = .ok element)
    (hs : Stored t.collection identity element) (numbered : Nat) :
    Keyed { t with rows := put identity d t.rows, numbered := numbered } where
  stored row hrow := by
    rcases mem_of_mem_put hrow with rfl | hrow
    · exact ⟨element, hd, hs⟩
    · exact h.stored row hrow
  nodup := nodup_put identity d h.nodup

theorem Keyed.delete (h : t.Keyed) (hd : t.delete item = .ok t') : t'.Keyed := by
  obtain ⟨found, -, hd⟩ := Outcome.bind_eq_ok.1 hd
  cases found with
  | some identity =>
    cases hd
    exact h.fewer (drop_sublist identity t.rows)
  | none =>
    obtain ⟨kept, hkept, hd⟩ := Outcome.bind_eq_ok.1 hd
    cases hd
    exact h.fewer (dropEqual_sublist hkept)

theorem ofFields_map_names {α : Type} (fields : Fields α) (g : String → Value) :
    Bson.ofFields (fields.map fun f => (f.1, g f.1)) =
      fields.map fun f => (f.1, Bson.ofValue (g f.1)) := by
  induction fields with
  | nil => rfl
  | cons f fields ih => rw [List.map_cons, List.map_cons, Bson.ofFields, ih]

/-- The document of an item reads back as what the collection keeps of it. -/
theorem toValue_documentOf (h : t.documentOf item = .ok d) :
    d.toValue = .ok (t.collection.elementOf item) := by
  unfold documentOf at h
  split at h
  · rename_i fields
    split at h
    · cases h
    · cases h
      have hread : ∀ name, (Fields.get? fields name).getD .null =
          ((Value.mapping fields).field name).toOption.getD .null := by
        intro name
        rw [Value.field]
        cases Fields.get? fields name <;> rfl
      simp only [hread]
      have hdocument : Document.toValue (Bson.ofFields (t.collection.fields.map fun f =>
          (f.1, ((Value.mapping fields).field f.1).toOption.getD .null))) =
          .ok (t.collection.elementOf (.mapping fields)) := by
        rw [Document.toValue, Bson.toValue, Bson.toFields_ofFields]
        rfl
      rw [ofFields_map_names t.collection.fields
        fun name => ((Value.mapping fields).field name).toOption.getD .null] at hdocument
      exact hdocument
  · cases h

/-- An item that has a document has no fields but those of the collection. -/
theorem has_of_documentOf (h : t.documentOf item = .ok d) {name : String} {v : Value}
    (hv : item.field name = .ok v) : Fields.has t.collection.fields name = true := by
  unfold documentOf at h
  split at h
  · split at h
    · cases h
    · rename_i hknown
      have hget := Value.field_mapping.1 hv
      simpa using List.find?_eq_none.1 hknown _ (Fields.mem_of_get? hget)
  · cases h

theorem field_of_documentOf (h : t.documentOf item = .ok d) {name : String} {v : Value}
    (hv : item.field name = .ok v) : (t.collection.elementOf item).field name = .ok v := by
  rw [Collection.field_elementOf (has_of_documentOf h hv), hv]
  rfl

/-- The document of an element reads back as the element, null standing in for absent fields. -/
theorem documentOf_eq_ok (h : t.documentOf item = .ok d) (hitem : item.Distinct) :
    ∃ element, d.toValue = .ok element ∧ element.DistinctFields ∧
      (∀ name, Fields.has t.collection.fields name = true → ∃ v, element.field name = .ok v) ∧
      ∀ name v, item.field name = .ok v → element.field name = .ok v := by
  refine ⟨t.collection.elementOf item, toValue_documentOf h, ?_,
    fun name hname => ⟨_, Collection.field_elementOf hname item⟩,
    fun name v hv => field_of_documentOf h hv⟩
  intro name w hw
  obtain ⟨f, -, hf⟩ := List.mem_map.1 (Fields.mem_of_get? (Value.field_mapping.1 hw))
  cases hf
  cases hitem with
  | mapping hn hfields =>
    rename_i fields
    rw [Value.field]
    cases hget : Fields.get? fields f.1 with
    | none => exact .null
    | some v => exact hfields _ (Fields.mem_of_get? hget)
  | _ => exact .null

theorem Keyed.save (h : t.Keyed) (hitem : item.Distinct) (hs : t.save item = .ok t') : t'.Keyed := by
  obtain ⟨found, hfound, hs⟩ := Outcome.bind_eq_ok.1 hs
  unfold identity? at hfound
  split at hfound
  · rename_i hnone
    cases hfound
    obtain ⟨d, hd, hs⟩ := Outcome.bind_eq_ok.1 hs
    cases hs
    obtain ⟨element, hvalue, hdistinct, hreads, -⟩ := documentOf_eq_ok hd hitem
    exact h.more hvalue ⟨hreads, hdistinct, fun hne => absurd (List.isEmpty_iff.1 hnone) hne⟩ _
  · obtain ⟨values, hvalues, hfound⟩ := Outcome.bind_eq_ok.1 hfound
    obtain ⟨identity, hidentity, hfound⟩ := Outcome.bind_eq_ok.1 hfound
    cases hfound
    obtain ⟨d, hd, hs⟩ := Outcome.bind_eq_ok.1 hs
    cases hs
    obtain ⟨element, hvalue, hdistinct, hreads, hsame⟩ := documentOf_eq_ok hd hitem
    refine h.more hvalue ⟨hreads, hdistinct, fun _ => ?_⟩ _
    exact forall₂_trans (fun name v key hv hk => ⟨v, hsame name v hv, hk⟩)
      (Outcome.mapM_eq_ok.1 hvalues) (identityOf_eq_ok.1 hidentity)

/-- Saving and deleting elements leads to no table but keyed ones. -/
theorem Kept.keyed (h : Kept t) : t.Keyed := by
  induction h with
  | empty c => exact ⟨fun _ h => (by cases h), List.Pairwise.nil⟩
  | save _ hitem hs ih => exact ih.save hitem hs
  | delete _ hd ih => exact ih.delete hd

section Find

variable {values : List Value} {elements : List Value} {found : Option Value} {element : Value}

theorem row?_cons (identity i : Identity) (d : Document) :
    row? ((i, d) :: rows) identity = if identity = i then some d else row? rows identity := by
  rw [row?, row?, List.lookup_cons]
  by_cases h : identity = i
  · rw [if_pos h, beq_iff_eq.2 h]
  · rw [if_neg h, beq_false_of_ne h]

theorem mem_of_row? (h : row? rows identity = some d) : (identity, d) ∈ rows := by
  induction rows with
  | nil => cases h
  | cons row rows ih =>
    obtain ⟨i, e⟩ := row
    rw [row?_cons] at h
    split at h
    · rename_i hi
      cases h
      exact hi ▸ List.mem_cons_self
    · exact List.mem_cons_of_mem _ (ih h)

/-- Of the elements of rows with different identities, at most the one with given keys passes a test
that asks for these keys. -/
theorem filter_rows (keys : Identity) {test : Value → Bool}
    (h : List.Forall₂ (fun row v => row.2.toValue = .ok v) rows elements)
    (hn : (rows.map Prod.fst).Nodup)
    (htest : ∀ row ∈ rows, ∀ v, row.2.toValue = .ok v → test v = true → row.1 = keys) :
    elements.filter test = match row? rows keys with
      | some d => d.toValue.toOption.toList.filter test
      | none => [] := by
  induction h with
  | nil => rfl
  | @cons row v rows vs hv hrest ih =>
    obtain ⟨i, d⟩ := row
    obtain ⟨hi, hn⟩ := List.nodup_cons.1 hn
    obtain ⟨hfirst, htest⟩ := List.forall_mem_cons.1 htest
    rw [row?_cons]
    by_cases hk : keys = i
    · have hothers : vs.filter test = [] := by
        rw [ih hn htest]
        cases hrow : row? rows keys with
        | none => rfl
        | some e => exact absurd (List.mem_map_of_mem (mem_of_row? hrow)) (hk ▸ hi)
      rw [if_pos hk, List.filter_cons, hothers]
      simp only [hv, Except.toOption, Option.toList_some, List.filter_cons, List.filter_nil]
    · have hnot : ¬test v = true := fun ht => hk (hfirst v hv ht).symm
      rw [if_neg hk, List.filter_cons_of_neg hnot, ih hn htest]

theorem rows_of_all (h : t.all = .ok elements) :
    List.Forall₂ (fun row v => row.2.toValue = .ok v) t.rows elements := by
  rw [all, Outcome.mapM_eq_ok, documents, List.forall₂_map_left_iff] at h
  exact h

theorem find_eq_ok (h : t.find values = .ok found) : ∃ keys,
    List.Forall₂ (fun v key => v.key? = some key) values keys ∧
      ((row? t.rows keys = none ∧ found = none) ∨
        ∃ d element, row? t.rows keys = some d ∧ d.toValue = .ok element ∧ found = some element) := by
  obtain ⟨keys, hkeys, h⟩ := Outcome.bind_eq_ok.1 h
  refine ⟨keys, identityOf_eq_ok.1 hkeys, ?_⟩
  cases hrow : row? t.rows keys with
  | none =>
    simp only [hrow] at h
    cases h
    exact .inl ⟨rfl, rfl⟩
  | some d =>
    simp only [hrow] at h
    obtain ⟨element, helement, h⟩ := Outcome.bind_eq_ok.1 h
    cases h
    exact .inr ⟨d, element, rfl, helement, rfl⟩

theorem Keyed.all_eq_ok (h : t.Keyed) : ∃ elements, t.all = .ok elements := by
  have hrows : ∃ elements, List.Forall₂ (fun row v => row.2.toValue = .ok v) t.rows elements := by
    have hstored := h.stored
    generalize t.rows = rows at hstored
    induction rows with
    | nil => exact ⟨[], .nil⟩
    | cons row rows ih =>
      obtain ⟨⟨v, hv, -⟩, hrest⟩ := List.forall_mem_cons.1 hstored
      obtain ⟨vs, hvs⟩ := ih hrest
      exact ⟨v :: vs, .cons hv hvs⟩
  obtain ⟨elements, helements⟩ := hrows
  exact ⟨elements, Outcome.mapM_eq_ok.2 (List.forall₂_map_left_iff.2 helements)⟩

theorem Keyed.distinct_of_mem (h : t.Keyed) (hall : t.all = .ok elements) (he : element ∈ elements) :
    element.DistinctFields := by
  obtain ⟨row, hrow, hvalue⟩ := exists_of_mem_left (rows_of_all hall).flip he
  obtain ⟨v, hv, hstored⟩ := h.stored row hrow
  rw [hvalue] at hv
  cases hv
  exact hstored.distinct

theorem exists_keys (hk : ∀ v ∈ values, ∃ key, v.key? = some key) :
    ∃ keys, List.Forall₂ (fun v key => v.key? = some key) values keys := by
  induction values with
  | nil => exact ⟨[], .nil⟩
  | cons v values ih =>
    obtain ⟨⟨key, hv⟩, hrest⟩ := List.forall_mem_cons.1 hk
    obtain ⟨keys, hkeys⟩ := ih hrest
    exact ⟨key :: keys, .cons hv hkeys⟩

/-- Values that have keys can be looked up. -/
theorem Keyed.find_of_keys (h : t.Keyed) (hk : ∀ v ∈ values, ∃ key, v.key? = some key) :
    ∃ found, t.find values = .ok found := by
  obtain ⟨keys, hkeys⟩ := exists_keys hk
  rw [find, identityOf_eq_ok.2 hkeys]
  cases hrow : row? t.rows keys with
  | none => exact ⟨none, by simp only [bind, Except.bind, hrow]; rfl⟩
  | some d =>
    obtain ⟨element, helement, -⟩ := h.stored _ (mem_of_row? hrow)
    exact ⟨some element, by simp only [bind, Except.bind, hrow, helement]; rfl⟩

/-- Of all elements, at most the one that a look-up finds passes a test that asks for the values that
were looked up. -/
theorem Keyed.filter_eq {test : Value → Bool} (h : t.Keyed) (hid : t.collection.identity ≠ [])
    (hall : t.all = .ok elements) (hfound : t.find values = .ok found)
    (htest : ∀ element, element.DistinctFields → test element = true →
      List.Forall₂ (fun name v => element.binds (name, v) = true) t.collection.identity values) :
    elements.filter test = found.toList.filter test := by
  obtain ⟨keys, hkeys, hrow⟩ := find_eq_ok hfound
  rw [filter_rows keys (rows_of_all hall) h.nodup fun row hrow v hv ht => ?_]
  · rcases hrow with ⟨hrow, rfl⟩ | ⟨d, element, hrow, helement, rfl⟩
    · rw [hrow]
      rfl
    · rw [hrow]
      simp only [helement, Except.toOption]
  · obtain ⟨element, helement, hstored⟩ := h.stored row hrow
    rw [hv] at helement
    cases helement
    exact hstored.keys_eq hid (htest v hstored.distinct ht) hkeys

/-- What a look-up finds is an element that has the values that were looked up. -/
theorem Keyed.of_find (h : t.Keyed) (hid : t.collection.identity ≠ [])
    (hall : t.all = .ok elements) (hfound : t.find values = .ok (some element)) :
    element ∈ elements ∧ (∃ identity, Stored t.collection identity element) ∧
      List.Forall₂ (fun name v => element.binds (name, v) = true) t.collection.identity values := by
  obtain ⟨keys, hkeys, ⟨-, hnone⟩ | ⟨d, element', hrow, helement, hsome⟩⟩ := find_eq_ok hfound
  · cases hnone
  · cases hsome
    have hmem := mem_of_row? hrow
    obtain ⟨element', helement', hstored⟩ := h.stored _ hmem
    rw [helement] at helement'
    cases helement'
    obtain ⟨v, hv, hvalue⟩ := exists_of_mem_left (rows_of_all hall) hmem
    rw [helement] at hvalue
    cases hvalue
    exact ⟨hv, ⟨keys, hstored⟩, hstored.binds hid hkeys⟩

end Find

end Table

end Store

end QueryPushdown
