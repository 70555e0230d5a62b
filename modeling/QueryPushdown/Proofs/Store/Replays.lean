import QueryPushdown.Proofs.Store.Tables
import QueryPushdown.Store.Catalog

/-!
# Tables as lists of elements

A table answers as a plain list would on which the successful calls were made one after the other:
a save puts its element in the place of the one with its identity, or at the end, and a delete takes
one element out. Each element of the list stands in the row under the keys of its identity, so no
two elements have one identity and a look-up finds the only one that has the values looked up.
-/

namespace QueryPushdown

namespace Collection

/-- Whether the identity fields of an element equal those of an item. -/
def identifies (c : Collection) (item element : Value) : Bool :=
  c.identity.all fun name =>
    match element.field name, item.field name with
    | .ok v, .ok w => v.isEq w
    | _, _ => false

/-- What a call makes of the list of elements. -/
def replay (c : Collection) (elements : List Value) : Store.Call → List Value
  | .save item =>
    if c.identity.isEmpty then elements ++ [c.elementOf item]
    else Store.Listing.put (c.identifies item) (c.elementOf item) elements
  | .delete item =>
    if c.identity.isEmpty then elements.eraseP (·.isEq item)
    else elements.eraseP (c.identifies item)

end Collection

namespace Store

namespace Table

/-- What a look-up gives. -/
def lookup (t : Table) (values : List Value) : Outcome (Option Value) := do
  t.checkWidth values
  t.find values

/-- Makes calls one after the other, up to a crash. Gives the successful ones and the table they
lead to. -/
def run (t : Table) : List Call → List Call × Table
  | [] => ([], t)
  | call :: rest =>
    match t.perform call with
    | (.ok (), t') => (call :: (run t' rest).1, (run t' rest).2)
    | (.error e, t') => if e.kind = .crashed then ([], t') else run t' rest

/-- The identity fields of a value have these keys. -/
def HasKeys (names : List String) (keys : Identity) (v : Value) : Prop :=
  List.Forall₂ (fun name key => ∃ w, v.field name = .ok w ∧ w.key? = some key) names keys

section Keys

variable {c : Collection} {names : List String} {keys keys' : Identity} {element item : Value}
  {values : List Value}

/-- Values that have keys are equal exactly if the keys are. -/
theorem key_eq_iff {v w : Value} {key key' : Key} (hv : v.key? = some key)
    (hw : w.key? = some key') : key = key' ↔ v.isEq w = true := by
  constructor
  · rintro rfl
    exact Value.isEq_of_key? hv hw
  · intro heq
    exact Option.some.inj (hv.symm.trans ((Value.key?_of_isEq heq).trans hw))

/-- Identity fields are equal exactly if they have the same keys. -/
theorem HasKeys.eq_iff (h : HasKeys c.identity keys element) (h' : HasKeys c.identity keys' item) :
    keys = keys' ↔ c.identifies item element = true := by
  unfold Collection.identifies
  generalize c.identity = names at h h'
  induction h generalizing keys' with
  | nil =>
    cases h'
    exact ⟨fun _ => rfl, fun _ => rfl⟩
  | @cons name key names keys hkey hkeys ih =>
    cases h' with
    | @cons _ key' _ keys' hkey' hkeys' =>
      obtain ⟨v, hv, hk⟩ := hkey
      obtain ⟨w, hw, hk'⟩ := hkey'
      rw [List.all_cons, Bool.and_eq_true, ← ih hkeys', List.cons.injEq]
      refine and_congr_left fun _ => ?_
      simp only [hv, hw]
      exact key_eq_iff hk hk'

/-- Identity fields equal values exactly if they have the keys of the values. -/
theorem HasKeys.eq_iff_values (h : HasKeys names keys element)
    (hv : List.Forall₂ (fun v key => v.key? = some key) values keys')
    (hlength : values.length = names.length) :
    keys = keys' ↔ Listing.identifies names values element = true := by
  unfold Listing.identifies
  induction h generalizing values keys' with
  | nil =>
    cases hv with
    | nil => exact ⟨fun _ => rfl, fun _ => rfl⟩
    | cons => cases hlength
  | @cons name key names keys hkey hkeys ih =>
    cases hv with
    | nil => cases hlength
    | @cons w key' values keys' hk' hvalues =>
      obtain ⟨v, hv, hk⟩ := hkey
      rw [List.zip_cons_cons, List.all_cons, Bool.and_eq_true,
        ← ih hvalues (Nat.succ.inj hlength), List.cons.injEq]
      refine and_congr_left fun _ => ?_
      simp only [hv]
      exact key_eq_iff hk hk'

theorem hasKeys_of_identity? {t : Table} {found : Option Identity}
    (hid : t.collection.identity ≠ []) (h : t.identity? item = .ok found) :
    ∃ keys, found = some keys ∧ HasKeys t.collection.identity keys item := by
  unfold identity? at h
  split at h
  · rename_i hempty
    exact absurd (List.isEmpty_iff.1 hempty) hid
  · obtain ⟨values, hvalues, h⟩ := Outcome.bind_eq_ok.1 h
    obtain ⟨keys, hkeys, h⟩ := Outcome.bind_eq_ok.1 h
    cases h
    exact ⟨keys, rfl, forall₂_trans (fun name v key hv hk => ⟨v, hv, hk⟩)
      (Outcome.mapM_eq_ok.1 hvalues) (identityOf_eq_ok.1 hkeys)⟩

end Keys

section Rows

variable {P : Identity × Document → Value → Prop} {rows : List (Identity × Document)}
  {elements : List Value} {keys : Identity} {d : Document} {test : Value → Bool}
  {element item : Value}

/-- Putting a row puts its element if the test asks for the keys. -/
theorem forall₂_put (hnew : P (keys, d) element) (h : List.Forall₂ P rows elements)
    (htest : ∀ row v, P row v → (row.1 = keys ↔ test v = true)) :
    List.Forall₂ P (put keys d rows) (Listing.put test element elements) := by
  induction h with
  | nil => exact .cons hnew .nil
  | @cons row v rows elements hrow hrest ih =>
    obtain ⟨i, e⟩ := row
    rw [put, Listing.put]
    by_cases hi : i = keys
    · rw [if_pos hi, if_pos ((htest _ _ hrow).1 hi), hi]
      exact .cons hnew hrest
    · rw [if_neg hi, if_neg fun ht => hi ((htest _ _ hrow).2 ht)]
      exact .cons hrow ih

/-- Dropping a row drops its element if the test asks for the keys. -/
theorem forall₂_drop (h : List.Forall₂ P rows elements)
    (htest : ∀ row v, P row v → (row.1 = keys ↔ test v = true)) :
    List.Forall₂ P (drop keys rows) (elements.eraseP test) := by
  induction h with
  | nil => exact .nil
  | @cons row v rows elements hrow hrest ih =>
    obtain ⟨i, e⟩ := row
    rw [drop]
    by_cases hi : i = keys
    · rw [if_pos hi, List.eraseP_cons_of_pos ((htest _ _ hrow).1 hi)]
      exact hrest
    · rw [if_neg hi, List.eraseP_cons_of_neg fun ht => hi ((htest _ _ hrow).2 ht)]
      exact .cons hrow ih

/-- Dropping the first row equal to an item drops the first such element. -/
theorem forall₂_dropEqual (h : List.Forall₂ P rows elements)
    (hvalue : ∀ row v, P row v → row.2.toValue = .ok v) {kept : List (Identity × Document)}
    (hkept : dropEqual item rows = .ok kept) :
    List.Forall₂ P kept (elements.eraseP (·.isEq item)) := by
  induction h generalizing kept with
  | nil =>
    cases hkept
    exact .nil
  | @cons row v rows elements hrow hrest ih =>
    obtain ⟨i, e⟩ := row
    rw [dropEqual, hvalue _ _ hrow] at hkept
    change (if v.isEq item = true then _ else _) = _ at hkept
    split at hkept
    · rename_i heq
      cases hkept
      rw [List.eraseP_cons, heq, cond_true]
      exact hrest
    · rename_i hne
      obtain ⟨others, hothers, hkept⟩ := Outcome.bind_eq_ok.1 hkept
      cases hkept
      rw [List.eraseP_cons, eq_false_of_ne_true hne, cond_false]
      exact .cons hrow (ih hothers)

theorem put_of_not_mem (h : keys ∉ rows.map Prod.fst) : put keys d rows = rows ++ [(keys, d)] := by
  induction rows with
  | nil => rfl
  | cons row rows ih =>
    obtain ⟨i, e⟩ := row
    rw [List.map_cons, List.mem_cons, not_or] at h
    rw [put, if_neg (Ne.symm h.1), ih h.2, List.cons_append]

theorem forall₂_pairwise {Q : Value → Value → Prop} (h : List.Forall₂ P rows elements)
    (hn : (rows.map Prod.fst).Nodup)
    (hQ : ∀ row v row' v', P row v → P row' v' → row.1 ≠ row'.1 → Q v v') :
    elements.Pairwise Q := by
  induction h with
  | nil => exact .nil
  | @cons row v rows elements hrow hrest ih =>
    obtain ⟨hfirst, hn⟩ := List.nodup_cons.1 hn
    refine .cons (fun w hw => ?_) (ih hn)
    obtain ⟨row', hrow', hw⟩ := exists_of_mem_left hrest.flip hw
    exact hQ _ _ _ _ hrow hw fun he => hfirst (he ▸ List.mem_map_of_mem hrow')

end Rows

/-- A row holds an element under the keys of its identity. -/
structure HoldsRow (c : Collection) (row : Identity × Document) (element : Value) : Prop where
  value : row.2.toValue = .ok element
  keys : c.identity ≠ [] → HasKeys c.identity row.1 element

/-- The rows of a table hold these elements, in order and each under keys of its own. Without an
identity the keys are the numbers given so far. -/
structure Holds (t : Table) (elements : List Value) : Prop where
  rows : List.Forall₂ (HoldsRow t.collection) t.rows elements
  nodup : (t.rows.map Prod.fst).Nodup
  numbered : t.numbered < 2 ^ 63
  numbers : t.collection.identity = [] →
    ∀ row ∈ t.rows, ∃ n ≤ t.numbered, row.1 = [.int (Int64.ofNat n)]

variable {t t' : Table} {elements : List Value} {call : Call} {c : Collection}

theorem holds_empty (c : Collection) : Holds ⟨c, [], 0⟩ [] where
  rows := .nil
  nodup := .nil
  numbered := Nat.pow_pos Nat.zero_lt_two
  numbers _ _ h := by cases h

theorem numbered_le_after (t : Table) (call : Call) : t.numbered ≤ t.numberedAfter call := by
  cases call with
  | save item =>
    rw [numberedAfter]
    split
    · exact Nat.le_succ _
    · exact Nat.le_refl _
  | delete item => exact Nat.le_refl _

theorem perform_eq_ok (h : t.perform call = (.ok (), t')) :
    t.numberedAfter call < 2 ^ 63 ∧ t.change call = .ok t' := by
  unfold perform at h
  split at h
  · cases h
  · rename_i hroom
    split at h
    · rename_i changed hchange
      cases h
      exact ⟨Nat.lt_of_not_le hroom, hchange⟩
    · cases h

/-- A call that fails leaves the rows as they are. -/
theorem perform_eq_error {e : Error} (h : t.perform call = (.error e, t')) :
    ∃ n, t' = { t with numbered := n } ∧
      (n = t.numbered ∨ n = t.numberedAfter call ∧ n < 2 ^ 63) := by
  unfold perform at h
  split at h
  · cases h
    exact ⟨_, rfl, .inl rfl⟩
  · rename_i hroom
    split at h
    · cases h
    · cases h
      exact ⟨_, rfl, .inr ⟨rfl, Nat.lt_of_not_le hroom⟩⟩

theorem collection_of_change (h : t.change call = .ok t') : t'.collection = t.collection := by
  cases call with
  | save item =>
    obtain ⟨found, -, h⟩ := Outcome.bind_eq_ok.1 h
    cases found with
    | some keys | none =>
      obtain ⟨d, -, h⟩ := Outcome.bind_eq_ok.1 h
      cases h
      rfl
  | delete item =>
    obtain ⟨found, -, h⟩ := Outcome.bind_eq_ok.1 h
    cases found with
    | some keys =>
      cases h
      rfl
    | none =>
      obtain ⟨kept, -, h⟩ := Outcome.bind_eq_ok.1 h
      cases h
      rfl

section

variable (h : t.Holds elements)
include h

theorem Holds.failed {e : Error} (hp : t.perform call = (.error e, t')) : t'.Holds elements := by
  obtain ⟨n, rfl, hn⟩ := perform_eq_error hp
  have hle : t.numbered ≤ n := by
    rcases hn with rfl | ⟨rfl, -⟩
    · exact Nat.le_refl _
    · exact numbered_le_after t call
  refine ⟨h.rows, h.nodup, ?_, fun hid row hrow => ?_⟩
  · rcases hn with rfl | ⟨-, hlt⟩
    · exact h.numbered
    · exact hlt
  · obtain ⟨m, hm, hrow⟩ := h.numbers hid row hrow
    exact ⟨m, Nat.le_trans hm hle, hrow⟩

/-- A save in a collection with an identity puts its element in the list. -/
theorem Holds.save_identified {item : Value} {keys : Identity} {d : Document}
    (hkeys : HasKeys t.collection.identity keys item) (hid : t.collection.identity ≠ [])
    (hd : t.documentOf item = .ok d) : Holds { t with rows := put keys d t.rows }
      (Listing.put (t.collection.identifies item) (t.collection.elementOf item) elements) where
  rows := by
    refine forall₂_put ⟨toValue_documentOf hd, fun _ => hkeys.imp ?_⟩ h.rows
      fun row v hrow => (hrow.keys hid).eq_iff hkeys
    rintro name key ⟨w, hw, hk⟩
    exact ⟨w, field_of_documentOf hd hw, hk⟩
  nodup := nodup_put keys d h.nodup
  numbered := h.numbered
  numbers hnone := absurd hnone hid

/-- A save in a collection without an identity appends its element. -/
theorem Holds.save_numbered {item : Value} {d : Document} (hid : t.collection.identity = [])
    (hroom : t.numbered + 1 < 2 ^ 63) (hd : t.documentOf item = .ok d) :
    Holds { t with
      rows := put [.int (Int64.ofNat (t.numbered + 1))] d t.rows
      numbered := t.numbered + 1 } (elements ++ [t.collection.elementOf item]) := by
  have hfresh : ([.int (Int64.ofNat (t.numbered + 1))] : Identity) ∉ t.rows.map Prod.fst := by
    intro hmem
    obtain ⟨row, hrow, heq⟩ := List.mem_map.1 hmem
    obtain ⟨n, hn, hkeys⟩ := h.numbers hid row hrow
    rw [hkeys] at heq
    have hint := congrArg Int64.toInt (Key.int.inj (List.cons.inj heq).1)
    rw [Int64.toInt_ofNat_of_lt (by omega), Int64.toInt_ofNat_of_lt hroom] at hint
    omega
  refine ⟨?_, nodup_put _ d h.nodup, hroom, fun _ row hrow => ?_⟩
  · rw [put_of_not_mem hfresh]
    exact List.rel_append h.rows (.cons ⟨toValue_documentOf hd, fun hne => absurd hid hne⟩ .nil)
  · rcases mem_of_mem_put hrow with rfl | hrow
    · exact ⟨_, Nat.le_refl _, rfl⟩
    · obtain ⟨n, hn, hkeys⟩ := h.numbers hid row hrow
      exact ⟨n, Nat.le_succ_of_le hn, hkeys⟩

theorem Holds.fewer {kept : List (Identity × Document)} {left : List Value}
    (hkept : kept.Sublist t.rows) (hleft : List.Forall₂ (HoldsRow t.collection) kept left) :
    Holds { t with rows := kept } left where
  rows := hleft
  nodup := (hkept.map Prod.fst).nodup h.nodup
  numbered := h.numbered
  numbers hid row hrow := h.numbers hid row (hkept.subset hrow)

/-- A call that succeeds changes the list as it changes the rows. -/
theorem Holds.change (hroom : t.numberedAfter call < 2 ^ 63) (hc : t.change call = .ok t') :
    t'.Holds (t.collection.replay elements call) := by
  cases call with
  | save item =>
    obtain ⟨found, hfound, hc⟩ := Outcome.bind_eq_ok.1 hc
    by_cases hid : t.collection.identity = []
    · have hempty : t.collection.identity.isEmpty = true := List.isEmpty_iff.2 hid
      rw [identity?, if_pos hempty] at hfound
      cases hfound
      obtain ⟨d, hd, hc⟩ := Outcome.bind_eq_ok.1 hc
      cases hc
      rw [numberedAfter, if_pos hempty] at hroom
      rw [Collection.replay, if_pos hempty]
      exact h.save_numbered hid hroom hd
    · obtain ⟨keys, rfl, hkeys⟩ := hasKeys_of_identity? hid hfound
      obtain ⟨d, hd, hc⟩ := Outcome.bind_eq_ok.1 hc
      cases hc
      rw [Collection.replay, if_neg (by simpa using hid)]
      exact h.save_identified hkeys hid hd
  | delete item =>
    obtain ⟨found, hfound, hc⟩ := Outcome.bind_eq_ok.1 hc
    by_cases hid : t.collection.identity = []
    · have hempty : t.collection.identity.isEmpty = true := List.isEmpty_iff.2 hid
      rw [identity?, if_pos hempty] at hfound
      cases hfound
      obtain ⟨kept, hkept, hc⟩ := Outcome.bind_eq_ok.1 hc
      cases hc
      rw [Collection.replay, if_pos hempty]
      exact h.fewer (dropEqual_sublist hkept)
        (forall₂_dropEqual h.rows (fun _ _ hrow => hrow.value) hkept)
    · obtain ⟨keys, rfl, hkeys⟩ := hasKeys_of_identity? hid hfound
      cases hc
      rw [Collection.replay, if_neg (by simpa using hid)]
      exact h.fewer (drop_sublist keys t.rows)
        (forall₂_drop h.rows fun row v hrow => (hrow.keys hid).eq_iff hkeys)

/-- A run of calls makes of the list what the successful ones make of it. -/
theorem Holds.run (calls : List Call) : (t.run calls).2.collection = t.collection ∧
    (t.run calls).2.Holds ((t.run calls).1.foldl t.collection.replay elements) := by
  induction calls generalizing t elements with
  | nil => exact ⟨rfl, h⟩
  | cons call rest ih =>
    rw [Table.run]
    split
    · rename_i t' hp
      obtain ⟨hroom, hc⟩ := perform_eq_ok hp
      have hcollection := collection_of_change hc
      obtain ⟨hsame, hrest⟩ := ih (h.change hroom hc)
      rw [hcollection] at hsame hrest
      exact ⟨hsame, hrest⟩
    · rename_i e t' hp
      have hcollection : t'.collection = t.collection := by
        obtain ⟨n, rfl, -⟩ := perform_eq_error hp
        rfl
      split
      · exact ⟨hcollection, h.failed hp⟩
      · obtain ⟨hsame, hrest⟩ := ih (h.failed hp)
        rw [hcollection] at hsame hrest
        exact ⟨hsame, hrest⟩

theorem Holds.all : t.all = .ok elements := by
  rw [Table.all, Outcome.mapM_eq_ok, documents, List.forall₂_map_left_iff]
  exact h.rows.imp fun _ _ hrow => hrow.value

/-- No two elements have one identity. -/
theorem Holds.pairwise (hid : t.collection.identity ≠ []) : elements.Pairwise fun v w =>
    t.collection.identifies v w = false ∧ t.collection.identifies w v = false := by
  refine forall₂_pairwise h.rows h.nodup fun row v row' v' hv hv' hne => ⟨?_, ?_⟩
  · exact eq_false_of_ne_true fun he => hne (((hv'.keys hid).eq_iff (hv.keys hid)).2 he).symm
  · exact eq_false_of_ne_true fun he => hne (((hv.keys hid).eq_iff (hv'.keys hid)).2 he)

/-- A look-up finds the only element that has the values looked up, if there is one. -/
theorem Holds.lookup (hid : t.collection.identity ≠ []) {values : List Value}
    (hlength : values.length = t.collection.identity.length)
    (hk : ∀ v ∈ values, ∃ key, v.key? = some key) : ∃ found, t.lookup values = .ok found ∧
      elements.filter (Listing.identifies t.collection.identity values) = found.toList := by
  obtain ⟨keys, hkeys⟩ := exists_keys hk
  have hlookup : t.lookup values = t.find values := by
    rw [Table.lookup, checkWidth, if_pos hlength]
    rfl
  have hvalues := h.rows.imp fun _ _ hrow => HoldsRow.value hrow
  rw [hlookup, find, identityOf_eq_ok.2 hkeys,
    filter_rows keys hvalues h.nodup fun row hrow v hv ht => ?_]
  · cases hfound : row? t.rows keys with
    | none => exact ⟨none, by simp only [bind, Except.bind, hfound]; rfl, rfl⟩
    | some d =>
      obtain ⟨v, -, hrow⟩ := exists_of_mem_left h.rows (mem_of_row? hfound)
      have hv : d.toValue = .ok v := hrow.value
      have htest := ((hrow.keys hid).eq_iff_values hkeys hlength).1 rfl
      refine ⟨some v, ?_, ?_⟩
      · simp only [bind, Except.bind, hfound, hv]
        rfl
      · simp [hv, Except.toOption, htest]
  · obtain ⟨w, -, hw⟩ := exists_of_mem_left h.rows hrow
    have hvw := hw.value
    rw [hv] at hvw
    cases hvw
    exact ((hw.keys hid).eq_iff_values hkeys hlength).2 ht

end

/-- Whatever calls are made on a collection, and whichever of them fail: its elements are those that
the successful calls make of a plain list. With an identity, no two of them have one identity, and
looking up values that have keys finds the only element that has these values, or none. A call that
fails changes neither the elements nor what any look-up gives. -/
theorem run_replays (c : Collection) (calls : List Call) :
    let made := (run ⟨c, [], 0⟩ calls).1
    let t := (run ⟨c, [], 0⟩ calls).2
    let elements := made.foldl c.replay []
    t.all = .ok elements ∧
      (c.identity ≠ [] →
        (elements.Pairwise fun v w => c.identifies v w = false ∧ c.identifies w v = false) ∧
        ∀ values : List Value, values.length = c.identity.length →
          (∀ v ∈ values, ∃ key, v.key? = some key) → ∃ found, t.lookup values = .ok found ∧
            elements.filter (Listing.identifies c.identity values) = found.toList) ∧
      ∀ call e t', t.perform call = (.error e, t') →
        t'.all = t.all ∧ ∀ values, t'.lookup values = t.lookup values := by
  intro made t elements
  obtain ⟨hcollection, hholds⟩ := (holds_empty c).run calls
  have hcollection : t.collection = c := hcollection
  have hholds : t.Holds elements := hholds
  refine ⟨hholds.all, fun hid => ?_, fun call e t' hp => ?_⟩
  · rw [← hcollection] at hid ⊢
    exact ⟨hholds.pairwise hid, fun values hlength hk => hholds.lookup hid hlength hk⟩
  · obtain ⟨n, rfl, -⟩ := perform_eq_error hp
    exact ⟨rfl, fun values => rfl⟩

/-- Parts that are saved, saved again and deleted; the call with an unknown field fails. -/
theorem run_replays_parts :
    let c : Collection := ⟨"parts", [("id", .i64), ("weight", .i64)], ["id"]⟩
    let part := fun id weight : Int64 => Value.mapping [("id", .int id), ("weight", .int weight)]
    let t := (run ⟨c, [], 0⟩ [.save (part 1 5), .save (.mapping [("id", .int 2)]),
      .save (.mapping [("size", .int 3)]), .save (part 4 8), .save (part 1 6),
      .delete (part 2 0)]).2
    t.all = .ok [part 1 6, part 4 8] ∧ ∃ found, t.lookup [.int 1] = .ok found ∧
      [part 1 6, part 4 8].filter (Listing.identifies c.identity [.int 1]) = found.toList := by
  intro c part t
  obtain ⟨hall, hidentified, -⟩ := run_replays c [.save (part 1 5),
    .save (.mapping [("id", .int 2)]), .save (.mapping [("size", .int 3)]), .save (part 4 8),
    .save (part 1 6), .delete (part 2 0)]
  obtain ⟨-, hlookup⟩ := hidentified (by decide)
  exact ⟨hall, hlookup [.int 1] rfl fun v hv => ⟨.int 1, by rw [List.mem_singleton.1 hv]; rfl⟩⟩

end Table

end Store

end QueryPushdown
