import QueryPushdown.Document.Lowering
import QueryPushdown.Proofs.Eval.Sorting
import QueryPushdown.Proofs.Eval.Steps
import QueryPushdown.Proofs.Value.Order

/-!
# Stages of finds

A find sorts once and cuts out one window. Its sort is what the sorts of a chain give one after the
other, and its window what their slices do.
-/

namespace QueryPushdown

namespace Value

/-- The elements have an order by what stands at a path. -/
abbrev RankedBy (path : String) (vs : List Value) : Prop :=
  Sorting.Ranks (fun a b : Value => (a.atPath path).totalCompare (b.atPath path)) vs

theorem rankedBy_of_ints {path : String} {vs : List Value}
    (h : ∀ v ∈ vs, ∃ i, v.atPath path = .int i) : RankedBy path vs where
  swap _ _ _ _ := totalCompare_swap _ _
  trans a ha b hb d hd hab hbd := by
    obtain ⟨i, hi⟩ := h a ha
    obtain ⟨j, hj⟩ := h b hb
    obtain ⟨k, hk⟩ := h d hd
    rw [hi, hj] at hab
    rw [hj, hk] at hbd
    rw [hi, hk]
    change (compare i j).isLE at hab
    change (compare j k).isLE at hbd
    change (compare i k).isLE
    exact Std.TransCmp.isLE_trans hab hbd

end Value

namespace Find

section Sorted

variable {a b : Value} {sort keys : Document} {vs : List Value}

/-- The order by one path in one direction. -/
def compareAt (path : String) (direction : Bson) (a b : Value) : Ordering :=
  Sorting.directed (isDescending direction) ((a.atPath path).totalCompare (b.atPath path))

theorem compareBy_cons (path : String) (direction : Bson) :
    compareBy a b ((path, direction) :: sort) =
      (compareAt path direction a b).then (compareBy a b sort) := rfl

theorem compareBy_append (sort more : Document) :
    compareBy a b (sort ++ more) = (compareBy a b sort).then (compareBy a b more) := by
  induction sort with
  | nil => rfl
  | cons e sort ih =>
    obtain ⟨path, direction⟩ := e
    rw [List.cons_append, compareBy_cons, ih, compareBy_cons]
    cases compareAt path direction a b <;> rfl

theorem directed_eq_iff {d : Bool} {o : Ordering} : Sorting.directed d o = .eq ↔ o = .eq := by
  cases d <;> cases o <;> simp [Sorting.directed]

/-- Elements that sort keys do not tell apart are equal at the path of each key. -/
theorem compareAt_of_compareBy {path : String} (h : compareBy a b sort = .eq)
    (hp : Fields.has sort path = true) (direction : Bson) : compareAt path direction a b = .eq := by
  induction sort with
  | nil => cases hp
  | cons e sort ih =>
    obtain ⟨name, d⟩ := e
    rw [compareBy_cons, Ordering.then_eq_eq] at h
    by_cases hn : name = path
    · subst hn
      exact directed_eq_iff.2 (directed_eq_iff.1 h.1)
    · refine ih h.2 ?_
      simpa [Fields.has, Fields.get?, hn] using hp

/-- Keys that are added break the ties of those before them. -/
theorem compareBy_addSortKeys (sort keys : Document) :
    compareBy a b (addSortKeys sort keys) = (compareBy a b sort).then (compareBy a b keys) := by
  induction keys generalizing sort with
  | nil =>
    change compareBy a b sort = (compareBy a b sort).then .eq
    cases compareBy a b sort <;> rfl
  | cons e keys ih =>
    obtain ⟨path, direction⟩ := e
    change compareBy a b (addSortKeys (if Fields.has sort path then sort
      else Fields.insert sort path direction) keys) = _
    rw [ih, compareBy_cons]
    split
    · rename_i hp
      cases h : compareBy a b sort with
      | eq =>
        rw [compareAt_of_compareBy h hp direction]
        rfl
      | _ => rfl
    · rename_i hp
      rw [Fields.insert_of_not_has _ (eq_false_of_ne_true hp), compareBy_append, compareBy_cons]
      cases compareBy a b sort <;> cases compareAt path direction a b <;> rfl

theorem names_addSortKeys {path : String} (h : path ∈ Fields.names (addSortKeys sort keys)) :
    path ∈ Fields.names sort ∨ path ∈ Fields.names keys := by
  induction keys generalizing sort with
  | nil => exact .inl h
  | cons e keys ih =>
    rcases ih h with h | h
    · dsimp only at h
      split at h
      · exact .inl h
      · obtain ⟨entry, hm, rfl⟩ := List.mem_map.1 h
        rcases Fields.mem_of_mem_insert hm with hm | rfl
        · exact .inl (List.mem_map.2 ⟨_, hm, rfl⟩)
        · exact .inr List.mem_cons_self
    · exact .inr (List.mem_cons_of_mem _ h)

theorem ranks_compareBy (h : ∀ path ∈ Fields.names sort, Value.RankedBy path vs) :
    Sorting.Ranks (fun a b => compareBy a b sort) vs := by
  induction sort with
  | nil => exact ⟨fun _ _ _ _ => rfl, fun _ _ _ _ _ _ _ _ => rfl⟩
  | cons e sort ih =>
    obtain ⟨path, direction⟩ := e
    exact ((h path List.mem_cons_self).directed _).lex
      (ih fun p hp => h p (List.mem_cons_of_mem _ hp))

theorem sorted_eq (sort : Document) (vs : List Value) :
    sorted sort vs = Sorting.sortBy (fun a b => compareBy a b sort) vs := by
  unfold sorted
  split
  · rename_i hempty
    obtain rfl := List.isEmpty_iff.1 hempty
    exact (Sorting.sortBy_eq_self fun _ _ _ _ => rfl).symm
  · rfl

theorem mem_sorted {v : Value} : v ∈ sorted sort vs ↔ v ∈ vs := by
  rw [sorted_eq, Sorting.mem_sortBy]

theorem length_sorted (sort : Document) (vs : List Value) :
    (sorted sort vs).length = vs.length := by
  rw [sorted_eq]
  exact (Sorting.stable_perm _ vs).length_eq

/-- Filtering before or after the sort makes no difference. -/
theorem filter_sorted (h : ∀ path ∈ Fields.names sort, Value.RankedBy path vs)
    (p : Value → Bool) : (sorted sort vs).filter p = sorted sort (vs.filter p) := by
  rw [sorted_eq, sorted_eq, Sorting.filter_sortBy (ranks_compareBy h)]

theorem sortKeys_cons_eq_ok {t : Term} {descending : Bool} {rest : List (Term × Bool)}
    {keys : Document} (h : sortKeys ((t, descending) :: rest) = .ok keys) :
    ∃ path others, t.path? = some path ∧ sortKeys rest = .ok others ∧
      keys = (path, .int32 (if descending then -1 else 1)) :: others := by
  rw [sortKeys] at h
  split at h
  · cases h
  · rename_i path hpath
    obtain ⟨others, hothers, h⟩ := Refusal.bind_eq_ok h
    cases h
    exact ⟨path, others, hpath, hothers, rfl⟩

variable {input : Input} {ts : List (Term × Bool)}

/-- What the terms of sort keys read of an element. -/
def keysOf (input : Input) (ts : List (Term × Bool)) (v : Value) : List Value :=
  ts.map fun k => (k.1.reading input v).orNull

theorem compareDirected_keysOf (h : sortKeys ts = .ok keys) (a b : Value) :
    Sorting.compareDirected (ts.map Prod.snd) (keysOf input ts a) (keysOf input ts b) =
      compareBy a b keys := by
  induction ts generalizing keys with
  | nil =>
    cases h
    rfl
  | cons k ts ih =>
    obtain ⟨t, descending⟩ := k
    obtain ⟨path, others, hpath, hothers, rfl⟩ := sortKeys_cons_eq_ok h
    have hread : ∀ v, (t.reading input v).orNull = v.atPath path := fun v => by
      rw [Term.reading_path hpath]
      rfl
    rw [keysOf, keysOf, List.map_cons, List.map_cons, List.map_cons, Sorting.compareDirected,
      hread, hread, compareBy_cons]
    refine congr (congrArg _ ?_) (ih hothers)
    cases descending <;> rfl

theorem ranked_keysOf (h : sortKeys ts = .ok keys)
    (hranked : ∀ path ∈ Fields.names keys, Value.RankedBy path vs) (i : Nat) :
    Sorting.RankedAt (vs.map fun v => ⟨keysOf input ts v, v⟩) i := by
  have hkey : ∃ key : Value → Value,
      Sorting.Ranks (fun a b : Value => (key a).totalCompare (key b)) vs ∧
      ∀ v, (keysOf input ts v)[i]?.getD .null = key v := by
    induction ts generalizing keys i with
    | nil => exact ⟨fun _ => .null, ⟨fun _ _ _ _ => rfl, fun _ _ _ _ _ _ _ _ => rfl⟩, fun _ => rfl⟩
    | cons k ts ih =>
      obtain ⟨t, descending⟩ := k
      obtain ⟨path, others, hpath, hothers, rfl⟩ := sortKeys_cons_eq_ok h
      cases i with
      | zero =>
        refine ⟨fun v => v.atPath path, hranked path List.mem_cons_self, fun v => ?_⟩
        change (t.reading input v).orNull = _
        rw [Term.reading_path hpath]
        rfl
      | succ i => exact ih hothers (fun p hp => hranked p (List.mem_cons_of_mem _ hp)) i
  obtain ⟨key, hranks, hkey⟩ := hkey
  constructor
  · intro r hr s hs
    obtain ⟨v, hv, rfl⟩ := List.mem_map.1 hr
    obtain ⟨w, hw, rfl⟩ := List.mem_map.1 hs
    simp only [hkey]
    exact hranks.swap v hv w hw
  · intro r hr s hs q hq
    obtain ⟨v, hv, rfl⟩ := List.mem_map.1 hr
    obtain ⟨w, hw, rfl⟩ := List.mem_map.1 hs
    obtain ⟨x, hx, rfl⟩ := List.mem_map.1 hq
    simp only [hkey]
    exact hranks.trans v hv w hw x hx

/-- A sort of rows by path keys is a sort of their elements. -/
theorem rows_keysOf (h : sortKeys ts = .ok keys)
    (hranked : ∀ path ∈ Fields.names keys, Value.RankedBy path vs) :
    Sorting.rows (vs.map fun v => ⟨keysOf input ts v, v⟩) (ts.map Prod.snd) = sorted keys vs := by
  rw [Sorting.rows_elements (fun v _ => ?_) (ranked_keysOf h hranked), sorted_eq]
  · simp only [compareDirected_keysOf h]
  · rw [keysOf, List.length_map, List.length_map]

/-- A later sort comes before the keys of the earlier ones. -/
theorem sorted_sorted (hk : ∀ path ∈ Fields.names keys, Value.RankedBy path vs)
    (hs : ∀ path ∈ Fields.names sort, Value.RankedBy path vs) :
    sorted keys (sorted sort vs) = sorted (addSortKeys (addSortKeys [] keys) sort) vs := by
  rw [sorted_eq, sorted_eq, sorted_eq, Sorting.sortBy_sortBy (ranks_compareBy hk) (ranks_compareBy hs)]
  congr 1
  funext a b
  rw [compareBy_addSortKeys, compareBy_addSortKeys]
  rfl

end Sorted

section Window

variable {q : Find} {vs : List Value} {start stop : Option Int64}

/-- Further slices narrow the window. Skipping is capped where no list goes on. -/
theorem window_slice (h : vs.length < 2 ^ 64) :
    (q.slice start stop).window vs = Window.between start stop (q.window vs) := by
  have hdrop : ∀ first, vs.drop (min (q.skip + first) maxSkip) = vs.drop (q.skip + first) := by
    intro first
    rcases Nat.le_total (q.skip + first) maxSkip with hle | hle
    · rw [Nat.min_eq_left hle]
    · have hmax : vs.length ≤ maxSkip := by
        unfold maxSkip
        omega
      rw [Nat.min_eq_right hle, List.drop_eq_nil_of_le hmax,
        List.drop_eq_nil_of_le (Nat.le_trans hmax hle)]
  simp only [window, slice, Window.between, hdrop]
  cases q.limit with
  | none =>
    cases stop with
    | none => simp [List.drop_drop]
    | some stop => simp [List.drop_drop]
  | some limit =>
    cases stop with
    | none => simp [List.drop_drop, List.drop_take]
    | some stop => simp [List.drop_drop, List.drop_take, List.take_take, Nat.min_comm]

theorem mem_window {v : Value} (h : v ∈ q.window vs) : v ∈ vs := by
  unfold window at h
  split at h
  · exact List.mem_of_mem_drop (List.mem_of_mem_take h)
  · exact List.mem_of_mem_drop h

theorem window_of_not_isWindowed (h : q.isWindowed = false) : q.window vs = vs := by
  obtain ⟨hskip, hlimit⟩ := Bool.or_eq_false_iff.1 h
  have hskip : q.skip = 0 := by simpa using hskip
  have hlimit : q.limit = none := by simpa using hlimit
  rw [window, hskip, hlimit]
  rfl

/-- A slice from the start evaluates to the part of the list. -/
theorem eager_slice {input : Input} (h : Step.isForward start stop = true) (vs : List Value) :
    (Step.slice start stop).eager input (.list vs) =
      .ok (.list (Window.between start stop vs)) := Step.outcome_slice_forward h vs

end Window

end Find

end QueryPushdown
