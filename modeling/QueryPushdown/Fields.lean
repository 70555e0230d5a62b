/-!
# Named fields in insertion order

A list of named entries in which every name occurs at most once. `insert` gives a name that is
already present its new content in place, and appends any other name; the remaining operations
keep the order.
-/

namespace QueryPushdown

/-- Entries by name, in insertion order. -/
abbrev Fields (α : Type) := List (String × α)

namespace Fields

variable {α β : Type}

/-- The entry called `name`. -/
def get? : Fields α → String → Option α
  | [], _ => none
  | (n, a) :: rest, name => if n = name then some a else get? rest name

def has (fields : Fields α) (name : String) : Bool := (get? fields name).isSome

/-- Replaces the entry called `name` in place, or appends it. -/
def insert : Fields α → String → α → Fields α
  | [], name, a => [(name, a)]
  | (n, b) :: rest, name, a =>
    if n = name then (n, a) :: rest else (n, b) :: insert rest name a

/-- Drops the entry called `name`. -/
def erase : Fields α → String → Fields α
  | [], _ => []
  | (n, a) :: rest, name => if n = name then rest else (n, a) :: erase rest name

def names (fields : Fields α) : List String := fields.map Prod.fst

/-- Entries inserted one after the other. -/
def extend (fields more : Fields α) : Fields α :=
  more.foldl (fun acc entry => insert acc entry.1 entry.2) fields

def ofList (entries : List (String × α)) : Fields α := extend [] entries

def mapValues (f : α → β) (fields : Fields α) : Fields β := fields.map fun (n, a) => (n, f a)

@[simp] theorem get?_nil (name : String) : get? ([] : Fields α) name = none := rfl

theorem get?_insert_same (fields : Fields α) (name : String) (a : α) :
    get? (insert fields name a) name = some a := by
  induction fields with
  | nil => simp [insert, get?]
  | cons entry rest ih =>
    obtain ⟨n, b⟩ := entry
    by_cases h : n = name <;> simp [insert, get?, h, ih]

theorem get?_insert_other (fields : Fields α) {name other : String} (a : α)
    (h : other ≠ name) : get? (insert fields name a) other = get? fields other := by
  induction fields with
  | nil => simp [insert, get?, h.symm]
  | cons entry rest ih =>
    obtain ⟨n, b⟩ := entry
    by_cases hn : n = name
    · subst hn
      simp [insert, get?, h.symm]
    · simp [insert, get?, hn, ih]

theorem has_iff_mem_names {fields : Fields α} {name : String} :
    has fields name = true ↔ name ∈ names fields := by
  unfold has
  induction fields with
  | nil => simp [names]
  | cons entry rest ih =>
    obtain ⟨n, b⟩ := entry
    by_cases h : n = name
    · simp [get?, names, h]
    · simpa [get?, names, h, Ne.symm h] using ih

theorem mem_of_get? {fields : Fields α} {name : String} {a : α}
    (h : get? fields name = some a) : (name, a) ∈ fields := by
  induction fields with
  | nil => cases h
  | cons entry rest ih =>
    obtain ⟨n, b⟩ := entry
    by_cases hn : n = name
    · simp only [get?, hn, if_true, Option.some.injEq] at h
      rw [hn, h]
      exact List.mem_cons_self
    · simp only [get?, hn, if_false] at h
      exact List.mem_cons_of_mem _ (ih h)

theorem names_insert_of_has {fields : Fields α} {name : String} (a : α)
    (h : has fields name = true) : names (insert fields name a) = names fields := by
  unfold has at h
  induction fields with
  | nil => cases h
  | cons entry rest ih =>
    obtain ⟨n, b⟩ := entry
    by_cases hn : n = name
    · simp [insert, names, hn]
    · simp only [get?, hn, if_false] at h
      simpa [insert, names, hn] using ih h

theorem insert_of_not_has {fields : Fields α} {name : String} (a : α)
    (h : has fields name = false) : insert fields name a = fields ++ [(name, a)] := by
  unfold has at h
  induction fields with
  | nil => rfl
  | cons entry rest ih =>
    obtain ⟨n, b⟩ := entry
    by_cases hn : n = name
    · simp [get?, hn] at h
    · simp only [get?, hn, if_false] at h
      simp [insert, hn, ih h]

theorem nodup_names_insert {fields : Fields α} (h : (names fields).Nodup) (name : String) (a : α) :
    (names (insert fields name a)).Nodup := by
  cases hn : has fields name with
  | true => rwa [names_insert_of_has a hn]
  | false =>
    have hmem : name ∉ names fields := fun hm => by
      rw [has_iff_mem_names.2 hm] at hn
      cases hn
    rw [insert_of_not_has a hn, names, List.map_append]
    refine List.nodup_append.2 ⟨h, by simp, fun n hmn m hm => ?_⟩
    obtain rfl : m = name := by simpa using hm
    exact fun he => hmem (he ▸ hmn)

theorem nodup_names_extend {fields : Fields α} (h : (names fields).Nodup) (more : Fields α) :
    (names (extend fields more)).Nodup := by
  unfold extend
  induction more generalizing fields with
  | nil => exact h
  | cons entry rest ih => exact ih (nodup_names_insert h entry.1 entry.2)

theorem mem_of_mem_insert {fields : Fields α} {name : String} {a : α} {entry : String × α}
    (h : entry ∈ insert fields name a) : entry ∈ fields ∨ entry = (name, a) := by
  induction fields with
  | nil => exact .inr (List.mem_singleton.1 h)
  | cons first rest ih =>
    obtain ⟨n, b⟩ := first
    by_cases hn : n = name
    · simp only [insert, hn, if_true, List.mem_cons] at h
      rcases h with h | h
      · exact .inr h
      · exact .inl (List.mem_cons_of_mem _ h)
    · simp only [insert, hn, if_false, List.mem_cons] at h
      rcases h with h | h
      · exact .inl (h ▸ List.mem_cons_self)
      · exact (ih h).imp_left (List.mem_cons_of_mem _)

theorem mem_of_mem_extend {fields more : Fields α} {entry : String × α}
    (h : entry ∈ extend fields more) : entry ∈ fields ∨ entry ∈ more := by
  unfold extend at h
  induction more generalizing fields with
  | nil => exact .inl h
  | cons first rest ih =>
    rcases ih h with h | h
    · rcases mem_of_mem_insert h with h | h
      · exact .inl h
      · exact .inr (h ▸ List.mem_cons_self)
    · exact .inr (List.mem_cons_of_mem _ h)

theorem get?_extend_of_not_has {fields more : Fields α} {name : String}
    (h : has more name = false) : get? (extend fields more) name = get? fields name := by
  unfold extend
  induction more generalizing fields with
  | nil => rfl
  | cons entry rest ih =>
    obtain ⟨n, b⟩ := entry
    by_cases hn : n = name
    · simp [has, get?, hn] at h
    · simp only [has, get?, hn, if_false] at h
      rw [List.foldl_cons, ih h, get?_insert_other _ _ (Ne.symm hn)]

theorem get?_extend_of_get? {fields more : Fields α} (hn : (names more).Nodup) {name : String}
    {a : α} (h : get? more name = some a) : get? (extend fields more) name = some a := by
  induction more generalizing fields with
  | nil => cases h
  | cons entry rest ih =>
    obtain ⟨n, b⟩ := entry
    obtain ⟨hnot, hrest⟩ := List.nodup_cons.1 hn
    by_cases hname : n = name
    · subst hname
      simp only [get?, if_true, Option.some.injEq] at h
      subst h
      have hno : has rest n = false := by
        cases hhas : has rest n with
        | false => rfl
        | true => exact absurd (has_iff_mem_names.1 hhas) hnot
      change get? (extend (insert fields n b) rest) n = some b
      rw [get?_extend_of_not_has hno, get?_insert_same]
    · simp only [get?, hname, if_false] at h
      exact ih hrest h

theorem get?_extend (fields : Fields α) {more : Fields α} (hn : (names more).Nodup)
    (name : String) : get? (extend fields more) name = (get? more name).or (get? fields name) := by
  cases h : get? more name with
  | none => rw [get?_extend_of_not_has (by rw [has, h, Option.isSome_none]), Option.none_or]
  | some a => rw [get?_extend_of_get? hn h, Option.some_or]

theorem get?_of_mem {fields : Fields α} (hn : (names fields).Nodup) {name : String} {a : α}
    (h : (name, a) ∈ fields) : get? fields name = some a := by
  induction fields with
  | nil => cases h
  | cons entry rest ih =>
    obtain ⟨n, b⟩ := entry
    obtain ⟨hnot, hrest⟩ := List.nodup_cons.1 hn
    rcases List.mem_cons.1 h with h | h
    · cases h
      simp [get?]
    · have hne : n ≠ name := by
        rintro rfl
        exact hnot (List.mem_map.2 ⟨_, h, rfl⟩)
      simpa [get?, hne] using ih hrest h

end Fields

end QueryPushdown
