import QueryPushdown.Proofs.Sql.Bounds
import QueryPushdown.Proofs.Sql.Expressions

/-!
# The lists that relations stand for

A relation that is being lowered keeps some rows of its origin, each of which stands for an element.
Sorted by the keys of the select, made distinct and cut to its bounds, they are the list. Changing the
select of an open relation in place changes that list as the row operation does, and a relation that
is turned into a derived table stands for the list it stood for before.
-/

namespace QueryPushdown.Sql.Relation

/-- Keys read from the hidden columns of a derived table. -/
def hiddenKeys (number start : Nat) (orderBy : List (Expr × Bool)) : List (Expr × Bool) :=
  (orderBy.zipIdx start).map fun ((_, descending), i) =>
    (.column (some number) (orderName i), descending)

/-- A select of columns, with further ones for the sort keys. -/
def withHidden (s : Select) (columns : List (Expr × String)) : Select :=
  { s with columns := columns ++ s.orderBy.zipIdx.map fun ((e, _), i) => (e, orderName i) }

/-- A relation over the derived table of some columns. -/
def derived (r : Relation) (columns : List (Expr × String)) (number : Nat) : Relation :=
  { r with
    select := { Select.ofDerived (withHidden r.select columns) number with
      orderBy := hiddenKeys number 0 r.select.orderBy }
    shape := r.shape.rebase number }

theorem eq_derived_of_wrap {node : Nat} {r r' : Relation} (h : Gives (r.wrap node) r') :
    ∃ columns number, r.shape.selected = .ok columns ∧ r' = r.derived columns number := by
  obtain ⟨columns, hcolumns, h⟩ := h.bind
  obtain ⟨number, -, h⟩ := h.bind
  exact ⟨columns, number, hcolumns.orRefuse, h.pure.symm⟩

theorem isUnbounded_of_isOpen {r : Relation} (h : r.isOpen = true) : r.select.isUnbounded = true :=
  (Bool.and_eq_true_iff.1 h).1

theorem distinct_of_isOpen {r : Relation} (h : r.isOpen = true) : r.select.distinct = false := by
  simpa using (Bool.and_eq_true_iff.1 h).2

/-- What a relation stands for: the rows of its origin that it keeps, each with its element, all of
them among `P`. -/
structure Meaning (input : Input) (P : Value → Prop) (r : Relation) where
  table : Nat
  origin : Origin
  rows : List (Fields Value)
  kept : List (Fields Value × Value)
  origin_eq : r.select.origin = some origin
  rows_eq : origin.rows? input = some (table, rows)
  ungrouped : r.select.groupBy = []
  kept_eq : keep? (fun row => decided? table row false r.select.filter) rows =
    some (kept.map Prod.fst)
  keys : ∀ p ∈ kept, ∃ keys, r.select.keys? table p.1 = some keys
  ranks : Sorting.Ranks (fun p q => r.select.compareRows table p.1 q.1) kept
  reads : ∀ p ∈ kept, r.shape.Reads table p.1 r.item p.2
  among : ∀ p ∈ kept, P p.2
  unordered : r.select.distinct = true → r.select.orderBy = []
  forward : r.select.IsForward
  length_lt : kept.length < 2 ^ 63

namespace Meaning

variable {input : Input} {P Q : Value → Prop} {r r' : Relation} {node : Nat}

/-- The rows that are kept, in the order of the sort keys. -/
def sorted (m : Meaning input P r) : List (Fields Value × Value) :=
  Sorting.sortBy (fun p q => r.select.compareRows m.table p.1 q.1) m.kept

/-- The rows in order, without repeated elements if they are distinct. -/
def listed (m : Meaning input P r) : List (Fields Value × Value) :=
  if r.select.distinct then m.sorted.eraseDupsBy fun b a => a.2.isEq b.2 else m.sorted

/-- The rows that are left within the bounds. -/
def window (m : Meaning input P r) : List (Fields Value × Value) := r.select.bounded m.listed

/-- The list that the relation stands for. -/
def elements (m : Meaning input P r) : List Value := m.window.map Prod.snd

theorem listed_sublist (m : Meaning input P r) : m.listed.Sublist m.sorted := by
  unfold listed
  split
  · exact Occurrences.eraseDupsBy_sublist _ _
  · exact .refl _

theorem window_sublist (m : Meaning input P r) : m.window.Sublist m.sorted :=
  (Select.bounded_sublist _).trans m.listed_sublist

theorem mem_kept (m : Meaning input P r) {p : Fields Value × Value} (h : p ∈ m.window) :
    p ∈ m.kept :=
  Sorting.mem_sortBy.1 (m.window_sublist.subset h)

theorem among_elements (m : Meaning input P r) {v : Value} (h : v ∈ m.elements) : P v := by
  obtain ⟨p, hp, rfl⟩ := List.mem_map.1 h
  exact m.among p (m.mem_kept hp)

theorem length_lt_of_sublist (m : Meaning input P r) {ps : List (Fields Value × Value)}
    (h : ps.Sublist m.sorted) : ps.length < 2 ^ 63 := by
  have hsorted : m.sorted.length = m.kept.length := (Sorting.stable_perm _ _).length_eq
  have hle := h.length_le
  have hlt := m.length_lt
  omega

/-- Rows that can be changed in place are sorted and nothing else. -/
theorem window_of_isOpen (m : Meaning input P r) (h : r.isOpen = true) : m.window = m.sorted := by
  rw [window, Select.bounded_of_unbounded (isUnbounded_of_isOpen h), listed,
    if_neg (by rw [distinct_of_isOpen h]; exact Bool.false_ne_true)]

/-- Selecting columns of the rows that are kept gives one row for each element. -/
theorem rows?_eq (m : Meaning input P r) {columns : List (Expr × String)}
    (out : Fields Value × Value → Fields Value)
    (hout : ∀ p ∈ m.kept,
      ({ r.select with columns := columns } : Select).output? m.table p.1 = some (out p))
    (hsame : r.select.distinct = true → ∀ p ∈ m.kept, ∀ q ∈ m.kept,
      sameColumns (out p) (out q) = p.2.isEq q.2) :
    ({ r.select with columns := columns } : Select).rows? input = some (m.window.map out) := by
  have hrows := Select.rows?_eq (s := { r.select with columns := columns }) m.origin_eq m.rows_eq
  have hyields := Select.yields?_eq (s := { r.select with columns := columns, origin := none })
    m.ungrouped m.kept_eq m.keys hout
  refine hrows.trans (hyields.trans (congrArg some ?_))
  change Select.bounded r.select (if r.select.distinct then
    (m.sorted.map out).eraseDupsBy _ else m.sorted.map out) = _
  rw [window, listed]
  cases hdistinct : r.select.distinct with
  | false => exact Select.bounded_map out _
  | true =>
    rw [if_pos rfl, if_pos rfl, Occurrences.eraseDupsBy_map (s := fun b a => a.2.isEq b.2)]
    · exact Select.bounded_map out _
    · exact fun p hp q hq => hsame hdistinct p (Sorting.mem_sortBy.1 hp) q (Sorting.mem_sortBy.1 hq)

section Table

variable {c : Collection} {table : Nat} {elements : List Value}
  (helements : input c.name = .ok elements)
  (hreads : ∀ v ∈ elements, ∃ row, v = .mapping row ∧
    (Shape.ofCollection c table).Reads table row c.itemTy v)
  (hP : ∀ v ∈ elements, P v) (hlength : elements.length < 2 ^ 63)

/-- The rows of a stored table stand for themselves. -/
def ofTable : Meaning input P (Relation.ofCollection c table) where
  table := table
  origin := .table c.name table
  rows := elements.map fun v => v.asMapping?.getD []
  kept := elements.map fun v => (v.asMapping?.getD [], v)
  origin_eq := rfl
  rows_eq := by
    have hrows : elements.mapM Value.asMapping? = some (elements.map fun v => v.asMapping?.getD []) :=
      mapM_eq_some fun v hv => by
        obtain ⟨row, rfl, -⟩ := hreads v hv
        rfl
    rw [Origin.rows?, helements]
    change elements.mapM Value.asMapping? >>= _ = _
    rw [hrows]
    rfl
  ungrouped := rfl
  kept_eq := by
    rw [List.map_map]
    exact keep?_true _
  keys _ _ := ⟨[], rfl⟩
  ranks := ⟨fun _ _ _ _ => rfl, fun _ _ _ _ _ _ _ _ => rfl⟩
  reads := by
    intro p hp
    obtain ⟨v, hv, rfl⟩ := List.mem_map.1 hp
    obtain ⟨row, rfl, hread⟩ := hreads v hv
    exact hread
  among := by
    intro p hp
    obtain ⟨v, hv, rfl⟩ := List.mem_map.1 hp
    exact hP v hv
  unordered _ := rfl
  forward := .of_unbounded rfl
  length_lt := by
    rw [List.length_map]
    exact hlength

theorem elements_ofTable : (ofTable helements hreads hP hlength).elements = elements := by
  have hsorted : (ofTable helements hreads hP hlength).sorted =
      elements.map fun v => (v.asMapping?.getD [], v) :=
    Sorting.sortBy_eq_self fun _ _ _ _ => rfl
  rw [Meaning.elements, window_of_isOpen _ rfl, hsorted, List.map_map]
  exact List.map_id _

end Table

section Wrap

variable {table number : Nat} {row : Fields Value} {orderBy : List (Expr × Bool)} {ks : List Value}

/-- Hidden columns hold the sort keys, named by their places. -/
theorem mapM_orderColumns (h : orderBy.mapM (fun key => key.1.value? table row) = some ks) :
    ((orderBy.zipIdx.map fun ((e, _), i) => (e, orderName i)).mapM fun column => do
      let v ← column.1.value? table row
      pure (column.2, v)) = some (numbered orderName 0 ks) := by
  have hes : (orderBy.map Prod.fst).mapM (fun e => e.value? table row) = some ks := by
    rw [List.mapM_map]
    exact h
  have hcolumns := mapM_zipIdx orderName 0 hes
  rw [List.zipIdx_map, List.map_map] at hcolumns
  exact hcolumns

/-- Keys read from hidden columns are the keys they hold. -/
theorem mapM_hiddenKeys (start : Nat) (hlength : ks.length = orderBy.length)
    (hrow : ∀ i k, ks[i]? = some k → Fields.get? row (orderName (start + i)) = some k) :
    ((hiddenKeys number start orderBy).mapM fun key => key.1.value? number row) = some ks := by
  induction orderBy generalizing ks start with
  | nil =>
    rw [List.length_eq_zero_iff.1 hlength]
    rfl
  | cons key orderBy ih =>
    cases ks with
    | nil => cases hlength
    | cons k ks =>
      have hrest := ih (start + 1) (Nat.succ.inj hlength) fun i u hi => by
        rw [Nat.add_assoc, Nat.add_comm 1]
        exact hrow (i + 1) u hi
      have hfirst : Fields.get? row (orderName start) = some k := hrow 0 k rfl
      rw [hiddenKeys, List.zipIdx_cons, List.map_cons, List.mapM_cons]
      change (Expr.value? number row (.column (some number) (orderName start)) >>= fun v =>
        List.mapM _ (hiddenKeys number (start + 1) orderBy) >>= _) = _
      rw [hrest, Expr.value?, if_pos rfl, hfirst]
      rfl

theorem map_snd_hiddenKeys (orderBy : List (Expr × Bool)) :
    (hiddenKeys number 0 orderBy).map Prod.snd = orderBy.map Prod.snd := by
  rw [hiddenKeys, List.map_map]
  calc orderBy.zipIdx.map _ = (orderBy.zipIdx.map Prod.fst).map Prod.snd := by
        rw [List.map_map]
        rfl
    _ = orderBy.map Prod.snd := by rw [List.zipIdx_map_fst]

end Wrap

/-- The row of a derived table: the selected columns of the element and the hidden ones. -/
def derivedRow (m : Meaning input P r) (p : Fields Value × Value) : Fields Value :=
  numbered Shape.columnName 0 (cells p.2) ++
    numbered orderName 0 ((r.select.keys? m.table p.1).getD [])

theorem get?_derivedRow (m : Meaning input P r) {p : Fields Value × Value} {ks : List Value}
    (hks : r.select.keys? m.table p.1 = some ks) {i : Nat} {k : Value} (hk : ks[i]? = some k) :
    Fields.get? (m.derivedRow p) (orderName (0 + i)) = some k := by
  rw [derivedRow, hks, get?_numbered_of_ne fun j => columnName_ne_orderName j _]
  rw [← List.append_nil (numbered orderName 0 ((some ks).getD []))]
  exact get?_numbered orderName_inj hk

section Derived

variable (m : Meaning input P r) (hitem : r.item.Distinct) {columns : List (Expr × String)}
  (hcolumns : r.shape.selected = .ok columns) (number : Nat)

include hitem hcolumns in
/-- The rows of a relation selected for a derived table. -/
theorem rows?_withHidden :
    (withHidden r.select columns).rows? input = some (m.window.map m.derivedRow) := by
  obtain ⟨es, hes⟩ := Shape.columns_of_selected hcolumns
  refine m.rows?_eq m.derivedRow (fun p hp => ?_) fun hdistinct p hp q hq => ?_
  · obtain ⟨ks, hks⟩ := m.keys p hp
    rw [Select.output?, List.mapM_append, (m.reads p hp).selected hcolumns, mapM_orderColumns hks,
      derivedRow, hks]
    rfl
  · have hkeys : ∀ row, r.select.keys? m.table row = some [] := fun row => by
      rw [Select.keys?, m.unordered hdistinct]
      rfl
    rw [derivedRow, derivedRow, hkeys, hkeys, sameColumns]
    simp only [Option.getD_some, numbered, List.append_nil, map_snd_numbered]
    exact (m.reads p hp).isEq_cells (m.reads q hq) hitem hes

theorem keys?_derived {p : Fields Value × Value} {ks : List Value}
    (hks : r.select.keys? m.table p.1 = some ks) :
    (r.derived columns number).select.keys? number (m.derivedRow p) = some ks :=
  mapM_hiddenKeys 0 (mapM_length hks) fun _ _ hk => m.get?_derivedRow hks hk

/-- Rows of a derived table are compared as the rows that they were made of. -/
theorem compareRows_derived {p q : Fields Value × Value} (hp : p ∈ m.kept) (hq : q ∈ m.kept) :
    (r.derived columns number).select.compareRows number (m.derivedRow p) (m.derivedRow q) =
      r.select.compareRows m.table p.1 q.1 := by
  obtain ⟨ks, hks⟩ := m.keys p hp
  obtain ⟨ls, hls⟩ := m.keys q hq
  rw [Select.compareRows, Select.compareRows, m.keys?_derived number hks,
    m.keys?_derived number hls, hks, hls, derived, map_snd_hiddenKeys]

theorem ranks_window :
    Sorting.Ranks (fun p q => r.select.compareRows m.table p.1 q.1) m.window :=
  m.ranks.mono fun _ hp => m.mem_kept hp

/-- What the derived table of a relation stands for. -/
def derived : Meaning input P (r.derived columns number) where
  table := number
  origin := .derived (withHidden r.select columns) number
  rows := m.window.map m.derivedRow
  kept := m.window.map fun p => (m.derivedRow p, p.2)
  origin_eq := rfl
  rows_eq := by
    rw [Origin.rows?, m.rows?_withHidden hitem hcolumns]
    rfl
  ungrouped := rfl
  kept_eq := by
    rw [List.map_map]
    exact keep?_true _
  keys := by
    intro p hp
    obtain ⟨q, hq, rfl⟩ := List.mem_map.1 hp
    obtain ⟨ks, hks⟩ := m.keys q (m.mem_kept hq)
    exact ⟨ks, m.keys?_derived number hks⟩
  ranks := .map (f := fun p => (m.derivedRow p, p.2)) (m.ranks_window.congr fun p hp q hq =>
    m.compareRows_derived number (m.mem_kept hp) (m.mem_kept hq))
  reads := by
    intro p hp
    obtain ⟨q, hq, rfl⟩ := List.mem_map.1 hp
    obtain ⟨es, hes⟩ := Shape.columns_of_selected hcolumns
    exact (m.reads q (m.mem_kept hq)).rebase hes
  among := by
    intro p hp
    obtain ⟨q, hq, rfl⟩ := List.mem_map.1 hp
    exact m.among q (m.mem_kept hq)
  unordered := fun hdistinct => by cases hdistinct
  forward := .of_unbounded rfl
  length_lt := by
    rw [List.length_map]
    exact m.length_lt_of_sublist m.window_sublist

/-- The rows of a derived table are in order already. -/
theorem elements_derived : (m.derived hitem hcolumns number).elements = m.elements := by
  have hsorted : Sorting.IsSorted (fun p q : Fields Value × Value =>
      (r.derived columns number).select.compareRows number p.1 q.1)
        (m.window.map fun p => (m.derivedRow p, p.2)) := by
    refine List.pairwise_map.2 ?_
    refine ((Sorting.sortBy_sorted m.ranks).sublist m.window_sublist).imp_of_mem
      fun {p q} hp hq hle => ?_
    exact (congrArg Ordering.isLE
      (m.compareRows_derived number (m.mem_kept hp) (m.mem_kept hq))).trans hle
  have hkept : (m.derived hitem hcolumns number).sorted =
      m.window.map fun p => (m.derivedRow p, p.2) :=
    Sorting.sortBy_of_sorted (m.derived hitem hcolumns number).ranks hsorted
  rw [elements, window_of_isOpen _ rfl, hkept, List.map_map]
  rfl

end Derived

/-- A relation that is turned into a derived table stands for the same list and is open. -/
theorem wrap (m : Meaning input P r) (hitem : r.item.Distinct) (h : Gives (r.wrap node) r') :
    ∃ m' : Meaning input P r', m'.elements = m.elements ∧ r'.item = r.item ∧ r'.isOpen = true := by
  obtain ⟨columns, number, hcolumns, rfl⟩ := eq_derived_of_wrap h
  exact ⟨m.derived hitem hcolumns number, m.elements_derived hitem hcolumns number, rfl, rfl⟩

/-- A relation that is kept, or turned into a derived table first, stands for the same list. -/
theorem wrapped {keep : Prop} [Decidable keep] (m : Meaning input P r) (hitem : r.item.Distinct)
    (h : Gives (if keep then pure r else r.wrap node) r') :
    ∃ m' : Meaning input P r', m'.elements = m.elements ∧ r'.item = r.item ∧
      (r' = r ∧ keep ∨ r'.isOpen = true) := by
  split at h
  · rename_i hkeep
    obtain rfl := h.pure
    exact ⟨m, rfl, rfl, .inl ⟨rfl, hkeep⟩⟩
  · obtain ⟨m', hm, hsame, hopen⟩ := m.wrap hitem h
    exact ⟨m', hm, hsame, .inr hopen⟩

theorem opened (m : Meaning input P r) (hitem : r.item.Distinct) (h : Gives (r.opened node) r') :
    ∃ m' : Meaning input P r', m'.elements = m.elements ∧ r'.item = r.item ∧ r'.isOpen = true := by
  obtain ⟨m', hm, hsame, hopen⟩ := m.wrapped hitem h
  refine ⟨m', hm, hsame, ?_⟩
  rcases hopen with ⟨rfl, hopen⟩ | hopen <;> exact hopen

/-- What is known of the elements of the rows that are kept may be told otherwise. -/
def mono (m : Meaning input P r) (h : ∀ p ∈ m.kept, Q p.2) : Meaning input Q r :=
  { m with among := h }

/-- A conjunct narrows the rows of an open relation. -/
def filter (m : Meaning input P r) {e : Expr} (test : Value → Bool)
    (he : ∀ p ∈ m.kept, e.value? m.table p.1 = some (.bool (test p.2))) :
    Meaning input P { r with select := { r.select with filter := r.select.filter ++ [e] } } where
  table := m.table
  origin := m.origin
  rows := m.rows
  kept := m.kept.filter fun p => test p.2
  origin_eq := m.origin_eq
  rows_eq := m.rows_eq
  ungrouped := m.ungrouped
  kept_eq := by
    have hmore : ∀ p ∈ m.kept,
        (fun row => decided? m.table row false [e]) p.1 = some (test p.2) :=
      fun p hp => decided?_singleton (he p hp)
    refine keep?_and (fun row => decided? m.table row false [e]) m.kept_eq hmore fun row b hb => ?_
    rw [decided?_append, hb]
    cases b <;> rfl
  keys p hp := m.keys p (List.mem_filter.1 hp).1
  ranks := m.ranks.mono fun p hp => (List.mem_filter.1 hp).1
  reads p hp := m.reads p (List.mem_filter.1 hp).1
  among p hp := m.among p (List.mem_filter.1 hp).1
  unordered := m.unordered
  forward := ⟨m.forward.limit, m.forward.offset⟩
  length_lt := Nat.lt_of_le_of_lt (List.length_filter_le _ _) m.length_lt

theorem elements_filter (m : Meaning input P r) {e : Expr} {test : Value → Bool}
    (hopen : r.isOpen = true)
    (he : ∀ p ∈ m.kept, e.value? m.table p.1 = some (.bool (test p.2))) :
    (m.filter test he).elements = m.elements.filter test := by
  have hkept : (m.filter test he).sorted = m.sorted.filter fun p => test p.2 :=
    (Sorting.filter_sortBy m.ranks _).symm
  have hstill : Relation.isOpen { r with
      select := { r.select with filter := r.select.filter ++ [e] } } = true := hopen
  rw [elements, elements, window_of_isOpen _ hopen, window_of_isOpen _ hstill, hkept,
    List.filter_map]
  rfl

/-- A transform changes what the rows stand for. -/
def map (m : Meaning input P r) {shape : Shape} {item : Ty} {f : Value → Value}
    (hf : ∀ p ∈ m.kept, shape.Reads m.table p.1 item (f p.2)) (hQ : ∀ p ∈ m.kept, Q (f p.2)) :
    Meaning input Q { r with shape := shape, item := item } where
  table := m.table
  origin := m.origin
  rows := m.rows
  kept := m.kept.map fun p => (p.1, f p.2)
  origin_eq := m.origin_eq
  rows_eq := m.rows_eq
  ungrouped := m.ungrouped
  kept_eq := by
    rw [List.map_map]
    exact m.kept_eq
  keys := by
    intro p hp
    obtain ⟨q, hq, rfl⟩ := List.mem_map.1 hp
    exact m.keys q hq
  ranks := .map (f := fun p : Fields Value × Value => (p.1, f p.2)) m.ranks
  reads := by
    intro p hp
    obtain ⟨q, hq, rfl⟩ := List.mem_map.1 hp
    exact hf q hq
  among := by
    intro p hp
    obtain ⟨q, hq, rfl⟩ := List.mem_map.1 hp
    exact hQ q hq
  unordered := m.unordered
  forward := m.forward
  length_lt := by
    rw [List.length_map]
    exact m.length_lt

theorem elements_map (m : Meaning input P r) {shape : Shape} {item : Ty} {f : Value → Value}
    (hdistinct : r.select.distinct = false)
    (hf : ∀ p ∈ m.kept, shape.Reads m.table p.1 item (f p.2)) (hQ : ∀ p ∈ m.kept, Q (f p.2)) :
    (m.map hf hQ).elements = m.elements.map f := by
  have hsorted : (m.map hf hQ).sorted = m.sorted.map fun p => (p.1, f p.2) :=
    Sorting.stable_map _ (fun p : Fields Value × Value => (p.1, f p.2)) _
  rw [elements, elements, window, window, listed, listed, hsorted]
  change (r.select.bounded (if r.select.distinct then _ else _)).map Prod.snd = _
  rw [hdistinct, if_neg Bool.false_ne_true, if_neg Bool.false_ne_true, Select.bounded_map,
    List.map_map, List.map_map]
  rfl

section Keys

variable (m : Meaning input P r) {orderBy : List (Expr × Bool)} {keys : Value → List Value}
  (hkeys : ∀ p ∈ m.kept, orderBy.mapM (fun key => key.1.value? m.table p.1) = some (keys p.2))
  (hranked : ∀ j, Sorting.RankedAt ((m.kept.map Prod.snd).map fun v => ⟨keys v, v⟩) j)

include hkeys in
theorem keys_length {v : Value} (hv : v ∈ m.kept.map Prod.snd) :
    (keys v).length = (orderBy.map Prod.snd).length := by
  obtain ⟨p, hp, rfl⟩ := List.mem_map.1 hv
  rw [mapM_length (hkeys p hp), List.length_map]

include hkeys hranked in
theorem ranks_keys : Sorting.Ranks (fun p q : Fields Value × Value =>
    Sorting.compareDirected (orderBy.map Prod.snd) (keys p.2) (keys q.2)) m.kept := by
  have hranks := Sorting.ranks_of_keys (fun v hv => m.keys_length hkeys hv) hranked
  have hmem : ∀ p ∈ m.kept, p.2 ∈ m.kept.map Prod.snd := fun p hp => List.mem_map_of_mem hp
  exact ⟨fun p hp q hq => hranks.swap _ (hmem p hp) _ (hmem q hq),
    fun p hp q hq s hs => hranks.trans _ (hmem p hp) _ (hmem q hq) _ (hmem s hs)⟩

include hkeys in
theorem keys?_sort {p : Fields Value × Value} (hp : p ∈ m.kept) {ks : List Value}
    (hks : r.select.keys? m.table p.1 = some ks) :
    ({ r.select with orderBy := orderBy ++ r.select.orderBy } : Select).keys? m.table p.1 =
      some (keys p.2 ++ ks) := by
  change (orderBy ++ r.select.orderBy).mapM _ = _
  rw [List.mapM_append, hkeys p hp]
  change (r.select.keys? m.table p.1 >>= _) = _
  rw [hks]
  rfl

include hkeys in
theorem compareRows_sort {p q : Fields Value × Value} (hp : p ∈ m.kept) (hq : q ∈ m.kept) :
    ({ r.select with orderBy := orderBy ++ r.select.orderBy } : Select).compareRows m.table p.1 q.1 =
      (Sorting.compareDirected (orderBy.map Prod.snd) (keys p.2) (keys q.2)).then
        (r.select.compareRows m.table p.1 q.1) := by
  obtain ⟨ks, hks⟩ := m.keys p hp
  obtain ⟨ls, hls⟩ := m.keys q hq
  rw [Select.compareRows, Select.compareRows, m.keys?_sort hkeys hp hks, m.keys?_sort hkeys hq hls,
    hks, hls]
  change Sorting.compareDirected ((orderBy ++ r.select.orderBy).map Prod.snd) _ _ = _
  rw [List.map_append]
  exact Sorting.compareDirected_append (m.keys_length hkeys (List.mem_map_of_mem hp))
    (m.keys_length hkeys (List.mem_map_of_mem hq))

/-- Further keys sort an open relation before those it has. -/
def sort (hdistinct : r.select.distinct = false) :
    Meaning input P { r with select := { r.select with orderBy := orderBy ++ r.select.orderBy } } where
  table := m.table
  origin := m.origin
  rows := m.rows
  kept := m.kept
  origin_eq := m.origin_eq
  rows_eq := m.rows_eq
  ungrouped := m.ungrouped
  kept_eq := m.kept_eq
  keys := by
    intro p hp
    obtain ⟨ks, hks⟩ := m.keys p hp
    exact ⟨_, m.keys?_sort hkeys hp hks⟩
  ranks := ((m.ranks_keys hkeys hranked).lex m.ranks).congr fun p hp q hq =>
    m.compareRows_sort hkeys hp hq
  reads := m.reads
  among := m.among
  unordered h := by
    rw [hdistinct] at h
    cases h
  forward := ⟨m.forward.limit, m.forward.offset⟩
  length_lt := m.length_lt

theorem elements_sort (hopen : r.isOpen = true) (hdistinct : r.select.distinct = false) :
    (m.sort hkeys hranked hdistinct).elements =
      Sorting.rows (m.elements.map fun v => ⟨keys v, v⟩) (orderBy.map Prod.snd) := by
  have hstill : Relation.isOpen { r with
      select := { r.select with orderBy := orderBy ++ r.select.orderBy } } = true := hopen
  have hsorted : (m.sort hkeys hranked hdistinct).sorted = Sorting.sortBy
      (fun p q => Sorting.compareDirected (orderBy.map Prod.snd) (keys p.2) (keys q.2)) m.sorted :=
    (Sorting.stable_congr fun p hp q hq =>
      congrArg (· == Ordering.lt) (m.compareRows_sort hkeys hp hq)).trans
      (Sorting.sortBy_sortBy (m.ranks_keys hkeys hranked) m.ranks).symm
  have hmem : m.sorted.map Prod.snd ⊆ m.kept.map Prod.snd := by
    intro v hv
    obtain ⟨p, hp, rfl⟩ := List.mem_map.1 hv
    exact List.mem_map_of_mem (Sorting.mem_sortBy.1 hp)
  rw [elements, elements, window_of_isOpen _ hopen, window_of_isOpen _ hstill, hsorted,
    Sorting.rows_elements (fun v hv => m.keys_length hkeys (hmem hv))
      (fun j => (hranked j).mono (List.map_subset _ hmem))]
  exact (Sorting.stable_map (fun a b =>
    Sorting.compareDirected (orderBy.map Prod.snd) (keys a) (keys b) == .lt) Prod.snd m.sorted).symm

end Keys

/-- A slice narrows the bounds. -/
def slice (m : Meaning input P r) (start stop : Option Int64) :
    Meaning input P { r with select := r.select.slice start stop } where
  table := m.table
  origin := m.origin
  rows := m.rows
  kept := m.kept
  origin_eq := m.origin_eq
  rows_eq := m.rows_eq
  ungrouped := m.ungrouped
  kept_eq := m.kept_eq
  keys := m.keys
  ranks := m.ranks
  reads := m.reads
  among := m.among
  unordered := m.unordered
  forward := Select.isForward_slice _ _ _
  length_lt := m.length_lt

theorem elements_slice (m : Meaning input P r) {start stop : Option Int64}
    (hforward : Step.isForward start stop = true) :
    (m.slice start stop).elements = Window.between start stop m.elements := by
  rw [elements, elements, window, window, ← Select.bounded_map, ← Select.bounded_map]
  refine Select.bounded_slice m.forward hforward ?_
  rw [List.length_map]
  exact m.length_lt_of_sublist m.listed_sublist

/-- Equal elements are dropped from a relation without bounds. -/
def distinct (m : Meaning input P r) (horder : r.select.orderBy = []) :
    Meaning input P { r with select := { r.select with distinct := true } } where
  table := m.table
  origin := m.origin
  rows := m.rows
  kept := m.kept
  origin_eq := m.origin_eq
  rows_eq := m.rows_eq
  ungrouped := m.ungrouped
  kept_eq := m.kept_eq
  keys := m.keys
  ranks := m.ranks
  reads := m.reads
  among := m.among
  unordered _ := horder
  forward := ⟨m.forward.limit, m.forward.offset⟩
  length_lt := m.length_lt

theorem elements_distinct (m : Meaning input P r) (horder : r.select.orderBy = [])
    (hbounds : r.select.isUnbounded = true) :
    (m.distinct horder).elements = Value.firsts m.elements := by
  have hmap : ∀ ps : List (Fields Value × Value),
      (ps.eraseDupsBy fun b a => a.2.isEq b.2).map Prod.snd = Value.firsts (ps.map Prod.snd) :=
    fun ps => (Occurrences.eraseDupsBy_map (r := fun b a => a.isEq b) Prod.snd ps
      fun _ _ _ _ => rfl).symm
  have hunbounded : Select.isUnbounded { r.select with distinct := true } = true := hbounds
  rw [elements, elements, window, window, Select.bounded_of_unbounded hbounds,
    Select.bounded_of_unbounded hunbounded]
  change (List.eraseDupsBy _ m.sorted).map Prod.snd = _
  rw [hmap, listed]
  split
  · rw [hmap]
    exact (Occurrences.eraseDupsBy_idem _ _).symm
  · rfl

end Meaning

end QueryPushdown.Sql.Relation
