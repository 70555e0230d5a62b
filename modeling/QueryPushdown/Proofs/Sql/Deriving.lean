import QueryPushdown.Proofs.Sql.Operations

/-!
# Derived tables

The rows of a derived table hold the columns selected for what they stood for, and the sort keys in
further columns, by which they are in order already. So a derived table stands for the sequence of the
relation that it was made of, and no bounds are left.
-/

namespace QueryPushdown.Sql.Relation

namespace Renders

variable {r : Relation} {p : Place} {m : Nat} {isOrdered : Bool} {ys : Yields}

section Derived

variable {input : Input} {columns : List (Expr × String)} {orderBy : List (Expr × Bool)}
  {row outer : Current} {n : Nat}

/-- Keys read from hidden columns are the keys they hold. -/
theorem evalOrder_hiddenKeys {number start : Nat} {fields : Fields Value} {ks : List Value}
    (hlength : ks.length = orderBy.length)
    (hfields : ∀ i k, ks[i]? = some k → Fields.get? fields (orderName (start + i)) = some k) :
    evalOrder input [] ((number, fields) :: outer) (hiddenKeys number start orderBy) = ks := by
  induction orderBy generalizing ks start with
  | nil =>
    rw [List.length_eq_zero_iff.1 hlength]
    rfl
  | cons key orderBy ih =>
    cases ks with
    | nil => cases hlength
    | cons k ks =>
      have hmore : ∀ i u, ks[i]? = some u →
          Fields.get? fields (orderName (start + 1 + i)) = some u := fun i u hi => by
        rw [Nat.add_assoc, Nat.add_comm 1]
        exact hfields (i + 1) u hi
      have hrest := ih (Nat.succ.inj hlength) hmore
      have hfirst : Fields.get? fields (orderName start) = some k := hfields 0 k rfl
      rw [hiddenKeys, List.zipIdx_cons, List.map_cons]
      change Expr.eval input [] _ (.column (some number) (orderName start)) ::
        evalOrder input [] _ (hiddenKeys number (start + 1) orderBy) = _
      rw [hrest, Expr.eval, Current.read, List.lookup_cons_self]
      exact congrArg (· :: ks) (congrArg (Option.getD · Value.null) hfirst)

theorem evalColumns_hidden {members : List Current} (orderBy : List (Expr × Bool)) :
    evalColumns input members row (orderBy.zipIdx.map fun key => (key.1.1, orderName key.2)) =
      numbered orderName 0 (evalOrder input members row orderBy) := by
  have hcolumns : (orderBy.zipIdx.map fun key => (key.1.1, orderName key.2)) =
      (orderBy.map Prod.fst).zipIdx.map fun e => (e.1, orderName e.2) := by
    rw [List.zipIdx_map, List.map_map]
    rfl
  rw [hcolumns, evalColumns_zipIdx, evalOrder_eq, List.map_map]
  rfl

theorem any_hiddenColumns (h : ∀ key ∈ orderBy, key.1.aggregates = false) :
    (orderBy.zipIdx.map fun key => (key.1.1, orderName key.2)).any
      (fun column => column.1.aggregates) = false := by
  rw [List.any_map, List.any_eq_false]
  intro key hkey
  rw [Bool.not_eq_true]
  exact h key.1 (List.fst_mem_of_mem_zipIdx hkey)

/-- A derived table that is in order already stands for what its rows hold. -/
theorem of_rows {α : Type} {xs : List α} {out : α → Fields Value} (keys : α → List Value)
    (hrows : (withHidden r.select columns).rows p.input p.row = xs.map out)
    (hkeys : ∀ x ∈ xs, (keys x).length = r.select.orderBy.length ∧
      ∀ i k, (keys x)[i]? = some k → Fields.get? (out x) (orderName i) = some k)
    (hranks : Sorting.Ranks (fun x y => Sorting.compareDirected (r.select.orderBy.map Prod.snd)
      (keys x) (keys y)) xs)
    (hsorted : Sorting.IsSorted (fun x y => Sorting.compareDirected
      (r.select.orderBy.map Prod.snd) (keys x) (keys y)) xs)
    (hlength : xs.length < 2 ^ 63) (hn : p.next ≤ n)
    (hbacked : ys.Backed (fun x v =>
      (r.shape.rebase n).Holds ((p.upto (n + 1)).on ((n, out x) :: p.row)) v) xs) :
    (r.derived columns n).Renders p (n + 1) isOrdered ys := by
  have hkept : (r.derived columns n).select.kept p.input p.row =
      xs.map fun x => (n, out x) :: p.row := by
    change List.filter _ (Origin.rows p.input p.row (.derived (withHidden r.select columns) n)) = _
    rw [Origin.rows, hrows, List.map_map]
    exact List.filter_eq_self.2 fun _ _ => rfl
  have hcompare : ∀ x ∈ xs, ∀ y ∈ xs,
      compareBy p.input (r.derived columns n).select.orderBy ((n, out x) :: p.row)
        ((n, out y) :: p.row) =
      Sorting.compareDirected (r.select.orderBy.map Prod.snd) (keys x) (keys y) := by
    intro x hx y hy
    have hread : ∀ z ∈ xs, evalOrder p.input [] ((n, out z) :: p.row)
        (hiddenKeys n 0 r.select.orderBy) = keys z := fun z hz =>
      evalOrder_hiddenKeys (hkeys z hz).1 fun i k hk => by
        rw [Nat.zero_add]
        exact (hkeys z hz).2 i k hk
    change Sorting.compareDirected ((hiddenKeys n 0 r.select.orderBy).map Prod.snd)
      (evalOrder p.input [] _ (hiddenKeys n 0 r.select.orderBy))
      (evalOrder p.input [] _ (hiddenKeys n 0 r.select.orderBy)) = _
    rw [Meaning.map_snd_hiddenKeys, hread x hx, hread y hy]
  have hranked : Sorting.Ranks (compareBy p.input (r.derived columns n).select.orderBy)
      (xs.map fun x => (n, out x) :: p.row) := .map (hranks.congr hcompare)
  have hplaced : (r.derived columns n).sortedRows p.input p.row =
      xs.map fun x => (n, out x) :: p.row := by
    rw [sortedRows, hkept]
    refine Sorting.sortBy_of_sorted hranked (List.pairwise_map.2 ?_)
    exact hsorted.imp_of_mem fun {x y} hx hy hle =>
      (congrArg Ordering.isLE (hcompare x hx y hy)).trans hle
  refine ⟨rfl, ?_, ?_, fun hdistinct => (by cases hdistinct), .of_unbounded rfl,
    fun _ h => (by cases h), ?_, fun _ _ => hplaced.trans hkept.symm, fun _ => ?_⟩
  · rw [hkept]
    exact List.forall_mem_map.2 fun x _ => .cons _ _ hn
  · rw [hkept]
    exact hranked
  · rw [hkept, List.length_map]
    exact hlength
  · rw [windowRows_of_isOpen rfl, hplaced]
    exact hbacked.map fun x _ v _ hv => hv

/-- A derived table of plain columns stands for what the relation stands for. -/
theorem derived (h : r.Renders p n isOrdered ys) (hsound : r.Sound)
    (hcolumns : r.shape.selected = .ok columns) (hn : p.next ≤ n) :
    (r.derived columns n).Renders p (n + 1) isOrdered ys := by
  obtain ⟨es, hes⟩ := Shape.columns_of_selected hcolumns
  have hrows : (withHidden r.select columns).rows p.input p.row =
      (r.windowRows p.input p.row).map fun row => evalColumns p.input [] row columns ++
        numbered orderName 0 (evalOrder p.input [] row r.select.orderBy) := by
    refine (rows_eq_windowRows h.ungrouped ?_ fun hdistinct a b => ?_).trans
      (List.map_congr_left fun row _ => ?_)
    · rw [List.any_append, any_selected hcolumns, hsound.shape.plain,
        any_hiddenColumns hsound.keys]
      rfl
    · rw [h.unsorted hdistinct, cellsOn, cellsOn, hes]
      exact (congrArg₂ _ (congrArg _ (List.append_nil _)) (congrArg _ (List.append_nil _))).trans
        (sameColumns_selected hcolumns hes a b)
    · rw [evalColumns_append, evalColumns_hidden]
  refine of_rows (fun row => evalOrder p.input [] row r.select.orderBy) hrows
    (fun row _ => ⟨?_, fun i k hk => ?_⟩) (h.ranks.mono fun row => mem_kept_of_mem_windowRows)
    ((Sorting.sortBy_sorted h.ranks).sublist windowRows_sublist) ?_ hn ?_
  · rw [evalOrder_eq, List.length_map]
  · obtain ⟨vs, hvs⟩ := @evalColumns_selected p.input [] row _ _ hcolumns
    rw [hvs, get?_numbered_of_ne fun j => columnName_ne_orderName j i, ← Nat.zero_add i,
      ← List.append_nil (numbered orderName 0 _)]
    exact get?_numbered orderName_inj hk
  · have hle := (@windowRows_sublist r p.input p.row).length_le
    rw [length_sortedRows] at hle
    exact Nat.lt_of_le_of_lt hle h.length_lt
  · refine (h.backed fun _ => ⟨es, hes⟩).imp fun row _ v _ hv => ?_
    rw [show evalColumns p.input [] row columns = numbered Shape.columnName 0 (cells v) from
      hv.evalColumns hcolumns (Place.admits_on [])]
    exact hv.rebase hes (Nat.lt_succ_self n) _

/-- A relation that is kept, or turned into a derived table, stands for the same sequence. -/
theorem opened {keep : Bool} {r' : Relation} (h : r.Renders p n isOrdered ys) (hsound : r.Sound)
    (hopen : r.Opens keep n r' m) (hn : p.next ≤ n) : r'.Renders p m isOrdered ys := by
  cases hopen with
  | kept => exact h
  | derived hcolumns => exact h.derived hsound hcolumns hn

end Derived

end Renders

theorem Opens.isOpen {r r' : Relation} {n m : Nat} (h : r.Opens r.isOpen n r' m) :
    r'.isOpen = true := by
  cases h with
  | kept hopen => exact hopen
  | derived => rfl

theorem Opens.distinct_eq_false {r r' : Relation} {n m : Nat}
    (h : r.Opens (!r.select.distinct) n r' m) : r'.select.distinct = false := by
  cases h with
  | kept hopen => simpa using hopen
  | derived => rfl

theorem Opens.isUnbounded {r r' : Relation} {n m : Nat}
    (h : r.Opens r.select.isUnbounded n r' m) : r'.select.isUnbounded = true := by
  cases h with
  | kept hopen => exact hopen
  | derived => rfl

end QueryPushdown.Sql.Relation
