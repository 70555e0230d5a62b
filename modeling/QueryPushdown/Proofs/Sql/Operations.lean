import QueryPushdown.Proofs.Eval.Yielding
import QueryPushdown.Proofs.Sql.Standing

/-!
# Row operations

What changes when the select of a relation is changed in place: a conjunct keeps the rows of the
elements that pass its test, a transform changes what rows stand for, further keys sort them, bounds cut
them and `DISTINCT` drops rows of equal elements. A derived table has the rows that were left.
-/

namespace QueryPushdown.Sql.Relation

namespace Renders

variable {r : Relation} {p : Place} {k m : Nat} {isOrdered : Bool} {ys : Yields} {vs : List Value}

section Filter

variable {e : Expr} {test : Value → Outcome Bool}

theorem kept_restricted (input : Input) (outer : Current) :
    (r.restricted e).select.kept input outer =
      (r.select.kept input outer).filter fun row => (e.eval input [] row).holds := by
  unfold Select.kept
  rw [List.filter_filter]
  refine List.filter_congr fun row _ => ?_
  change (evalAll input [] row (r.select.filter ++ [e])).all Value.holds = _
  rw [evalAll_eq, evalAll_eq, List.map_append, List.all_append, Bool.and_comm]
  congr 1
  exact Bool.and_true _

/-- A conjunct keeps the rows of the elements that pass its test. -/
theorem restricted (h : r.Renders p k isOrdered ys) (hopen : r.isOpen = true) (hkm : k ≤ m)
    (he : ∀ row ∈ r.select.kept p.input p.row, ∀ v, .ok v ∈ ys →
      r.shape.Holds ((p.upto k).on row) v → ∀ b, test v = .ok b →
      e.Denotes ((p.upto m).on row) (.bool b)) :
    (r.restricted e).Renders p m isOrdered (Yields.keep test ys) := by
  have hkept := kept_restricted (r := r) (e := e) p.input p.row
  have hsub : (r.restricted e).select.kept p.input p.row ⊆ r.select.kept p.input p.row := by
    rw [hkept]
    exact List.filter_subset_self _
  have hsorted : (r.restricted e).sortedRows p.input p.row =
      (r.sortedRows p.input p.row).filter fun row => (e.eval p.input [] row).holds := by
    rw [sortedRows, hkept]
    exact (Sorting.filter_sortBy h.ranks _).symm
  have hbacked : (Yields.keep test ys).Backed
      (fun row v => r.shape.Holds ((p.upto k).on row) v)
      ((r.restricted e).sortedRows p.input p.row) := by
    rw [hsorted]
    refine (h.backed_of_isOpen hopen).keep fun row hrow v hv hread b hb => ?_
    have heval := (he row (mem_sortedRows.1 hrow) v hv hread b hb).eval_on []
    change (e.eval p.input [] row).holds = b
    rw [show e.eval p.input [] row = .bool b from heval]
    cases b <;> rfl
  refine ⟨h.ungrouped, fun row hrow => h.agree row (hsub hrow), h.ranks.mono hsub, h.unsorted,
    ⟨h.forward.limit, h.forward.offset⟩, h.positive, ?_, fun ho _ => ?_, fun _ => ?_⟩
  · rw [hkept]
    exact Nat.lt_of_le_of_lt (List.length_filter_le _ _) h.length_lt
  · rw [hsorted, hkept, h.inPlace ho hopen]
  · have hstill : (r.restricted e).isOpen = true := hopen
    rw [windowRows_of_isOpen hstill]
    exact hbacked.imp fun row _ v _ hv => hv.leads (leads_on p row hkm)

end Filter

/-- A transform changes what the rows stand for. -/
theorem mapped (h : r.Renders p k isOrdered ys) (hdistinct : r.select.distinct = false)
    {shape : Shape} {item : Ty} {f : Value → Outcome Value}
    (hf : ∀ row ∈ r.select.kept p.input p.row, ∀ v, .ok v ∈ ys →
      r.shape.Holds ((p.upto k).on row) v → ∀ w, f v = .ok w →
      shape.Holds ((p.upto m).on row) w) :
    ({ r with shape := shape, item := item } : Relation).Renders p m isOrdered
      (Yields.mapWith f ys) := by
  have hlisted : ({ r with shape := shape, item := item } : Relation).listedRows p.input p.row =
      r.listedRows p.input p.row := by
    unfold listedRows
    rw [hdistinct]
    rfl
  have hbacked := h.backed fun hd => by
    rw [hdistinct] at hd
    cases hd
  refine ⟨h.ungrouped, h.agree, h.ranks, h.unsorted, h.forward, h.positive, h.length_lt, h.inPlace,
    fun _ => ?_⟩
  rw [windowRows, hlisted]
  exact hbacked.mapWith fun row hrow v hv hread => hf row (mem_kept_of_mem_windowRows hrow) v hv hread

section Keys

variable {orderBy : List (Expr × Bool)} {keys : Value → List Value}

/-- Further keys sort the rows as the elements are sorted by theirs. -/
theorem orderedBy (h : r.Renders p k isOrdered (Yields.ofList vs)) (hopen : r.isOpen = true)
    (hkm : k ≤ m)
    (hkeys : ∀ row ∈ r.select.kept p.input p.row, ∀ v ∈ vs, r.shape.Holds ((p.upto k).on row) v →
      evalOrder p.input [] row orderBy = keys v)
    (hlength : ∀ v ∈ vs, (keys v).length = (orderBy.map Prod.snd).length)
    (hranked : ∀ j, Sorting.RankedAt (vs.map fun v => ⟨keys v, v⟩) j) :
    (r.orderedBy orderBy).Renders p m true (Yields.ofList
      (Sorting.rows (vs.map fun v => ⟨keys v, v⟩) (orderBy.map Prod.snd))) := by
  have hpaired : List.Forall₂ (fun row v => r.shape.Holds ((p.upto k).on row) v ∧
      evalOrder p.input [] row orderBy = keys v) (r.sortedRows p.input p.row) vs :=
    ((h.backed_of_isOpen hopen).imp fun row hrow v hv hread =>
      ⟨hread, hkeys row (mem_sortedRows.1 hrow) v (Yields.ok_mem_ofList.1 hv) hread⟩).forall₂
  have hranks : Sorting.Ranks (compareBy p.input orderBy) (r.select.kept p.input p.row) := by
    refine (Sorting.Ranks.lockstep (fun a b v w ha hb => ?_) hpaired
      (Sorting.ranks_of_keys hlength hranked)).mono fun row hrow => mem_sortedRows.2 hrow
    exact congrArg₂ _ ha.2 hb.2
  have hsorted : (r.orderedBy orderBy).sortedRows p.input p.row =
      Sorting.sortBy (compareBy p.input orderBy) (r.sortedRows p.input p.row) :=
    (Sorting.stable_congr fun a _ b _ =>
      congrArg (· == Ordering.lt) (compareBy_append p.input orderBy r.select.orderBy a b)).trans
      (Sorting.sortBy_sortBy hranks h.ranks).symm
  have hstill : (r.orderedBy orderBy).isOpen = true := hopen
  refine ⟨h.ungrouped, h.agree, (hranks.lex h.ranks).congr fun a _ b _ => compareBy_append _ _ _ a b,
    fun hdistinct => ?_, ⟨h.forward.limit, h.forward.offset⟩, h.positive, h.length_lt,
    fun ho => (nomatch ho), fun _ => ?_⟩
  · have hopen := distinct_of_isOpen hstill
    rw [hdistinct] at hopen
    cases hopen
  · rw [windowRows_of_isOpen hstill, hsorted, Sorting.rows_elements hlength hranked]
    refine (Yields.Backed.ofList (Sorting.stable_lockstep (fun a b v w ha hb => ?_) hpaired)).imp
      fun row _ v _ hv => hv.1.leads (leads_on p row hkm)
    exact congrArg (· == Ordering.lt) (congrArg₂ _ ha.2 hb.2)

end Keys

section Slice

variable {start stop : Option Int64}

/-- A slice stores no offset but a positive one. -/
theorem offset_pos_of_slice (s : Select) {offset : Int64}
    (h : (s.slice start stop).offset = some offset) : 0 < offset := by
  unfold Select.slice at h
  dsimp only at h
  split at h
  · rename_i hpositive
    cases h
    exact hpositive
  · cases h

/-- Bounds that leave all rows in place were there before, and the slice sets none. -/
theorem isOpen_of_sliced (h : r.Renders p m isOrdered ys)
    (hforward : Step.isForward start stop = true) (hopen : (r.sliced start stop).isOpen = true) :
    r.isOpen = true ∧ start.getD 0 = 0 ∧ stop = none := by
  obtain ⟨hbounds, hdistinct⟩ := Bool.and_eq_true_iff.1 hopen
  obtain ⟨hlimit, hoffset⟩ := Bool.and_eq_true_iff.1 hbounds
  have hlimits := Select.limit_slice h.forward hforward
  have hoffsets := Select.place_offset_slice h.forward hforward
  rw [show (r.select.slice start stop).limit = none from Option.isNone_iff_eq_none.1 hlimit]
    at hlimits
  rw [show (r.select.slice start stop).offset = none from Option.isNone_iff_eq_none.1 hoffset]
    at hoffsets
  have hzero : ∀ {a : Int64}, 0 ≤ a → Select.place a = 0 → a = 0 := fun {a} ha hplace => by
    have ha := Select.toInt_nonneg.1 ha
    rw [Select.place] at hplace
    refine Int64.toInt_inj.1 ?_
    change a.toInt = 0
    omega
  have hplaces : Select.place (r.select.offset.getD 0) = 0 ∧ Select.place (start.getD 0) = 0 := by
    change 0 = _ at hoffsets
    omega
  have hnone : r.select.limit = none ∧ stop = none := by
    cases hl : r.select.limit <;> cases hs : stop <;> rw [hl, hs] at hlimits <;>
      first | exact ⟨rfl, rfl⟩ | cases hlimits
  have hstored : r.select.offset = none := by
    cases ho : r.select.offset with
    | none => rfl
    | some offset =>
      have hpositive := h.positive offset ho
      rw [ho] at hplaces
      rw [hzero (h.forward.offset offset ho) hplaces.1] at hpositive
      exact absurd hpositive (by decide)
  refine ⟨?_, hzero (Step.start_nonneg hforward) hplaces.2, hnone.2⟩
  rw [isOpen, Select.isUnbounded, hnone.1, hstored]
  exact hdistinct

/-- A slice cuts out rows as it cuts out elements. -/
theorem sliced (h : r.Renders p m isOrdered ys) (hforward : Step.isForward start stop = true) :
    (r.sliced start stop).Renders p m (start.getD 0 == 0 && stop.isNone && isOrdered)
      (Yields.between start stop ys) := by
  have hlength : (r.listedRows p.input p.row).length < 2 ^ 63 := by
    have hle := (@listedRows_sublist r p.input p.row).length_le
    have hlt := h.length_lt
    rw [length_sortedRows] at hle
    omega
  refine ⟨h.ungrouped, h.agree, h.ranks, h.unsorted, Select.isForward_slice _ _ _,
    fun _ => offset_pos_of_slice r.select, h.length_lt, fun ho hopen => ?_, fun hdistinct => ?_⟩
  · obtain ⟨hkept, hstart, rfl⟩ := h.isOpen_of_sliced hforward hopen
    rw [hstart] at ho
    exact h.inPlace ho hkept
  · have hbacked := h.backed hdistinct
    have hwindow : (r.sliced start stop).windowRows p.input p.row = _ :=
      Select.bounded_slice_eq h.forward hforward hlength
    rw [hwindow]
    cases stop with
    | none => exact hbacked.skip _
    | some stop => exact (hbacked.skip _).take _

end Slice

/-- Rows of equal columns stand for equal elements, of which the first ones are kept. -/
theorem deduplicated (h : r.Renders p m isOrdered ys) (hunbounded : r.select.isUnbounded = true)
    (horder : r.select.orderBy = []) {ty : Ty} (hfits : r.shape.Fits ty) (hty : ty.Distinct) :
    r.deduplicated.Renders p m false (Yields.distinct {} ys) := by
  have hstill : r.deduplicated.select.isUnbounded = true := hunbounded
  refine ⟨h.ungrouped, h.agree, h.ranks, fun _ => horder, ⟨h.forward.limit, h.forward.offset⟩,
    h.positive, h.length_lt, fun _ hopen => ?_, fun hdistinct => ?_⟩
  · cases distinct_of_isOpen hopen
  obtain ⟨es, (hes : r.shape.columns = .ok es)⟩ := hdistinct rfl
  have hbacked := h.backed fun _ => ⟨es, hes⟩
  rw [windowRows, Select.bounded_of_unbounded hunbounded] at hbacked
  rw [windowRows, Select.bounded_of_unbounded hstill]
  have hsame : ∀ a v b w, r.shape.Holds ((p.upto m).on a) v → r.shape.Holds ((p.upto m).on b) w →
      Value.isEqItems (r.cellsOn p.input a) (r.cellsOn p.input b) = v.isEq w := by
    intro a v b w ha hb
    have hcells : ∀ {c : Current} {u : Value}, r.shape.Holds ((p.upto m).on c) u →
        r.cellsOn p.input c = u.leaves := fun {c u} hc => by
      rw [cellsOn, hes]
      exact hc.evalAll hes (Place.admits_on [])
    rw [hcells ha, hcells hb, ha.isEq hb hfits hty hes]
  have hlisted : r.deduplicated.listedRows p.input p.row = (r.listedRows p.input p.row).eraseDupsBy
      fun b a => Value.isEqItems (r.cellsOn p.input a) (r.cellsOn p.input b) := by
    change (r.sortedRows p.input p.row).eraseDupsBy _ = _
    rw [listedRows]
    split
    · exact (Occurrences.eraseDupsBy_idem _ _).symm
    · rfl
  rw [hlisted]
  exact hbacked.distinct hsame

end Renders

end QueryPushdown.Sql.Relation
