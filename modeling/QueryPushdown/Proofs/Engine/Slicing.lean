import QueryPushdown.Proofs.Document.Stages
import QueryPushdown.Proofs.Eval.Steps
import QueryPushdown.Proofs.Sql.Bounds

/-!
# Slices one after the other

A find and a select keep one window for all the slices they take, each in words of its own. Applied
once, both windows cut out of a list what the interpreter cuts out slice by slice.
-/

namespace QueryPushdown

/-- The bounds of slices, the first slice first. -/
abbrev Slices := List (Option Int64 × Option Int64)

namespace Slices

/-- All bounds count from the start. -/
def IsForward (bounds : Slices) : Prop := ∀ b ∈ bounds, Step.isForward b.1 b.2 = true

instance (bounds : Slices) : Decidable bounds.IsForward :=
  decidable_of_iff (bounds.all fun b => Step.isForward b.1 b.2) List.all_eq_true

/-- A sequence, sliced by the interpreter. -/
def run (bounds : Slices) (ps : Pulls) : Run Pulls :=
  bounds.foldlM (fun ps b => Window.slice ps b.1 b.2) ps

/-- A query for documents, sliced. -/
def find (bounds : Slices) (q : Find) : Find := bounds.foldl (fun q b => q.slice b.1 b.2) q

/-- A select, sliced. -/
def select (bounds : Slices) (s : Sql.Select) : Sql.Select :=
  bounds.foldl (fun s b => s.slice b.1 b.2) s

theorem select_cons (b : Option Int64 × Option Int64) (bounds : Slices) (s : Sql.Select) :
    select (b :: bounds) s = select bounds (s.slice b.1 b.2) := List.foldl_cons ..

/-- What slices leave of a list. -/
def among (bounds : Slices) (vs : List Value) : List Value :=
  bounds.foldl (fun vs b => Window.between b.1 b.2 vs) vs

theorem among_cons (b : Option Int64 × Option Int64) (bounds : Slices) (vs : List Value) :
    among (b :: bounds) vs = among bounds (Window.between b.1 b.2 vs) := List.foldl_cons ..

end Slices

/-- A slice from the start stays lazy and yields the part of the list. -/
theorem Window.slice_forward {start stop : Option Int64}
    (hforward : Step.isForward start stop = true) {ps : Pulls} {vs : List Value}
    (h : ps.yields = Yields.ofList vs) :
    ∃ qs, (slice ps start stop).outcome = .ok qs ∧
      qs.yields = Yields.ofList (between start stop vs) := by
  have hstart : ¬ start.getD 0 < 0 := Int64.not_lt.2 (Step.start_nonneg hforward)
  have hskip : (ps.skip (start.getD 0).toInt.toNat).yields =
      Yields.ofList (vs.drop (start.getD 0).toInt.toNat) := by
    rw [Pulls.yields_skip, h, Yields.skip_ofList]
  simp only [slice, if_neg hstart]
  cases stop with
  | none => exact ⟨_, rfl, hskip⟩
  | some stop =>
    dsimp only
    rw [if_pos (Step.stop_nonneg hforward stop rfl)]
    refine ⟨_, rfl, ?_⟩
    rw [Pulls.yields_take, hskip, Yields.take_ofList]
    rfl

namespace Slices

variable {bounds : Slices}

theorem IsForward.head {b : Option Int64 × Option Int64} (h : IsForward (b :: bounds)) :
    Step.isForward b.1 b.2 = true := h b List.mem_cons_self

theorem IsForward.tail {b : Option Int64 × Option Int64} (h : IsForward (b :: bounds)) :
    IsForward bounds := fun c hc => h c (List.mem_cons_of_mem _ hc)

theorem run_yields (hforward : bounds.IsForward) {ps : Pulls} {vs : List Value}
    (h : ps.yields = Yields.ofList vs) :
    ∃ qs, (bounds.run ps).outcome = .ok qs ∧ qs.yields = Yields.ofList (bounds.among vs) := by
  induction bounds generalizing ps vs with
  | nil => exact ⟨ps, rfl, h⟩
  | cons b bounds ih =>
    obtain ⟨qs, hqs, hyields⟩ := Window.slice_forward hforward.head h
    obtain ⟨rs, hrs, hlast⟩ := ih hforward.tail hyields
    refine ⟨rs, ?_, hlast⟩
    rw [run, List.foldlM_cons, Run.outcome_bind, hqs]
    exact hrs

theorem window_find (q : Find) {vs : List Value} (hlength : vs.length < 2 ^ 64) :
    (bounds.find q).window vs = bounds.among (q.window vs) := by
  induction bounds generalizing q with
  | nil => rfl
  | cons b bounds ih =>
    have hstep := ih (q.slice b.1 b.2)
    rw [Find.window_slice hlength] at hstep
    exact hstep

theorem bounded_select (hforward : bounds.IsForward) {s : Sql.Select} (hs : s.IsForward)
    {vs : List Value} (hlength : vs.length < 2 ^ 63) :
    (bounds.select s).bounded vs = bounds.among (s.bounded vs) := by
  induction bounds generalizing s with
  | nil => rfl
  | cons b bounds ih =>
    rw [select_cons, ih hforward.tail (Sql.Select.isForward_slice s b.1 b.2),
      Sql.Select.bounded_slice hs hforward.head hlength, among_cons]

/-- Slices from the start compose. The windows that a fresh find and a fresh select keep of them,
applied once, cut the same part out of a list as the interpreter, which slices a sequence of its
elements for one pair of bounds after the other. A window that counts as none keeps every list
whole, so that what is merged into the query afterwards acts as it would after the window. -/
theorem windows_compose (collection : String) (bounds : Slices) (hforward : bounds.IsForward) :
    (∀ (vs : List Value) (ps : Pulls), vs.length < 2 ^ 63 → ps.drain.outcome = .ok vs →
      ((bounds.run ps >>= Pulls.drain).outcome =
        .ok ((bounds.find { collection := collection }).window vs)) ∧
      ((bounds.run ps >>= Pulls.drain).outcome = .ok ((bounds.select {}).bounded vs))) ∧
    ((bounds.find { collection := collection }).isWindowed = false →
      ∀ vs, (bounds.find { collection := collection }).window vs = vs) ∧
    ((bounds.select {}).isUnbounded = true →
      ∀ vs : List Value, (bounds.select {}).bounded vs = vs) := by
  refine ⟨fun vs ps hlength hdrain => ?_, fun h vs => Find.window_of_not_isWindowed h,
    fun h vs => Sql.Select.bounded_of_unbounded h vs⟩
  rw [Pulls.outcome_drain] at hdrain
  obtain ⟨qs, hqs, hyields⟩ := run_yields hforward (Yields.eq_ofList_of_collect hdrain)
  have hrun : (bounds.run ps >>= Pulls.drain).outcome = .ok (bounds.among vs) := by
    rw [Run.outcome_bind, hqs]
    change qs.drain.outcome = _
    rw [Pulls.outcome_drain, hyields, Yields.collect_ofList]
  constructor
  · rw [hrun, window_find _ (by omega)]
    rfl
  · rw [hrun, bounded_select hforward (.of_unbounded rfl) hlength]
    rfl

/-- The second slice cuts the stop of the first one short. -/
def overlapping : Slices := [(some 1, some 5), (none, some 2)]

/-- Slices that leave everything. -/
def everything : Slices := [(none, none), (some 0, none)]

/-- Six numbers. -/
def numbers : List Value := [.int 10, .int 20, .int 30, .int 40, .int 50, .int 60]

example : (overlapping.find { collection := "items" }).window numbers = [.int 20, .int 30] := rfl

theorem windows_compose_overlapping :
    overlapping.IsForward ∧ everything.IsForward ∧
    (overlapping.run (Pulls.ofList numbers) >>= Pulls.drain).outcome =
      .ok ((overlapping.find { collection := "items" }).window numbers) ∧
    (overlapping.run (Pulls.ofList numbers) >>= Pulls.drain).outcome =
      .ok ((overlapping.select {}).bounded numbers) ∧
    (everything.find { collection := "items" }).window numbers = numbers ∧
    (everything.select {}).bounded numbers = numbers := by
  have hforward : overlapping.IsForward := by decide
  have hwhole : everything.IsForward := by decide
  have hlength : numbers.length < 2 ^ 63 := by decide
  obtain ⟨hrun, -, -⟩ := windows_compose "items" overlapping hforward
  obtain ⟨hfind, hselect⟩ := hrun numbers (Pulls.ofList numbers) hlength rfl
  obtain ⟨-, hwindow, hbounds⟩ := windows_compose "items" everything hwhole
  exact ⟨hforward, hwhole, hfind, hselect, hwindow rfl numbers, hbounds rfl numbers⟩

end Slices

end QueryPushdown
