import QueryPushdown.Document.Answer
import QueryPushdown.Proofs.Document.Finding

/-!
# Answers of finds

What a compiled find answers is the eager value of its request. It does answer when every prefix of
the request has a value and no filter meets a test that is not boolean.
-/

namespace QueryPushdown

theorem Outcome.length_of_mapM {α β : Type} {f : α → Outcome β} {xs : List α} {ys : List β}
    (h : xs.mapM f = .ok ys) : ys.length = xs.length :=
  (Outcome.mapM_eq_ok.1 h).length_eq.symm

namespace Find

variable {schema : Schema} {input : Input} {elements vs : List Value} {q : Find} {t : Term}
  {w : Value}

/-- What a find makes of the elements that it found and projected. -/
def finish (q : Find) (vs : List Value) : Outcome Value :=
  if q.count then pure (.int (Int64.ofNat vs.length))
  else match q.single with
    | none => pure (.list vs)
    | some s => s.choose vs

theorem finish_single (h : q.count = false) (s : Single) :
    finish { q with single := some s } vs = s.choose vs := by
  simp [finish, h]

theorem matched_eq_ok {f : Filter} {documents : List Document} {kept : List Value}
    (hE : documents.mapM Document.toValue = .ok elements) (h : matched f documents = .ok kept) :
    kept = elements.filter fun v => Filter.truth .strong v f == some true := by
  replace hE := Outcome.mapM_eq_ok.1 hE
  induction hE generalizing kept with
  | nil =>
    cases h
    rfl
  | @cons d v documents others hv _ ih =>
    rw [matched] at h
    obtain ⟨v', hv', h⟩ := Outcome.bind_eq_ok.1 h
    rw [hv] at hv'
    cases hv'
    obtain ⟨accepted, haccepted, h⟩ := Outcome.bind_eq_ok.1 h
    obtain ⟨rest, hrest, h⟩ := Outcome.bind_eq_ok.1 h
    cases h
    rw [List.filter_cons, Filter.truth_of_accepts haccepted, ← ih hrest]
    cases accepted <;> rfl

/-- Elements are matched when the filter has a truth on all of them. -/
theorem matched_of_truth {f : Filter} {documents : List Document}
    (hE : documents.mapM Document.toValue = .ok elements)
    (h : ∀ v ∈ elements, ∃ b, Filter.truth .weak v f = some b) :
    ∃ kept, matched f documents = .ok kept := by
  replace hE := Outcome.mapM_eq_ok.1 hE
  induction hE with
  | nil => exact ⟨[], rfl⟩
  | @cons d v documents others hv _ ih =>
    obtain ⟨⟨accepted, haccepted⟩, hothers⟩ := List.forall_mem_cons.1 h
    obtain ⟨rest, hrest⟩ := ih hothers
    refine ⟨if accepted then v :: rest else rest, ?_⟩
    simp only [matched, hv, Filter.accepts_of_truth haccepted, hrest, bind, Except.bind]
    rfl

theorem projected_eq_ok {ws : List Value} (h : projected q.projection vs = .ok ws) :
    ws = vs.map q.image := by
  cases hp : q.projection with
  | none =>
    rw [hp] at h
    cases h
    rw [map_image_of_isNone hp]
  | some p =>
    rw [hp] at h
    change vs.mapM p.apply = .ok ws at h
    have himage : q.image = fun v => (p.apply v).orNull := by
      funext v
      rw [image, hp]
    rw [himage]
    replace h := Outcome.mapM_eq_ok.1 h
    induction h with
    | nil => rfl
    | cons hx _ ih =>
      rw [List.map_cons, ih, hx]
      rfl

theorem projected_of_apply (h : ∀ p, q.projection = some p → ∀ v ∈ vs, ∃ w, p.apply v = .ok w) :
    ∃ ws, projected q.projection vs = .ok ws := by
  cases hp : q.projection with
  | none => exact ⟨vs, rfl⟩
  | some p =>
    replace h := h p hp
    change ∃ ws, vs.mapM p.apply = .ok ws
    induction vs with
    | nil => exact ⟨[], rfl⟩
    | cons v vs ih =>
      obtain ⟨w, hw⟩ := h v List.mem_cons_self
      obtain ⟨ws, hws⟩ := ih fun u hu => h u (List.mem_cons_of_mem _ hu)
      refine ⟨w :: ws, ?_⟩
      rw [List.mapM_cons, hw, hws]
      rfl

theorem eager_one {context : String} : (Step.one.eager input (.list vs) = .ok w) ↔
    (Single.one none context).choose vs = .ok w := by
  rcases vs with - | ⟨v, - | ⟨u, vs⟩⟩
  · exact ⟨fun h => (by cases h), fun h => (by cases h)⟩
  · exact Iff.rfl
  · exact ⟨fun h => (by cases h), fun h => (by cases h)⟩

theorem eager_oneOr {context : String} {id : Nat} {d : Value} :
    ((Step.oneOr (.literal id d)).eager input (.list vs) = .ok w) ↔
      (Single.one (some d) context).choose vs = .ok w := by
  rcases vs with - | ⟨v, - | ⟨u, vs⟩⟩
  · exact Iff.rfl
  · exact Iff.rfl
  · exact ⟨fun h => (by cases h), fun h => (by cases h)⟩

theorem eager_len : (Step.aggregate .len).eager input (.list vs) =
    .ok (.int (Int64.ofNat vs.length)) := Step.outcome_aggregate .len

theorem choose_index {position : Int64} (h : 0 ≤ position) (vs : List Value) :
    (Single.index position.toInt.toNat).choose vs = Value.nth position vs := by
  have hpositive : 0 ≤ position.toInt := by simpa [Int64.le_iff_toInt_le] using h
  have hposition : Int64.ofNat position.toInt.toNat = position := by
    rw [← Int64.ofInt_eq_ofNat, Int.toNat_of_nonneg hpositive, Int64.ofInt_toInt]
  cases hv : vs[position.toInt.toNat]? with
  | none => simp only [Single.choose, Value.nth, hv, hposition]
  | some v => simp only [Single.choose, Value.nth, hv]

theorem eager_index {position : Int64} (h : 0 ≤ position) :
    (Step.index position).eager input (.list vs) =
      (Single.index position.toInt.toNat).choose vs := by
  rw [choose_index h]
  exact Step.outcome_index_forward h vs

/-- A whole request compiles to the find of a list and the choice of an element or a count. -/
theorem ofTerm_eq_ok (input : Input) (h : ofTerm schema t = .ok q) :
    ∃ (body : Term) (p : Find), ofList schema body = .ok p ∧
      body ∈ t.spine ∧
      q = { p with count := q.count, single := q.single } ∧
      ∀ vs w, body.eager input = .ok (.list vs) →
        (q.finish vs = .ok w ↔ t.eager input = .ok w) := by
  unfold ofTerm at h
  split at h
  · rename_i id body
    obtain ⟨p, hp, h⟩ := Refusal.bind_eq_ok h
    cases h
    refine ⟨body, p, hp, List.mem_cons_of_mem _ body.self_mem_spine, rfl, fun vs w hvs => ?_⟩
    rw [finish_single (ofList_shape hp).2.2.1, Term.eager, hvs]
    exact eager_one.symm
  · rename_i id body default
    split at h
    · rename_i literal d
      obtain ⟨p, hp, h⟩ := Refusal.bind_eq_ok h
      cases h
      refine ⟨body, p, hp, List.mem_cons_of_mem _ body.self_mem_spine, rfl, fun vs w hvs => ?_⟩
      rw [finish_single (ofList_shape hp).2.2.1, Term.eager, hvs]
      exact eager_oneOr.symm
    · cases h
  · rename_i id body position
    dsimp only at h
    split at h
    · cases h
    · rename_i hposition
      obtain ⟨p, hp, h⟩ := Refusal.bind_eq_ok h
      cases h
      refine ⟨body, p, hp, List.mem_cons_of_mem _ body.self_mem_spine, rfl, fun vs w hvs => ?_⟩
      rw [finish_single (ofList_shape hp).2.2.1, Term.eager, hvs]
      change _ ↔ (Step.index position).eager input (.list vs) = .ok w
      rw [eager_index (by simpa using hposition)]
  · rename_i id body
    split at h
    · cases h
    · split at h
      · obtain ⟨p, hp, h⟩ := Refusal.bind_eq_ok h
        cases h
        refine ⟨body, p, hp, List.mem_cons_of_mem _ body.self_mem_spine, rfl, fun vs w hvs => ?_⟩
        rw [Term.eager, hvs]
        change _ ↔ (Step.aggregate .len).eager input (.list vs) = _
        rw [eager_len]
        rfl
      · cases h
  · refine ⟨t, q, h, t.self_mem_spine, rfl, fun vs w hvs => ?_⟩
    obtain ⟨-, -, hcount, hsingle⟩ := ofList_shape h
    rw [hvs, finish, hcount, hsingle]
    rfl

theorem compile_eq_ok (h : compile schema t = .ok q) : ofTerm schema t = .ok q := by
  unfold compile at h
  split at h
  · cases h
  · exact h

theorem answer_eq_ok {documents : List Document} : q.answer documents = .ok w ↔
    ∃ kept ws, matched q.filter documents = .ok kept ∧
      projected q.projection (q.window (sorted q.sort kept)) = .ok ws ∧ q.finish ws = .ok w := by
  change (do
    let kept ← matched q.filter documents
    let ws ← projected q.projection (q.window (sorted q.sort kept))
    q.finish ws : Outcome Value) = _ ↔ _
  constructor
  · intro h
    obtain ⟨kept, hkept, h⟩ := Outcome.bind_eq_ok.1 h
    obtain ⟨ws, hws, h⟩ := Outcome.bind_eq_ok.1 h
    exact ⟨kept, ws, hkept, hws, h⟩
  · rintro ⟨kept, ws, hkept, hws, h⟩
    exact Outcome.bind_eq_ok.2 ⟨kept, hkept, Outcome.bind_eq_ok.2 ⟨ws, hws, h⟩⟩

section

variable {documents : List Document} (h : compile schema t = .ok q)
  (hE : documents.mapM Document.toValue = .ok elements)
  (hinput : input q.collection = .ok elements) (hlen : elements.length < 2 ^ 64)
  (hc : t.Combinable input)

include h hE hinput hlen hc

/-- The answer of a compiled find is the eager value of its request. -/
theorem eager_of_answer (hw : q.answer documents = .ok w) : t.eager input = .ok w := by
  obtain ⟨body, p, hp, hsub, hq, hfinish⟩ := ofTerm_eq_ok input (compile_eq_ok h)
  rw [hq] at hinput
  have hcovers := ofList_covers hp hinput hlen (hc.of_mem_spine hsub)
  obtain ⟨kept, ws, hkept, hws, hw⟩ := answer_eq_ok.1 hw
  refine (hfinish ws w ?_).1 hw
  have hchosen : ws = (p.chosen elements).map p.image := by
    rw [projected_eq_ok hws, matched_eq_ok hE hkept, hq]
    rfl
  rw [hcovers.eager, hchosen]

/-- A compiled find answers when its request has a value on every entry of the chain, and all tests
of its filters are boolean. -/
theorem answer_of_outcome (heval : ∀ entry ∈ t.spine, ∃ u, entry.outcome input [] = .ok u)
    (htests : ∀ v ∈ elements, ∀ c ∈ t.gathered, ∀ d ∈ c.tests, ∃ b,
      d.outcome input [v] = .ok (.bool b)) (hw : t.outcome input [] = .ok w) :
    q.answer documents = .ok w := by
  obtain ⟨body, p, hp, hsub, hq, hfinish⟩ := ofTerm_eq_ok input (compile_eq_ok h)
  rw [hq] at hinput
  have hcovers := ofList_covers hp hinput hlen (hc.of_mem_spine hsub)
  obtain ⟨kept, hkept⟩ : ∃ kept, matched q.filter documents = .ok kept := by
    refine matched_of_truth hE fun v hv => ?_
    rw [hq]
    exact hcovers.decided v fun c hc => Term.truth_of_tests
      (htests v hv c ((Term.gathered_of_mem_spine hsub).subset hc))
  have hkept' := matched_eq_ok hE hkept
  obtain ⟨ws, hws⟩ : ∃ ws, projected q.projection (q.window (sorted q.sort kept)) = .ok ws := by
    refine projected_of_apply fun m hm v hv => ?_
    rw [hkept', hq] at hv
    rw [hq] at hm
    exact ofList_projects hp hinput hlen (hc.of_mem_spine hsub)
      (fun entry he => heval entry (Term.spine_subset_of_mem hsub he)) m hm v hv
  refine answer_eq_ok.2 ⟨kept, ws, hkept, hws, (hfinish ws w ?_).2 (Term.eager_of_outcome hw)⟩
  have hchosen : ws = (p.chosen elements).map p.image := by
    rw [projected_eq_ok hws, hkept', hq]
    rfl
  rw [hcovers.eager, hchosen]

end

end Find

end QueryPushdown
