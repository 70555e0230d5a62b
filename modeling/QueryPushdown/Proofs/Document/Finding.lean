import QueryPushdown.Proofs.Document.Lowering
import QueryPushdown.Proofs.Document.Matching
import QueryPushdown.Proofs.Document.Stages

/-!
# Answers of compiled finds

A request that compiles to a find has the answer of the find as its eager value: stage by stage, the
find chooses the elements that the chain chooses, and projects them as the chain does. Conjuncts of
different filters end up in one filter document, so no two of them may negate the same field; and
what stands at the sort keys has to have an order.
-/

namespace QueryPushdown

/-- Whether a step passes on elements of its subject as they are, wherever they stand. -/
def Step.keepsElements : Step → Bool
  | .filter _ | .sort _ => true
  | .slice start stop => start.getD 0 == 0 && stop.isNone
  | .map (.context _ up) => up == 0
  | _ => false

namespace Term

/-- Whether a chain goes through the elements of a source as they are stored. -/
def isRows : Term → Bool
  | source _ _ => true
  | step _ subject action => action.keepsElements && isRows subject
  | _ => false

/-- Conjuncts of the filters of stored elements. They end up in one filter of a find. -/
def gathered : Term → List Term
  | step _ subject (.filter predicate) =>
    if subject.isRows then gathered subject ++ predicate.conjuncts else gathered subject
  | step _ subject _ => gathered subject
  | _ => []

/-- Paths that stored elements are sorted by. -/
def sortPaths : Term → List String
  | step _ subject (.sort keys) =>
    if subject.isRows then keys.filterMap (fun k => k.1.path?) ++ sortPaths subject
    else sortPaths subject
  | step _ subject _ => sortPaths subject
  | _ => []

/-- The filters and sorts of stored elements can be combined into one of each: no two conjuncts
negate one field, and what stands at the sort keys has an order. -/
structure Combinable (input : Input) (t : Term) : Prop where
  separate : ∀ c ∈ t.gathered, c.Separate
  apart : t.gathered.Pairwise Apart
  ranked : ∀ id name rows, t.head = .source id name → input name = .ok rows →
    ∀ path ∈ t.sortPaths, Value.RankedBy path rows

theorem gathered_sublist (id : Nat) (subject : Term) (action : Step) :
    subject.gathered.Sublist (step id subject action).gathered := by
  cases action with
  | filter predicate =>
    rw [gathered]
    split
    · exact List.sublist_append_left _ _
    · exact List.Sublist.refl _
  | _ => exact List.Sublist.refl _

theorem gathered_of_mem_spine {t entry : Term} (h : entry ∈ t.spine) :
    entry.gathered.Sublist t.gathered :=
  holds_of_mem_spine (P := fun e => e.gathered.Sublist t.gathered)
    (fun id subject action hs => (gathered_sublist id subject action).trans hs)
    (List.Sublist.refl _) h

theorem sortPaths_sublist (id : Nat) (subject : Term) (action : Step) :
    subject.sortPaths.Sublist (step id subject action).sortPaths := by
  cases action with
  | sort keys =>
    rw [sortPaths]
    split
    · exact List.sublist_append_right _ _
    · exact List.Sublist.refl _
  | _ => exact List.Sublist.refl _

theorem gathered_fewer (id id' : Nat) (subject : Term) {predicate kept : Term}
    (hk : kept.conjuncts.Sublist predicate.conjuncts) :
    (step id' subject (.filter kept)).gathered.Sublist
      (step id subject (.filter predicate)).gathered := by
  rw [gathered, gathered]
  split
  · exact (List.append_sublist_append_left _).2 hk
  · exact List.Sublist.refl _

namespace Combinable

variable {input : Input} {s t : Term}

theorem mono (h : t.Combinable input) (hg : s.gathered.Sublist t.gathered)
    (hp : s.sortPaths ⊆ t.sortPaths) (hh : s.head = t.head) : s.Combinable input :=
  ⟨fun c hc => h.separate c (hg.subset hc), h.apart.sublist hg,
    fun id name rows hs hr path hpath => h.ranked id name rows (hh ▸ hs) hr path (hp hpath)⟩

theorem subject {id : Nat} {action : Step} (h : (step id t action).Combinable input) :
    t.Combinable input :=
  h.mono (gathered_sublist id t action) (sortPaths_sublist id t action).subset rfl

theorem of_mem_spine {entry : Term} (h : t.Combinable input) (he : entry ∈ t.spine) :
    entry.Combinable input :=
  holds_of_mem_spine (P := Combinable input) (fun _ _ _ hs => hs.subject) h he

theorem fewer {id : Nat} {predicate kept : Term}
    (h : (step id t (.filter predicate)).Combinable input) (id' : Nat)
    (hk : kept.conjuncts.Sublist predicate.conjuncts) :
    (step id' t (.filter kept)).Combinable input :=
  h.mono (gathered_fewer id id' t hk) (List.Subset.refl _) rfl

theorem filter {id : Nat} {predicate : Term} (h : (step id t (.filter predicate)).Combinable input)
    (hrows : t.isRows = true) : predicate.Separate ∧
      ∀ c ∈ t.gathered, ∀ d ∈ predicate.conjuncts, c.Apart d := by
  have hsep := h.separate
  have hapart := h.apart
  rw [gathered, if_pos hrows] at hsep hapart
  obtain ⟨-, hpredicate, hcross⟩ := List.pairwise_append.1 hapart
  exact ⟨separate_iff_conjuncts.2
    ⟨fun c hc => hsep c (List.mem_append_right _ hc), hpredicate⟩, hcross⟩

end Combinable

variable {input : Input} {scope : Scope}

/-- A map that has a value has one for each element of its subject. -/
theorem outcome_of_mapped {id : Nat} {subject transform : Term} {u w : Value}
    (hu : subject.outcome input scope = .ok u)
    (hw : (step id subject (.map transform)).outcome input scope = .ok w) :
    ∀ v ∈ u.elements, ∃ x, transform.outcome input (v :: scope) = .ok x := by
  have heval : ((step id subject (.map transform)).eval input scope).outcome = (do
      let ps ← subject.sequence input scope
      pure (.pulls (ps.map (Pull.mapWith fun v => do
        (← transform.eval input (v :: scope)).toValue)))) := by
    simp only [eval, Step.act, Run.outcome_bind, sequence]
    cases (subject.eval input scope).outcome with
    | error e => rfl
    | ok e => rfl
  rw [outcome_eq, heval] at hw
  cases hs : subject.sequence input scope with
  | error e =>
    rw [hs] at hw
    cases hw
  | ok ps =>
    rw [hs] at hw
    change (Evaluated.toValue (.pulls _)).outcome = _ at hw
    rw [Evaluated.outcome_toValue_of_yields rfl, Pulls.yields_map_mapWith,
      yields_of_sequence hu hs] at hw
    cases hcollect : Yields.collect (Yields.mapWith _ (Yields.ofList u.elements)) with
    | error e =>
      rw [hcollect] at hw
      cases hw
    | ok ws => exact Yields.ok_of_collect_mapWith hcollect

end Term

namespace Find

/-- Whether an element passes the filter, as far as conditions can be evaluated. -/
def passes (q : Find) (v : Value) : Bool := Filter.truth .strong v q.filter == some true

/-- The elements that a find chooses, before they are projected. -/
def chosen (q : Find) (elements : List Value) : List Value :=
  q.window (sorted q.sort (elements.filter q.passes))

/-- What a find makes of an element, null when it cannot be projected. -/
def image (q : Find) (v : Value) : Value :=
  match q.projection with
  | some p => (p.apply v).orNull
  | none => v

/-- What is known of a find that a list was compiled to. -/
structure Covers (q : Find) (input : Input) (t : Term) (elements : List Value) : Prop where
  formed : Filter.Formed q.filter
  negates : ∀ path, q.filter.denies path = true → ∃ c ∈ t.gathered, c.Negates path
  sortPaths : ∀ path ∈ Fields.names q.sort, path ∈ t.sortPaths
  decided : ∀ v, (∀ c ∈ t.gathered, ∃ b, c.truth input v .weak = some b) →
    ∃ b, Filter.truth .weak v q.filter = some b
  eager : t.eager input = .ok (.list ((q.chosen elements).map q.image))

variable {schema : Schema} {input : Input} {elements : List Value} {q : Find} {t : Term}

theorem map_image_of_isNone (h : q.projection = none) (vs : List Value) : vs.map q.image = vs := by
  have hid : q.image = id := by
    funext v
    rw [image, h]
    rfl
  rw [hid, List.map_id]

/-- A find that can still be filtered or sorted has neither a window nor a projection. -/
theorem of_checkReorderable {node : Nat} {step : String} {x : Unit}
    (h : checkReorderable node step q = .ok x) :
    q.projection = none ∧ ∀ vs : List Value, q.window vs = vs := by
  unfold checkReorderable at h
  split at h
  · cases h
  · rename_i hprojection
    split at h
    · cases h
    · rename_i hwindow
      exact ⟨by simpa using hprojection, fun vs =>
        window_of_not_isWindowed (eq_false_of_ne_true hwindow)⟩

/-- The eager value of a subject whose find can still be filtered or sorted. -/
theorem Covers.reorderable {node : Nat} {step : String} {x : Unit}
    (h : q.Covers input t elements) (hc : checkReorderable node step q = .ok x) :
    t.eager input = .ok (.list (sorted q.sort (elements.filter q.passes))) := by
  obtain ⟨hprojection, hwindow⟩ := of_checkReorderable hc
  rw [h.eager, map_image_of_isNone hprojection, chosen, hwindow]

/-- Each sort key stands at the path of its term. -/
theorem path_of_sortKeys {ts : List (Term × Bool)} {keys : Document} {path : String}
    (h : sortKeys ts = .ok keys) (hp : path ∈ Fields.names keys) :
    ∃ k ∈ ts, k.1.path? = some path := by
  induction ts generalizing keys with
  | nil =>
    cases h
    cases hp
  | cons k ts ih =>
    obtain ⟨p, others, hpath, hothers, rfl⟩ := sortKeys_cons_eq_ok h
    rcases List.mem_cons.1 hp with rfl | hp
    · exact ⟨k, List.mem_cons_self, hpath⟩
    · obtain ⟨k', hk', hpath'⟩ := ih hothers hp
      exact ⟨k', List.mem_cons_of_mem _ hk', hpath'⟩

theorem covers_source {id : Nat} {name : String} (hE : input name = .ok elements) :
    Covers { collection := name } input (.source id name) elements := by
  refine ⟨Filter.formed_nil, fun path h => ?_, fun path h => ?_, fun v _ => ⟨true, rfl⟩, ?_⟩
  · cases h
  · cases h
  · have hall : elements.filter (passes { collection := name }) = elements :=
      List.filter_eq_self.2 fun v _ => rfl
    rw [map_image_of_isNone rfl, chosen, hall]
    exact Term.outcome_source id hE

/-- Filtering the chain filters the find. -/
theorem Covers.filter {id : Nat} {predicate : Term} {e : Filter.Element} {f : Filter} {x : Unit}
    (h : q.Covers input t elements) (hc : checkReorderable id "filter" q = .ok x)
    (hf : predicate.filterOf e = .ok f)
    (hrows : t.isRows = true) (hranked : ∀ path ∈ t.sortPaths, Value.RankedBy path elements)
    (hcombinable : (Term.step id t (.filter predicate)).Combinable input) :
    Covers { q with filter := q.filter.and f } input (.step id t (.filter predicate)) elements := by
  obtain ⟨hprojection, hwindow⟩ := of_checkReorderable hc
  obtain ⟨hseparate, hcross⟩ := hcombinable.filter hrows
  obtain ⟨⟨hformed, htruth⟩, hnegates⟩ : f.Expresses input predicate ∧ _ :=
    Term.filterOf_sound hf hseparate
  have hgathered : (Term.step id t (.filter predicate)).gathered =
      t.gathered ++ predicate.conjuncts := if_pos hrows
  have hclash : ∀ path, q.filter.denies path = true → f.denies path = false := by
    intro path hd
    obtain ⟨c, hc, hcn⟩ := h.negates path hd
    cases hd' : f.denies path with
    | false => rfl
    | true =>
      obtain ⟨d, hd, hdn⟩ := hnegates path hd'
      exact absurd hdn (hcross c hc d hd path hcn)
  obtain ⟨hand, hdenies, hmeet⟩ := h.formed.and hformed hclash
  refine ⟨hand, fun path hd => ?_, fun path hp => h.sortPaths path hp, fun v hv => ?_, ?_⟩
  · rw [hgathered]
    rcases hdenies path hd with hd | hd
    · obtain ⟨c, hc, hcn⟩ := h.negates path hd
      exact ⟨c, List.mem_append_left _ hc, hcn⟩
    · obtain ⟨c, hc, hcn⟩ := hnegates path hd
      exact ⟨c, List.mem_append_right _ hc, hcn⟩
  · rw [hgathered] at hv
    obtain ⟨a, ha⟩ := h.decided v fun c hc => hv c (List.mem_append_left _ hc)
    obtain ⟨b, hb⟩ := Term.truth_of_conjuncts fun c hc => hv c (List.mem_append_right _ hc)
    refine ⟨a && b, ?_⟩
    change Filter.truth .weak v (q.filter.and f) = _
    rw [hmeet, htruth, ha, hb]
    rfl
  · have hpasses : ∀ v, passes { q with filter := q.filter.and f } v =
        ((predicate.truth input v .strong == some true) && q.passes v) := by
      intro v
      rw [passes, passes, hmeet, htruth, Bool.eq_iff_iff, Bool.and_eq_true, beq_iff_eq, beq_iff_eq,
        beq_iff_eq, Reading.strong_eq_true, and_comm]
    have hwindow' : ∀ vs, window { q with filter := q.filter.and f } vs = vs := hwindow
    have himage := map_image_of_isNone (q := { q with filter := q.filter.and f }) hprojection
    rw [Term.eager, h.reorderable hc, himage, chosen, hwindow', List.filter_congr fun v _ => hpasses v, ← List.filter_filter]
    change (.ok (.list ((sorted q.sort (elements.filter q.passes)).filter _)) : Outcome Value) = _
    rw [filter_sorted fun path hp => (hranked path (h.sortPaths path hp)).mono fun v hv =>
      (List.mem_filter.1 hv).1]

/-- Sorting the chain sorts the find, by the new keys first. -/
theorem Covers.sort {id : Nat} {ts : List (Term × Bool)} {keys : Document} {x : Unit}
    (h : q.Covers input t elements) (hc : checkReorderable id "sort" q = .ok x)
    (hk : sortKeys ts = .ok keys) (hrows : t.isRows = true)
    (hranked : ∀ path ∈ (Term.step id t (.sort ts)).sortPaths, Value.RankedBy path elements) :
    Covers { q with sort := addSortKeys (addSortKeys [] keys) q.sort } input
      (.step id t (.sort ts)) elements := by
  obtain ⟨hprojection, hwindow⟩ := of_checkReorderable hc
  have hpaths : ∀ path ∈ Fields.names keys, path ∈ (Term.step id t (.sort ts)).sortPaths := by
    intro path hp
    rw [Term.sortPaths, if_pos hrows]
    exact List.mem_append_left _ (List.mem_filterMap.2 (path_of_sortKeys hk hp))
  have hsub : elements.filter q.passes ⊆ elements := fun v hv => (List.mem_filter.1 hv).1
  refine ⟨h.formed, h.negates, fun path hp => ?_, h.decided, ?_⟩
  · rcases names_addSortKeys hp with hp | hp
    · rcases names_addSortKeys hp with hp | hp
      · cases hp
      · exact hpaths path hp
    · exact (Term.sortPaths_sublist id t (.sort ts)).subset (h.sortPaths path hp)
  · have hkeys : ∀ path ∈ Fields.names keys, Value.RankedBy path (elements.filter q.passes) :=
      fun path hp => (hranked path (hpaths path hp)).mono hsub
    have hold : ∀ path ∈ Fields.names q.sort, Value.RankedBy path (elements.filter q.passes) :=
      fun path hp => (hranked path ((Term.sortPaths_sublist id t (.sort ts)).subset (h.sortPaths path hp))).mono hsub
    have hwindow' : ∀ vs, window { q with sort := addSortKeys (addSortKeys [] keys) q.sort } vs = vs :=
      hwindow
    have hpasses : passes { q with sort := addSortKeys (addSortKeys [] keys) q.sort } = q.passes := rfl
    have himage := map_image_of_isNone
      (q := { q with sort := addSortKeys (addSortKeys [] keys) q.sort }) hprojection
    rw [Term.eager, h.reorderable hc, himage, chosen, hwindow', hpasses, ← sorted_sorted hkeys hold]
    change (.ok (.list (Sorting.rows ((sorted q.sort (elements.filter q.passes)).map fun v =>
      ⟨keysOf input ts v, v⟩) (ts.map Prod.snd))) : Outcome Value) = _
    rw [rows_keysOf hk fun path hp => (hkeys path hp).mono fun v hv => mem_sorted.1 hv]

theorem chosen_slice {start stop : Option Int64} (hlen : elements.length < 2 ^ 64) :
    (q.slice start stop).chosen elements = Window.between start stop (q.chosen elements) := by
  refine window_slice (q := q) ?_
  rw [length_sorted]
  exact Nat.lt_of_le_of_lt (List.length_filter_le _ _) hlen

/-- Slicing the chain narrows the window of the find. -/
theorem Covers.slice {id : Nat} {start stop : Option Int64} (h : q.Covers input t elements)
    (hforward : Step.isForward start stop = true) (hlen : elements.length < 2 ^ 64) :
    Covers (q.slice start stop) input (.step id t (.slice start stop)) elements := by
  refine ⟨h.formed, h.negates, h.sortPaths, h.decided, ?_⟩
  rw [Term.eager, h.eager]
  change (Step.slice start stop).eager input (.list ((q.chosen elements).map q.image)) = _
  rw [eager_slice hforward, Window.map_between, chosen_slice hlen]
  rfl

/-- A find projects an element to what the transform makes of it. -/
theorem image_of_projection? {transform : Term} {projection : Option Projection}
    (hp : projection? transform = .ok projection) : image { q with projection := projection } =
      fun v => (transform.outcome input [v]).orNull := by
  funext v
  obtain ⟨p, hp, hnone⟩ := Refusal.bind_eq_ok hp
  rw [← Term.apply_of_projectionOf hp]
  split at hnone
  · cases hnone
    rfl
  · cases hnone
    rfl

theorem apply_of_projection? {transform : Term} {p : Projection}
    (hp : projection? transform = .ok (some p)) (v : Value) :
    p.apply v = transform.outcome input [v] := by
  obtain ⟨p', hp', hp⟩ := Refusal.bind_eq_ok hp
  have hsame : p' = p := by
    split at hp
    · cases hp
    · cases hp
      rfl
  rw [← hsame, Term.apply_of_projectionOf hp']

/-- Mapping the chain projects the elements of the find. -/
theorem Covers.map {id : Nat} {transform : Term} {projection : Option Projection}
    (h : q.Covers input t elements) (hnone : q.projection = none)
    (hp : projection? transform = .ok projection) :
    Covers { q with projection := projection } input (.step id t (.map transform)) elements := by
  refine ⟨h.formed, h.negates, h.sortPaths, h.decided, ?_⟩
  rw [Term.eager, h.eager, map_image_of_isNone hnone, image_of_projection? hp]
  rfl

/-- What each stage of the compilation keeps holds of the find of a list. -/
theorem ofList_induction {P : Term → Find → Prop}
    (source : ∀ id name, (schema.find? name).isSome = true →
      P (.source id name) { collection := name })
    (filter : ∀ id t q predicate e f x, ofList schema t = .ok q → P t q →
      checkReorderable id "filter" q = .ok x → predicate.filterOf e = .ok f →
      P (.step id t (.filter predicate)) { q with filter := q.filter.and f })
    (sort : ∀ id t q ts keys x, ofList schema t = .ok q → P t q →
      checkReorderable id "sort" q = .ok x → sortKeys ts = .ok keys →
      P (.step id t (.sort ts)) { q with sort := addSortKeys (addSortKeys [] keys) q.sort })
    (slice : ∀ id t q start stop, ofList schema t = .ok q → P t q →
      Step.isForward start stop = true → P (.step id t (.slice start stop)) (q.slice start stop))
    (map : ∀ id t q transform projection, ofList schema t = .ok q → P t q →
      q.projection = none → projection? transform = .ok projection →
      P (.step id t (.map transform)) { q with projection := projection }) :
    ∀ {t : Term} {q : Find}, ofList schema t = .ok q → P t q
  | .source id name, q, h => by
    rw [ofList] at h
    split at h
    · cases h
      exact source id name ‹_›
    · cases h
  | .literal .., _, h | .context .., _, h | .record .., _, h => by cases h
  | .step id t action, q, h => by
    have ih : ∀ {p : Find}, ofList schema t = .ok p → P t p :=
      ofList_induction source filter sort slice map
    cases action with
    | filter predicate =>
      rw [ofList] at h
      obtain ⟨p, hp, h⟩ := Refusal.bind_eq_ok h
      obtain ⟨x, hx, h⟩ := Refusal.bind_eq_ok h
      obtain ⟨item, hitem, h⟩ := Refusal.bind_eq_ok h
      obtain ⟨f, hf, h⟩ := Refusal.bind_eq_ok h
      cases h
      exact filter id t p predicate _ f x hp (ih hp) hx hf
    | sort ts =>
      rw [ofList] at h
      obtain ⟨p, hp, h⟩ := Refusal.bind_eq_ok h
      obtain ⟨x, hx, h⟩ := Refusal.bind_eq_ok h
      obtain ⟨keys, hkeys, h⟩ := Refusal.bind_eq_ok h
      cases h
      exact sort id t p ts keys x hp (ih hp) hx hkeys
    | slice start stop =>
      rw [ofList] at h
      split at h
      · cases h
      · rename_i hforward
        obtain ⟨p, hp, h⟩ := Refusal.bind_eq_ok h
        cases h
        exact slice id t p start stop hp (ih hp) (by simpa using hforward)
    | map transform =>
      rw [ofList] at h
      obtain ⟨p, hp, h⟩ := Refusal.bind_eq_ok h
      dsimp only at h
      split at h
      · cases h
      · rename_i hnone
        obtain ⟨projection, hprojection, h⟩ := Refusal.bind_eq_ok h
        cases h
        exact map id t p transform projection hp (ih hp) (by simpa using hnone) hprojection
    | _ => cases h

/-- A list gives a find of the source at the head of its chain that neither counts nor chooses. -/
theorem ofList_shape (h : ofList schema t = .ok q) : (∃ id, t.head = .source id q.collection) ∧
    (schema.find? q.collection).isSome = true ∧ q.count = false ∧ q.single = none := by
  refine ofList_induction (P := fun t q => (∃ id, t.head = .source id q.collection) ∧
    (schema.find? q.collection).isSome = true ∧ q.count = false ∧ q.single = none)
    ?_ ?_ ?_ ?_ ?_ h
  · exact fun id name hname => ⟨⟨id, rfl⟩, hname, rfl, rfl⟩
  · exact fun _ _ _ _ _ _ _ _ ih _ _ => ih
  · exact fun _ _ _ _ _ _ _ ih _ _ => ih
  · exact fun _ _ _ _ _ _ ih _ => ih
  · exact fun _ _ _ _ _ _ ih _ _ => ih

/-- A slice that leaves no window keeps all elements. -/
theorem isWindowed_slice {start stop : Option Int64} (hforward : Step.isForward start stop = true)
    (h : (q.slice start stop).isWindowed = false) :
    q.isWindowed = false ∧ (start.getD 0 == 0 && stop.isNone) = true := by
  obtain ⟨hskip, hlimit⟩ := Bool.or_eq_false_iff.1 h
  have hskip : min (q.skip + (start.getD 0).toInt.toNat) maxSkip = 0 :=
    Nat.eq_zero_of_not_pos (of_decide_eq_false hskip)
  have hsum : q.skip = 0 ∧ (start.getD 0).toInt.toNat = 0 := by
    unfold maxSkip at hskip
    omega
  have hfirst : start.getD 0 = 0 := by
    have hpositive : 0 ≤ (start.getD 0).toInt :=
      Int64.le_iff_toInt_le.1 (Step.start_nonneg hforward)
    refine Int64.toInt_inj.1 ?_
    have hzero : (0 : Int64).toInt = 0 := rfl
    omega
  cases hstop : stop with
  | some stop =>
    subst hstop
    cases hq : q.limit <;> simp [slice, hq] at hlimit
  | none =>
    subst hstop
    cases hq : q.limit with
    | some limit => simp [slice, hq] at hlimit
    | none => exact ⟨by simp [isWindowed, hsum.1, hq], by simp [hfirst]⟩

theorem eq_context_of_projectionOf {t : Term} (h : t.projectionOf = .ok .element) :
    ∃ id, t = .context id 0 := by
  unfold Term.projectionOf at h
  split at h
  · split at h
    · rename_i id up hup
      exact ⟨id, hup ▸ rfl⟩
    · cases h
  · split at h <;> cases h
  · obtain ⟨fields, -, h⟩ := Refusal.bind_eq_ok h
    cases h
  · cases h

/-- A find that can still be filtered or sorted was compiled from a chain over stored elements. -/
theorem ofList_isRows (h : ofList schema t = .ok q) (hp : q.projection = none)
    (hw : q.isWindowed = false) : t.isRows = true := by
  refine ofList_induction (P := fun t q => q.projection = none →
    q.isWindowed = false → t.isRows = true) ?_ ?_ ?_ ?_ ?_ h hp hw
  · exact fun _ _ _ _ _ => rfl
  · exact fun _ _ _ _ _ _ _ _ ih _ _ => ih
  · exact fun _ _ _ _ _ _ _ ih _ _ => ih
  · intro id t q start stop _ ih hforward hp hw
    obtain ⟨hkept, hbounds⟩ := isWindowed_slice hforward hw
    rw [Term.isRows, Step.keepsElements, hbounds, ih hp hkept]
    rfl
  · intro id t q transform projection _ ih hnone hprojection hp hw
    obtain ⟨p, hproj, hnone'⟩ := Refusal.bind_eq_ok hprojection
    have helement : transform.projectionOf = .ok .element := by
      split at hnone'
      · exact hproj
      · cases hnone'
        cases hp
    obtain ⟨node, rfl⟩ := eq_context_of_projectionOf helement
    rw [Term.isRows, ih hnone hw]
    rfl

theorem isRows_of_checkReorderable {node : Nat} {step : String} {x : Unit}
    (h : ofList schema t = .ok q) (hc : checkReorderable node step q = .ok x) :
    t.isRows = true := by
  unfold checkReorderable at hc
  split at hc
  · cases hc
  · rename_i hprojection
    split at hc
    · cases hc
    · rename_i hwindow
      exact ofList_isRows h (by simpa using hprojection) (eq_false_of_ne_true hwindow)

theorem ranked_of_ofList (h : ofList schema t = .ok q) (hE : input q.collection = .ok elements)
    (hc : t.Combinable input) : ∀ path ∈ t.sortPaths, Value.RankedBy path elements := by
  obtain ⟨⟨id, hhead⟩, -⟩ := ofList_shape h
  exact hc.ranked id _ elements hhead hE

/-- A list that compiles to a find has the elements that the find chooses, projected. -/
theorem ofList_covers (h : ofList schema t = .ok q) (hE : input q.collection = .ok elements)
    (hlen : elements.length < 2 ^ 64) (hc : t.Combinable input) : q.Covers input t elements := by
  refine ofList_induction (P := fun t q => input q.collection = .ok elements →
    t.Combinable input → q.Covers input t elements) ?_ ?_ ?_ ?_ ?_ h hE hc
  · intro id name _ hE _
    exact covers_source hE
  · intro id t q predicate e f x hq ih hx hf hE hc
    exact (ih hE hc.subject).filter hx hf (isRows_of_checkReorderable hq hx)
      (ranked_of_ofList hq hE hc.subject) hc
  · intro id t q ts keys x hq ih hx hkeys hE hc
    obtain ⟨⟨source, hhead⟩, -⟩ := ofList_shape hq
    exact (ih hE hc.subject).sort hx hkeys (isRows_of_checkReorderable hq hx)
      (hc.ranked source _ elements hhead hE)
  · intro id t q start stop _ ih hforward hE hc
    exact (ih hE hc.subject).slice hforward hlen
  · intro id t q transform projection _ ih hnone hp hE hc
    exact (ih hE hc.subject).map hnone hp

/-- The elements that a find chooses can be projected, when all entries of the chain have values. -/
theorem ofList_projects (h : ofList schema t = .ok q) (hE : input q.collection = .ok elements)
    (hlen : elements.length < 2 ^ 64) (hc : t.Combinable input)
    (heval : ∀ entry ∈ t.spine, ∃ w, entry.outcome input [] = .ok w) :
    ∀ p, q.projection = some p → ∀ v ∈ q.chosen elements, ∃ w, p.apply v = .ok w := by
  refine ofList_induction (P := fun t q => input q.collection = .ok elements →
    t.Combinable input → (∀ entry ∈ t.spine, ∃ w, entry.outcome input [] = .ok w) →
    ∀ p, q.projection = some p → ∀ v ∈ q.chosen elements, ∃ w, p.apply v = .ok w)
    ?_ ?_ ?_ ?_ ?_ h hE hc heval
  · intro id name _ _ _ _ p hp
    cases hp
  · intro id t q predicate e f x _ _ hx _ _ _ _ p hp
    have hp : q.projection = some p := hp
    rw [(of_checkReorderable hx).1] at hp
    cases hp
  · intro id t q ts keys x _ _ hx _ _ _ _ p hp
    have hp : q.projection = some p := hp
    rw [(of_checkReorderable hx).1] at hp
    cases hp
  · intro id t q start stop _ ih _ hE hc heval p hp v hv
    have hmem : v ∈ q.chosen elements := by
      rw [chosen_slice hlen] at hv
      exact Window.mem_between hv
    exact ih hE hc.subject (fun entry he => heval entry (List.mem_cons_of_mem _ he)) p hp v hmem
  · intro id t q transform projection hq _ hnone hp hE hc heval p hproj v hv
    have hcovers := ofList_covers hq hE hlen hc.subject
    obtain ⟨u, hu⟩ := heval t (List.mem_cons_of_mem _ t.self_mem_spine)
    obtain ⟨w, hw⟩ := heval _ List.mem_cons_self
    have hvalue := Term.eager_of_outcome hu
    rw [hcovers.eager, map_image_of_isNone hnone] at hvalue
    cases hvalue
    obtain ⟨x, hx⟩ := Term.outcome_of_mapped hu hw v hv
    have hproj : projection = some p := hproj
    rw [apply_of_projection? (hproj ▸ hp)]
    exact ⟨x, hx⟩

end Find

end QueryPushdown
