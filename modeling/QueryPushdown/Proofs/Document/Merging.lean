import QueryPushdown.Proofs.Document.Operands

/-!
# Truth of merged filters

A conjunction may put the conditions of two filters on one field into one document. The merged
filter asks what both ask, in whatever order, unless both have a condition under `$not` on the same
field: these are the only ones that cannot be put together so.
-/

namespace QueryPushdown

namespace Filter

/-- The operators of conditions. -/
def conditionOperators : List String :=
  ["$eq", "$ne", "$gt", "$gte", "$lt", "$lte", "$regex", "$not"]

/-- A condition: an exact value, or operators on operands, of which only `$not` takes another
condition. -/
inductive Condition : Bson → Prop
  | exact {b : Bson} {v : Value} (h : Operand b v) : Condition b
  | operators {ops : Document} (hne : ops ≠ []) (hn : (Fields.names ops).Nodup)
    (hop : ∀ op ∈ Fields.names ops, op ∈ conditionOperators)
    (hoperand : ∀ op operand, (op, operand) ∈ ops → op ≠ "$not" → ∃ v : Value, Operand operand v)
    (hnot : ∀ operand, ("$not", operand) ∈ ops → Condition operand) : Condition (.document ops)

/-- A filter: conditions on fields and filters under operators. -/
inductive Formed : Filter → Prop
  | mk {f : Filter} (hn : (Fields.names f).Nodup)
    (hpath : ∀ name content, (name, content) ∈ f → isOperator name = false → Condition content)
    (hlisted : ∀ name content, (name, content) ∈ f → isOperator name = true →
      ∃ fs : List Filter, content = .array (fs.map Bson.document))
    (hformed : ∀ name items g, (name, .array items) ∈ f → isOperator name = true →
      Bson.document g ∈ items → Formed g) : Formed f

/-- Whether a filter has a condition under `$not` on a field. -/
def denies (f : Filter) (path : String) : Bool :=
  match Fields.get? f path with
  | some (.document ops) => Fields.has ops "$not"
  | _ => false

section Same

variable (R : Reading)

/-- Documents with the same fields have the same truths, whatever the order of the fields. -/
theorem all_eq_of_sameFields {T : String → Bson → Truth} {fs gs : Document}
    (hf : (Fields.names fs).Nodup) (hg : (Fields.names gs).Nodup) (hlen : fs.length = gs.length)
    (h : Bson.sameFields fs gs = true)
    (hT : ∀ name a b, (name, a) ∈ fs → (name, b) ∈ gs → a.same b = true → T name a = T name b) :
    R.all (fs.map fun e => T e.1 e.2) = R.all (gs.map fun e => T e.1 e.2) := by
  have hpartner : ∀ name a, (name, a) ∈ fs → ∃ b, (name, b) ∈ gs ∧ a.same b = true := by
    intro name a hm
    obtain ⟨b, hb, hab⟩ := Bson.sameFields_iff.1 h _ hm
    exact ⟨b, Fields.mem_of_get? hb, hab⟩
  have hperm := Bson.names_perm_of_same hf hlen h
  refine R.all_eq_of_subset (fun t ht => ?_) fun t ht => ?_
  · obtain ⟨⟨name, a⟩, hm, rfl⟩ := List.mem_map.1 ht
    obtain ⟨b, hb, hab⟩ := hpartner name a hm
    exact List.mem_map.2 ⟨_, hb, (hT name a b hm hb hab).symm⟩
  · obtain ⟨⟨name, b⟩, hm, rfl⟩ := List.mem_map.1 ht
    have hname : name ∈ Fields.names fs :=
      hperm.mem_iff.2 (List.mem_map.2 ⟨(name, b), hm, rfl⟩)
    obtain ⟨⟨name, a⟩, ha, rfl⟩ := List.mem_map.1 hname
    obtain ⟨c, hc, hac⟩ := hpartner name a ha
    have hcb : c = b := by
      have hget := Fields.get?_of_mem hg hc
      rw [Fields.get?_of_mem hg hm] at hget
      exact (Option.some.inj hget).symm
    exact List.mem_map.2 ⟨_, ha, hT name a b ha hm (hcb ▸ hac)⟩

variable {R} {v element : Value}

theorem condition_scalar {w : Value} (h : w.isScalar = true) :
    condition R v (.ofValue w) = some (v.isEq w) :=
  (Operand.ofValue h).condition v

theorem condition_operators {ops : Document} (hne : ops ≠ []) (hop : isOperators ops = true) :
    condition R v (.document ops) = conditions R v ops := by
  cases ops with
  | nil => exact absurd rfl hne
  | cons e rest =>
    rw [condition, hop]
    rfl

theorem operatorTruth_of_same {op : String} {a b : Bson} {u w : Value} (hnot : op ≠ "$not")
    (ha : Operand a u) (hb : Operand b w) (h : a.same b = true) :
    operatorTruth R v op a = operatorTruth R v op b := by
  have hcompare : v.compare? u = v.compare? w :=
    Bson.compare?_of_same h ha.toValue hb.toValue v
  rw [operatorTruth, operatorTruth, if_neg hnot, if_neg hnot]
  unfold meets
  split
  case h_7 => exact matchesPattern_of_same h v
  case h_8 => exact absurd rfl hnot
  case h_9 => rfl
  all_goals simp only [ha.equals, hb.equals, ha.ordered, hb.ordered, ha.isEq_of_same hb h, hcompare]

theorem Condition.scalar {w : Value} (h : w.isScalar = true) : Condition (.ofValue w) :=
  .exact (.ofValue h)

theorem isOperators_of_mem {ops : Document}
    (h : ∀ op ∈ Fields.names ops, op ∈ conditionOperators) : isOperators ops = true := by
  have hall : ∀ op ∈ conditionOperators, isOperator op = true := by decide
  rw [isOperators_eq]
  exact List.all_eq_true.2 fun op hop => hall op (h op hop)

/-- A condition that is not taken for operators is an exact value. -/
theorem Condition.operand {b : Bson} (h : Condition b)
    (hb : ∀ ops, b = .document ops → isOperators ops = false) : ∃ v : Value, Operand b v := by
  cases h with
  | exact h => exact ⟨_, h⟩
  | operators _ _ hop =>
    have hops := hb _ rfl
    rw [isOperators_of_mem hop] at hops
    cases hops

theorem Condition.nodup {ops : Document} (h : Condition (.document ops)) :
    (Fields.names ops).Nodup := by
  cases h with
  | exact h => exact h.nodup
  | operators _ hn => exact hn

/-- What is known of a condition that is taken for operators. -/
theorem Condition.document {ops : Document} (h : Condition (.document ops))
    (hops : isOperators ops = true) :
    ops ≠ [] ∧ (Fields.names ops).Nodup ∧ (∀ op ∈ Fields.names ops, op ∈ conditionOperators) ∧
      (∀ op operand, (op, operand) ∈ ops → op ≠ "$not" → ∃ v : Value, Operand operand v) ∧
      ∀ operand, ("$not", operand) ∈ ops → Condition operand := by
  cases h with
  | exact h =>
    rw [h.exact ops rfl] at hops
    cases hops
  | operators hne hn hop hoperand hnot => exact ⟨hne, hn, hop, hoperand, hnot⟩

/-- Conditions that are the same have the same truth. -/
theorem condition_of_same {a b : Bson} (ha : Condition a) (hb : Condition b)
    (h : a.same b = true) : condition R v a = condition R v b := by
  -- both are taken for operators or neither is
  have hoperators : ∀ {ops more : Document}, Condition (.document ops) →
      (Bson.document ops).same (.document more) = true → isOperators ops = isOperators more := by
    intro ops more hops h
    obtain ⟨hlength, hfields⟩ := Bool.and_eq_true_iff.1 h
    rw [isOperators_eq, isOperators_eq]
    exact (Bson.names_perm_of_same hops.nodup (eq_of_beq hlength) hfields).all_eq
  induction ha generalizing b with
  | @exact a u ha =>
    have hexact : ∀ more, b = .document more → isOperators more = false := by
      rintro more rfl
      cases a with
      | document ops => rw [← hoperators (.exact ha) h, ha.exact ops rfl]
      | _ => cases h
    obtain ⟨w, hb⟩ := hb.operand hexact
    rw [ha.condition, hb.condition, ha.isEq_of_same hb h]
  | @operators ops hne hn hop hoperand hnot ih =>
    have hdocument : ∃ more, b = .document more := by
      cases b with
      | document more => exact ⟨more, rfl⟩
      | _ => cases h
    obtain ⟨more, rfl⟩ := hdocument
    have hops := isOperators_of_mem hop
    have hmore : isOperators more = true := by
      rw [← hoperators (.operators hne hn hop hoperand hnot) h, hops]
    obtain ⟨hne', hn', -, hoperand', hnot'⟩ := hb.document hmore
    change (ops.length == more.length && Bson.sameFields ops more) = true at h
    obtain ⟨hlen, hfields⟩ := Bool.and_eq_true_iff.1 h
    rw [condition_operators hne hops, condition_operators hne' hmore, conditions_eq, conditions_eq]
    refine all_eq_of_sameFields R hn hn' (eq_of_beq hlen) hfields fun op c d hc hd hcd => ?_
    by_cases hop : op = "$not"
    · subst hop
      simp only [operatorTruth, if_pos]
      rw [ih c hc (hnot' d hd) hcd]
    · obtain ⟨u, hu⟩ := hoperand op c hc hop
      obtain ⟨w, hw⟩ := hoperand' op d hd hop
      exact operatorTruth_of_same hop hu hw hcd

theorem forall₂_of_sameItems {fs gs : List Filter}
    (h : Bson.sameItems (fs.map Bson.document) (gs.map Bson.document) = true) :
    List.Forall₂ (fun f g => f.length = g.length ∧ Bson.sameFields f g = true) fs gs := by
  induction fs generalizing gs with
  | nil =>
    cases gs with
    | nil => exact .nil
    | cons g gs => cases h
  | cons f fs ih =>
    cases gs with
    | nil => cases h
    | cons g gs =>
      obtain ⟨hfirst, hrest⟩ := Bool.and_eq_true_iff.1 h
      obtain ⟨hlen, hfields⟩ := Bool.and_eq_true_iff.1 hfirst
      exact .cons ⟨eq_of_beq hlen, hfields⟩ (ih hrest)

/-- Filters under an operator count only with their truths. -/
theorem fieldTruth_congr {name : String} {fs gs : List Filter} (hop : isOperator name = true)
    (h : fs.map (truth R element) = gs.map (truth R element)) :
    fieldTruth R element name (.array (fs.map Bson.document)) =
      fieldTruth R element name (.array (gs.map Bson.document)) := by
  have hneg : ∀ hs : List Filter, (hs.map fun f => (truth R element f).neg) =
      (hs.map (truth R element)).map Truth.neg := fun hs => by
    rw [List.map_map]
    rfl
  rw [fieldTruth, fieldTruth, if_pos hop, if_pos hop, truths_eq, truths_eq, refutations_eq,
    refutations_eq, hneg fs, hneg gs, h]

/-- Filters that are the same have the same truth. -/
theorem truth_of_sameFields {f g : Filter} (hf : Formed f) (hg : Formed g)
    (hlen : f.length = g.length) (h : Bson.sameFields f g = true) :
    truth R element f = truth R element g := by
  induction hf generalizing g with
  | @mk f hn hpath hlisted hformed ih =>
    cases hg with
    | mk hn' hpath' hlisted' hformed' =>
      rw [truth_eq, truth_eq]
      refine all_eq_of_sameFields R hn hn' hlen h fun name a b ha hb hab => ?_
      cases hop : isOperator name with
      | false =>
        rw [fieldTruth_path _ _ hop, fieldTruth_path _ _ hop]
        exact condition_of_same (hpath name a ha hop) (hpath' name b hb hop) hab
      | true =>
        obtain ⟨fs, rfl⟩ := hlisted name a ha hop
        obtain ⟨gs, rfl⟩ := hlisted' name b hb hop
        refine fieldTruth_congr hop ?_
        have hall := forall₂_of_sameItems hab
        have hfs : ∀ f ∈ fs, ∀ g, Formed g → f.length = g.length → Bson.sameFields f g = true →
            truth R element f = truth R element g := fun f hf g hg =>
          ih name _ f ha hop (List.mem_map.2 ⟨f, hf, rfl⟩) hg
        have hgs : ∀ g ∈ gs, Formed g := fun g hg =>
          hformed' name _ g hb hop (List.mem_map.2 ⟨g, hg, rfl⟩)
        clear ha hb hab
        induction hall with
        | nil => rfl
        | @cons f g fs gs hfg hall ih =>
          rw [List.map_cons, List.map_cons,
            hfs f List.mem_cons_self g (hgs g List.mem_cons_self) hfg.1 hfg.2,
            ih (fun f hf => hfs f (List.mem_cons_of_mem _ hf))
              fun g hg => hgs g (List.mem_cons_of_mem _ hg)]

end Same

section Merged

/-- How the content of one field came about in a merge that went through. -/
theorem mergeContent_eq_true {name : String} {a b c : Bson}
    (h : mergeContent name a b = (c, true)) :
    (c = a ∧ a.same b = true) ∨
      (∃ xs ys, a = .array xs ∧ b = .array ys ∧ name = "$and" ∧ c = .array (xs ++ ys)) ∨
      ∃ ops more merged, a = .document ops ∧ b = .document more ∧ isOperators ops = true ∧
        isOperators more = true ∧ merge ops more = (merged, true) ∧ c = .document merged := by
  have hequal : (a, a.same b) = (c, true) → c = a ∧ a.same b = true := fun he =>
    ⟨(Prod.mk.inj he).1.symm, (Prod.mk.inj he).2⟩
  cases b with
  | document more =>
    cases a with
    | document ops =>
      rw [mergeContent] at h
      split at h
      · rename_i hops
        split at h
        · rename_i hmore
          cases hm : merge ops more with
          | mk merged agreed =>
            rw [hm] at h
            cases h
            exact .inr (.inr ⟨ops, more, merged, rfl, rfl, hops, hmore, hm, rfl⟩)
        · cases h
      · exact .inl (hequal h)
    | _ => cases h
  | array ys =>
    cases a with
    | array xs =>
      rw [mergeContent] at h
      split at h
      · rename_i hname
        cases h
        exact .inr (.inl ⟨xs, ys, rfl, rfl, hname, rfl⟩)
      · exact .inl (hequal h)
    | _ => cases h
  | _ => exact .inl (hequal h)

variable {R : Reading} {T : String → Bson → Truth} {into rest merged : Document}

theorem all_insert_new {name : String} (h : Fields.get? into name = none) (b : Bson) :
    R.all ((Fields.insert into name b).map fun e => T e.1 e.2) =
      R.meet (R.all (into.map fun e => T e.1 e.2)) (T name b) := by
  rw [Fields.insert_of_not_has b (by rw [Fields.has, h]; rfl), List.map_append, R.all_append]
  exact congrArg _ (R.meet_true _)

theorem all_insert_merged {name : String} {a c : Bson} {t : Truth}
    (h : Fields.get? into name = some a) (hc : T name c = R.meet (T name a) t) :
    R.all ((Fields.insert into name c).map fun e => T e.1 e.2) =
      R.meet (R.all (into.map fun e => T e.1 e.2)) t := by
  induction into with
  | nil => cases h
  | cons e rest ih =>
    obtain ⟨n, b⟩ := e
    by_cases hn : n = name
    · subst hn
      simp only [Fields.get?, if_true, Option.some.injEq] at h
      subst h
      simp only [Fields.insert, if_true, List.map_cons, Reading.all, hc]
      rw [R.assoc, R.comm t, ← R.assoc]
    · simp only [Fields.get?, hn, if_false] at h
      simp only [Fields.insert, hn, if_false, List.map_cons, Reading.all]
      rw [ih h, R.assoc]

theorem merge_ne_nil (hne : into ≠ []) : (merge into rest).1 ≠ [] := by
  have hinsert : ∀ (d : Document) name b, Fields.insert d name b ≠ [] := by
    intro d name b h
    have hget := Fields.get?_insert_same d name b
    rw [h] at hget
    cases hget
  induction rest generalizing into with
  | nil => exact hne
  | cons e rest ih =>
    rw [merge]
    split
    · exact ih (hinsert _ _ _)
    · cases mergeContent e.1 _ e.2 with
      | mk c agreed =>
        cases agreed with
        | true => exact ih (hinsert _ _ _)
        | false => exact hinsert _ _ _

/-- Where an entry of a merged document comes from. -/
def MergedFrom (into rest : Document) (name : String) (c : Bson) : Prop :=
  (name, c) ∈ into ∨ (name, c) ∈ rest ∨
    ∃ a b, (name, a) ∈ into ∧ (name, b) ∈ rest ∧ mergeContent name a b = (c, true)

/-- A merge that goes through asks what both documents ask, if the contents of each common field were
put together soundly. -/
theorem all_merge (hn : (Fields.names into).Nodup) (hr : (Fields.names rest).Nodup)
    (h : merge into rest = (merged, true))
    (hT : ∀ name a b c, (name, a) ∈ into → (name, b) ∈ rest → mergeContent name a b = (c, true) →
      T name c = R.meet (T name a) (T name b)) :
    (Fields.names merged).Nodup ∧ (∀ name c, (name, c) ∈ merged → MergedFrom into rest name c) ∧
      R.all (merged.map fun e => T e.1 e.2) =
        R.meet (R.all (into.map fun e => T e.1 e.2)) (R.all (rest.map fun e => T e.1 e.2)) := by
  induction rest generalizing into with
  | nil =>
    cases h
    exact ⟨hn, fun _ _ hc => .inl hc, (R.meet_true _).symm⟩
  | cons e rest ih =>
    obtain ⟨name, b⟩ := e
    obtain ⟨hname, hrest⟩ := List.nodup_cons.1 hr
    have hother : ∀ {n a}, (n, a) ∈ rest → n ≠ name := by
      rintro n a hm rfl
      exact hname (List.mem_map.2 ⟨_, hm, rfl⟩)
    -- what the later fields meet in the document that was added to
    have hstep : ∀ {c : Bson}, merge (Fields.insert into name c) rest = (merged, true) →
        (MergedFrom into ((name, b) :: rest) name c) →
        R.all ((Fields.insert into name c).map fun e => T e.1 e.2) =
          R.meet (R.all (into.map fun e => T e.1 e.2)) (T name b) →
        (Fields.names merged).Nodup ∧
          (∀ n c, (n, c) ∈ merged → MergedFrom into ((name, b) :: rest) n c) ∧
          R.all (merged.map fun e => T e.1 e.2) =
            R.meet (R.all (into.map fun e => T e.1 e.2))
              (R.all (((name, b) :: rest).map fun e => T e.1 e.2)) := by
      intro c hmerge hfrom hall
      have hinto : ∀ {n a b'}, (n, a) ∈ Fields.insert into name c → (n, b') ∈ rest →
          (n, a) ∈ into := by
        intro n a b' ha hb
        rcases Fields.mem_of_mem_insert ha with ha | ha
        · exact ha
        · cases ha
          exact absurd rfl (hother hb)
      obtain ⟨hnodup, horigin, htruth⟩ := ih (Fields.nodup_names_insert hn name c) hrest hmerge
        fun n a b' c' ha hb => hT n a b' c' (hinto ha hb) (List.mem_cons_of_mem _ hb)
      refine ⟨hnodup, fun n c' hc' => ?_, ?_⟩
      · rcases horigin n c' hc' with hin | hin | ⟨a, b', ha, hb, hm⟩
        · rcases Fields.mem_of_mem_insert hin with hin | hin
          · exact .inl hin
          · cases hin
            exact hfrom
        · exact .inr (.inl (List.mem_cons_of_mem _ hin))
        · exact .inr (.inr ⟨a, b', hinto ha hb, List.mem_cons_of_mem _ hb, hm⟩)
      · rw [htruth, hall, R.assoc]
        rfl
    rw [merge] at h
    split at h
    · rename_i hnone
      exact hstep h (.inr (.inl List.mem_cons_self)) (all_insert_new hnone b)
    · rename_i a hsome
      cases hm : mergeContent name a b with
      | mk c agreed =>
        rw [hm] at h
        cases agreed with
        | false => cases h
        | true =>
          have ha := Fields.mem_of_get? hsome
          exact hstep h (.inr (.inr ⟨a, b, ha, List.mem_cons_self, hm⟩))
            (all_insert_merged hsome (hT name a b c ha List.mem_cons_self hm))

variable {v element : Value}

/-- Two operator documents on one field, not both of them with `$not`, are put together soundly. -/
theorem Condition.merge {ops more : Document} (ha : Condition (.document ops))
    (hb : Condition (.document more)) (hops : isOperators ops = true)
    (hmore : isOperators more = true) (h : Filter.merge ops more = (merged, true))
    (hclash : Fields.has ops "$not" = true → Fields.has more "$not" = false) :
    Condition (.document merged) ∧
      (Fields.has merged "$not" = true →
        Fields.has ops "$not" = true ∨ Fields.has more "$not" = true) ∧
      ∀ (R : Reading) (v : Value), condition R v (.document merged) =
        R.meet (condition R v (.document ops)) (condition R v (.document more)) := by
  obtain ⟨hne, hn, hop, hoperand, hnot⟩ := ha.document hops
  obtain ⟨hne', hn', hop', hoperand', hnot'⟩ := hb.document hmore
  have hname : ∀ {op : String} {c : Bson} {d : Document}, (op, c) ∈ d → op ∈ Fields.names d :=
    fun hm => List.mem_map.2 ⟨_, hm, rfl⟩
  have hhas : ∀ {op : String} {c : Bson} {d : Document}, (op, c) ∈ d → Fields.has d op = true :=
    fun hm => Fields.has_iff_mem_names.2 (hname hm)
  -- what both have under one operator are operands that are the same
  have hcommon : ∀ op a b c, (op, a) ∈ ops → (op, b) ∈ more → mergeContent op a b = (c, true) →
      op ≠ "$not" ∧ c = a ∧ a.same b = true ∧ (∃ u : Value, Operand a u) ∧
        ∃ w : Value, Operand b w := by
    intro op a b c hma hmb hc
    have hne : op ≠ "$not" := by
      rintro rfl
      have := hclash (hhas hma)
      rw [hhas hmb] at this
      cases this
    obtain ⟨u, hu⟩ := hoperand op a hma hne
    rcases mergeContent_eq_true hc with ⟨rfl, hsame⟩ | ⟨_, _, _, _, rfl, _⟩ |
      ⟨_, _, _, rfl, _, hexact, _⟩
    · exact ⟨hne, rfl, hsame, ⟨u, hu⟩, hoperand' op b hmb hne⟩
    · exact absurd (hop _ (hname hma)) (by decide)
    · rw [hu.exact _ rfl] at hexact
      cases hexact
  have hall : ∀ (R : Reading) (v : Value), (Fields.names merged).Nodup ∧
      (∀ op c, (op, c) ∈ merged → MergedFrom ops more op c) ∧ conditions R v merged =
        R.meet (conditions R v ops) (conditions R v more) := by
    intro R v
    rw [conditions_eq, conditions_eq, conditions_eq]
    refine all_merge (T := operatorTruth R v) hn hn' h fun op a b c hma hmb hc => ?_
    obtain ⟨hne, rfl, hsame, ⟨u, hu⟩, w, hw⟩ := hcommon op a b c hma hmb hc
    rw [← operatorTruth_of_same hne hu hw hsame, R.self]
  obtain ⟨hnodup, horigin, -⟩ := hall .strong .null
  have hfrom : ∀ op c, (op, c) ∈ merged → (op, c) ∈ ops ∨ (op, c) ∈ more := by
    intro op c hm
    rcases horigin op c hm with hm | hm | ⟨a, b, hma, hmb, hc⟩
    · exact .inl hm
    · exact .inr hm
    · obtain ⟨-, rfl, -⟩ := hcommon op a b c hma hmb hc
      exact .inl hma
  have hmerged : merged ≠ [] := by
    have hm : (Filter.merge ops more).1 ≠ [] := merge_ne_nil hne
    rwa [h] at hm
  have hmem : ∀ op ∈ Fields.names merged, op ∈ conditionOperators := by
    intro op hm
    obtain ⟨⟨_, c⟩, he, rfl⟩ := List.mem_map.1 hm
    exact (hfrom _ c he).elim (fun hm => hop _ (hname hm)) fun hm => hop' _ (hname hm)
  refine ⟨.operators hmerged hnodup hmem (fun op c hm hne => ?_) (fun c hm => ?_), fun hm => ?_,
    fun R v => ?_⟩
  · exact (hfrom op c hm).elim (fun hm => hoperand op c hm hne) fun hm => hoperand' op c hm hne
  · exact (hfrom "$not" c hm).elim (hnot c) (hnot' c)
  · obtain ⟨e, he, heq⟩ := List.mem_map.1 (Fields.has_iff_mem_names.1 hm)
    obtain ⟨op, c⟩ := e
    cases heq
    exact (hfrom _ c he).imp hhas hhas
  · rw [condition_operators hmerged (isOperators_of_mem hmem), condition_operators hne hops,
      condition_operators hne' hmore, (hall R v).2.2]

theorem denies_iff {f : Filter} (hn : (Fields.names f).Nodup) {path : String} :
    denies f path = true ↔ ∃ ops, (path, .document ops) ∈ f ∧ Fields.has ops "$not" = true := by
  unfold denies
  constructor
  · intro h
    split at h
    · rename_i ops hget
      exact ⟨ops, Fields.mem_of_get? hget, h⟩
    · cases h
  · rintro ⟨ops, hm, h⟩
    rw [Fields.get?_of_mem hn hm]
    exact h

variable {f g : Filter}

/-- What two filters ask of one field, put together. -/
private theorem Condition.mergeContent {name : String} {a b c : Bson} (hname : name ≠ "$and")
    (ha : Condition a) (hb : Condition b) (h : Filter.mergeContent name a b = (c, true))
    (hclash : ∀ ops more, a = .document ops → b = .document more →
      Fields.has ops "$not" = true → Fields.has more "$not" = false) :
    Condition c ∧
      (∀ merged, c = .document merged → Fields.has merged "$not" = true →
        (∃ ops, a = .document ops ∧ Fields.has ops "$not" = true) ∨
          ∃ more, b = .document more ∧ Fields.has more "$not" = true) ∧
      ∀ (R : Reading) (v : Value), condition R v c = R.meet (condition R v a) (condition R v b) := by
  rcases mergeContent_eq_true h with ⟨rfl, hsame⟩ | ⟨_, _, _, _, hand, _⟩ |
    ⟨ops, more, merged, rfl, rfl, hops, hmore, hm, rfl⟩
  · refine ⟨ha, fun ops hc hnot => .inl ⟨ops, hc, hnot⟩, fun R v => ?_⟩
    rw [← condition_of_same ha hb hsame, R.self]
  · exact absurd hand hname
  · obtain ⟨hc, hnot, htruth⟩ := ha.merge hb hops hmore hm (hclash ops more rfl rfl)
    refine ⟨hc, fun merged' he hd => ?_, htruth⟩
    cases he
    exact (hnot hd).imp (fun h => ⟨ops, rfl, h⟩) fun h => ⟨more, rfl, h⟩

/-- Filters under one operator in both, put together. -/
private theorem listed_mergeContent {name : String} {fs gs : List Filter} {c : Bson}
    (hop : isOperator name = true) (hf : ∀ f ∈ fs, Formed f) (hg : ∀ g ∈ gs, Formed g)
    (h : Filter.mergeContent name (.array (fs.map Bson.document)) (.array (gs.map Bson.document)) =
      (c, true)) :
    (∃ hs : List Filter, c = .array (hs.map Bson.document) ∧ ∀ f ∈ hs, f ∈ fs ∨ f ∈ gs) ∧
      ∀ (R : Reading) (element : Value), fieldTruth R element name c =
        R.meet (fieldTruth R element name (.array (fs.map Bson.document)))
          (fieldTruth R element name (.array (gs.map Bson.document))) := by
  rcases mergeContent_eq_true h with ⟨rfl, hsame⟩ | ⟨xs, ys, hx, hy, rfl, rfl⟩ |
    ⟨_, _, _, he, -⟩
  · refine ⟨⟨fs, rfl, fun f hf => .inl hf⟩, fun R element => ?_⟩
    have hall := forall₂_of_sameItems hsame
    have htruths : fs.map (truth R element) = gs.map (truth R element) := by
      clear h hsame
      induction hall with
      | nil => rfl
      | @cons f g fs gs hfg hall ih =>
        rw [List.map_cons, List.map_cons, truth_of_sameFields (hf f List.mem_cons_self)
          (hg g List.mem_cons_self) hfg.1 hfg.2, ih (fun f h => hf f (List.mem_cons_of_mem _ h))
          fun g h => hg g (List.mem_cons_of_mem _ h)]
    rw [← fieldTruth_congr hop htruths, R.self]
  · cases hx
    cases hy
    refine ⟨⟨fs ++ gs, by rw [List.map_append], fun f hf => List.mem_append.1 hf⟩,
      fun R element => ?_⟩
    change truths R element _ = R.meet (truths R element _) (truths R element _)
    rw [← List.map_append, truths_eq, truths_eq, truths_eq, List.map_append, R.all_append]
  · cases he

theorem Formed.listed_of_mem (h : Formed f) {name : String} {content : Bson}
    (hm : (name, content) ∈ f) (hop : isOperator name = true) :
    ∃ fs : List Filter, content = .array (fs.map Bson.document) ∧ ∀ g ∈ fs, Formed g := by
  cases h with
  | mk hn hpath hlisted hformed =>
    obtain ⟨fs, rfl⟩ := hlisted name content hm hop
    exact ⟨fs, rfl, fun g hg => hformed name _ g hm hop (List.mem_map.2 ⟨g, hg, rfl⟩)⟩

/-- A filter made of conditions and of listed filters is formed. -/
theorem Formed.of (hn : (Fields.names f).Nodup)
    (hpath : ∀ name content, (name, content) ∈ f → isOperator name = false → Condition content)
    (hlisted : ∀ name content, (name, content) ∈ f → isOperator name = true →
      ∃ fs : List Filter, content = .array (fs.map Bson.document) ∧ ∀ g ∈ fs, Formed g) :
    Formed f := by
  refine .mk hn hpath (fun name content hm hop => ?_) fun name items g hm hop hg => ?_
  · obtain ⟨fs, hfs, -⟩ := hlisted name content hm hop
    exact ⟨fs, hfs⟩
  · obtain ⟨fs, hfs, hformed⟩ := hlisted name _ hm hop
    cases hfs
    obtain ⟨g', hg', he⟩ := List.mem_map.1 hg
    cases he
    exact hformed g hg'

/-- Filters that negate no field both are merged soundly. -/
theorem Formed.merge {m : Filter} (hf : Formed f) (hg : Formed g)
    (h : Filter.merge f g = (m, true))
    (hclash : ∀ path, denies f path = true → denies g path = false) :
    Formed m ∧ (∀ path, denies m path = true → denies f path = true ∨ denies g path = true) ∧
      ∀ (R : Reading) (element : Value),
        truth R element m = R.meet (truth R element f) (truth R element g) := by
  have hf' := hf
  have hg' := hg
  cases hf' with
  | mk hn hpath _ _ =>
  cases hg' with
  | mk hn' hpath' _ _ =>
  have hcondition : ∀ name a b c, (name, a) ∈ f → (name, b) ∈ g →
      Filter.mergeContent name a b = (c, true) → isOperator name = false → _ :=
    fun name a b c ha hb hc hop =>
      (hpath name a ha hop).mergeContent (by rintro rfl; cases hop) (hpath' name b hb hop) hc
        fun ops more hops hmore hnot => by
          subst hops hmore
          have hd := hclash name ((denies_iff hn).2 ⟨ops, ha, hnot⟩)
          cases hhas : Fields.has more "$not" with
          | false => rfl
          | true =>
            rw [(denies_iff hn').2 ⟨more, hb, hhas⟩] at hd
            cases hd
  have hlisted : ∀ name a b c, (name, a) ∈ f → (name, b) ∈ g →
      Filter.mergeContent name a b = (c, true) → isOperator name = true →
      (∃ hs : List Filter, c = .array (hs.map Bson.document) ∧ ∀ h ∈ hs, Formed h) ∧
      ∀ (R : Reading) (element : Value), fieldTruth R element name c =
        R.meet (fieldTruth R element name a) (fieldTruth R element name b) := by
    intro name a b c ha hb hc hop
    obtain ⟨fs, rfl, hfs⟩ := hf.listed_of_mem ha hop
    obtain ⟨gs, rfl, hgs⟩ := hg.listed_of_mem hb hop
    obtain ⟨⟨hs, rfl, hmem⟩, htruth⟩ := listed_mergeContent hop hfs hgs hc
    exact ⟨⟨hs, rfl, fun h hh => (hmem h hh).elim (hfs h) (hgs h)⟩, htruth⟩
  have hall : ∀ (R : Reading) (element : Value), _ := fun R element =>
    all_merge (R := R) (T := fieldTruth R element) hn hn' h fun name a b c ha hb hc => by
      cases hop : isOperator name with
      | false =>
        rw [fieldTruth_path _ _ hop, fieldTruth_path _ _ hop, fieldTruth_path _ _ hop]
        exact (hcondition name a b c ha hb hc hop).2.2 R _
      | true => exact (hlisted name a b c ha hb hc hop).2 R element
  obtain ⟨hnodup, horigin, -⟩ := hall .strong .null
  have hm : Formed m := by
    refine .of hnodup (fun name c hm hop => ?_) fun name c hm hop => ?_
    · rcases horigin name c hm with hm | hm | ⟨a, b, ha, hb, hc⟩
      · exact hpath name c hm hop
      · exact hpath' name c hm hop
      · exact (hcondition name a b c ha hb hc hop).1
    · rcases horigin name c hm with hm | hm | ⟨a, b, ha, hb, hc⟩
      · exact hf.listed_of_mem hm hop
      · exact hg.listed_of_mem hm hop
      · exact (hlisted name a b c ha hb hc hop).1
  refine ⟨hm, fun path hd => ?_, fun R element => ?_⟩
  · obtain ⟨ops, hops, hnot⟩ := (denies_iff hnodup).1 hd
    rcases horigin path _ hops with hops | hops | ⟨a, b, ha, hb, hc⟩
    · exact .inl ((denies_iff hn).2 ⟨ops, hops, hnot⟩)
    · exact .inr ((denies_iff hn').2 ⟨ops, hops, hnot⟩)
    · cases hop : isOperator path with
      | false =>
        rcases (hcondition path a b _ ha hb hc hop).2.1 ops rfl hnot with ⟨ops, rfl, hnot⟩ |
          ⟨more, rfl, hnot⟩
        · exact .inl ((denies_iff hn).2 ⟨ops, ha, hnot⟩)
        · exact .inr ((denies_iff hn').2 ⟨more, hb, hnot⟩)
      | true =>
        obtain ⟨⟨hs, he, -⟩, -⟩ := hlisted path a b _ ha hb hc hop
        cases he
  · rw [truth_eq, truth_eq, truth_eq]
    exact (hall R element).2.2

end Merged

end Filter

end QueryPushdown
