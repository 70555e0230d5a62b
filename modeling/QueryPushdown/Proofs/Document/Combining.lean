import QueryPushdown.Document.Predicate
import QueryPushdown.Proofs.Document.Merging

/-!
# Truth of combined filters

Conjunctions, alternatives and negations of filters have the truth that their names promise.
-/

namespace QueryPushdown

namespace Filter

section Combined

variable {f g : Filter} {R : Reading} {element : Value}

theorem formed_nil : Formed [] :=
  .of List.nodup_nil (fun _ _ h => by cases h) fun _ _ h => by cases h

/-- One condition on a field. -/
theorem formed_single {path : String} {content : Bson} (hop : isOperator path = false)
    (h : Condition content) : Formed (single path content) := by
  refine .of (List.pairwise_singleton _ _) (fun name c hm _ => ?_) fun name c hm hop' => ?_
  · cases List.mem_singleton.1 hm
    exact h
  · cases List.mem_singleton.1 hm
    rw [hop] at hop'
    cases hop'

theorem truth_single (name : String) (content : Bson) :
    truth R element (single name content) = fieldTruth R element name content :=
  R.meet_true _

theorem truth_path {path : String} (hop : isOperator path = false) (content : Bson) :
    truth R element (single path content) = condition R (element.atPath path) content := by
  rw [truth_single, fieldTruth_path _ _ hop]

theorem formed_listed {op : String} {fs : List Filter} (hop : isOperator op = true)
    (h : ∀ f ∈ fs, Formed f) : Formed (listed op fs) := by
  refine .of (List.pairwise_singleton _ _) (fun name c hm hop' => ?_) fun name c hm _ => ?_
  · cases List.mem_singleton.1 hm
    rw [hop] at hop'
    cases hop'
  · cases List.mem_singleton.1 hm
    exact ⟨fs, rfl, h⟩

theorem denies_listed (op : String) (fs : List Filter) (path : String) :
    denies (listed op fs) path = false := by
  unfold denies listed single
  by_cases h : op = path <;> simp [Fields.get?, h]

theorem truth_listed_and (fs : List Filter) :
    truth R element (listed "$and" fs) = R.all (fs.map (truth R element)) := by
  rw [listed, truth_single]
  exact truths_eq R element fs

theorem truth_listed_or (fs : List Filter) :
    truth R element (listed "$or" fs) = (R.all (fs.map fun f => (truth R element f).neg)).neg := by
  rw [listed, truth_single]
  exact congrArg Truth.neg (refutations_eq R element fs)

theorem truth_listed_nor (fs : List Filter) :
    truth R element (listed "$nor" fs) = R.all (fs.map fun f => (truth R element f).neg) := by
  rw [listed, truth_single]
  exact refutations_eq R element fs

theorem documents?_map (fs : List Filter) : documents? (fs.map Bson.document) = some fs := by
  induction fs with
  | nil => rfl
  | cons f fs ih =>
    rw [List.map_cons, documents?, ih]
    rfl

/-- A filter is taken apart only when it is a listing itself. -/
theorem operands_cases (h : Formed f) {op : String} (hop : isOperator op = true) :
    operands op f = [f] ∨ f = listed op (operands op f) ∧ ∀ g ∈ operands op f, Formed g := by
  unfold operands
  split
  · rename_i name items
    split
    · rename_i hname
      subst hname
      obtain ⟨fs, he, hfs⟩ := h.listed_of_mem List.mem_cons_self hop
      cases he
      rw [documents?_map]
      exact .inr ⟨rfl, hfs⟩
    · exact .inl rfl
  · exact .inl rfl

theorem operands_formed (h : Formed f) {op : String} (hop : isOperator op = true) :
    ∀ g ∈ operands op f, Formed g := by
  rcases operands_cases h hop with he | ⟨-, hall⟩
  · rw [he]
    exact fun g hg => List.mem_singleton.1 hg ▸ h
  · exact hall

theorem all_operands_and (h : Formed f) :
    R.all ((operands "$and" f).map (truth R element)) = truth R element f := by
  rcases operands_cases h (rfl : isOperator "$and" = true) with he | ⟨he, -⟩
  · rw [he]
    exact R.meet_true _
  · conv_rhs => rw [he]
    rw [truth_listed_and]

theorem all_operands_or (h : Formed f) :
    R.all ((operands "$or" f).map fun f => (truth R element f).neg) = (truth R element f).neg := by
  rcases operands_cases h (rfl : isOperator "$or" = true) with he | ⟨he, -⟩
  · rw [he]
    exact R.meet_true _
  · conv_rhs => rw [he]
    rw [truth_listed_or, Truth.neg_neg]

/-- The conjunction of two filters that negate no field both asks what both ask, in any reading. -/
theorem Formed.and (hf : Formed f) (hg : Formed g)
    (hclash : ∀ path, denies f path = true → denies g path = false) :
    Formed (f.and g) ∧
      (∀ path, denies (f.and g) path = true → denies f path = true ∨ denies g path = true) ∧
      ∀ (R : Reading) (element : Value),
        truth R element (f.and g) = R.meet (truth R element f) (truth R element g) := by
  unfold Filter.and
  split
  · rename_i hempty
    obtain rfl := List.isEmpty_iff.1 hempty
    exact ⟨hg, fun _ h => .inr h, fun R element => (R.true_meet _).symm⟩
  split
  · rename_i hempty
    obtain rfl := List.isEmpty_iff.1 hempty
    exact ⟨hf, fun _ h => .inl h, fun R element => (R.meet_true _).symm⟩
  split
  · rename_i hm
    exact hf.merge hg hm hclash
  · refine ⟨formed_listed rfl fun h hh => ?_, fun path hd => ?_, fun R element => ?_⟩
    · exact (List.mem_append.1 hh).elim (operands_formed hf rfl h) (operands_formed hg rfl h)
    · rw [denies_listed] at hd
      cases hd
    · rw [truth_listed_and, List.map_append, R.all_append, all_operands_and hf,
        all_operands_and hg]

theorem Formed.or (hf : Formed f) (hg : Formed g) : Formed (f.or g) :=
  formed_listed rfl fun h hh =>
    (List.mem_append.1 hh).elim (operands_formed hf rfl h) (operands_formed hg rfl h)

theorem truth_or (hf : Formed f) (hg : Formed g) : truth R element (f.or g) =
    (R.meet (truth R element f).neg (truth R element g).neg).neg := by
  rw [Filter.or, truth_listed_or, List.map_append, R.all_append, all_operands_or hf,
    all_operands_or hg]

theorem condition_operator {v : Value} {op : String} (hop : isOperator op = true) (operand : Bson) :
    condition R v (operator op operand) = operatorTruth R v op operand := by
  have hops : isOperators (single op operand) = true := by simp [isOperators, single, hop]
  rw [operator, condition_operators (by simp [single]) hops, conditions_eq]
  exact R.meet_true _

/-- An operator on an operand is a condition. -/
theorem Condition.operator {op : String} {operand : Bson} {w : Value}
    (hop : op ∈ conditionOperators) (hnot : op ≠ "$not") (hw : Operand operand w) :
    Condition (operator op operand) := by
  refine .operators (by simp [single]) (List.pairwise_singleton _ _)
    (fun op' hm => List.mem_singleton.1 hm ▸ hop) (fun op' c hm _ => ?_) fun c hm => ?_
  · cases List.mem_singleton.1 hm
    exact ⟨w, hw⟩
  · cases List.mem_singleton.1 hm
    exact absurd rfl hnot

theorem operatorTruth_ne (v : Value) (operand : Bson) :
    operatorTruth R v "$ne" operand = (Truth.ofOutcome (equals v operand)).neg :=
  Truth.ofOutcome_not _

/-- A filter is negated under `$nor`, or within the condition on its one field: an inequality is
undone, other operators stand under `$not`, and an operand under `$ne`. -/
theorem Formed.negated_cases (h : Formed f) : f.negated = listed "$nor" [f] ∨
    (∃ path operand w, isOperator path = false ∧ Operand operand w ∧
      f = [(path, operator "$ne" operand)] ∧ f.negated = single path operand) ∨
    (∃ path ops, isOperator path = false ∧ Condition (.document ops) ∧ f = [(path, .document ops)] ∧
      f.negated = single path (operator "$not" (.document ops))) ∨
    ∃ path content w, isOperator path = false ∧ Operand content w ∧ f = [(path, content)] ∧
      f.negated = single path (operator "$ne" content) := by
  have hcontent : ∀ {path : String} {content : Bson}, f = [(path, content)] →
      isOperator path = false → Condition content := by
    rintro path content rfl hop
    cases h with
    | mk _ hpath _ _ => exact hpath path content List.mem_cons_self hop
  unfold Filter.negated
  split
  · rename_i path ops
    split
    · rename_i hcond
      obtain ⟨hpath, hops⟩ := Bool.and_eq_true_iff.1 hcond
      have hpath : isOperator path = false := by simpa using hpath
      have hc := hcontent rfl hpath
      split
      · rename_i operand
        obtain ⟨-, -, -, hoperand, -⟩ := hc.document hops
        obtain ⟨w, hw⟩ := hoperand "$ne" operand List.mem_cons_self (by decide)
        exact .inr (.inl ⟨path, operand, w, hpath, hw, rfl, rfl⟩)
      · exact .inr (.inr (.inl ⟨path, ops, hpath, hc, rfl, rfl⟩))
    · exact .inl rfl
  · rename_i path content hdocument
    split
    · exact .inl rfl
    · rename_i hop
      have hpath := eq_false_of_ne_true hop
      obtain ⟨w, hw⟩ := (hcontent rfl hpath).operand fun ops hops => absurd hops (hdocument ops)
      exact .inr (.inr (.inr ⟨path, content, w, hpath, hw, rfl, rfl⟩))
  · exact .inl rfl

/-- What the negation of a filter is made of. -/
theorem Formed.negated (h : Formed f) : Formed f.negated ∧
    ∀ (R : Reading) (element : Value), truth R element f.negated = (truth R element f).neg := by
  rcases h.negated_cases with hneg | ⟨path, operand, w, hpath, hw, rfl, hneg⟩ |
    ⟨path, ops, hpath, hc, rfl, hneg⟩ | ⟨path, content, w, hpath, hw, rfl, hneg⟩
  all_goals rw [hneg]
  · refine ⟨formed_listed rfl fun g hg => List.mem_singleton.1 hg ▸ h, fun R element => ?_⟩
    rw [truth_listed_nor]
    exact R.meet_true _
  · refine ⟨formed_single hpath (.exact hw), fun R element => ?_⟩
    have htruth : truth R element [(path, operator "$ne" operand)] =
        condition R (element.atPath path) (operator "$ne" operand) := truth_path hpath _
    rw [truth_path hpath, htruth, condition_operator rfl, operatorTruth_ne, Truth.neg_neg,
      hw.condition, hw.equals]
    rfl
  · refine ⟨formed_single hpath (.operators (by simp [single]) (List.pairwise_singleton _ _)
      (fun op hm => ?_) (fun op operand hm hne => ?_) fun operand hm => ?_), fun R element => ?_⟩
    · obtain rfl : op = "$not" := List.mem_singleton.1 hm
      decide
    · cases List.mem_singleton.1 hm
      exact absurd rfl hne
    · cases List.mem_singleton.1 hm
      exact hc
    · have htruth : truth R element [(path, .document ops)] =
          condition R (element.atPath path) (.document ops) := truth_path hpath _
      rw [truth_path hpath, htruth, condition_operator rfl]
      rfl
  · refine ⟨formed_single hpath (.operator (by decide) (by decide) hw), fun R element => ?_⟩
    have htruth : truth R element [(path, content)] =
        condition R (element.atPath path) content := truth_path hpath _
    rw [truth_path hpath, htruth, condition_operator rfl, operatorTruth_ne, hw.condition, hw.equals]
    rfl

end Combined

end Filter

end QueryPushdown
