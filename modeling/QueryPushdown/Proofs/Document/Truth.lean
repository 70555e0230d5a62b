import QueryPushdown.Document.Matching

/-!
# What filters say

A condition that cannot be evaluated has no truth. The truth of a filter is made of the truths of its
conditions, whatever their order. There are two readings: in the strong one a failed condition
decides a conjunction that has an unknown one, in the weak one nothing does. The matcher
decides at least what the weak reading decides, and nothing against the strong one.
-/

namespace QueryPushdown

/-- A truth value, or none when it is unknown. -/
abbrev Truth := Option Bool

namespace Truth

/-- Truth of the opposite. -/
def neg : Truth → Truth := Option.map Bool.not

@[simp] theorem neg_neg (t : Truth) : t.neg.neg = t := by
  cases t with
  | none => rfl
  | some b => cases b <;> rfl

def ofOutcome : Outcome Bool → Truth
  | .ok b => some b
  | .error _ => none

theorem ofOutcome_eq_some {o : Outcome Bool} {b : Bool} : ofOutcome o = some b ↔ o = .ok b := by
  cases o <;> simp [ofOutcome]

theorem ofOutcome_not (o : Outcome Bool) :
    ofOutcome (do pure !(← o)) = (ofOutcome o).neg := by
  cases o <;> rfl

end Truth

/-- How conjunctions read truths that may be unknown. -/
structure Reading where
  meet : Truth → Truth → Truth
  comm : ∀ a b, meet a b = meet b a
  assoc : ∀ a b c, meet (meet a b) c = meet a (meet b c)
  self : ∀ a, meet a a = a
  true_meet : ∀ a, meet (some true) a = a

namespace Reading

/-- A condition that fails outweighs one that is unknown. -/
def strong : Reading where
  meet
    | some false, _ | _, some false => some false
    | some true, some true => some true
    | _, _ => none
  comm := by rintro (_ | _ | _) (_ | _ | _) <;> rfl
  assoc := by rintro (_ | _ | _) (_ | _ | _) (_ | _ | _) <;> rfl
  self := by rintro (_ | _ | _) <;> rfl
  true_meet := by rintro (_ | _ | _) <;> rfl

/-- An unknown condition outweighs all others. -/
def weak : Reading where
  meet
    | some a, some b => some (a && b)
    | _, _ => none
  comm := by rintro (_ | _ | _) (_ | _ | _) <;> rfl
  assoc := by rintro (_ | _ | _) (_ | _ | _) (_ | _ | _) <;> rfl
  self := by rintro (_ | _ | _) <;> rfl
  true_meet := by rintro (_ | _ | _) <;> rfl

theorem strong_false_meet (a : Truth) : strong.meet (some false) a = some false := by
  rcases a with _ | _ | _ <;> rfl

theorem strong_eq_true {a b : Truth} :
    strong.meet a b = some true ↔ a = some true ∧ b = some true := by
  rcases a with _ | _ | _ <;> rcases b with _ | _ | _ <;> decide

theorem weak_eq_some {a b : Truth} {c : Bool} (h : weak.meet a b = some c) :
    ∃ x y, a = some x ∧ b = some y ∧ c = (x && y) := by
  cases a with
  | none => cases h
  | some x =>
    cases b with
    | none => cases h
    | some y => exact ⟨x, y, rfl, rfl, (Option.some.inj h).symm⟩

variable (R : Reading)

theorem meet_true (a : Truth) : R.meet a (some true) = a := by
  rw [R.comm, R.true_meet]

/-- The conjunction of several truths. -/
def all : List Truth → Truth
  | [] => some true
  | t :: ts => R.meet t (all ts)

theorem all_append (xs ys : List Truth) : R.all (xs ++ ys) = R.meet (R.all xs) (R.all ys) := by
  induction xs with
  | nil => exact (R.true_meet _).symm
  | cons x xs ih => rw [List.cons_append, all, all, ih, R.assoc]

theorem meet_all_of_mem {t : Truth} {ts : List Truth} (h : t ∈ ts) : R.meet t (R.all ts) = R.all ts := by
  induction ts with
  | nil => cases h
  | cons u us ih =>
    rw [all]
    rcases List.mem_cons.1 h with rfl | h
    · rw [← R.assoc, R.self]
    · rw [← R.assoc, R.comm t u, R.assoc, ih h]

theorem meet_all_of_subset {xs ys : List Truth} (h : xs ⊆ ys) :
    R.meet (R.all xs) (R.all ys) = R.all ys := by
  induction xs with
  | nil => exact R.true_meet _
  | cons x xs ih =>
    rw [all, R.assoc, ih fun t ht => h (List.mem_cons_of_mem _ ht),
      R.meet_all_of_mem (h List.mem_cons_self)]

/-- A conjunction depends on neither the order nor the number of its parts. -/
theorem all_eq_of_subset {xs ys : List Truth} (h : xs ⊆ ys) (h' : ys ⊆ xs) : R.all xs = R.all ys := by
  rw [← R.meet_all_of_subset h', R.comm, R.meet_all_of_subset h]

end Reading

namespace Filter

/-- Whether a value meets an operator. -/
def meets (v : Value) (op : String) (operand : Bson) : Outcome Bool :=
  match op with
  | "$eq" => equals v operand
  | "$ne" => do pure !(← equals v operand)
  | "$gt" => ordered Ordering.isGT v operand
  | "$gte" => ordered Ordering.isGE v operand
  | "$lt" => ordered Ordering.isLT v operand
  | "$lte" => ordered Ordering.isLE v operand
  | "$regex" => matchesPattern v operand
  | "$not" => do pure !(← holds v operand)
  | op => throw (unsupported op)

theorem allHold_cons (v : Value) (op : String) (operand : Bson) (rest : List (String × Bson)) :
    allHold v ((op, operand) :: rest) = (do
      if ← meets v op operand then allHold v rest else pure false) := by
  unfold meets
  split <;> simp [allHold, *]

/-- Whether an element meets one field of a filter. -/
def fieldAccepts (element : Value) (name : String) (content : Bson) : Outcome Bool :=
  match name with
  | "$and" => acceptsAll element name content
  | "$or" => acceptsAny element name content
  | "$nor" => do pure !(← acceptsAny element name content)
  | name =>
    if isOperator name then throw (unsupported name)
    else holds (element.atPath name) content

theorem accepts_cons (element : Value) (name : String) (content : Bson)
    (rest : List (String × Bson)) :
    accepts element ((name, content) :: rest) = (do
      if ← fieldAccepts element name content then accepts element rest else pure false) := by
  unfold fieldAccepts
  split
  · simp [accepts]
  · simp [accepts]
  · simp [accepts]
  · simp only [accepts, *]
    split <;> rfl

section

variable (R : Reading) (v : Value)

mutual

/-- Truth of a condition on a value. -/
def condition : Bson → Truth
  | .document ops =>
    if !ops.isEmpty && isOperators ops then conditions ops
    else .ofOutcome (equals v (.document ops))
  | b => .ofOutcome (equals v b)

/-- Truth of operators together. -/
def conditions : List (String × Bson) → Truth
  | [] => some true
  | (op, operand) :: rest =>
    R.meet (if op = "$not" then (condition operand).neg else .ofOutcome (meets v op operand))
      (conditions rest)

end

/-- Truth of one operator. -/
def operatorTruth (op : String) (operand : Bson) : Truth :=
  if op = "$not" then (condition R v operand).neg else .ofOutcome (meets v op operand)

theorem conditions_eq (ops : List (String × Bson)) :
    conditions R v ops = R.all (ops.map fun e => operatorTruth R v e.1 e.2) := by
  induction ops with
  | nil => rfl
  | cons e rest ih =>
    obtain ⟨op, operand⟩ := e
    rw [conditions, ih]
    rfl

end

section

variable (R : Reading) (element : Value)

mutual

/-- Truth of a filter of an element. -/
def truth : List (String × Bson) → Truth
  | [] => some true
  | (name, content) :: rest => R.meet (fieldTruth name content) (truth rest)

/-- Truth of one field of a filter. -/
def fieldTruth (name : String) : Bson → Truth
  | .array items =>
    if name = "$and" then truths items
    else if name = "$or" then (refutations items).neg
    else if name = "$nor" then refutations items
    else if isOperator name then none
    else condition R (element.atPath name) (.array items)
  | content => if isOperator name then none else condition R (element.atPath name) content

/-- Truth of listed filters together. -/
def truths : List Bson → Truth
  | [] => some true
  | .document f :: rest => R.meet (truth f) (truths rest)
  | _ :: _ => none

/-- Truth of the opposites of listed filters together. -/
def refutations : List Bson → Truth
  | [] => some true
  | .document f :: rest => R.meet (truth f).neg (refutations rest)
  | _ :: _ => none

end

theorem truth_eq (f : Filter) :
    truth R element f = R.all (f.map fun e => fieldTruth R element e.1 e.2) := by
  induction f with
  | nil => rfl
  | cons e rest ih =>
    obtain ⟨name, content⟩ := e
    rw [truth, ih]
    rfl

theorem truths_eq (fs : List Filter) :
    truths R element (fs.map Bson.document) = R.all (fs.map (truth R element)) := by
  induction fs with
  | nil => rfl
  | cons f fs ih =>
    rw [List.map_cons, truths, ih]
    rfl

theorem refutations_eq (fs : List Filter) :
    refutations R element (fs.map Bson.document) = R.all (fs.map fun f => (truth R element f).neg) := by
  induction fs with
  | nil => rfl
  | cons f fs ih =>
    rw [List.map_cons, refutations, ih]
    rfl

/-- A path is no operator. -/
theorem fieldTruth_path {name : String} (h : isOperator name = false) (content : Bson) :
    fieldTruth R element name content = condition R (element.atPath name) content := by
  have hne : ∀ op : String, isOperator op = true → name ≠ op := by
    rintro op hop rfl
    rw [h] at hop
    cases hop
  cases content with
  | array items =>
    rw [fieldTruth, if_neg (hne "$and" (by decide)), if_neg (hne "$or" (by decide)),
      if_neg (hne "$nor" (by decide)), if_neg (by simp [h])]
  | _ =>
    rw [fieldTruth, if_neg (by simp [h])]
    exact fun _ he => by cases he

end

end Filter

end QueryPushdown
