import QueryPushdown.Proofs.Eval.Calm
import QueryPushdown.Request.Typing

/-!
# Answers from every request

Inference and evaluation answer with a type, a value or an error. A request stops them only by its
numbers: a depth beyond the scopes that can be counted, or a bound whose buffer cannot be reserved.
-/

namespace QueryPushdown

open Outcome (Calm)

namespace Typing

theorem listItem_calm (op : String) (ty : Ty) : (listItem op ty).Calm := by
  cases ty <;> first | trivial | exact Error.invalid_calm _

theorem sequenceItem_calm (op : String) (ty : Ty) : (sequenceItem op ty).Calm := by
  unfold sequenceItem
  split
  · trivial
  · exact Error.invalid_calm _

theorem require_calm (test : Ty → Bool) (why : Ty → Invalid) (ty : Ty) :
    (require test why ty).Calm := by
  unfold require
  split
  · trivial
  · exact Error.invalid_calm _

theorem field_calm (subject : Ty) (name : String) : (field subject name).Calm := by
  unfold field
  split
  · trivial
  · split
    · trivial
    · exact Error.invalid_calm _
  · exact Error.invalid_calm _

theorem unary_calm (op : UnaryOp) (operand : Ty) : (unary op operand).Calm := by
  unfold unary
  split <;> first | trivial | exact Error.invalid_calm _

theorem arithmetic_calm (op : BinaryOp) (lhs rhs : Ty) : (arithmetic op lhs rhs).Calm := by
  unfold arithmetic
  split
  case h_7 =>
    split
    · trivial
    · exact Error.invalid_calm _
  all_goals trivial

theorem binary_calm (op : BinaryOp) (lhs rhs : Ty) : (binary op lhs rhs).Calm := by
  cases op with
  | eq | ne | ge | gt | le | lt => trivial
  | add | sub | mul | div => exact arithmetic_calm _ lhs rhs
  | and | or | matching =>
    exact (require_calm _ _ lhs).bind fun _ => (require_calm _ _ rhs).bind fun _ => trivial

theorem aggregate_calm (op : AggregateOp) (subject : Ty) : (aggregate op subject).Calm := by
  cases op with
  | len => cases subject <;> first | trivial | exact Error.invalid_calm _
  | sum =>
    refine (listItem_calm "sum" subject).bind fun item => ?_
    cases item <;> first | trivial | exact Error.invalid_calm _
  | min | max => exact listItem_calm _ subject

end Typing

/-- In 64 bits, the depth of a node can change its sign and the scopes up to it can be counted. -/
def Term.DepthFits : Term → Prop
  | context _ up => Int64.ofNat up ≠ Int64.minValue ∧ up + 1 ≠ 2 ^ 64
  | _ => True

instance : DecidablePred Term.DepthFits
  | .context _ up =>
    inferInstanceAs (Decidable (Int64.ofNat up ≠ Int64.minValue ∧ up + 1 ≠ 2 ^ 64))
  | .source _ _ | .literal _ _ | .record _ _ | .step _ _ _ => isTrue trivial

/-- A depth is written as a word with its sign changed, which leaves 64 bits for one word only. -/
theorem depthText_eq {up : Nat} (h : Int64.ofNat up ≠ Int64.minValue) :
    depthText up = toString (-(Int64.ofNat up).toInt) := by
  have hne : (Int64.ofNat up).toInt ≠ -2 ^ 63 := fun he => h (Int64.toInt_inj.1 he)
  have hle := Int64.le_toInt (Int64.ofNat up)
  have hlt := Int64.toInt_lt (Int64.ofNat up)
  have hwritten : Int.bmod (-(up : Int)) (2 ^ 64) = -(Int64.ofNat up).toInt := by
    calc Int.bmod (-(up : Int)) (2 ^ 64)
        = (-(Int64.ofNat up)).toInt := by
          rw [Int64.toInt_neg, Int64.toInt_ofNat', Int64.size]
          exact Int.bmod_neg_bmod.symm
      _ = -(Int64.ofNat up).toInt := by
          rw [Int64.toInt_neg]
          exact Int.bmod_eq_of_le (by omega) (by omega)
  rw [depthText, hwritten]

variable {schema : Schema} {frames : Frames}

/-- Under no frames does the inference of a term crash. -/
def Term.InferCalm (schema : Schema) (t : Term) : Prop :=
  ∀ frames : Frames, (t.infer schema frames).Calm

theorem Frames.read_calm {up : Nat} (h : up + 1 ≠ 2 ^ 64) : (frames.read up).Calm := by
  unfold Frames.read
  rw [if_neg h]
  split
  · trivial
  · exact Error.invalid_calm _

theorem inferFields_calm {fields : List (String × Term)} (h : ∀ f ∈ fields, f.2.InferCalm schema) :
    (inferFields schema frames fields).Calm := by
  induction fields with
  | nil => trivial
  | cons field rest ih =>
    obtain ⟨name, t⟩ := field
    obtain ⟨ht, hrest⟩ := List.forall_mem_cons.1 h
    rw [inferFields]
    exact (ht frames).bind fun ty => (ih hrest).bind fun _ => trivial

theorem inferKeys_calm {keys : List (Term × Bool)} (h : ∀ k ∈ keys, k.1.InferCalm schema) :
    (inferKeys schema frames keys).Calm := by
  induction keys with
  | nil => trivial
  | cons key rest ih =>
    obtain ⟨t, descending⟩ := key
    obtain ⟨ht, hrest⟩ := List.forall_mem_cons.1 h
    rw [inferKeys]
    exact (ht frames).bind fun ty => ih hrest

/-- A step whose operands are inferred without a crash is. -/
theorem Step.infer_calm {action : Step} {subject : Ty}
    (h : ∀ c ∈ action.operands, c.1.InferCalm schema) :
    (action.infer schema frames subject).Calm := by
  cases action with
  | field name => exact Typing.field_calm subject name
  | unary op => exact Typing.unary_calm op subject
  | binary op rhs =>
    rw [infer]
    exact (h _ List.mem_cons_self frames).bind fun ty => Typing.binary_calm op subject ty
  | filter predicate =>
    rw [infer]
    refine (Typing.listItem_calm _ subject).bind fun item => ?_
    refine (h _ List.mem_cons_self _).bind fun ty => ?_
    exact (Typing.require_calm _ _ ty).bind fun _ => trivial
  | map transform =>
    rw [infer]
    refine (Typing.listItem_calm _ subject).bind fun item => ?_
    exact (h _ List.mem_cons_self _).bind fun ty => trivial
  | sort keys =>
    rw [infer]
    refine (Typing.listItem_calm _ subject).bind fun item => ?_
    refine (inferKeys_calm fun k hk => ?_).bind fun _ => trivial
    exact h (k.1, 1) (List.mem_map.2 ⟨k, hk, rfl⟩)
  | slice start stop =>
    rw [infer]
    exact (Typing.sequenceItem_calm _ subject).bind fun _ => trivial
  | index position => exact Typing.sequenceItem_calm _ subject
  | groupby key aggregates =>
    rw [infer]
    refine (Typing.listItem_calm _ subject).bind fun item => ?_
    refine (h (key, 1) List.mem_cons_self _).bind fun keyTy => ?_
    split
    · trivial
    · refine (inferFields_calm fun f hf => ?_).bind fun _ => trivial
      exact h (f.2, 1) (List.mem_cons_of_mem _ (List.mem_map.2 ⟨f, hf, rfl⟩))
  | distinct =>
    rw [infer]
    exact (Typing.listItem_calm _ subject).bind fun _ => trivial
  | one => exact Typing.listItem_calm _ subject
  | oneOr default =>
    rw [infer]
    refine (Typing.listItem_calm _ subject).bind fun item => ?_
    exact (h _ List.mem_cons_self _).bind fun ty => trivial
  | aggregate op => exact Typing.aggregate_calm op subject

/-- The inference of a term crashes under no frames, when all its depths fit. -/
theorem Term.infer_calm (t : Term) : (∀ n ∈ t.nodes, n.DepthFits) → t.InferCalm schema := by
  induction t using children_induction with
  | h t ih =>
    intro hfits frames
    have hchild : ∀ c ∈ t.children, c.1.InferCalm schema := fun c hc =>
      ih c hc fun n hn => hfits n (mem_nodes.2 (.inr ⟨c, hc, hn⟩))
    cases t with
    | source id name =>
      rw [infer]
      split
      · trivial
      · exact Error.invalid_calm _
    | literal id value => trivial
    | context id up => exact Frames.read_calm (hfits _ (self_mem_nodes _)).2
    | record id fields =>
      rw [infer]
      refine (inferFields_calm fun f hf => ?_).bind fun _ => trivial
      exact hchild (f.2, 0) (List.mem_map.2 ⟨f, hf, rfl⟩)
    | step id subject action =>
      rw [infer]
      refine (hchild (subject, 0) List.mem_cons_self frames).bind fun sty => ?_
      exact Step.infer_calm fun c hc => hchild c (List.mem_cons_of_mem _ hc)

namespace Request

/-- Whether the last of three elements is the one bound `2 ^ 64 - 2` scopes outwards. -/
def astray : Request :=
  ((literal (.list [.int 1, .int 2, .int 3])).wrap (.index (-1))).combine (context (2 ^ 64 - 2))
    (.binary .eq)

/-- The element `2 ^ 63` places before the end. -/
def longBefore : Request := (literal (.list [.int 1])).wrap (.index Int64.minValue)

end Request

end QueryPushdown
