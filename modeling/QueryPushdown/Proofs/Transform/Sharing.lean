import QueryPushdown.Proofs.Request.Arenas
import QueryPushdown.Proofs.Transform.Reading
import QueryPushdown.Proofs.Transform.Splitting

/-!
# Sharing out conjuncts

A predicate is split by asking a test about its conjuncts, left to right and once each. The part that
is kept has the conjuncts of which the test holds, the remainder the others, and the predicate is the
conjunction of the two parts.
-/

namespace QueryPushdown

section Asked

variable {σ : Type} {keep : Request → StateM σ Bool}

/-- The calls that a test gets for conjuncts, each with the arena that has grown by then, and its
answers. -/
structure Asked (keep : Request → StateM σ Bool) (conjuncts : List Term) (arena : Arena)
    (before after : σ) (calls : List (Request × Bool)) : Prop where
  roots : calls.map (·.1.root) = conjuncts
  arenas : ∀ c ∈ calls, arena.nodes.toList <+: c.1.arena.nodes.toList
  answers : (calls.map Prod.fst).mapM keep before = (calls.map Prod.snd, after)

/-- The conjuncts of which a test holds. -/
def passing (calls : List (Request × Bool)) : List Term := (calls.filter (·.2)).map (·.1.root)

/-- The conjuncts of which a test does not hold. -/
def failing (calls : List (Request × Bool)) : List Term := (calls.filter (!·.2)).map (·.1.root)

variable {a b : Arena} {s s' s'' : σ} {cs ds : List Term} {calls more : List (Request × Bool)}

theorem passing_append : passing (calls ++ more) = passing calls ++ passing more := by
  rw [passing, List.filter_append, List.map_append]
  rfl

theorem failing_append : failing (calls ++ more) = failing calls ++ failing more := by
  rw [failing, List.filter_append, List.map_append]
  rfl

/-- What holds of all conjuncts holds of both parts. -/
theorem all_passing_and_all_failing (p : Term → Bool) :
    ((passing calls).all p && (failing calls).all p) = (calls.map (·.1.root)).all p := by
  rw [passing, failing, List.all_map, List.all_map, List.all_map, Bool.and_comm]
  exact Term.all_filter_and_all_filter_not (·.2) (p ∘ (·.1.root)) calls

theorem mem_of_passing {t : Term} (h : t ∈ passing calls) : t ∈ calls.map (·.1.root) := by
  obtain ⟨c, hc, rfl⟩ := List.mem_map.1 h
  exact List.mem_map.2 ⟨c, List.mem_of_mem_filter hc, rfl⟩

theorem mem_of_failing {t : Term} (h : t ∈ failing calls) : t ∈ calls.map (·.1.root) := by
  obtain ⟨c, hc, rfl⟩ := List.mem_map.1 h
  exact List.mem_map.2 ⟨c, List.mem_of_mem_filter hc, rfl⟩

namespace Asked

theorem passing_eq (h : Asked keep cs a s s' calls) (hnone : failing calls = []) :
    passing calls = cs := by
  rw [passing, Term.filter_eq_self_of_filter_not _ _ (List.map_eq_nil_iff.1 hnone), h.roots]

theorem failing_eq (h : Asked keep cs a s s' calls) (hnone : passing calls = []) :
    failing calls = cs := by
  rw [failing, Term.filter_not_eq_self_of_filter _ _ (List.map_eq_nil_iff.1 hnone), h.roots]

theorem single {t : Term} {answer : Bool} (h : keep ⟨a, t⟩ s = (answer, s')) :
    Asked keep [t] a s s' [(⟨a, t⟩, answer)] where
  roots := rfl
  arenas c hc := List.mem_singleton.1 hc ▸ List.prefix_refl _
  answers := by
    rw [List.map_singleton, List.mapM_cons, List.mapM_nil]
    simp only [bind, StateT.bind, h]
    rfl

theorem append (h : Asked keep cs a s s' calls) (h' : Asked keep ds b s' s'' more)
    (hab : a.nodes.toList <+: b.nodes.toList) : Asked keep (cs ++ ds) a s s'' (calls ++ more) where
  roots := by rw [List.map_append, h.roots, h'.roots]
  arenas c hc := (List.mem_append.1 hc).elim (h.arenas c) fun hc => hab.trans (h'.arenas c hc)
  answers := by
    have hfirst := h.answers
    have hsecond := h'.answers
    rw [List.map_append, List.mapM_append, List.map_append]
    simp only [bind, StateT.bind, hfirst, hsecond]
    rfl

end Asked

end Asked

namespace Term

section Splitting

variable {σ : Type} {keep : Request → StateM σ Bool}

/-- What `partitionM` makes of a term that is no conjunction. -/
theorem partitionM_eq_ask {t : Term}
    (h : ∀ id lhs rhs, t = step id lhs (.binary .and rhs) → False) :
    t.partitionM keep =
      (do pure (if ← ask keep t then (some t, none) else (none, some t))) := by
  cases t with
  | step id subject action => cases action with
    | binary op rhs => cases op <;> first | rfl | exact absurd rfl (h _ _ _)
    | _ => rfl
  | _ => rfl

theorem alloc_appends (make : Nat → Term) (a : Arena) :
    a.nodes.toList <+: (alloc make a).2.nodes.toList := by
  simp [alloc]

theorem conjoin_appends (lhs rhs : Option Term) (a : Arena) :
    a.nodes.toList <+: (conjoin lhs rhs a).2.nodes.toList := by
  cases lhs with
  | none => exact List.prefix_refl _
  | some lhs => cases rhs with
    | none => exact List.prefix_refl _
    | some rhs => exact alloc_appends (step · lhs (.binary .and rhs)) a

/-- Every conjunct is asked about once, left to right, and is in the part that its answer says. -/
theorem partitionM_asks (keep : Request → StateM σ Bool) (t : Term) (s : σ) (a : Arena) :
    ∃ calls, Asked keep t.conjuncts a s (t.partitionM keep s a).1.2 calls ∧
      conjunctsOf (t.partitionM keep s a).1.1.1 = passing calls ∧
      conjunctsOf (t.partitionM keep s a).1.1.2 = failing calls ∧
      a.nodes.toList <+: (t.partitionM keep s a).2.nodes.toList := by
  induction t using conjuncts.induct generalizing s a with
  | case1 id lhs rhs ihl ihr =>
    rcases hp : lhs.partitionM keep s a with ⟨⟨⟨lk, ll⟩, s₁⟩, a₁⟩
    rcases hq : rhs.partitionM keep s₁ a₁ with ⟨⟨⟨rk, rl⟩, s₂⟩, a₂⟩
    obtain ⟨calls, hcalls, hlk, hll, ha₁⟩ := ihl s a
    obtain ⟨more, hmore, hrk, hrl, ha₂⟩ := ihr s₁ a₁
    rw [hp] at hcalls hlk hll ha₁
    rw [hq] at hmore hrk hrl ha₂
    have hasked := hcalls.append hmore ha₁
    have happended := ha₁.trans ha₂
    have hkept : conjunctsOf lk ++ conjunctsOf rk = passing (calls ++ more) := by
      rw [hlk, hrk, passing_append]
    have hleft : conjunctsOf ll ++ conjunctsOf rl = failing (calls ++ more) := by
      rw [hll, hrl, failing_append]
    refine ⟨calls ++ more, ?_⟩
    simp only [partitionM, bind, StateT.bind, hp, hq]
    split
    next hnone =>
      obtain ⟨rfl, rfl⟩ : ll = none ∧ rl = none := by simpa using hnone
      exact ⟨hasked, (hasked.passing_eq hleft.symm).symm, hleft, happended⟩
    next =>
      split
      next hnone =>
        obtain ⟨rfl, rfl⟩ : lk = none ∧ rk = none := by simpa using hnone
        exact ⟨hasked, hkept, (hasked.failing_eq hkept.symm).symm, happended⟩
      next =>
        refine ⟨hasked, ?_, ?_, ?_⟩
        · exact (conjunctsOf_conjoin lk rk a₂).trans hkept
        · exact (conjunctsOf_conjoin ll rl _).trans hleft
        · exact (happended.trans (conjoin_appends lk rk a₂)).trans (conjoin_appends ll rl _)
  | case2 t h =>
    rcases hk : keep ⟨a, t⟩ s with ⟨answer, s'⟩
    have hself : conjunctsOf (some t) = [t] := conjuncts_eq_singleton h
    rw [conjuncts_eq_singleton h, partitionM_eq_ask h]
    refine ⟨[(⟨a, t⟩, answer)], ?_⟩
    simp only [bind, StateT.bind, ask, hk]
    refine ⟨.single hk, ?_⟩
    cases answer with
    | true => exact ⟨hself, rfl, List.prefix_refl _⟩
    | false => exact ⟨rfl, hself, List.prefix_refl _⟩

/-- A test without a state gives the same parts. -/
theorem partitionM_pure (keep : Term → Bool) (t : Term) (s : σ) (a : Arena) :
    t.partitionM (fun r => pure (keep r.root)) s a =
      (((t.partition keep a).1, s), (t.partition keep a).2) := by
  induction t using conjuncts.induct generalizing a with
  | case1 id lhs rhs ihl ihr =>
    rcases hp : lhs.partition keep a with ⟨⟨lk, ll⟩, a₁⟩
    rcases hq : rhs.partition keep a₁ with ⟨⟨rk, rl⟩, a₂⟩
    simp only [partitionM, partition, bind, StateT.bind, ihl, ihr, hp, hq]
    by_cases hleft : (ll.isNone && rl.isNone) = true
    · rw [if_pos hleft, if_pos hleft]
      rfl
    · rw [if_neg hleft, if_neg hleft]
      by_cases hkept : (lk.isNone && rk.isNone) = true
      · rw [if_pos hkept, if_pos hkept]
        rfl
      · rw [if_neg hkept, if_neg hkept]
        rfl
  | case2 t h =>
    rw [partitionM_eq_ask h, partition_eq_pure h]
    rfl

end Splitting

/-- A part has these conjuncts; the literal `true` stands for none. -/
def Conjoins (t : Term) : List Term → Prop
  | [] => ∃ id, t = literal id (.bool true)
  | c :: cs => t.conjuncts = c :: cs

theorem conjoins_orTrue {part : Option Term} {cs : List Term} (h : conjunctsOf part = cs) (a : Arena) :
    (orTrue part a).1.Conjoins cs := by
  cases part with
  | none =>
    obtain rfl : [] = cs := h
    exact ⟨a.size, rfl⟩
  | some t =>
    obtain rfl : t.conjuncts = cs := h
    change t.Conjoins t.conjuncts
    cases hcs : t.conjuncts with
    | nil => exact absurd hcs t.conjuncts_ne_nil
    | cons c cs => exact hcs

namespace Conjoins

variable {t : Term} {cs : List Term}

theorem outcome_eq {input : Input} {scope : Scope} (h : t.Conjoins cs)
    (hb : ∀ c ∈ cs, ∃ b, c.outcome input scope = .ok (.bool b)) :
    t.outcome input scope = .ok (.bool (cs.all (·.isTrue input scope))) := by
  cases cs with
  | nil =>
    obtain ⟨id, rfl⟩ := h
    rfl
  | cons c cs =>
    have hcs : t.conjuncts = c :: cs := h
    rw [outcome_of_conjuncts (hcs ▸ hb), hcs]

theorem readsOnly {F : String → Prop} {level : Nat} (h : t.Conjoins cs)
    (hF : ∀ c ∈ cs, c.ReadsOnly F level) : t.ReadsOnly F level := by
  cases cs with
  | nil =>
    obtain ⟨id, rfl⟩ := h
    exact .node (fun _ _ he => by cases he) fun c hc => by cases hc
  | cons c cs =>
    have hcs : t.conjuncts = c :: cs := h
    exact readsOnly_of_conjuncts (hcs ▸ hF)

end Conjoins

end Term

/-- An element with two of three flags. -/
def Value.flagged : Value := .mapping [("a", .bool true), ("b", .bool false), ("c", .bool true)]

namespace Request

variable {σ : Type}

theorem splitBy_eq (r : Request) (keep : Term → Bool) : r.splitBy keep =
    let parts := r.root.partition keep r.arena
    let kept := Term.orTrue parts.1.1 parts.2
    let left := Term.orTrue parts.1.2 kept.2
    ⟨⟨left.2, kept.1⟩, ⟨left.2, left.1⟩⟩ := rfl

theorem splitByM_eq (r : Request) (keep : Request → StateM σ Bool) (s : σ) : r.splitByM keep s =
    let parts := r.root.partitionM keep s r.arena
    let kept := Term.orTrue parts.1.1.1 parts.2
    let left := Term.orTrue parts.1.1.2 kept.2
    (⟨⟨left.2, kept.1⟩, ⟨left.2, left.1⟩⟩, parts.1.2) := rfl

/-- With a test that has no state, `splitByM` is `splitBy`. -/
theorem splitByM_pure (r : Request) (keep : Term → Bool) (s : σ) :
    r.splitByM (fun q => pure (keep q.root)) s = (r.splitBy keep, s) := by
  rw [splitByM_eq, splitBy_eq, Term.partitionM_pure]

/-- Keeps every other conjunct. -/
def alternating : Request → StateM Bool Bool := fun _ next => (next, !next)

/-- Whether an element has the flags `a`, `b` and `c`. -/
def allFlags : Request :=
  let flag (name : String) := (context 0).wrap (.field name)
  (flag "a").combine ((flag "b").combine (flag "c") (.binary .and)) (.binary .and)

example : (allFlags.splitByM alternating true).1.kept.text = "(ctx(0).a and ctx(0).c)" := by decide

theorem allFlags_conjuncts : allFlags.root.conjuncts =
    [.step 1 (.context 0 0) (.field "a"), .step 3 (.context 2 0) (.field "b"),
      .step 5 (.context 4 0) (.field "c")] := rfl

end Request

end QueryPushdown
