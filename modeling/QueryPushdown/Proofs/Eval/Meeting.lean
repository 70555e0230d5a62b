import QueryPushdown.Proofs.Eval.Draining

/-!
# What errors and values are like

A property of values and one of errors pass together through chains of outcomes and through all
operators on sequences. The operators add no errors of their own, except that windows reserve
buffers and positions may be out of range.
-/

namespace QueryPushdown

variable {E : Error → Prop} {α β σ : Type} {P Q : α → Prop} {R : β → Prop}

/-- A value is as `P` asks, an error as `E` does. -/
def Outcome.Meets (E : Error → Prop) (P : α → Prop) : Outcome α → Prop
  | .ok a => P a
  | .error e => E e

namespace Outcome.Meets

theorem bind {x : Outcome α} {f : α → Outcome β} (h : Outcome.Meets E P x)
    (hf : ∀ a, P a → Outcome.Meets E R (f a)) : Outcome.Meets E R (x >>= f) := by
  cases x with
  | error e => exact h
  | ok a => exact hf a h

theorem mono {x : Outcome α} (h : Outcome.Meets E P x) (hPQ : ∀ a, P a → Q a) :
    Outcome.Meets E Q x := by
  cases x with
  | error e => exact h
  | ok a => exact hPQ a h

theorem mapM {f : α → Outcome β} {xs : List α} (h : ∀ a ∈ xs, Outcome.Meets E R (f a)) :
    Outcome.Meets E (fun bs => ∀ b ∈ bs, R b) (xs.mapM f) := by
  induction xs with
  | nil => exact fun b hb => by cases hb
  | cons a xs ih =>
    rw [List.mapM_cons]
    refine (h a List.mem_cons_self).bind fun b hb => ?_
    refine (ih fun c hc => h c (List.mem_cons_of_mem _ hc)).bind fun bs hbs => ?_
    intro c hc
    rcases List.mem_cons.1 hc with rfl | hc
    · exact hb
    · exact hbs c hc

end Outcome.Meets

namespace Yields

/-- Everything that is yielded is as asked. -/
def Meets (E : Error → Prop) (P : Value → Prop) (ys : Yields) : Prop :=
  ∀ y ∈ ys, Outcome.Meets E P y

namespace Meets

variable {P Q : Value → Prop} {xs ys : Yields}

theorem ofList {vs : List Value} (h : ∀ v ∈ vs, P v) : Yields.Meets E P (Yields.ofList vs) := by
  intro y hy
  obtain ⟨v, hv, rfl⟩ := List.mem_map.1 hy
  exact h v hv

theorem head {y : Outcome Value} (h : Yields.Meets E P (y :: ys)) : Outcome.Meets E P y :=
  h y List.mem_cons_self

theorem tail {y : Outcome Value} (h : Yields.Meets E P (y :: ys)) : Yields.Meets E P ys :=
  fun z hz => h z (List.mem_cons_of_mem _ hz)

theorem cons {y : Outcome Value} (hy : Outcome.Meets E P y) (h : Yields.Meets E P ys) :
    Yields.Meets E P (y :: ys) := by
  intro z hz
  rcases List.mem_cons.1 hz with rfl | hz
  · exact hy
  · exact h z hz

theorem nil : Yields.Meets E P [] := fun y hy => by cases hy

theorem collect (h : Yields.Meets E P ys) :
    Outcome.Meets E (fun vs => ∀ v ∈ vs, P v) (Yields.collect ys) := by
  induction ys with
  | nil => exact fun v hv => by cases hv
  | cons y ys ih =>
    cases y with
    | error e => exact h.head
    | ok v =>
      refine (ih h.tail).bind fun vs hvs w hw => ?_
      rcases List.mem_cons.1 hw with rfl | hw
      · exact h.head
      · exact hvs w hw

theorem keep {test : Value → Outcome Bool} (h : Yields.Meets E P ys)
    (ht : ∀ v, P v → Outcome.Meets E (fun _ => True) (test v)) :
    Yields.Meets E P (Yields.keep test ys) := by
  induction ys with
  | nil => exact .nil
  | cons y ys ih =>
    cases y with
    | error e => exact .cons h.head (ih h.tail)
    | ok v =>
      have hv := ht v h.head
      rw [Yields.keep]
      revert hv
      generalize test v = b
      intro hv
      rcases b with e | b
      · exact .cons hv (ih h.tail)
      · cases b with
        | true => exact .cons h.head (ih h.tail)
        | false => exact ih h.tail

theorem mapWith {f : Value → Outcome Value} (h : Yields.Meets E P ys)
    (hf : ∀ v, P v → Outcome.Meets E Q (f v)) : Yields.Meets E Q (Yields.mapWith f ys) := by
  intro y hy
  obtain ⟨x, hx, rfl⟩ := List.mem_map.1 hy
  exact (h x hx).bind hf

theorem skip (n : Nat) (h : Yields.Meets E P ys) : Yields.Meets E P (Yields.skip n ys) := by
  induction ys generalizing n with
  | nil => exact .nil
  | cons y ys ih =>
    cases y with
    | error e => exact .cons h.head (ih _ h.tail)
    | ok v =>
      rw [Yields.skip]
      split
      · exact .cons h.head (ih _ h.tail)
      · exact ih _ h.tail

theorem take (n : Nat) (h : Yields.Meets E P ys) : Yields.Meets E P (ys.take n) :=
  fun y hy => h y (List.mem_of_mem_take hy)

theorem holdBack (n : Nat) {held : List Value} (hh : ∀ v ∈ held, P v) (h : Yields.Meets E P ys) :
    Yields.Meets E P (Yields.holdBack n held ys) := by
  induction ys generalizing held with
  | nil => exact .nil
  | cons y ys ih =>
    cases y with
    | error e => exact .cons h.head (ih hh h.tail)
    | ok v =>
      have hall : ∀ w ∈ held ++ [v], P w := by
        intro w hw
        rcases List.mem_append.1 hw with hw | hw
        · exact hh w hw
        · exact List.mem_singleton.1 hw ▸ h.head
      rw [Yields.holdBack]
      revert hall
      rcases held ++ [v] with _ | ⟨oldest, waiting⟩
      · exact fun _ => ih (fun w hw => by cases hw) h.tail
      · intro hall
        dsimp only
        split
        · refine .cons (hall oldest List.mem_cons_self) (ih (fun w hw => ?_) h.tail)
          exact hall w (List.mem_cons_of_mem _ hw)
        · exact ih hall h.tail

theorem distinct (seen : Seen) (h : Yields.Meets E P ys) :
    Yields.Meets E P (Yields.distinct seen ys) := by
  induction ys generalizing seen with
  | nil => exact .nil
  | cons y ys ih =>
    cases y with
    | error e => exact .cons h.head (ih _ h.tail)
    | ok v =>
      rw [Yields.distinct]
      split
      · exact .cons h.head (ih _ h.tail)
      · exact ih _ h.tail

theorem fold {I : σ → Prop} {f : σ → Value → Outcome σ} (h : Yields.Meets E P ys)
    (hf : ∀ s v, I s → P v → Outcome.Meets E I (f s v)) {s : σ} (hs : I s) :
    Outcome.Meets E I (Yields.fold f s ys) := by
  induction ys generalizing s with
  | nil => exact hs
  | cons y ys ih =>
    cases y with
    | error e => exact h.head
    | ok v => exact (hf s v hs h.head).bind fun t ht => ih h.tail ht

theorem foldAll {I : σ → Prop} {f : σ → Value → Outcome σ} (h : Yields.Meets E P ys)
    (hf : ∀ s v, I s → P v → Outcome.Meets E I (f s v)) {s : Outcome σ} (hs : Outcome.Meets E I s) :
    Outcome.Meets E I (Yields.foldAll f s ys) := by
  induction ys generalizing s with
  | nil => exact hs
  | cons y ys ih =>
    refine ih h.tail ?_
    exact hs.bind fun t ht => h.head.bind fun v hv => hf t v ht hv

theorem next? (h : Yields.Meets E P ys) :
    Outcome.Meets E (fun o => ∀ v rest, o = some (v, rest) → P v ∧ Yields.Meets E P rest)
      (Yields.next? ys) := by
  cases ys with
  | nil => exact fun v rest ho => by cases ho
  | cons y ys =>
    cases y with
    | error e => exact h.head
    | ok v =>
      rintro w rest ⟨⟩
      exact ⟨h.head, h.tail⟩

theorem nth (hrange : ∀ i length, E (.ofCause (.indexOutOfRange i length))) (position : Int64)
    (n seen : Nat) (h : Yields.Meets E P ys) :
    Outcome.Meets E P (Yields.nth position n seen ys) := by
  induction ys generalizing n seen with
  | nil => cases n <;> exact hrange _ _
  | cons y ys ih =>
    cases y with
    | error e => cases n <;> exact h.head
    | ok v =>
      cases n with
      | zero => exact h.head
      | succ n => exact ih n (seen + 1) h.tail

end Meets

end Yields

namespace Value

theorem compareFloats_meets (hunordered : E (.fault .notOrdered)) (a b : Binary64) :
    Outcome.Meets E (fun _ => True) (compareFloats a b) := by
  unfold compareFloats
  cases a.compare? b with
  | some o => trivial
  | none => exact hunordered

mutual

theorem compare?_meets (hkinds : ∀ a b, E (.fault (.orderKinds a b)))
    (hunordered : E (.fault .notOrdered)) (a b : Value) :
    Outcome.Meets E (fun _ => True) (a.compare? b) := by
  cases a with
  | list xs =>
    cases b with
    | list ys =>
      rw [compare?]
      exact compareItems?_meets hkinds hunordered xs ys
    | _ => exact hkinds _ _
  | bool x => cases b <;> first | trivial | exact hkinds _ _
  | text s => cases b <;> first | trivial | exact hkinds _ _
  | int i =>
    cases b with
    | float y => exact compareFloats_meets hunordered _ y
    | int j => trivial
    | _ => exact hkinds _ _
  | float x =>
    cases b with
    | float y => exact compareFloats_meets hunordered x y
    | int j => exact compareFloats_meets hunordered x _
    | _ => exact hkinds _ _
  | null | mapping fields => cases b <;> exact hkinds _ _
termination_by sizeOf a

theorem compareItems?_meets (hkinds : ∀ a b, E (.fault (.orderKinds a b)))
    (hunordered : E (.fault .notOrdered)) (as bs : List Value) :
    Outcome.Meets E (fun _ => True) (compareItems? as bs) := by
  match as, bs with
  | [], [] => trivial
  | [], _ :: _ => trivial
  | _ :: _, [] => trivial
  | a :: as, b :: bs =>
    rw [compareItems?]
    refine (compare?_meets hkinds hunordered a b).bind fun o _ => ?_
    cases o with
    | eq => exact compareItems?_meets hkinds hunordered as bs
    | _ => trivial
termination_by sizeOf as

end

end Value

namespace Pulls

variable {P : Value → Prop} {ps : Pulls}

/-- The first element is as asked, and so is everything after it. -/
theorem next?_meets (h : Yields.Meets E P ps.yields) :
    Outcome.Meets E (fun o => ∀ v rest, o = some (v, rest) → P v ∧ Yields.Meets E P rest.yields)
      ps.next?.outcome := by
  have hnext := h.next?
  rw [← Pulls.outcome_next?] at hnext
  revert hnext
  generalize ps.next?.outcome = o
  intro hnext
  cases o with
  | error e => exact hnext
  | ok o =>
    rintro v rest rfl
    exact hnext v rest.yields rfl

end Pulls

namespace Evaluated

variable {P : Value → Prop} {ps : Pulls}

theorem characters_meets (h : ∀ s, P (.text s)) (s : String) :
    Yields.Meets E P (characters s).yields := by
  intro y hy
  obtain ⟨p, hp, hy⟩ := List.mem_filterMap.1 hy
  obtain ⟨c, _, rfl⟩ := List.mem_map.1 hp
  cases hy
  exact h _

theorem joined_meets (h : Yields.Meets E P ps.yields) :
    Outcome.Meets E (fun _ => True) (joined ps).outcome := by
  rw [joined, Run.outcome_bind, Pulls.outcome_drain]
  exact h.collect.bind fun _ _ => trivial

end Evaluated

namespace Window

variable {P : Value → Prop} {ps : Pulls} {n : Nat} {start stop : Option Int64} {position : Int64}

theorem trailing_meets (hn : Outcome.Meets E (fun _ => True) (reserve n))
    (h : Yields.Meets E P ps.yields) :
    Outcome.Meets E (fun w => ∀ v ∈ w.1, P v) (trailing n ps).outcome := by
  rw [outcome_trailing]
  refine hn.bind fun _ _ => h.collect.bind fun vs hvs v hv => ?_
  exact hvs v (List.mem_of_mem_drop hv)

/-- A slice fails when its buffer cannot be reserved, or as the sequence does. -/
theorem slice_meets (hn : Outcome.Meets E (fun _ => True) (reserve (sliceBuffer start stop)))
    (h : Yields.Meets E P ps.yields) :
    Outcome.Meets E (fun qs => Yields.Meets E P qs.yields) (slice ps start stop).outcome := by
  unfold sliceBuffer at hn
  unfold slice
  dsimp only
  by_cases hs : start.getD 0 < 0
  · rw [if_pos hs] at hn ⊢
    rw [fromEnd_eq, Run.outcome_bind]
    refine (trailing_meets hn h).bind fun w hw => ?_
    rw [Run.outcome_pure]
    change Yields.Meets E P (Pulls.ofList _).yields
    rw [Pulls.yields_ofList]
    exact .ofList fun v hv => hw v (List.mem_of_mem_take hv)
  · have hskip : Yields.Meets E P (ps.skip (start.getD 0).toInt.toNat).yields := by
      rw [Pulls.yields_skip]
      exact h.skip _
    rw [if_neg hs] at hn ⊢
    cases stop with
    | none => exact hskip
    | some stop =>
      dsimp only at hn ⊢
      by_cases hp : 0 ≤ stop
      · rw [if_pos hp]
        change Yields.Meets E P (Pulls.take _ _).yields
        rw [Pulls.yields_take]
        exact hskip.take _
      · rw [if_neg hp] at hn ⊢
        rw [Run.outcome_bind, Run.outcome_lift]
        refine hn.bind fun _ _ => ?_
        change Yields.Meets E P (Pulls.holdBack _ _ _).yields
        rw [Pulls.yields_holdBack]
        exact hskip.holdBack _ nofun

/-- A position fails when its buffer cannot be reserved, out of range, or as the sequence does. -/
theorem index_meets (hrange : ∀ i length, E (.ofCause (.indexOutOfRange i length)))
    (hn : Outcome.Meets E (fun _ => True) (reserve (indexBuffer position)))
    (h : Yields.Meets E P ps.yields) : Outcome.Meets E P (index ps position).outcome := by
  unfold indexBuffer at hn
  unfold index
  by_cases hp : 0 ≤ position
  · rw [if_pos hp, Pulls.outcome_nth]
    exact h.nth hrange position _ 0
  · rw [if_neg hp] at hn ⊢
    rw [Run.outcome_bind]
    refine (trailing_meets hn h).bind fun w hw => ?_
    obtain ⟨window, length⟩ := w
    cases window with
    | nil => exact hrange _ _
    | cons v rest =>
      dsimp only
      split
      · exact hrange _ _
      · exact hw v List.mem_cons_self

end Window

end QueryPushdown
