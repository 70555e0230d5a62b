import QueryPushdown.Proofs.Eval.Yields

/-!
# Agreement up to errors

Two outcomes agree under a tolerance when both are values that agree, when both are errors that
may stand for each other, or when one of them is an error that excuses the other side. Yields
agree element by element up to the first error that excuses, and all consumers of sequences keep
agreement.
-/

namespace QueryPushdown

/-- Which errors make up for a difference between two evaluations. -/
structure Tolerance where
  /-- Errors that may stand for each other. -/
  pairs : Error → Error → Prop
  /-- Errors of the first side that excuse anything on the second. -/
  first : Error → Prop
  /-- Errors of the second side that excuse anything on the first. -/
  second : Error → Prop
  pairs_refl : ∀ e, pairs e e

variable {T : Tolerance} {α β γ δ σ τ : Type}

/-- Agreement of two outcomes, values being compared by `R`. -/
inductive Outcome.Related (T : Tolerance) (R : α → β → Prop) : Outcome α → Outcome β → Prop
  | ok {a : α} {b : β} (h : R a b) : Related T R (.ok a) (.ok b)
  | error {e f : Error} (h : T.pairs e f) : Related T R (.error e) (.error f)
  | first {e : Error} {y : Outcome β} (h : T.first e) : Related T R (.error e) y
  | second {x : Outcome α} {f : Error} (h : T.second f) : Related T R x (.error f)

/-- Agreement of two lists of yields. -/
inductive Yields.Related (T : Tolerance) : Yields → Yields → Prop
  | nil : Related T [] []
  | ok {v : Value} {xs ys : Yields} (h : Related T xs ys) : Related T (.ok v :: xs) (.ok v :: ys)
  | error {e f : Error} {xs ys : Yields} (he : T.pairs e f) (h : Related T xs ys) :
    Related T (.error e :: xs) (.error f :: ys)
  | first {e : Error} {xs ys : Yields} (he : T.first e) : Related T (.error e :: xs) ys
  | second {f : Error} {xs ys : Yields} (hf : T.second f) : Related T xs (.error f :: ys)

namespace Outcome.Related

variable {R : α → β → Prop} {S : γ → δ → Prop}

theorem self {R : α → α → Prop} (hR : ∀ a, R a a) (x : Outcome α) : Outcome.Related T R x x := by
  cases x with
  | error e => exact .error (T.pairs_refl e)
  | ok a => exact .ok (hR a)

theorem refl (x : Outcome α) : Outcome.Related T Eq x x := .self (fun _ => rfl) x

theorem bind {x : Outcome α} {y : Outcome β} {f : α → Outcome γ} {g : β → Outcome δ}
    (h : Outcome.Related T R x y) (hfg : ∀ a b, R a b → Outcome.Related T S (f a) (g b)) :
    Outcome.Related T S (x >>= f) (y >>= g) := by
  cases h with
  | ok h => exact hfg _ _ h
  | error h => exact .error h
  | first h => exact .first h
  | second h => exact .second h

/-- Binding on values that are equal. -/
theorem bind_eq {x y : Outcome α} {f : α → Outcome γ} {g : α → Outcome δ}
    (h : Outcome.Related T Eq x y) (hfg : ∀ a, Outcome.Related T S (f a) (g a)) :
    Outcome.Related T S (x >>= f) (y >>= g) :=
  h.bind fun a _ hab => hab ▸ hfg a

theorem map {x : Outcome α} {y : Outcome β} {f : α → γ} {g : β → δ}
    (h : Outcome.Related T R x y) (hfg : ∀ a b, R a b → S (f a) (g b)) :
    Outcome.Related T S (x.map f) (y.map g) := by
  cases h with
  | ok h => exact .ok (hfg _ _ h)
  | error h => exact .error h
  | first h => exact .first h
  | second h => exact .second h

theorem mono {R' : α → β → Prop} {x : Outcome α} {y : Outcome β}
    (h : Outcome.Related T R x y) (hR : ∀ a b, R a b → R' a b) : Outcome.Related T R' x y := by
  cases h with
  | ok h => exact .ok (hR _ _ h)
  | error h => exact .error h
  | first h => exact .first h
  | second h => exact .second h

end Outcome.Related

namespace Yields.Related

variable {xs ys : Yields}

theorem refl (xs : Yields) : Yields.Related T xs xs := by
  induction xs with
  | nil => exact .nil
  | cons x xs ih =>
    cases x with
    | error e => exact .error (T.pairs_refl e) ih
    | ok v => exact .ok ih

theorem collect (h : Yields.Related T xs ys) :
    Outcome.Related T Eq (Yields.collect xs) (Yields.collect ys) := by
  induction h with
  | nil => exact .ok rfl
  | ok h ih => exact ih.bind_eq fun vs => .ok rfl
  | error he h ih => exact .error he
  | first he => exact .first he
  | second hf => exact .second hf

theorem keep {p q : Value → Outcome Bool} (h : Yields.Related T xs ys)
    (hpq : ∀ v, Outcome.Related T Eq (p v) (q v)) :
    Yields.Related T (Yields.keep p xs) (Yields.keep q ys) := by
  induction h with
  | nil => exact .nil
  | @ok v xs ys h ih =>
    simp only [Yields.keep]
    have hv := hpq v
    revert hv
    generalize p v = a
    generalize q v = b
    intro hv
    cases hv with
    | @ok a b hab =>
      subst hab
      cases a with
      | true => exact .ok ih
      | false => exact ih
    | error he => exact .error he ih
    | first he => exact .first he
    | second hf => exact .second hf
  | error he h ih => exact .error he ih
  | first he => exact .first he
  | second hf => exact .second hf

theorem mapWith {f g : Value → Outcome Value} (h : Yields.Related T xs ys)
    (hfg : ∀ v, Outcome.Related T Eq (f v) (g v)) :
    Yields.Related T (Yields.mapWith f xs) (Yields.mapWith g ys) := by
  induction h with
  | nil => exact .nil
  | @ok v xs ys h ih =>
    change Yields.Related T (f v :: Yields.mapWith f xs) (g v :: Yields.mapWith g ys)
    have hv := hfg v
    revert hv
    generalize f v = a
    generalize g v = b
    intro hv
    cases hv with
    | ok hab => exact hab ▸ .ok ih
    | error he => exact .error he ih
    | first he => exact .first he
    | second hf => exact .second hf
  | error he h ih => exact .error he ih
  | first he => exact .first he
  | second hf => exact .second hf

theorem skip (n : Nat) (h : Yields.Related T xs ys) :
    Yields.Related T (Yields.skip n xs) (Yields.skip n ys) := by
  induction h generalizing n with
  | nil => exact .nil
  | ok h ih =>
    simp only [Yields.skip]
    split
    · exact .ok (ih _)
    · exact ih _
  | error he h ih => exact .error he (ih _)
  | first he => exact .first he
  | second hf => exact .second hf

theorem take (n : Nat) (h : Yields.Related T xs ys) :
    Yields.Related T (xs.take n) (ys.take n) := by
  induction h generalizing n with
  | nil => simpa using .nil
  | ok h ih =>
    cases n with
    | zero => exact .nil
    | succ n => exact .ok (ih n)
  | error he h ih =>
    cases n with
    | zero => exact .nil
    | succ n => exact .error he (ih n)
  | first he =>
    cases n with
    | zero => simpa using .nil
    | succ n => exact .first he
  | second hf =>
    cases n with
    | zero => simpa using .nil
    | succ n => exact .second hf

theorem holdBack (n : Nat) (held : List Value) (h : Yields.Related T xs ys) :
    Yields.Related T (Yields.holdBack n held xs) (Yields.holdBack n held ys) := by
  induction h generalizing held with
  | nil => exact .nil
  | @ok v xs ys h ih =>
    simp only [Yields.holdBack]
    rcases held ++ [v] with _ | ⟨oldest, waiting⟩
    · exact ih []
    · dsimp only
      split
      · exact .ok (ih _)
      · exact ih _
  | error he h ih => exact .error he (ih held)
  | first he => exact .first he
  | second hf => exact .second hf

theorem distinct (seen : Seen) (h : Yields.Related T xs ys) :
    Yields.Related T (Yields.distinct seen xs) (Yields.distinct seen ys) := by
  induction h generalizing seen with
  | nil => exact .nil
  | ok h ih =>
    simp only [Yields.distinct]
    split
    · exact .ok (ih _)
    · exact ih _
  | error he h ih => exact .error he (ih seen)
  | first he => exact .first he
  | second hf => exact .second hf

theorem fold {R : σ → τ → Prop} {f : σ → Value → Outcome σ} {g : τ → Value → Outcome τ}
    (h : Yields.Related T xs ys)
    (hfg : ∀ s t v, R s t → Outcome.Related T R (f s v) (g t v)) {s : σ} {t : τ} (hst : R s t) :
    Outcome.Related T R (Yields.fold f s xs) (Yields.fold g t ys) := by
  induction h generalizing s t with
  | nil => exact .ok hst
  | ok h ih => exact (hfg s t _ hst).bind fun a b hab => ih hab
  | error he h ih => exact .error he
  | first he => exact .first he
  | second hf => exact .second hf

theorem foldAll_error (f : σ → Value → Outcome σ) (e : Error) (xs : Yields) :
    Yields.foldAll f (.error e) xs = .error e := by
  induction xs with
  | nil => rfl
  | cons x xs ih => exact ih

private theorem foldAll_first {f g : σ → Value → Outcome σ} {s t : Outcome σ} {e : Error}
    {xs ys : Yields} (he : T.first e) (h : Outcome.Related T Eq s t) :
    Outcome.Related T Eq (Yields.foldAll f s (.error e :: xs)) (Yields.foldAll g t ys) := by
  cases h with
  | @ok a b hab =>
    change Outcome.Related T Eq (Yields.foldAll f (.error e) xs) _
    rw [foldAll_error]
    exact .first he
  | error h =>
    rw [foldAll_error, foldAll_error]
    exact .error h
  | first h =>
    rw [foldAll_error]
    exact .first h
  | second h =>
    rw [foldAll_error _ _ ys]
    exact .second h

private theorem foldAll_second {f g : σ → Value → Outcome σ} {s t : Outcome σ} {e : Error}
    {xs ys : Yields} (he : T.second e) (h : Outcome.Related T Eq s t) :
    Outcome.Related T Eq (Yields.foldAll f s xs) (Yields.foldAll g t (.error e :: ys)) := by
  cases h with
  | @ok a b hab =>
    change Outcome.Related T Eq _ (Yields.foldAll g (.error e) ys)
    rw [foldAll_error]
    exact .second he
  | error h =>
    rw [foldAll_error, foldAll_error]
    exact .error h
  | first h =>
    rw [foldAll_error _ _ xs]
    exact .first h
  | second h =>
    rw [foldAll_error]
    exact .second h

theorem foldAll {f : σ → Value → Outcome σ} (h : Yields.Related T xs ys) {s t : Outcome σ}
    (hst : Outcome.Related T Eq s t) :
    Outcome.Related T Eq (Yields.foldAll f s xs) (Yields.foldAll f t ys) := by
  induction h generalizing s t with
  | nil => exact hst
  | ok h ih => exact ih (hst.bind_eq fun a => .refl _)
  | error he h ih => exact ih (hst.bind_eq fun a => .error he)
  | first he => exact foldAll_first he hst
  | second hf => exact foldAll_second hf hst

/-- Agreement of what was pulled first and of the rest. -/
theorem next? (h : Yields.Related T xs ys) :
    Outcome.Related T
      (Option.Rel fun (a b : Value × Yields) => a.1 = b.1 ∧ Yields.Related T a.2 b.2)
      (Yields.next? xs) (Yields.next? ys) := by
  cases h with
  | nil => exact .ok .none
  | ok h => exact .ok (.some ⟨rfl, h⟩)
  | error he h => exact .error he
  | first he => exact .first he
  | second hf => exact .second hf

theorem nth (position : Int64) (n seen : Nat) (h : Yields.Related T xs ys) :
    Outcome.Related T Eq (Yields.nth position n seen xs) (Yields.nth position n seen ys) := by
  induction h generalizing n seen with
  | nil => exact .refl _
  | ok h ih =>
    cases n with
    | zero => exact .ok rfl
    | succ n => exact ih n (seen + 1)
  | error he h ih => cases n <;> exact .error he
  | first he => cases n <;> exact .first he
  | second hf => cases n <;> exact .second hf

end Yields.Related

end QueryPushdown
