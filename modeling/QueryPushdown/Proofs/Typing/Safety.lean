import QueryPushdown.Proofs.Eval.Meeting
import QueryPushdown.Proofs.Typing.Inhabits

/-!
# Sound outcomes

An outcome is sound when its value is as promised, and an error is not about something that nothing
provides. Soundness passes through chains of outcomes and through all operators on sequences, as
what values and errors are like does in general.
-/

namespace QueryPushdown

/-- Whether an error is about a scope or a source that is not there. -/
def Error.isUnbound (e : Error) : Bool :=
  match e.cause with
  | .evaluationFailed (.contextEscapes _ _) | .evaluationFailed (.sourceUnavailable _)
  | .invalidRequest (.contextEscapes _ _) | .invalidRequest (.unknownSource _) => true
  | _ => false

/-- The errors of sound outcomes. -/
def Error.IsBound (e : Error) : Prop := e.isUnbound = false

variable {α β σ : Type} {P Q : α → Prop} {R : β → Prop}

/-- A value is as `P` asks, an error is about something else than a missing scope or source. -/
def Outcome.Sound (P : α → Prop) : Outcome α → Prop
  | .ok a => P a
  | .error e => e.isUnbound = false

namespace Outcome.Sound

theorem bind {x : Outcome α} {f : α → Outcome β} (h : Outcome.Sound P x)
    (hf : ∀ a, P a → Outcome.Sound R (f a)) : Outcome.Sound R (x >>= f) :=
  Outcome.Meets.bind (E := Error.IsBound) h hf

theorem mono {x : Outcome α} (h : Outcome.Sound P x) (hPQ : ∀ a, P a → Q a) :
    Outcome.Sound Q x :=
  Outcome.Meets.mono (E := Error.IsBound) h hPQ

theorem mapM {f : α → Outcome β} {xs : List α} (h : ∀ a ∈ xs, Outcome.Sound R (f a)) :
    Outcome.Sound (fun bs => ∀ b ∈ bs, R b) (xs.mapM f) :=
  Outcome.Meets.mapM (E := Error.IsBound) h

end Outcome.Sound

namespace Yields

/-- Everything that is yielded is sound. -/
def Sound (P : Value → Prop) (ys : Yields) : Prop := ∀ y ∈ ys, Outcome.Sound P y

namespace Sound

variable {P Q : Value → Prop} {ys : Yields}

theorem ofList {vs : List Value} (h : ∀ v ∈ vs, P v) : Yields.Sound P (Yields.ofList vs) := by
  intro y hy
  obtain ⟨v, hv, rfl⟩ := List.mem_map.1 hy
  exact h v hv

theorem collect (h : Yields.Sound P ys) :
    Outcome.Sound (fun vs => ∀ v ∈ vs, P v) (Yields.collect ys) :=
  Yields.Meets.collect (E := Error.IsBound) h

theorem keep {test : Value → Outcome Bool} (h : Yields.Sound P ys)
    (ht : ∀ v, P v → Outcome.Sound (fun _ => True) (test v)) :
    Yields.Sound P (Yields.keep test ys) :=
  Yields.Meets.keep (E := Error.IsBound) h ht

theorem mapWith {f : Value → Outcome Value} (h : Yields.Sound P ys)
    (hf : ∀ v, P v → Outcome.Sound Q (f v)) : Yields.Sound Q (Yields.mapWith f ys) :=
  Yields.Meets.mapWith (E := Error.IsBound) h hf

theorem distinct (seen : Seen) (h : Yields.Sound P ys) :
    Yields.Sound P (Yields.distinct seen ys) :=
  Yields.Meets.distinct (E := Error.IsBound) seen h

theorem fold {I : σ → Prop} {f : σ → Value → Outcome σ} (h : Yields.Sound P ys)
    (hf : ∀ s v, I s → P v → Outcome.Sound I (f s v)) {s : σ} (hs : I s) :
    Outcome.Sound I (Yields.fold f s ys) :=
  Yields.Meets.fold (E := Error.IsBound) h hf hs

theorem foldAll {I : σ → Prop} {f : σ → Value → Outcome σ} (h : Yields.Sound P ys)
    (hf : ∀ s v, I s → P v → Outcome.Sound I (f s v)) {s : Outcome σ} (hs : Outcome.Sound I s) :
    Outcome.Sound I (Yields.foldAll f s ys) :=
  Yields.Meets.foldAll (E := Error.IsBound) h hf hs

theorem next? (h : Yields.Sound P ys) :
    Outcome.Sound (fun o => ∀ v rest, o = some (v, rest) → P v ∧ Yields.Sound P rest)
      (Yields.next? ys) :=
  Yields.Meets.next? (E := Error.IsBound) h

end Sound

end Yields

namespace Window

variable {P : Value → Prop} {ps : Pulls}

theorem reserve_sound (n : Nat) : Outcome.Sound (fun _ => True) (reserve n) := by
  unfold reserve
  split
  · trivial
  · rfl

theorem slice_sound (start stop : Option Int64) (h : Yields.Sound P ps.yields) :
    Outcome.Sound (fun qs => Yields.Sound P qs.yields) (slice ps start stop).outcome :=
  slice_meets (E := Error.IsBound) (reserve_sound _) h

theorem index_sound (position : Int64) (h : Yields.Sound P ps.yields) :
    Outcome.Sound P (index ps position).outcome :=
  index_meets (E := Error.IsBound) (fun _ _ => rfl) (reserve_sound _) h

end Window

end QueryPushdown
