import QueryPushdown.Eval.Group
import QueryPushdown.Eval.Window

/-!
# What sequences yield

A drained sequence yields elements and errors; the reads in between do not matter to what an
operator makes of them. Every operator on pulls has a counterpart on yields here.
-/

namespace QueryPushdown

/-- The elements and errors that a sequence yields, in order. -/
abbrev Yields := List (Outcome Value)

namespace Yields

variable {σ : Type}

def ofList (vs : List Value) : Yields := vs.map .ok

/-- All elements, or the first error. -/
def collect : Yields → Outcome (List Value)
  | [] => .ok []
  | .error e :: _ => .error e
  | .ok v :: ys => do pure (v :: (← collect ys))

def keep (test : Value → Outcome Bool) : Yields → Yields
  | [] => []
  | .error e :: ys => .error e :: keep test ys
  | .ok v :: ys =>
    match test v with
    | .ok true => .ok v :: keep test ys
    | .ok false => keep test ys
    | .error e => .error e :: keep test ys

def mapWith (f : Value → Outcome Value) (ys : Yields) : Yields := ys.map (· >>= f)

def skip : Nat → Yields → Yields
  | _, [] => []
  | n, .error e :: ys => .error e :: skip (n - 1) ys
  | n, .ok v :: ys => if n = 0 then .ok v :: skip (n - 1) ys else skip (n - 1) ys

def holdBack (n : Nat) : List Value → Yields → Yields
  | _, [] => []
  | held, .error e :: ys => .error e :: holdBack n held ys
  | held, .ok v :: ys =>
    match held ++ [v] with
    | oldest :: waiting =>
      if n < waiting.length + 1 then .ok oldest :: holdBack n waiting ys
      else holdBack n (oldest :: waiting) ys
    | [] => holdBack n [] ys

def distinct : Seen → Yields → Yields
  | _, [] => []
  | seen, .error e :: ys => .error e :: distinct seen ys
  | seen, .ok v :: ys =>
    if (seen.insert v).1 then .ok v :: distinct (seen.insert v).2 ys
    else distinct (seen.insert v).2 ys

def fold (f : σ → Value → Outcome σ) : σ → Yields → Outcome σ
  | s, [] => .ok s
  | _, .error e :: _ => .error e
  | s, .ok v :: ys => do fold f (← f s v) ys

def foldAll (f : σ → Value → Outcome σ) : Outcome σ → Yields → Outcome σ
  | s, [] => s
  | s, y :: ys => foldAll f (s.bind fun s => y.bind (f s)) ys

def next? : Yields → Outcome (Option (Value × Yields))
  | [] => .ok none
  | .error e :: _ => .error e
  | .ok v :: ys => .ok (some (v, ys))

def nth (position : Int64) : Nat → Nat → Yields → Outcome Value
  | _, seen, [] => .error (.ofCause (.indexOutOfRange position.toInt seen))
  | _, _, .error e :: _ => .error e
  | 0, _, .ok v :: _ => .ok v
  | n + 1, seen, .ok _ :: ys => nth position n (seen + 1) ys

@[simp] theorem ofList_nil : ofList [] = [] := rfl

@[simp] theorem ofList_cons (v : Value) (vs : List Value) :
    ofList (v :: vs) = .ok v :: ofList vs := rfl

@[simp] theorem collect_ofList (vs : List Value) : collect (ofList vs) = .ok vs := by
  induction vs with
  | nil => rfl
  | cons v vs ih => simp [collect, ih, bind, Except.bind, pure, Except.pure]

theorem eq_ofList_of_collect {ys : Yields} {vs : List Value} (h : collect ys = .ok vs) :
    ys = ofList vs := by
  induction ys generalizing vs with
  | nil =>
    cases h
    rfl
  | cons y ys ih =>
    cases y with
    | error e => cases h
    | ok v =>
      cases hc : collect ys with
      | error e => simp [collect, hc, bind, Except.bind] at h
      | ok ws =>
        simp only [collect, hc, bind, Except.bind, pure, Except.pure, Except.ok.injEq] at h
        rw [← h, ih hc, ofList_cons]

/-- A step that never fails goes over the elements of a drained sequence. -/
theorem fold_pure (f : σ → Value → σ) (s : σ) (ys : Yields) :
    fold (fun s v => pure (f s v)) s ys = (do pure ((← collect ys).foldl f s)) := by
  induction ys generalizing s with
  | nil => rfl
  | cons y ys ih =>
    cases y with
    | error e => rfl
    | ok v =>
      refine (ih (f s v)).trans ?_
      rw [collect]
      cases collect ys <;> rfl

end Yields

namespace Pulls

variable {σ : Type}

@[simp] theorem yields_nil : yields [] = [] := rfl

theorem yields_cons (p : Pull) (ps : Pulls) : yields (p :: ps) = p.item.toList ++ yields ps := by
  cases h : p.item <;> simp [yields, h]

@[simp] theorem yields_passed (p : Pull) (ps : Pulls) : yields (p.passed :: ps) = yields ps := by
  simp [yields_cons, Pull.passed]

@[simp] theorem yields_ofList (vs : List Value) : (ofList vs).yields = Yields.ofList vs := by
  induction vs with
  | nil => rfl
  | cons v vs ih =>
    rw [ofList, List.map_cons, yields_cons, ← ofList, ih]
    rfl

theorem outcome_drain (ps : Pulls) : ps.drain.outcome = Yields.collect ps.yields := by
  induction ps with
  | nil => rfl
  | cons p ps ih =>
    rw [yields_cons, drain]
    rcases p.item with _ | e | v
    · simpa using ih
    · rfl
    · simp only [Run.outcome_after, Run.outcome_bind, ih, Run.outcome_pure]
      rfl

theorem yields_map_keepIf (test : Value → Run Bool) (ps : Pulls) :
    yields (ps.map (Pull.keepIf test)) = Yields.keep (fun v => (test v).outcome) ps.yields := by
  induction ps with
  | nil => rfl
  | cons p ps ih =>
    rw [List.map_cons, yields_cons, yields_cons, ih, Pull.keepIf]
    rcases h : p.item with _ | e | v
    · simp [h]
    · simp [h, Yields.keep]
    · simp only [Option.toList_some, List.singleton_append, Yields.keep]
      rcases (test v).outcome with e | b
      · rfl
      · cases b <;> rfl

theorem yields_map_mapWith (f : Value → Run Value) (ps : Pulls) :
    yields (ps.map (Pull.mapWith f)) = Yields.mapWith (fun v => (f v).outcome) ps.yields := by
  induction ps with
  | nil => rfl
  | cons p ps ih =>
    rw [List.map_cons, yields_cons, yields_cons, ih, Pull.mapWith]
    rcases h : p.item with _ | e | v
    · simp [h]
    · simp [h, Yields.mapWith, bind, Except.bind]
    · simp [Yields.mapWith, bind, Except.bind]

theorem yields_skip (n : Nat) (ps : Pulls) : (ps.skip n).yields = Yields.skip n ps.yields := by
  induction ps generalizing n with
  | nil => rfl
  | cons p ps ih =>
    rw [skip, yields_cons]
    rcases h : p.item with _ | e | v
    · simp [yields_cons, h, ih]
    · simp [yields_cons, h, ih, Yields.skip]
    · by_cases hn : n = 0
      · simp [yields_cons, h, ih, hn, Yields.skip]
      · simp [ih, hn, Yields.skip]

theorem yields_take (n : Nat) (ps : Pulls) : (ps.take n).yields = ps.yields.take n := by
  induction ps generalizing n with
  | nil => cases n <;> rfl
  | cons p ps ih =>
    cases n with
    | zero => simp [take]
    | succ n =>
      rw [take, yields_cons]
      rcases h : p.item with _ | y
      · simp [yields_cons, h, ih]
      · simp [yields_cons, h, ih]

theorem yields_holdBack (n : Nat) (held : List Value) (ps : Pulls) :
    (ps.holdBack n held).yields = Yields.holdBack n held ps.yields := by
  induction ps generalizing held with
  | nil => rfl
  | cons p ps ih =>
    rw [holdBack, yields_cons]
    rcases h : p.item with _ | e | v
    · simp [yields_cons, h, ih]
    · simp [yields_cons, h, ih, Yields.holdBack]
    · simp only [Option.toList_some, List.singleton_append, Yields.holdBack]
      rcases held ++ [v] with _ | ⟨oldest, waiting⟩
      · simp [ih]
      · by_cases hn : n < waiting.length + 1
        · simp [yields_cons, ih, hn]
        · simp [ih, hn]

theorem yields_distinct (seen : Seen) (ps : Pulls) :
    (ps.distinct seen).yields = Yields.distinct seen ps.yields := by
  induction ps generalizing seen with
  | nil => rfl
  | cons p ps ih =>
    rw [distinct, yields_cons]
    rcases h : p.item with _ | e | v
    · simp [yields_cons, h, ih]
    · simp [yields_cons, h, ih, Yields.distinct]
    · by_cases hn : (seen.insert v).1 = true
      · simp [yields_cons, h, ih, hn, Yields.distinct]
      · simp [ih, hn, Yields.distinct]

theorem outcome_foldRun (f : σ → Value → Run σ) (s : σ) (ps : Pulls) :
    (ps.foldRun f s).outcome = Yields.fold (fun s v => (f s v).outcome) s ps.yields := by
  induction ps generalizing s with
  | nil => rfl
  | cons p ps ih =>
    rw [foldRun, yields_cons]
    rcases p.item with _ | e | v
    · simpa using ih s
    · rfl
    · simp [Run.outcome_bind, ih, Yields.fold]

theorem outcome_foldAll (f : σ → Value → Outcome σ) (s : Outcome σ) (ps : Pulls) :
    (ps.foldAll f s).outcome = Yields.foldAll f s ps.yields := by
  induction ps generalizing s with
  | nil => rfl
  | cons p ps ih =>
    rw [foldAll, yields_cons]
    rcases p.item with _ | y
    · simpa using ih s
    · simpa [Yields.foldAll] using ih _

theorem outcome_next? (ps : Pulls) :
    ps.next?.outcome.map (Option.map fun (v, rest) => (v, yields rest)) = Yields.next? ps.yields := by
  induction ps with
  | nil => rfl
  | cons p ps ih =>
    rw [next?, yields_cons]
    rcases p.item with _ | e | v
    · simpa using ih
    · rfl
    · rfl

theorem outcome_nth (position : Int64) (n seen : Nat) (ps : Pulls) :
    (Window.nth position n seen ps).outcome = Yields.nth position n seen ps.yields := by
  induction ps generalizing n seen with
  | nil => cases n <;> rfl
  | cons p ps ih =>
    rw [Window.nth, yields_cons]
    rcases p.item with _ | e | v
    · simpa using ih n seen
    · cases n <;> rfl
    · cases n with
      | zero => rfl
      | succ n => simpa [Yields.nth] using ih n (seen + 1)

end Pulls

end QueryPushdown
