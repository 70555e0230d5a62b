import QueryPushdown.Error

/-!
# Runs

A run is an outcome together with the accesses to sources made on the way, in order and with
repetitions. A run that fails keeps the accesses made before the failure and makes no further ones.
-/

namespace QueryPushdown

/-- One access to a source, by its name. -/
inductive Access where
  /-- All elements are read. -/
  | scan (source : String)
  /-- One element is looked up by its identity. -/
  | lookup (source : String)
  /-- A compiled request reads the source. -/
  | query (source : String)
  deriving DecidableEq, Repr

/-- An outcome and the accesses made to obtain it. -/
structure Run (α : Type) where
  reads : List Access
  outcome : Outcome α

namespace Run

variable {α β : Type}

def bind (r : Run α) (f : α → Run β) : Run β :=
  match r.outcome with
  | .ok a => ⟨r.reads ++ (f a).reads, (f a).outcome⟩
  | .error e => ⟨r.reads, .error e⟩

instance : Monad Run where
  pure a := ⟨[], .ok a⟩
  bind := bind

/-- An outcome reached without reading. -/
def ofOutcome (o : Outcome α) : Run α := ⟨[], o⟩

instance : MonadLift Outcome Run := ⟨ofOutcome⟩

/-- An outcome reached with a single access. -/
def accessing (access : Access) (o : Outcome α) : Run α := ⟨[access], o⟩

def fail (e : Error) : Run α := ⟨[], .error e⟩

/-- Accesses made before anything else happens. -/
def after (reads : List Access) (r : Run α) : Run α := ⟨reads ++ r.reads, r.outcome⟩

@[simp] theorem outcome_pure (a : α) : (pure a : Run α).outcome = .ok a := rfl

@[simp] theorem reads_pure (a : α) : (pure a : Run α).reads = [] := rfl

@[simp] theorem outcome_ofOutcome (o : Outcome α) : (ofOutcome o).outcome = o := rfl

@[simp] theorem outcome_lift (o : Outcome α) : (liftM o : Run α).outcome = o := rfl

@[simp] theorem outcome_fail (e : Error) : (fail e : Run α).outcome = .error e := rfl

@[simp] theorem outcome_accessing (access : Access) (o : Outcome α) :
    (accessing access o).outcome = o := rfl

@[simp] theorem outcome_after (reads : List Access) (r : Run α) :
    (after reads r).outcome = r.outcome := rfl

theorem outcome_bind (r : Run α) (f : α → Run β) :
    (r >>= f).outcome = r.outcome >>= fun a => (f a).outcome := by
  change (r.bind f).outcome = _
  unfold bind
  cases r.outcome <;> rfl

instance : LawfulMonad Run := LawfulMonad.mk' Run
  (by
    intro α x
    rcases x with ⟨reads, e | a⟩
    · rfl
    · change Run.mk (reads ++ []) _ = _
      rw [List.append_nil]
      rfl)
  (by
    intro α β a f
    rfl)
  (by
    intro α β γ x f g
    rcases x with ⟨reads, e | a⟩
    · rfl
    · change bind (bind ⟨reads, .ok a⟩ f) g = bind ⟨reads, .ok a⟩ fun a => bind (f a) g
      simp only [bind]
      cases (f a).outcome <;> simp)

theorem outcome_mapM (f : α → Run β) (xs : List α) :
    (xs.mapM f).outcome = xs.mapM fun a => (f a).outcome := by
  induction xs with
  | nil => rfl
  | cons a xs ih =>
    rw [List.mapM_cons, List.mapM_cons, outcome_bind]
    congr 1
    funext b
    rw [outcome_bind, ih]
    rfl

end Run

end QueryPushdown
