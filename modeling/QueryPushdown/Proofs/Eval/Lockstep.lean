import QueryPushdown.Proofs.Eval.Agreement
import QueryPushdown.Proofs.Eval.Alike

/-!
# Sequences in lockstep

Two sequences are in lockstep when they yield errors at the same places and related elements at the
others. Every operation on sequences keeps lockstep, as long as the relation makes elements alike
where the operation looks at them.
-/

namespace QueryPushdown

/-- Yields that are errors at the same places, and in relation `R` at the others. -/
abbrev Yields.Lockstep (R : Value → Value → Prop) : Yields → Yields → Prop :=
  List.Forall₂ (Outcome.Lockstep R)

variable {R S : Value → Value → Prop} {xs ys : Yields} {σ τ : Type}

namespace Yields.Lockstep

theorem mono (h : Yields.Lockstep R xs ys) (hRS : ∀ v w, R v w → S v w) :
    Yields.Lockstep S xs ys :=
  h.imp fun _ _ hab => hab.mono hRS

theorem ofList {vs ws : List Value} (h : List.Forall₂ R vs ws) :
    Yields.Lockstep R (Yields.ofList vs) (Yields.ofList ws) := by
  induction h with
  | nil => exact .nil
  | cons hab _ ih => exact .cons (.ok hab) ih

theorem collect (h : Yields.Lockstep R xs ys) :
    Outcome.Lockstep (List.Forall₂ R) (Yields.collect xs) (Yields.collect ys) := by
  induction h with
  | nil => exact .ok .nil
  | cons hab _ ih =>
    rcases hab.ok_or_error with ⟨v, w, rfl, rfl, hvw⟩ | ⟨e, f, rfl, rfl⟩
    · exact ih.bind fun vs ws hvs => .ok (.cons hvw hvs)
    · exact .errors e f

theorem keep {p q : Value → Outcome Bool} (h : Yields.Lockstep R xs ys)
    (hpq : ∀ v w, R v w → Outcome.Lockstep Eq (p v) (q w)) :
    Yields.Lockstep R (Yields.keep p xs) (Yields.keep q ys) := by
  induction h with
  | nil => exact .nil
  | cons hab _ ih =>
    rcases hab.ok_or_error with ⟨v, w, rfl, rfl, hvw⟩ | ⟨e, f, rfl, rfl⟩
    · simp only [Yields.keep]
      rcases (hpq v w hvw).ok_or_error with ⟨b, _, hp, hq, rfl⟩ | ⟨e, f, hp, hq⟩
      · rw [hp, hq]
        cases b with
        | true => exact .cons (.ok hvw) ih
        | false => exact ih
      · rw [hp, hq]
        exact .cons (.errors e f) ih
    · exact .cons (.errors e f) ih

theorem mapWith {f g : Value → Outcome Value} (h : Yields.Lockstep R xs ys)
    (hfg : ∀ v w, R v w → Outcome.Lockstep S (f v) (g w)) :
    Yields.Lockstep S (Yields.mapWith f xs) (Yields.mapWith g ys) := by
  induction h with
  | nil => exact .nil
  | cons hab _ ih => exact .cons (hab.bind hfg) ih

theorem skip (n : Nat) (h : Yields.Lockstep R xs ys) :
    Yields.Lockstep R (Yields.skip n xs) (Yields.skip n ys) := by
  induction h generalizing n with
  | nil => exact .nil
  | cons hab _ ih =>
    rcases hab.ok_or_error with ⟨v, w, rfl, rfl, hvw⟩ | ⟨e, f, rfl, rfl⟩
    · simp only [Yields.skip]
      split
      · exact .cons (.ok hvw) (ih _)
      · exact ih _
    · exact .cons (.errors e f) (ih _)

theorem take (n : Nat) (h : Yields.Lockstep R xs ys) :
    Yields.Lockstep R (xs.take n) (ys.take n) := List.forall₂_take n h

theorem holdBack (n : Nat) {held held' : List Value} (hheld : List.Forall₂ R held held')
    (h : Yields.Lockstep R xs ys) :
    Yields.Lockstep R (Yields.holdBack n held xs) (Yields.holdBack n held' ys) := by
  induction h generalizing held held' with
  | nil => exact .nil
  | cons hab _ ih =>
    rcases hab.ok_or_error with ⟨v, w, rfl, rfl, hvw⟩ | ⟨e, f, rfl, rfl⟩
    · simp only [Yields.holdBack]
      have hall : List.Forall₂ R (held ++ [v]) (held' ++ [w]) :=
        List.rel_append hheld (.cons hvw .nil)
      revert hall
      generalize held ++ [v] = all
      generalize held' ++ [w] = all'
      intro hall
      cases hall with
      | nil => exact ih .nil
      | cons holdest hwaiting =>
        dsimp only
        rw [hwaiting.length_eq]
        split
        · exact .cons (.ok holdest) (ih hwaiting)
        · exact ih (.cons holdest hwaiting)
    · exact .cons (.errors e f) (ih hheld)

theorem fold {P : σ → τ → Prop} {f : σ → Value → Outcome σ} {g : τ → Value → Outcome τ}
    (h : Yields.Lockstep R xs ys)
    (hfg : ∀ s t v w, P s t → R v w → Outcome.Lockstep P (f s v) (g t w)) {s : σ} {t : τ}
    (hst : P s t) : Outcome.Lockstep P (Yields.fold f s xs) (Yields.fold g t ys) := by
  induction h generalizing s t with
  | nil => exact .ok hst
  | cons hab _ ih =>
    rcases hab.ok_or_error with ⟨v, w, rfl, rfl, hvw⟩ | ⟨e, f, rfl, rfl⟩
    · exact (hfg s t v w hst hvw).bind fun _ _ hst' => ih hst'
    · exact .errors e f

theorem foldAll {P : σ → τ → Prop} {f : σ → Value → Outcome σ} {g : τ → Value → Outcome τ}
    (h : Yields.Lockstep R xs ys)
    (hfg : ∀ s t v w, P s t → R v w → Outcome.Lockstep P (f s v) (g t w)) {s : Outcome σ}
    {t : Outcome τ} (hst : Outcome.Lockstep P s t) :
    Outcome.Lockstep P (Yields.foldAll f s xs) (Yields.foldAll g t ys) := by
  induction h generalizing s t with
  | nil => exact hst
  | cons hab _ ih =>
    exact ih (hst.bind fun s t hst => hab.bind fun v w hvw => hfg s t v w hst hvw)

/-- Lockstep of what was pulled first and of the rest. -/
theorem next? (h : Yields.Lockstep R xs ys) :
    Outcome.Lockstep
      (Option.Rel fun (a b : Value × Yields) => R a.1 b.1 ∧ Yields.Lockstep R a.2 b.2)
      (Yields.next? xs) (Yields.next? ys) := by
  cases h with
  | nil => exact .ok .none
  | cons hab h =>
    rcases hab.ok_or_error with ⟨v, w, rfl, rfl, hvw⟩ | ⟨e, f, rfl, rfl⟩
    · exact .ok (.some ⟨hvw, h⟩)
    · exact .errors e f

theorem nth (position : Int64) (n seen : Nat) (h : Yields.Lockstep R xs ys) :
    Outcome.Lockstep R (Yields.nth position n seen xs) (Yields.nth position n seen ys) := by
  induction h generalizing n seen with
  | nil => cases n <;> exact .errors _ _
  | cons hab _ ih =>
    rcases hab.ok_or_error with ⟨v, w, rfl, rfl, hvw⟩ | ⟨e, f, rfl, rfl⟩
    · cases n with
      | zero => exact .ok hvw
      | succ n => exact ih n (seen + 1)
    · cases n <;> exact .errors e f

end Yields.Lockstep

section Alike

variable (hR : ∀ v w, R v w → v.Alike w)

/-- Values met so far that are alike, under the same keys. -/
structure Seen.Lockstep (s t : Seen) : Prop where
  keys : s.keys = t.keys
  values : List.Forall₂ Value.Alike s.values t.values

/-- Values alike are equal to the same values of two lists. -/
theorem any_isEq_eq {as bs : List Value} {v w : Value} (h : List.Forall₂ Value.Alike as bs)
    (hvw : v.Alike w) : as.any (·.isEq v) = bs.any (·.isEq w) := by
  induction h with
  | nil => rfl
  | cons hab _ ih => rw [List.any_cons, List.any_cons, hab.isEq_eq hvw, ih]

theorem Seen.Lockstep.insert {s t : Seen} {v w : Value} (h : s.Lockstep t) (hvw : v.Alike w) :
    (s.insert v).1 = (t.insert w).1 ∧ (s.insert v).2.Lockstep (t.insert w).2 := by
  obtain ⟨keys, vs⟩ := s
  obtain ⟨keys', ws⟩ := t
  obtain ⟨rfl, hvalues⟩ := h
  have hgrown : List.Forall₂ Value.Alike (vs ++ [v]) (ws ++ [w]) :=
    List.rel_append hvalues (.cons hvw .nil)
  have hany := any_isEq_eq hvalues hvw
  unfold Seen.insert
  rw [← hvw.key?_eq]
  rcases keys with _ | keys <;> rcases v.key? with _ | key
  case some.some =>
    dsimp only
    split
    · exact ⟨rfl, rfl, hvalues⟩
    · exact ⟨rfl, rfl, hgrown⟩
  -- As soon as a value has no key, values are compared one by one.
  all_goals
    dsimp only
    rw [hany]
    split
    · exact ⟨rfl, rfl, hvalues⟩
    · exact ⟨rfl, rfl, hgrown⟩

include hR in
theorem Yields.Lockstep.distinct {s t : Seen} (hst : s.Lockstep t) (h : Yields.Lockstep R xs ys) :
    Yields.Lockstep R (Yields.distinct s xs) (Yields.distinct t ys) := by
  induction h generalizing s t with
  | nil => exact .nil
  | cons hab _ ih =>
    rcases hab.ok_or_error with ⟨v, w, rfl, rfl, hvw⟩ | ⟨e, f, rfl, rfl⟩
    · obtain ⟨hnew, hseen⟩ := hst.insert (hR v w hvw)
      simp only [Yields.distinct]
      rw [hnew]
      split
      · exact .cons (.ok hvw) (ih hseen)
      · exact ih hseen
    · exact .cons (.errors e f) (ih hst)

/-- Groups under values alike, with members in relation `R`. -/
structure Groups.Lockstep (R : Value → Value → Prop) (g h : Groups) : Prop where
  places : g.places = h.places
  groups : List.Forall₂ (fun a b => a.1.Alike b.1 ∧ List.Forall₂ R a.2 b.2) g.groups h.groups

namespace Groups

variable {gs hs : List (Value × List Value)} {k l v w : Value}

theorem add_lockstep
    (h : List.Forall₂ (fun a b => a.1.Alike b.1 ∧ List.Forall₂ R a.2 b.2) gs hs) (place : Nat)
    (hkl : k.Alike l) (hvw : R v w) :
    List.Forall₂ (fun a b => a.1.Alike b.1 ∧ List.Forall₂ R a.2 b.2) (add gs place k v)
      (add hs place l w) := by
  induction h generalizing place with
  | nil => exact .cons ⟨hkl, .cons hvw .nil⟩ .nil
  | cons hab hrest ih =>
    cases place with
    | zero => exact .cons ⟨hab.1, List.rel_append hab.2 (.cons hvw .nil)⟩ hrest
    | succ place => exact .cons hab (ih place)

theorem placeOf_eq (h : List.Forall₂ (fun a b => a.1.Alike b.1 ∧ List.Forall₂ R a.2 b.2) gs hs)
    (hkl : k.Alike l) : placeOf gs k = placeOf hs l := by
  unfold placeOf
  induction h with
  | nil => rfl
  | cons hab _ ih => rw [List.findIdx_cons, List.findIdx_cons, ih, hab.1.isEq_eq hkl]

theorem Lockstep.insert {g h : Groups} (hgh : g.Lockstep R h) (hkl : k.Alike l) (hvw : R v w) :
    (g.insert k v).Lockstep R (h.insert l w) := by
  obtain ⟨places, gs⟩ := g
  obtain ⟨places', hs⟩ := h
  obtain ⟨rfl, hgroups⟩ := hgh
  dsimp only at hgroups
  have hplace := placeOf_eq hgroups hkl
  have hadd := fun place => add_lockstep hgroups place hkl hvw
  unfold Groups.insert
  rw [← hkl.key?_eq]
  rcases places with _ | places <;> rcases k.key? with _ | key
  case some.some =>
    dsimp only
    cases places.lookup key with
    | none =>
      dsimp only
      rw [hgroups.length_eq]
      exact ⟨rfl, hadd _⟩
    | some place => exact ⟨rfl, hadd place⟩
  all_goals
    dsimp only
    rw [hplace]
    exact ⟨rfl, hadd _⟩

end Groups

end Alike

namespace Sorting

variable {α β : Type} {P : α → β → Prop} {less : α → α → Bool} {less' : β → β → Bool}

section Stable

variable (hless : ∀ x y x' y', P x x' → P y y' → less x y = less' x' y')

include hless

theorem insertBack_lockstep {x : α} {x' : β} (hx : P x x') {as : List α} {bs : List β}
    (h : List.Forall₂ P as bs) :
    List.Forall₂ P (insertBack less x as) (insertBack less' x' bs) := by
  induction h with
  | nil => exact .cons hx .nil
  | cons hab hrest ih =>
    rw [insertBack, insertBack, hless _ _ _ _ hx hab]
    split
    · exact .cons hab ih
    · exact .cons hx (.cons hab hrest)

/-- Elements that are ordered alike keep their places together. -/
theorem stable_lockstep {as : List α} {bs : List β} (h : List.Forall₂ P as bs) :
    List.Forall₂ P (stable less as) (stable less' bs) := by
  have hfold : ∀ {sorted : List α} {sorted' : List β}, List.Forall₂ P sorted sorted' →
      List.Forall₂ P (as.foldl (fun sorted x => insertBack less x sorted) sorted)
        (bs.foldl (fun sorted x => insertBack less' x sorted) sorted') := by
    induction h with
    | nil => exact id
    | cons hab _ ih => exact fun hsorted => ih (insertBack_lockstep hless hab hsorted)
  exact List.rel_reverse (hfold .nil)

end Stable

/-- Rows with the same keys, and elements in relation `R`. -/
def RowsAgree (R : Value → Value → Prop) (r s : Row) : Prop := r.keys = s.keys ∧ R r.value s.value

variable {R : Value → Value → Prop} {rs ss : List Row}

theorem byKeysFrom_lockstep (h : List.Forall₂ (RowsAgree R) rs ss) (i : Nat)
    (descending : List Bool) :
    List.Forall₂ (RowsAgree R) (byKeysFrom rs i descending) (byKeysFrom ss i descending) := by
  induction descending generalizing i with
  | nil => exact h
  | cons d rest ih =>
    refine stable_lockstep (fun x y x' y' hx hy => ?_) (ih (i + 1))
    rw [hx.1, hy.1]

/-- Rows with the same keys are sorted alike. -/
theorem rows_lockstep (h : List.Forall₂ (RowsAgree R) rs ss) (descending : List Bool) :
    List.Forall₂ R (rows rs descending) (rows ss descending) := by
  have hvalues : ∀ {rs ss : List Row}, List.Forall₂ (RowsAgree R) rs ss →
      List.Forall₂ R (rs.map Row.value) (ss.map Row.value) := fun h => by
    rw [List.forall₂_map_left_iff, List.forall₂_map_right_iff]
    exact h.imp fun _ _ hrs => hrs.2
  unfold rows
  dsimp only
  split
  · refine hvalues (stable_lockstep (fun x y x' y' hx hy => ?_) h)
    rw [hx.1, hy.1]
  · exact hvalues (byKeysFrom_lockstep h 0 descending)

end Sorting

end QueryPushdown
