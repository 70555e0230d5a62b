import QueryPushdown.Proofs.Transform.Recomposing

/-!
# Shifted requests

A shift makes room in the scope of a request, or takes room away. A request that was shifted
outwards evaluates with frames put in as it did without them; one that was shifted inwards evaluates
without the frames that none of its references goes to. An outward shift is undone by the opposite
one, up to the numbers of the nodes.
-/

namespace QueryPushdown

namespace Scope

variable {frames scope : Scope} {level up : Nat}

/-- Behind frames of its own, a term reads the scope around them. -/
theorem read_append_of_le (hf : frames.length = level) (h : level ≤ up) :
    (frames ++ scope)[up]? = scope[up - level]? := by
  rw [List.getElem?_append_right (by omega), hf]

/-- Two reads of one element, or two reads beyond the scope, are alike up to the text of an error. -/
theorem read_related {scope' : Scope} {up' : Nat} (h : scope[up]? = scope'[up']?) :
    Outcome.Related .kinds Eq (scope.read up) (scope'.read up') := by
  rw [read, read, h]
  cases scope'[up']? with
  | none => exact .error rfl
  | some v => exact .refl _

/-- Frames that are put in carry every reference that can still be moved. -/
theorem carries_inserted (inserted scope : Scope) (h : up + inserted.length < 2 ^ 64) :
    scope.Carries .kinds (inserted ++ scope) inserted.length level up := by
  intro frames hf
  rcases Nat.lt_or_ge up level with hlt | hle
  · exact carries_of_lt scope _ _ hlt frames hf
  · have hmoved : (movedUp? inserted.length level up).getD up = up + inserted.length :=
      Term.movedTo_add hle h
    rw [hmoved]
    refine read_related ?_
    rw [read_append_of_le hf hle, read_append_of_le hf (by omega),
      read_append_of_le (Eq.refl inserted.length) (by omega)]
    congr 1
    omega

/-- Frames that are taken out carry every reference that does not go to one of them. -/
theorem carries_removed (removed scope : Scope) (hup : up < 2 ^ 64)
    (h : up < level ∨ level + removed.length ≤ up) :
    (removed ++ scope).Carries .kinds scope (-removed.length) level up := by
  intro frames hf
  rcases h with hlt | hle
  · exact carries_of_lt _ scope _ hlt frames hf
  · have hmoved : (movedUp? (-removed.length) level up).getD up = up - removed.length :=
      Term.movedTo_sub hle hup
    rw [hmoved]
    refine read_related ?_
    rw [read_append_of_le hf (by omega), read_append_of_le hf (by omega),
      read_append_of_le (Eq.refl removed.length) (by omega)]
    congr 1
    omega

end Scope

namespace Term

/-- A shifted term is the term with its references redirected. -/
theorem tree_shifted {level : Nat} {scopes : Int} {a : Arena} {t : Term} (ht : t.Allocated a) :
    (t.shift level scopes a).1.tree = t.redirect (movedTo scopes) level := by
  unfold shift
  split
  · rename_i hzero
    refine (redirect_eq_tree (references_of_forall (fun l up => ?_) t)).symm
    rw [movedTo_eq, hzero]
    split <;> simp
  · exact tree_move ht

end Term

namespace Request

variable {r : Request} {level : Nat} {scopes : Int}

theorem shift_sound (hr : r.Sound) (level : Nat) (scopes : Int) : (r.shift level scopes).Sound :=
  (Alloc.Grows.sound_rebuild (r.root.shift_grows hr.closed hr.root)).1

theorem Sound.allocated (hr : r.Sound) : r.root.Allocated r.arena :=
  ⟨hr.closed.ordered hr.root, hr.root.id_lt⟩

/-- A shifted request evaluates under the new scopes as the request did under the old ones, provided
that each of its references does. -/
theorem shift_carries {input : Input} {frames scope scope' : Scope} (hr : r.Sound)
    (hscopes : scopes ≠ 0) (hf : frames.length = level)
    (h : r.root.References (scope.Carries .kinds scope' scopes) level) :
    ((r.shift level scopes).eval input (frames ++ scope')).mapError Error.kind =
      (r.eval input (frames ++ scope)).mapError Error.kind := by
  have hroot : (r.shift level scopes).root = (r.root.move scopes level r.arena).1 := by
    simp only [shift, Term.shift, hscopes, if_false]
    rfl
  have hmoves : Term.Moves .kinds input scope scope' scopes level r.root :=
    Term.moves Tolerance.kinds_namesPair r.root level hr.allocated.ordered h
  have hroots := hmoves r.arena frames hr.root.id_lt hf
  rw [← hroot] at hroots
  exact hroots.outcome.mapError_kind.symm

theorem shift_zero (r : Request) (level : Nat) : r.shift level 0 = r := rfl

/-- The opposite shift gives the tree of the request back. -/
theorem unfold_shift_shift (hr : r.Sound)
    (h : r.root.References (Term.MovesBack scopes) level) :
    ((r.shift level scopes).shift level (-scopes)).unfold = r.unfold := by
  have hs := shift_sound hr level scopes
  have hshifted : (r.shift level scopes).root.tree = r.root.redirect (Term.movedTo scopes) level :=
    Term.tree_shifted hr.allocated
  have hback : ((r.shift level scopes).shift level (-scopes)).root.tree =
      (r.shift level scopes).root.redirect (Term.movedTo (-scopes)) level :=
    Term.tree_shifted hs.allocated
  rw [(shift_sound hs level (-scopes)).unfold_eq, hr.unfold_eq, hback, ← Term.redirect_tree,
    hshifted, Term.redirect_redirect h, Term.redirect_self]

/-- Shifting substitutes. Shifted outwards by `n` scopes behind its innermost `level` ones, a request
gives the same value, or an error of the same kind, with any `n` frames put in there, and the
opposite shift gives its tree back; shifted inwards, it does so with the frames there taken out, if
none of its references goes to one of them. -/
theorem shift_substitutes {r : Request} (hr : r.Sound) (level n : Nat) :
    (r.root.References (fun _ up => up + n < 2 ^ 64) level →
      (∀ (input : Input) (frames inserted scope : Scope), frames.length = level →
        inserted.length = n →
        ((r.shift level n).eval input (frames ++ (inserted ++ scope))).mapError Error.kind =
          (r.eval input (frames ++ scope)).mapError Error.kind) ∧
      ((r.shift level n).shift level (-n)).unfold = r.unfold) ∧
    (r.root.References (fun inner up => up < 2 ^ 64 ∧ (up < inner ∨ inner + n ≤ up)) level →
      ∀ (input : Input) (frames removed scope : Scope), frames.length = level →
        removed.length = n →
        ((r.shift level (-n)).eval input (frames ++ scope)).mapError Error.kind =
          (r.eval input (frames ++ (removed ++ scope))).mapError Error.kind) := by
  refine ⟨fun hroom => ⟨?_, ?_⟩, fun hfree => ?_⟩
  · rintro input frames inserted scope hf rfl
    by_cases hzero : inserted = []
    · rw [hzero]
      rfl
    · refine shift_carries hr (by simpa using hzero) hf (hroom.mono fun _ _ h => ?_)
      exact Scope.carries_inserted inserted scope h
  · exact unfold_shift_shift hr (hroom.mono fun _ _ h => Term.movesBack_add h)
  · rintro input frames removed scope hf rfl
    by_cases hzero : removed = []
    · rw [hzero]
      rfl
    · refine shift_carries hr (by simpa using hzero) hf (hfree.mono fun _ _ h => ?_)
      exact Scope.carries_removed removed scope h.1 h.2

/-- The elements of a source, each added to the element three scopes further out. -/
def farOffsets : Request :=
  (Request.source "items").combine ((Request.context 0).combine (Request.context 3) (.binary .add))
    .map

theorem farOffsets_sound : farOffsets.Sound := by
  refine (combine_becomes (single_sound rfl rfl) (sum_sound 3) (fun h => by cases h)
    (fun t c hc => ?_) fun _ => rfl).sound
  rw [List.mem_singleton.1 hc]

theorem farOffsets_references {P : Nat → Nat → Prop} {level : Nat} (h : P (level + 1) 0)
    (h' : P (level + 1) 3) : farOffsets.root.References P level :=
  Term.references_step (Term.references_source ..) (sum_references h h')

theorem farOffsets_shift_substitutes : farOffsets.Sound ∧
    farOffsets.root.References (fun _ up => up + 1 < 2 ^ 64) 1 ∧
    farOffsets.root.References (fun inner up => up < 2 ^ 64 ∧ (up < inner ∨ inner + 1 ≤ up)) 1 ∧
    farOffsets.eval (.ofFields [("items", [.int 1, .int 2])]) [.int 5, .int 7, .int 8, .int 9] =
      .ok (.list [.int 9, .int 10]) ∧
    ((farOffsets.shift 1 1).eval (.ofFields [("items", [.int 1, .int 2])])
        [.int 5, .int 6, .int 7, .int 8, .int 9]).mapError Error.kind =
      (farOffsets.eval (.ofFields [("items", [.int 1, .int 2])])
        [.int 5, .int 7, .int 8, .int 9]).mapError Error.kind ∧
    ((farOffsets.shift 1 1).shift 1 (-1)).unfold = farOffsets.unfold ∧
    ((farOffsets.shift 1 (-1)).eval (.ofFields [("items", [.int 1, .int 2])])
        [.int 5, .int 8, .int 9]).mapError Error.kind =
      (farOffsets.eval (.ofFields [("items", [.int 1, .int 2])])
        [.int 5, .int 7, .int 8, .int 9]).mapError Error.kind := by
  have hroom : farOffsets.root.References (fun _ up => up + 1 < 2 ^ 64) 1 :=
    farOffsets_references (by decide) (by decide)
  have hfree : farOffsets.root.References
      (fun inner up => up < 2 ^ 64 ∧ (up < inner ∨ inner + 1 ≤ up)) 1 :=
    farOffsets_references (by decide) (by decide)
  obtain ⟨hout, hin⟩ := shift_substitutes farOffsets_sound 1 1
  obtain ⟨hput, hundo⟩ := hout hroom
  exact ⟨farOffsets_sound, hroom, hfree, rfl,
    hput _ [.int 5] [.int 6] [.int 7, .int 8, .int 9] rfl rfl, hundo,
    hin hfree _ [.int 5] [.int 7] [.int 8, .int 9] rfl rfl⟩

end Request

end QueryPushdown
