import QueryPushdown.Proofs.Request.Copying
import QueryPushdown.Proofs.Transform.Cutting
import QueryPushdown.Transform.Isolate
import QueryPushdown.Transform.Split

/-!
# Rewrites only append

Every rewrite of a request works in its arena: it appends nodes on top of those that are there, and
what it returns are nodes of the arena that it leaves.
-/

namespace QueryPushdown

variable {a : Arena}

namespace Term

variable {scopes : Int}

private theorem moveFields_grows {level : Nat} {fields : List (String × Term)} (ha : a.Closed)
    (h : ∀ f ∈ fields, a.Has f.2)
    (hmove : ∀ f ∈ fields, ∀ b : Arena, b.Closed → b.Has f.2 →
      (f.2.move scopes level).Grows b Arena.Has) :
    (moveFields scopes level fields).Grows a fun b moved => ∀ f ∈ moved, b.Has f.2 := by
  induction fields generalizing a with
  | nil => exact .pure ha fun _ hf => by cases hf
  | cons field rest ih =>
    have hfirst := hmove field List.mem_cons_self a ha (h field List.mem_cons_self)
    refine hfirst.bind fun b t hb ht => ?_
    have hrest := ih hb.closed (fun f hf => hb.has (h f (List.mem_cons_of_mem _ hf)))
      fun f hf => hmove f (List.mem_cons_of_mem _ hf)
    refine hrest.bind fun c moved hc hm => .pure hc.closed fun f hf => ?_
    rcases List.mem_cons.1 hf with rfl | hf
    · exact hc.has ht
    · exact hm f hf

private theorem moveKeys_grows {level : Nat} {keys : List (Term × Bool)} (ha : a.Closed)
    (h : ∀ k ∈ keys, a.Has k.1)
    (hmove : ∀ k ∈ keys, ∀ b : Arena, b.Closed → b.Has k.1 →
      (k.1.move scopes level).Grows b Arena.Has) :
    (moveKeys scopes level keys).Grows a fun b moved => ∀ k ∈ moved, b.Has k.1 := by
  induction keys generalizing a with
  | nil => exact .pure ha fun _ hk => by cases hk
  | cons key rest ih =>
    have hfirst := hmove key List.mem_cons_self a ha (h key List.mem_cons_self)
    refine hfirst.bind fun b t hb ht => ?_
    have hrest := ih hb.closed (fun k hk => hb.has (h k (List.mem_cons_of_mem _ hk)))
      fun k hk => hmove k (List.mem_cons_of_mem _ hk)
    refine hrest.bind fun c moved hc hm => .pure hc.closed fun k hk => ?_
    rcases List.mem_cons.1 hk with rfl | hk
    · exact hc.has ht
    · exact hm k hk

private theorem moveStep_grows {level : Nat} {action : Step} (ha : a.Closed)
    (h : a.HasOperands action)
    (hmove : ∀ c ∈ action.operands, ∀ b : Arena, b.Closed → b.Has c.1 →
      (c.1.move scopes (level + c.2)).Grows b Arena.Has) :
    (moveStep scopes level action).Grows a Arena.HasOperands := by
  cases action with
  | binary op rhs =>
    refine (hmove (rhs, 0) List.mem_cons_self a ha (h _ List.mem_cons_self)).bind fun b t hb ht =>
      .pure hb.closed fun c hc => ?_
    exact List.mem_singleton.1 hc ▸ ht
  | filter predicate =>
    refine (hmove (predicate, 1) List.mem_cons_self a ha (h _ List.mem_cons_self)).bind
      fun b t hb ht => .pure hb.closed fun c hc => ?_
    exact List.mem_singleton.1 hc ▸ ht
  | map transform =>
    refine (hmove (transform, 1) List.mem_cons_self a ha (h _ List.mem_cons_self)).bind
      fun b t hb ht => .pure hb.closed fun c hc => ?_
    exact List.mem_singleton.1 hc ▸ ht
  | sort keys =>
    have hmem : ∀ k ∈ keys, (k.1, 1) ∈ (Step.sort keys).operands := fun k hk =>
      List.mem_map.2 ⟨k, hk, rfl⟩
    have hkeys := moveKeys_grows ha (fun k hk => h _ (hmem k hk)) fun k hk => hmove _ (hmem k hk)
    refine hkeys.bind fun b moved hb hm => .pure hb.closed fun c hc => ?_
    obtain ⟨k, hk, rfl⟩ := List.mem_map.1 hc
    exact hm k hk
  | groupby key aggregates =>
    have hmem : ∀ f ∈ aggregates, (f.2, 1) ∈ (Step.groupby key aggregates).operands := fun f hf =>
      List.mem_cons_of_mem _ (List.mem_map.2 ⟨f, hf, rfl⟩)
    have hkey := hmove (key, 1) List.mem_cons_self a ha (h _ List.mem_cons_self)
    refine hkey.bind fun b t hb ht => ?_
    have hfields := moveFields_grows hb.closed (fun f hf => hb.has (h _ (hmem f hf)))
      fun f hf => hmove _ (hmem f hf)
    refine hfields.bind fun c moved hc hm => .pure hc.closed fun d hd => ?_
    rcases List.mem_cons.1 hd with rfl | hd
    · exact hc.has ht
    · obtain ⟨f, hf, rfl⟩ := List.mem_map.1 hd
      exact hm f hf
  | oneOr default =>
    refine (hmove (default, 0) List.mem_cons_self a ha (h _ List.mem_cons_self)).bind
      fun b t hb ht => .pure hb.closed fun c hc => ?_
    exact List.mem_singleton.1 hc ▸ ht
  | _ => exact .pure ha fun c hc => by cases hc

theorem move_grows (t : Term) {level : Nat} (ha : a.Closed) (ht : a.Has t) :
    (t.move scopes level).Grows a Arena.Has := by
  induction t using children_induction generalizing level a with
  | h t ih =>
    cases t with
    | source id name => exact .pure ha ht
    | literal id value => exact .pure ha ht
    | context id up =>
      rw [move]
      split
      · exact (Alloc.Grows.alloc ha rfl fun c hc => by cases hc).mono fun b t _ h => h.1
      · exact .pure ha ht
    | record id fields =>
      have hmem : ∀ f ∈ fields, (f.2, 0) ∈ (record id fields).children := fun f hf =>
        List.mem_map.2 ⟨f, hf, rfl⟩
      have hfields : (moveFields scopes level fields).Grows a fun b moved => ∀ f ∈ moved, b.Has f.2 :=
        moveFields_grows ha (fun f hf => (ha.operand ht _ (hmem f hf)).2)
          fun f hf b hb hhas => ih _ (hmem f hf) hb hhas
      rw [move]
      refine hfields.bind fun b moved hb hm => ?_
      split
      · exact .pure hb.closed (hb.has ht)
      · exact (Alloc.Grows.record hb.closed hm).mono fun b t _ h => h.1
    | step id subject action =>
      have hsubject : (subject.move scopes level).Grows a Arena.Has :=
        ih (subject, 0) List.mem_cons_self ha (ha.subject ht)
      rw [move]
      refine hsubject.bind fun b s hb hs => ?_
      have haction : (moveStep scopes level action).Grows b Arena.HasOperands :=
        moveStep_grows hb.closed (hb.hasOperands (ha.hasOperands ht))
          fun c hc d hd hhas => ih c (List.mem_cons_of_mem _ hc) hd hhas
      refine haction.bind fun c moved hc hm => ?_
      split
      · exact .pure hc.closed (hc.has (hb.has ht))
      · exact (Alloc.Grows.step hc.closed (hc.has hs) hm).mono fun b t _ h => h.1

theorem shift_grows (t : Term) {level : Nat} (ha : a.Closed) (ht : a.Has t) :
    (t.shift level scopes).Grows a Arena.Has := by
  unfold shift
  split
  · exact .pure ha ht
  · exact t.move_grows ha ht

theorem shiftStep_grows {action : Step} (ha : a.Closed) (h : a.HasOperands action) :
    (action.shift scopes).Grows a Arena.HasOperands := by
  unfold Step.shift
  split
  · exact .pure ha h
  · exact moveStep_grows ha h fun c hc b hb hhas => c.1.move_grows hb hhas

theorem rebase_grows (t : Term) (marker : Nat) {base : Term} (ha : a.Closed) (ht : a.Has t)
    (hb : a.Has base) : (t.rebase marker base scopes).Grows a Arena.Has := by
  induction t using spine.induct with
  | case1 id subject action ih =>
    rw [rebase]
    split
    · exact .pure ha hb
    · refine (ih (ha.subject ht)).bind fun b s hb hs => ?_
      refine (shiftStep_grows hb.closed (hb.hasOperands (ha.hasOperands ht))).bind fun c moved hc hm => ?_
      exact (Alloc.Grows.step hc.closed (hc.has hs) hm).mono fun b t _ h => h.1
  | case2 t hnot =>
    have hrebase : t.rebase marker base scopes = pure base := by
      cases t with
      | step id subject action => exact absurd rfl (hnot id subject action)
      | _ => rfl
    rw [hrebase]
    exact .pure ha hb

/-- A part of a split predicate, if there is one, is a node of the arena. -/
private def HasPart (a : Arena) (part : Option Term) : Prop := ∀ t, part = some t → a.Has t

private theorem conjoin_grows {lhs rhs : Option Term} (ha : a.Closed) (hl : HasPart a lhs)
    (hr : HasPart a rhs) : (conjoin lhs rhs).Grows a HasPart := by
  cases lhs with
  | none => cases rhs <;> exact .pure ha hr
  | some l =>
    cases rhs with
    | none => exact .pure ha hl
    | some r =>
      have hoperands : a.HasOperands (.binary .and r) := fun c hc =>
        List.mem_singleton.1 hc ▸ hr r rfl
      refine (Alloc.Grows.step ha (hl l rfl) hoperands).bind fun b t hb ht =>
        .pure hb.closed fun s hs => ?_
      exact Option.some.inj hs ▸ ht.1

private theorem partition_grows (keep : Term → Bool) (t : Term) (ha : a.Closed) (ht : a.Has t) :
    (t.partition keep).Grows a fun b parts => HasPart b parts.1 ∧ HasPart b parts.2 := by
  have hself : ∀ b : Arena, b.Has t → HasPart b (some t) := fun b hb s hs =>
    Option.some.inj hs ▸ hb
  have hnone : ∀ b : Arena, HasPart b none := fun b s hs => by cases hs
  induction t using conjuncts.induct generalizing a with
  | case1 id lhs rhs ihl ihr =>
    rw [partition]
    refine (ihl ha (ha.subject ht) (fun b hb s hs => Option.some.inj hs ▸ hb)).bind
      fun b lefts hb hl => ?_
    have hrhs : a.Has rhs := ha.hasOperands ht (rhs, 0) List.mem_cons_self
    refine (ihr hb.closed (hb.has hrhs) (fun b hb s hs => Option.some.inj hs ▸ hb)).bind
      fun c rights hc hr => ?_
    have hl' : HasPart c lefts.1 ∧ HasPart c lefts.2 :=
      ⟨fun t ht => hc.has (hl.1 t ht), fun t ht => hc.has (hl.2 t ht)⟩
    dsimp only
    split
    · exact .pure hc.closed ⟨hself c (hc.has (hb.has ht)), hnone c⟩
    · split
      · exact .pure hc.closed ⟨hnone c, hself c (hc.has (hb.has ht))⟩
      · refine (conjoin_grows hc.closed hl'.1 hr.1).bind fun d kept hd hk => ?_
        refine (conjoin_grows hd.closed (fun t ht => hd.has (hl'.2 t ht))
          fun t ht => hd.has (hr.2 t ht)).bind fun e left he hleft => .pure he.closed ⟨?_, hleft⟩
        exact fun t ht => he.has (hk t ht)
  | case2 t h =>
    rw [partition_eq_pure h]
    split
    · exact .pure ha ⟨hself a ht, hnone a⟩
    · exact .pure ha ⟨hnone a, hself a ht⟩

private theorem orTrue_grows {part : Option Term} (ha : a.Closed) (h : HasPart a part) :
    (orTrue part).Grows a Arena.Has := by
  cases part with
  | some t => exact .pure ha (h t rfl)
  | none => exact (Alloc.Grows.alloc ha rfl fun c hc => by cases hc).mono fun b t _ h => h.1

theorem split_grows (keep : Term → Bool) (t : Term) (ha : a.Closed) (ht : a.Has t) :
    (t.split keep).Grows a fun b parts => b.Has parts.1 ∧ b.Has parts.2 := by
  refine (partition_grows keep t ha ht).bind fun b ⟨kept, left⟩ hb hparts => ?_
  refine (orTrue_grows hb.closed hparts.1).bind fun c k hc hk => ?_
  refine (orTrue_grows hc.closed fun t ht => hc.has (hparts.2 t ht)).bind fun d l hd hl => ?_
  exact .pure hd.closed ⟨hd.has hk, hl⟩

theorem conjoinAll_grows {t : Term} {more : List Term} (ha : a.Closed) (ht : a.Has t)
    (hm : ∀ s ∈ more, a.Has s) : (t.conjoinAll more).Grows a Arena.Has := by
  induction more generalizing a t with
  | nil => exact .pure ha ht
  | cons next rest ih =>
    have hoperands : a.HasOperands (.binary .and next) := fun c hc =>
      List.mem_singleton.1 hc ▸ hm next List.mem_cons_self
    refine (Alloc.Grows.step ha ht hoperands).bind fun b s hb hs => ?_
    exact ih hb.closed hs.1 fun s hs => hb.has (hm s (List.mem_cons_of_mem _ hs))

theorem mem_isolateConjunct {met : Isolating} {t s : Term}
    (h : s ∈ (isolateConjunct met t).rest) : s ∈ met.rest ∨ s = t := by
  have happend : s ∈ met.rest ++ [t] → s ∈ met.rest ∨ s = t := fun h =>
    (List.mem_append.1 h).imp_right List.mem_singleton.1
  unfold isolateConjunct at h
  split at h
  · split at h
    · exact happend h
    · split at h <;> exact .inl h
  · exact happend h

/-- The conjuncts that are left when bindings are taken out of a predicate are nodes of it. -/
theorem has_of_collectBindings {t : Term} {met : Isolating} (ha : a.Closed) (ht : a.Has t)
    (hm : ∀ s ∈ met.rest, a.Has s) : ∀ s ∈ (collectBindings met t).rest, a.Has s := by
  induction met, t using collectBindings.induct with
  | case1 met id lhs rhs ihl ihr =>
    rw [collectBindings]
    exact ihr (ha.hasOperands ht (rhs, 0) List.mem_cons_self) (ihl (ha.subject ht) hm)
  | case2 met t hnot =>
    have hone : collectBindings met t = isolateConjunct met t := by
      unfold collectBindings
      split
      · exact absurd rfl (hnot _ _ _)
      · rfl
    intro s hs
    rw [hone] at hs
    rcases mem_isolateConjunct hs with hs | rfl
    · exact hm s hs
    · exact ht

end Term

namespace Request

theorem cut_sound {r : Request} {c : Cut} {marker : Nat} (hr : r.Sound)
    (hc : r.cut marker = .ok c) :
    (c.before.Sound ∧ c.before.arena = r.arena) ∧
      c.after.Sound ∧ r.arena.GrownTo c.after.arena := by
  obtain ⟨before, hfound, hbefore, hafter⟩ := cut_eq_ok hc
  have hspine : before ∈ r.root.spine := List.mem_of_find?_eq_some hfound
  rw [hbefore, hafter]
  refine ⟨⟨⟨hr.closed, hr.closed.has_of_mem_spine hr.root hspine⟩, rfl⟩, ?_⟩
  refine Alloc.Grows.sound_rebuild ?_
  refine (Alloc.Grows.alloc hr.closed rfl fun c hc => by cases hc).bind fun b t hb ht => ?_
  exact r.root.rebase_grows marker hb.closed (hb.has hr.root) ht.1

theorem recompose_sound {before after r : Request} (hb : before.Sound) (ha : after.Sound)
    (hag : after.arena.Agrees before.arena) (h : before.recompose after = .ok r) :
    r.Sound ∧ after.arena.GrownTo r.arena := by
  unfold recompose at h
  split at h
  · cases h
  · split at h
    · cases h
    · cases h
      refine Alloc.Grows.sound_rebuild ?_
      refine (bring_grows ha.closed hb hag).bind fun b t hb ht => ?_
      exact after.root.rebase_grows _ hb.closed (hb.has ha.root) ht.1

theorem replaceOnChain_sound {r s : Request} {target : Nat} {replacement : Term} (hr : r.Sound)
    (ht : r.arena.Has replacement) (h : r.replaceOnChain target replacement = .ok s) :
    s.Sound ∧ r.arena.GrownTo s.arena := by
  unfold replaceOnChain at h
  split at h
  · cases h
  · cases h
    exact Alloc.Grows.sound_rebuild (r.root.rebase_grows target hr.closed hr.root ht)

theorem splitBy_sound {r : Request} (keep : Term → Bool) (hr : r.Sound) :
    ((r.splitBy keep).kept.Sound ∧ r.arena.GrownTo (r.splitBy keep).kept.arena) ∧
      (r.splitBy keep).remainder.Sound ∧ r.arena.GrownTo (r.splitBy keep).remainder.arena := by
  obtain ⟨hgrown, hkept, hleft⟩ := r.root.split_grows keep hr.closed hr.root
  exact ⟨⟨⟨hgrown.closed, hkept⟩, hgrown⟩, ⟨hgrown.closed, hleft⟩, hgrown⟩

theorem single_sound {make : Nat → Term} (hid : (make 0).id = 0) (hc : (make 0).children = []) :
    (single make).Sound := by
  have hgrows : (alloc make).Grows {} fun b t => b.Has t ∧ t = make 0 :=
    Alloc.Grows.alloc Arena.Closed.empty hid fun c hm => by
      rw [show ({} : Arena).size = 0 from rfl, hc] at hm
      cases hm
  exact ⟨hgrows.1.closed, hgrows.2.1⟩

theorem literal_sound (value : Value) : (literal value).Sound := single_sound rfl rfl

theorem isolate_sound {r : Request} (hr : r.Sound) :
    r.isolate.remainder.Sound ∧
      (r.arena.GrownTo r.isolate.remainder.arena ∨
        ∃ b, r.isolate.remainder = .literal (.bool b)) := by
  have hrest : ∀ s ∈ (r.root.collectBindings {}).rest, r.arena.Has s :=
    Term.has_of_collectBindings hr.closed hr.root fun s hs => by cases hs
  unfold isolate
  dsimp only
  generalize r.root.collectBindings {} = met at hrest
  by_cases hconflict : met.conflict = true
  · rw [if_pos hconflict]
    exact ⟨literal_sound _, .inr ⟨false, rfl⟩⟩
  · rw [if_neg hconflict]
    cases hmet : met.rest with
    | nil => exact ⟨literal_sound _, .inr ⟨true, rfl⟩⟩
    | cons first others =>
      rw [hmet] at hrest
      have hgrows := Term.conjoinAll_grows hr.closed (hrest first List.mem_cons_self)
        fun s hs => hrest s (List.mem_cons_of_mem _ hs)
      obtain ⟨hsound, hgrown⟩ : (r.rebuild fun _ => first.conjoinAll others).Sound ∧ _ :=
        Alloc.Grows.sound_rebuild hgrows
      exact ⟨hsound, .inl hgrown⟩

end Request

end QueryPushdown
