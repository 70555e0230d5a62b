import QueryPushdown.Proofs.Request.Arenas

/-!
# Copied requests

Bringing a request into another arena appends a copy of every node beneath its root exactly once,
operands first. The copies made so far are kept as the list of nodes copied, in their order: a
node's place in the list is the distance of its copy from the end of the old arena.
-/

namespace QueryPushdown

/-- The number of a node's copy when these nodes are copied, one after the other, to the end of an
arena. -/
def Arena.place (a : Arena) (order : List Term) (id : Nat) : Nat :=
  a.size + (order.map Term.id).idxOf id

/-- The nodes of `order` were copied from the arena `o` to the end of the arena `a`. -/
structure Copied (o a : Arena) (order : List Term) (memo : Copies) (b : Arena) : Prop where
  closed : b.Closed
  nodes : b.nodes.toList = a.nodes.toList ++ order.map (Term.renumber (a.place order))
  nodup : (order.map Term.id).Nodup
  has : ∀ t ∈ order, o.Has t
  operand : ∀ t ∈ order, ∀ c ∈ t.children, c.1 ∈ order
  hit : ∀ t ∈ order, memo.lookup t.id = some (t.renumber (a.place order))
  miss : ∀ t, o.Has t → t ∉ order → memo.lookup t.id = none
  unshared : b = a ∨ b.token = none

variable {o a b : Arena} {order : List Term} {memo : Copies}

theorem Arena.place_append {more : List Term} {t : Term} (ht : t ∈ order) :
    a.place (order ++ more) t.id = a.place order t.id := by
  rw [place, place, List.map_append, List.idxOf_append_of_mem (List.mem_map.2 ⟨t, ht, rfl⟩)]

namespace Copied

theorem start (ha : a.Closed) : Copied o a [] [] a where
  closed := ha
  nodes := by simp
  nodup := by simp
  has := by simp
  operand := by simp
  hit := by simp
  miss _ _ _ := rfl
  unshared := .inl rfl

theorem mem_nodes (h : Copied o a order memo b) {t n : Term} (ht : t ∈ order) (hn : n ∈ t.nodes) :
    n ∈ order := by
  induction t using Term.children_induction with
  | h t ih =>
    rcases Term.mem_nodes.1 hn with rfl | ⟨c, hc, hn⟩
    · exact ht
    · exact ih c hc (h.operand t ht c hc) hn

/-- Copies that follow do not change a copy. -/
theorem renumber_append (h : Copied o a order memo b) {t : Term} (ht : t ∈ order)
    (more : List Term) :
    t.renumber (a.place (order ++ more)) = t.renumber (a.place order) :=
  Term.renumber_congr fun _ hn => Arena.place_append (h.mem_nodes ht hn)

theorem size_eq (h : Copied o a order memo b) : b.size = a.size + order.length := by
  have hlen := congrArg List.length h.nodes
  simpa [Arena.size] using hlen

theorem has_copy (h : Copied o a order memo b) {t : Term} (ht : t ∈ order) :
    b.Has (t.renumber (a.place order)) := by
  let i := (order.map Term.id).idxOf t.id
  have hi : i < (order.map Term.id).length :=
    List.idxOf_lt_length_iff.2 (List.mem_map.2 ⟨t, ht, rfl⟩)
  have hi' : i < order.length := by simpa using hi
  have hget : order[i] = t := by
    refine (h.has _ (List.getElem_mem hi')).eq_of_id (h.has t ht) ?_
    calc order[i].id = (order.map Term.id)[i] := (List.getElem_map _).symm
      _ = t.id := List.getElem_idxOf hi
  have hlen : a.nodes.toList.length ≤ a.size + i := by simp [Arena.size]
  rw [Arena.Has, Term.id_renumber, ← Array.getElem?_toList, h.nodes, Arena.place,
    List.getElem?_append_right hlen]
  have hsub : a.size + i - a.nodes.toList.length = i := by simp [Arena.size]
  rw [hsub, List.getElem?_map, List.getElem?_eq_getElem hi', hget]
  rfl

theorem place_new (h : Copied o a order memo b) {t : Term} (ht : o.Has t) (hnew : t ∉ order) :
    a.place (order ++ [t]) t.id = b.size := by
  have hid : t.id ∉ order.map Term.id := by
    intro hm
    obtain ⟨s, hs, hid⟩ := List.mem_map.1 hm
    exact hnew ((h.has s hs).eq_of_id ht hid ▸ hs)
  rw [Arena.place, List.map_append, List.idxOf_append_of_notMem hid, h.size_eq]
  simp

/-- A node whose operands were copied is copied next. -/
theorem push (h : Copied o a order memo b) {t : Term} (ht : o.Has t) (hnew : t ∉ order)
    (hc : ∀ c ∈ t.children, c.1 ∈ order) {make : Nat → Term}
    (hmake : make b.size = t.renumber (a.place (order ++ [t]))) :
    Copied o a (order ++ [t]) ((t.id, (alloc make b).1) :: memo) (alloc make b).2 := by
  have hcopy : (alloc make b).1 = t.renumber (a.place (order ++ [t])) := hmake
  have hold : ∀ s ∈ order, s.renumber (a.place (order ++ [t])) = s.renumber (a.place order) :=
    fun s hs => h.renumber_append hs [t]
  have hid : ∀ s ∈ order, s.id ≠ t.id := fun s hs he => hnew ((h.has s hs).eq_of_id ht he ▸ hs)
  have hgrows : (alloc make).Grows b fun c t => c.Has t ∧ t = make b.size := by
    refine Alloc.Grows.alloc h.closed ?_ ?_
    · rw [hmake, Term.id_renumber, h.place_new ht hnew]
    · intro c hm
      rw [hmake, Term.children_renumber] at hm
      obtain ⟨c, hm', rfl⟩ := List.mem_map.1 hm
      rw [hold c.1 (hc c hm')]
      exact h.has_copy (hc c hm')
  have hmem : ∀ s ∈ order ++ [t], s ∈ order ∨ s = t := fun s hs =>
    (List.mem_append.1 hs).imp_right List.mem_singleton.1
  exact {
    closed := hgrows.1.closed
    nodes := by
      have hnodes : (alloc make b).2.nodes.toList = b.nodes.toList ++ [make b.size] := by
        simp [alloc]
      rw [hnodes, h.nodes, hmake, List.map_append, List.append_assoc, List.map_congr_left hold]
      rfl
    nodup := by
      rw [List.map_append]
      refine List.nodup_append.2 ⟨h.nodup, by simp, fun i hi j hj => ?_⟩
      obtain ⟨s, hs, rfl⟩ := List.mem_map.1 hi
      obtain rfl := List.mem_singleton.1 hj
      exact hid s hs
    has := fun s hs => by
      rcases hmem s hs with hs | rfl
      · exact h.has s hs
      · exact ht
    operand := fun s hs c hm => by
      refine List.mem_append_left _ ?_
      rcases hmem s hs with hs | rfl
      · exact h.operand s hs c hm
      · exact hc c hm
    hit := fun s hs => by
      rcases hmem s hs with hs | rfl
      · rw [List.lookup_cons, beq_false_of_ne (hid s hs), hold s hs]
        exact h.hit s hs
      · rw [List.lookup_cons, beq_self_eq_true, hcopy]
    miss := fun s hs hnot => by
      have hne : s.id ≠ t.id := fun he => by
        exact hnot (List.mem_append_right _ (List.mem_singleton.2 (hs.eq_of_id ht he)))
      rw [List.lookup_cons, beq_false_of_ne hne]
      exact h.miss s hs fun hm => hnot (List.mem_append_left _ hm)
    unshared := .inr rfl }

end Copied

/-- A computation copies everything beneath the terms in `roots` that was not copied before, and
returns what `result` makes of the numbers of the copies. -/
def Copying.CopiesAll {α : Type} (o a : Arena) (m : Copying α) (roots : List Term)
    (result : (Nat → Nat) → α) : Prop :=
  ∀ order memo b, Copied o a order memo b → (∀ t ∈ roots, o.Has t) →
    ∃ order', Copied o a order' (m memo b).1.2 (m memo b).2 ∧ order <+: order' ∧
      (∀ t ∈ roots, t ∈ order') ∧ (∀ t ∈ order', t ∈ order ∨ ∃ r ∈ roots, t ∈ r.nodes) ∧
      (m memo b).1.1 = result (a.place order')

/-- What is made of the numbers depends on those beneath `roots` alone. -/
def ReadsBeneath {α : Type} (roots : List Term) (result : (Nat → Nat) → α) : Prop :=
  ∀ f g : Nat → Nat, (∀ t ∈ roots, t.renumber f = t.renumber g) → result f = result g

namespace Copying.CopiesAll

variable {α β γ : Type} {m : Copying α} {n : Copying β} {roots roots' : List Term}
  {result : (Nat → Nat) → α} {result' : (Nat → Nat) → β}

theorem pure (x : α) : CopiesAll o a (Pure.pure x) [] fun _ => x := fun order _ _ h _ =>
  ⟨order, h, List.prefix_refl _, by simp, fun _ ht => .inl ht, rfl⟩

theorem map (h : CopiesAll o a m roots result) (g : α → β) :
    CopiesAll o a (do let x ← m; Pure.pure (g x)) roots fun f => g (result f) := by
  intro order memo b hcopied hroots
  obtain ⟨order', h', hext, hin, hout, heq⟩ := h order memo b hcopied hroots
  exact ⟨order', h', hext, hin, hout, congrArg g heq⟩

theorem map₂ (h : CopiesAll o a m roots result) (hreads : ReadsBeneath roots result)
    (h' : CopiesAll o a n roots' result') (g : α → β → γ) :
    CopiesAll o a (do let x ← m; let y ← n; Pure.pure (g x y)) (roots ++ roots')
      fun f => g (result f) (result' f) := by
  intro order memo b hcopied hroots
  obtain ⟨order₁, h₁, hext₁, hin₁, hout₁, heq₁⟩ :=
    h order memo b hcopied fun t ht => hroots t (List.mem_append_left _ ht)
  obtain ⟨order₂, h₂, hext₂, hin₂, hout₂, heq₂⟩ :=
    h' order₁ _ _ h₁ fun t ht => hroots t (List.mem_append_right _ ht)
  refine ⟨order₂, h₂, hext₁.trans hext₂, ?_, ?_, ?_⟩
  · intro t ht
    rcases List.mem_append.1 ht with ht | ht
    · exact hext₂.subset (hin₁ t ht)
    · exact hin₂ t ht
  · intro t ht
    rcases hout₂ t ht with ht | ⟨r, hr, ht⟩
    · rcases hout₁ t ht with ht | ⟨r, hr, ht⟩
      · exact .inl ht
      · exact .inr ⟨r, List.mem_append_left _ hr, ht⟩
    · exact .inr ⟨r, List.mem_append_right _ hr, ht⟩
  · obtain ⟨more, rfl⟩ := hext₂
    have hresult : result (a.place order₁) = result (a.place (order₁ ++ more)) :=
      hreads _ _ fun t ht => (h₁.renumber_append (hin₁ t ht) more).symm
    exact congrArg₂ g (heq₁.trans hresult) heq₂

private theorem copyOnce_eq (id : Nat) (copy : Copying (Nat → Term)) (memo : Copies) (b : Arena) :
    copyOnce id copy memo b =
      match memo.lookup id with
      | some t => ((t, memo), b)
      | none =>
        let made := copy memo b
        let node := alloc made.1.1 made.2
        ((node.1, (id, node.1) :: made.1.2), node.2) := by
  change (match memo.lookup id with
    | some t => Pure.pure t
    | none => do
      let make ← copy
      let t ← alloc make
      modify ((id, t) :: ·)
      Pure.pure t : Copying Term) memo b = _
  cases memo.lookup id <;> rfl

/-- A node is copied after its operands, unless it was copied before. -/
theorem once (ho : o.Closed) {t : Term} {copy : Copying (Nat → Term)}
    (h : CopiesAll o a copy (t.children.map Prod.fst) fun f i => t.mapOperands i (.renumber f)) :
    CopiesAll o a (copyOnce t.id copy) [t] t.renumber := by
  intro order memo b hcopied hroots
  have ht : o.Has t := hroots t (List.mem_singleton.2 rfl)
  by_cases hmem : t ∈ order
  · rw [copyOnce_eq, hcopied.hit t hmem]
    refine ⟨order, hcopied, List.prefix_refl _, fun s hs => ?_, fun s hs => .inl hs, rfl⟩
    exact List.mem_singleton.1 hs ▸ hmem
  · obtain ⟨order', h', hext, hin, hout, heq⟩ := h order memo b hcopied fun s hs => by
      obtain ⟨c, hc, rfl⟩ := List.mem_map.1 hs
      exact (ho.operand ht c hc).2
    have hin' : ∀ c ∈ t.children, c.1 ∈ order' := fun c hc => hin _ (List.mem_map.2 ⟨c, hc, rfl⟩)
    -- everything beneath the operands has a smaller number
    have hnew : t ∉ order' := fun hm => by
      rcases hout t hm with hm | ⟨r, hr, hm⟩
      · exact hmem hm
      · obtain ⟨c, hc, rfl⟩ := List.mem_map.1 hr
        obtain ⟨hlt, hhas⟩ := ho.operand ht c hc
        have hle := (ho.has_of_mem_nodes hhas hm).2
        omega
    have hmake : (copy memo b).1.1 (copy memo b).2.size =
        t.renumber (a.place (order' ++ [t])) := by
      rw [heq, Term.renumber_eq, h'.place_new ht hnew]
      exact Term.mapOperands_congr fun c hc => (h'.renumber_append (hin' c hc) [t]).symm
    have hpush := h'.push ht hnew hin' hmake
    rw [copyOnce_eq, hcopied.miss t ht hmem]
    refine ⟨order' ++ [t], hpush, hext.trans (List.prefix_append _ _), fun s hs => ?_,
      fun s hs => ?_, hmake⟩
    · exact List.mem_append_right _ hs
    · rcases List.mem_append.1 hs with hs | hs
      · refine (hout s hs).imp_right fun ⟨r, hr, hs⟩ => ⟨t, List.mem_singleton.2 rfl, ?_⟩
        obtain ⟨c, hc, rfl⟩ := List.mem_map.1 hr
        exact Term.mem_nodes.2 (.inr ⟨c, hc, hs⟩)
      · exact .inr ⟨t, List.mem_singleton.2 rfl, List.mem_singleton.1 hs ▸ t.self_mem_nodes⟩

end Copying.CopiesAll

namespace Term

variable {t : Term}

/-- What copying a term does. -/
private abbrev IsCopied (o a : Arena) (t : Term) : Prop :=
  Copying.CopiesAll o a t.copy [t] t.renumber

private theorem readsBeneath_renumber (t : Term) : ReadsBeneath [t] t.renumber :=
  fun _ _ h => h t (List.mem_singleton.2 rfl)

private theorem copyFields_copied {fields : List (String × Term)}
    (h : ∀ field ∈ fields, IsCopied o a field.2) :
    Copying.CopiesAll o a (copyFields fields) (fields.map Prod.snd)
      fun f => fields.map fun (name, t) => (name, t.renumber f) := by
  induction fields with
  | nil => exact .pure []
  | cons field rest ih =>
    have hfield : IsCopied o a field.2 := h field List.mem_cons_self
    exact hfield.map₂ (readsBeneath_renumber _)
      (ih fun g hg => h g (List.mem_cons_of_mem _ hg)) fun t rest => (field.1, t) :: rest

private theorem copyKeys_copied {keys : List (Term × Bool)}
    (h : ∀ key ∈ keys, IsCopied o a key.1) :
    Copying.CopiesAll o a (copyKeys keys) (keys.map Prod.fst)
      fun f => keys.map fun (t, descending) => (t.renumber f, descending) := by
  induction keys with
  | nil => exact .pure []
  | cons key rest ih =>
    have hkey : IsCopied o a key.1 := h key List.mem_cons_self
    exact hkey.map₂ (readsBeneath_renumber _)
      (ih fun k hk => h k (List.mem_cons_of_mem _ hk)) fun t rest => (t, key.2) :: rest

private theorem copyStep_copied {action : Step} (h : ∀ c ∈ action.operands, IsCopied o a c.1) :
    Copying.CopiesAll o a (copyStep action) (action.operands.map Prod.fst)
      fun f => action.mapOperands (renumber f) := by
  cases action with
  | binary op rhs => exact (h (rhs, 0) List.mem_cons_self).map (Step.binary op)
  | filter predicate => exact (h (predicate, 1) List.mem_cons_self).map Step.filter
  | map transform => exact (h (transform, 1) List.mem_cons_self).map Step.map
  | sort keys =>
    have hkeys := copyKeys_copied fun key hk => h (key.1, 1) (List.mem_map.2 ⟨key, hk, rfl⟩)
    have hroots : (Step.sort keys).operands.map Prod.fst = keys.map Prod.fst := by
      simp [Step.operands, Function.comp_def]
    rw [hroots]
    exact hkeys.map Step.sort
  | groupby key aggregates =>
    have hfields := copyFields_copied fun field hf =>
      h (field.2, 1) (List.mem_cons_of_mem _ (List.mem_map.2 ⟨field, hf, rfl⟩))
    have hroots : (Step.groupby key aggregates).operands.map Prod.fst =
        [key] ++ aggregates.map Prod.snd := by
      simp [Step.operands, Function.comp_def]
    rw [hroots]
    exact (h (key, 1) List.mem_cons_self).map₂ (readsBeneath_renumber _) hfields Step.groupby
  | oneOr default => exact (h (default, 0) List.mem_cons_self).map Step.oneOr
  | _ => exact .pure _

/-- Copying a term appends what was not copied before and returns the term under new numbers. -/
private theorem copy_copied (ho : o.Closed) (t : Term) : IsCopied o a t := by
  induction t using children_induction with
  | h t ih =>
    cases t with
    | source id name => exact .once ho (.pure (source · name))
    | literal id value => exact .once ho (.pure (literal · value))
    | context id up => exact .once ho (.pure (context · up))
    | record id fields =>
      have hfields := copyFields_copied fun field hf =>
        ih (field.2, 0) (List.mem_map.2 ⟨field, hf, rfl⟩)
      have hroots : (record id fields).children.map Prod.fst = fields.map Prod.snd := by
        simp [children, Function.comp_def]
      refine .once ho ?_
      rw [hroots]
      exact hfields.map fun fields i => record i fields
    | step id subject action =>
      have haction := copyStep_copied fun c hc => ih c (List.mem_cons_of_mem _ hc)
      refine .once ho ?_
      exact (ih (subject, 0) List.mem_cons_self).map₂ (readsBeneath_renumber _) haction
        fun subject action i => step i subject action

end Term

/-- Arenas that pass for one hold the same nodes. -/
def Arena.Agrees (a b : Arena) : Prop := a.shared b = true → a.nodes = b.nodes

/-- The arena `b` is `a` with a copy of every node beneath `t` after it, each made once, and `s` is
the copy of `t`. -/
def Arena.Imports (a : Arena) (t : Term) (b : Arena) (s : Term) : Prop :=
  ∃ order : List Term, order.Nodup ∧ (∀ n, n ∈ order ↔ n ∈ t.nodes) ∧
    b.nodes.toList = a.nodes.toList ++ order.map (Term.renumber (a.place order)) ∧
    s = t.renumber (a.place order)

namespace Request

/-- A request from the same arena is brought as it is. -/
theorem bring_of_shared {r : Request} (h : a.shared r.arena = true) :
    bring r a = (r.root, a) := if_pos h

/-- A request from another arena is copied, every node beneath its root once. -/
theorem bring_of_not_shared {r : Request} (ha : a.Closed) (hr : r.Sound)
    (h : a.shared r.arena = false) :
    (bring r).Grows a fun b t => b.Has t ∧ a.Imports r.root b t := by
  have hrun : bring r a = ((r.root.copy [] a).1.1, (r.root.copy [] a).2) := by
    rw [bring, if_neg (by rw [h]; exact Bool.false_ne_true)]
    rfl
  obtain ⟨order, hcopied, -, hin, hout, heq⟩ :=
    Term.copy_copied hr.closed r.root [] [] a (.start ha) fun t ht =>
      List.mem_singleton.1 ht ▸ hr.root
  have hroot : r.root ∈ order := hin r.root (List.mem_singleton.2 rfl)
  have hnodup : order.Nodup := List.Pairwise.of_map _ (fun s t h he => h (congrArg _ he)) hcopied.nodup
  have hnodes : ∀ n, n ∈ order ↔ n ∈ r.root.nodes := by
    refine fun n => ⟨fun hn => ?_, hcopied.mem_nodes hroot⟩
    rcases hout n hn with hn | ⟨t, ht, hn⟩
    · cases hn
    · exact List.mem_singleton.1 ht ▸ hn
  have happended : a.nodes.toList <+: (r.root.copy [] a).2.nodes.toList := by
    rw [hcopied.nodes]
    exact List.prefix_append _ _
  rw [Alloc.Grows, hrun, heq]
  exact ⟨⟨hcopied.closed, happended, hcopied.unshared⟩, hcopied.has_copy hroot, order, hnodup,
    hnodes, hcopied.nodes, rfl⟩

/-- A request that is brought keeps its tree. -/
theorem bring_grows {r : Request} (ha : a.Closed) (hr : r.Sound) (hag : a.Agrees r.arena) :
    (bring r).Grows a fun b t => b.Has t ∧ t.tree = r.root.tree := by
  cases h : a.shared r.arena with
  | true =>
    have hhas : a.Has r.root := by
      rw [Arena.Has, hag h]
      exact hr.root
    rw [Alloc.Grows, bring_of_shared h]
    exact ⟨.refl ha, hhas, rfl⟩
  | false =>
    refine (bring_of_not_shared ha hr h).mono fun b t _ himported => ?_
    obtain ⟨hhas, order, -, -, -, hroot⟩ := himported
    refine ⟨hhas, ?_⟩
    rw [hroot, Term.tree_renumber]

end Request

end QueryPushdown
