import QueryPushdown.Proofs.Request.Operands

/-!
# Arenas as trees

A node of an arena names its operands by their numbers; `Arena.unfold` follows the numbers and
returns the tree that a node stands for. In a closed arena every operand is numbered below its
node, so the unfolding ends, and appending nodes changes no tree that was there before.
-/

namespace QueryPushdown

/-- The step on other operands. -/
def Step.mapOperands (h : Term → Term) : Step → Step
  | .binary op rhs => .binary op (h rhs)
  | .filter predicate => .filter (h predicate)
  | .map transform => .map (h transform)
  | .sort keys => .sort (keys.map fun (t, descending) => (h t, descending))
  | .groupby key aggregates => .groupby (h key) (aggregates.map fun (name, t) => (name, h t))
  | .oneOr default => .oneOr (h default)
  | .field name => .field name
  | .unary op => .unary op
  | .slice start stop => .slice start stop
  | .index position => .index position
  | .distinct => .distinct
  | .one => .one
  | .aggregate op => .aggregate op

/-- The step on the operands that `f` gives, if it gives all of them. -/
def Step.traverse? (f : Term → Option Term) : Step → Option Step
  | .binary op rhs => (f rhs).map (.binary op)
  | .filter predicate => (f predicate).map .filter
  | .map transform => (f transform).map .map
  | .sort keys => (keys.mapM fun key => (f key.1).map (·, key.2)).map .sort
  | .groupby key aggregates => do
    let key ← f key
    (aggregates.mapM fun field => (f field.2).map (field.1, ·)).map (.groupby key)
  | .oneOr default => (f default).map .oneOr
  | .field name => some (.field name)
  | .unary op => some (.unary op)
  | .slice start stop => some (.slice start stop)
  | .index position => some (.index position)
  | .distinct => some .distinct
  | .one => some .one
  | .aggregate op => some (.aggregate op)

namespace Term

/-- The node under another number and on other operands. -/
def mapOperands (id : Nat) (h : Term → Term) : Term → Term
  | source _ name => source id name
  | literal _ value => literal id value
  | context _ up => context id up
  | record _ fields => record id (fields.map fun (name, t) => (name, h t))
  | step _ subject action => step id (h subject) (action.mapOperands h)

/-- The node under another number, on the operands that `f` gives, if it gives all of them. -/
def traverse? (id : Nat) (f : Term → Option Term) : Term → Option Term
  | source _ name => some (source id name)
  | literal _ value => some (literal id value)
  | context _ up => some (context id up)
  | record _ fields => (fields.mapM fun field => (f field.2).map (field.1, ·)).map (record id)
  | step _ subject action => do
    let subject ← f subject
    (action.traverse? f).map (step id subject)

mutual

/-- Gives every node beneath a term a new number. -/
def renumber (f : Nat → Nat) : Term → Term
  | source id name => source (f id) name
  | literal id value => literal (f id) value
  | context id up => context (f id) up
  | record id fields => record (f id) (renumberFields f fields)
  | step id subject action => step (f id) (renumber f subject) (renumberStep f action)

def renumberStep (f : Nat → Nat) : Step → Step
  | .binary op rhs => .binary op (renumber f rhs)
  | .filter predicate => .filter (renumber f predicate)
  | .map transform => .map (renumber f transform)
  | .sort keys => .sort (renumberKeys f keys)
  | .groupby key aggregates => .groupby (renumber f key) (renumberFields f aggregates)
  | .oneOr default => .oneOr (renumber f default)
  | .field name => .field name
  | .unary op => .unary op
  | .slice start stop => .slice start stop
  | .index position => .index position
  | .distinct => .distinct
  | .one => .one
  | .aggregate op => .aggregate op

def renumberFields (f : Nat → Nat) : List (String × Term) → List (String × Term)
  | [] => []
  | (name, t) :: rest => (name, renumber f t) :: renumberFields f rest

def renumberKeys (f : Nat → Nat) : List (Term × Bool) → List (Term × Bool)
  | [] => []
  | (t, descending) :: rest => (renumber f t, descending) :: renumberKeys f rest

end

/-- The tree of a term, in which numbers do not count. -/
def tree (t : Term) : Term := t.renumber fun _ => 0

end Term

namespace Arena

/-- The tree that a number stands for, read off the arena by the numbers of the operands, at most
`depth` nodes deep. -/
def unfold (a : Arena) : (depth : Nat) → (id : Nat) → Option Term
  | 0, _ => none
  | depth + 1, id =>
    a.nodes[id]?.bind (·.traverse? 0 fun operand => a.unfold depth operand.id)

/-- A term is the node of its number. -/
def Has (a : Arena) (t : Term) : Prop := a.nodes[t.id]? = some t

/-- The operands of a step, the subject apart, are nodes of the arena. -/
def HasOperands (a : Arena) (action : Step) : Prop := ∀ c ∈ action.operands, a.Has c.1

/-- Every node is at the place of its number, and its operands are nodes with smaller numbers. -/
structure Closed (a : Arena) : Prop where
  id_eq {i : Nat} {t : Term} (h : a.nodes[i]? = some t) : t.id = i
  operand {t : Term} (h : a.Has t) : ∀ c ∈ t.children, c.1.id < t.id ∧ a.Has c.1

/-- What an arena becomes when nodes are appended to it: a closed arena with the same first nodes,
which no other request holds unless nothing was appended. -/
structure GrownTo (a b : Arena) : Prop where
  closed : b.Closed
  appended : a.nodes.toList <+: b.nodes.toList
  unshared : b = a ∨ b.token = none

end Arena

/-- The nodes of a request make up a closed arena that its root belongs to. -/
structure Request.Sound (r : Request) : Prop where
  closed : r.arena.Closed
  root : r.arena.Has r.root

/-- The tree that a request stands for. -/
def Request.unfold (r : Request) : Option Term := r.arena.unfold (r.root.id + 1) r.root.id

section Operandwise

variable {f : Term → Option Term} {h k : Term → Term}

private theorem mapM_eq_some_map {α β : Type} {f : α → Option β} {g : α → β} {xs : List α}
    (h : ∀ x ∈ xs, f x = some (g x)) : xs.mapM f = some (xs.map g) := by
  induction xs with
  | nil => rfl
  | cons x rest ih =>
    rw [List.mapM_cons, h x List.mem_cons_self, ih fun y hy => h y (List.mem_cons_of_mem _ hy)]
    rfl

theorem Step.operands_mapOperands (h : Term → Term) (action : Step) :
    (action.mapOperands h).operands = action.operands.map fun c => (h c.1, c.2) := by
  cases action <;> simp [mapOperands, operands, Function.comp_def]

theorem Step.mapOperands_eq_self {action : Step} (ha : action.operands = []) (h : Term → Term) :
    action.mapOperands h = action := by
  cases action with
  | sort keys =>
    obtain rfl : keys = [] := by simpa [operands] using ha
    rfl
  | binary _ _ | filter _ | map _ | groupby _ _ | oneOr _ => cases ha
  | _ => rfl

theorem Step.traverse?_eq_some {action : Step}
    (hf : ∀ c ∈ action.operands, f c.1 = some (h c.1)) :
    action.traverse? f = some (action.mapOperands h) := by
  cases action with
  | binary op rhs => rw [traverse?, hf (rhs, 0) List.mem_cons_self]; rfl
  | filter predicate => rw [traverse?, hf (predicate, 1) List.mem_cons_self]; rfl
  | map transform => rw [traverse?, hf (transform, 1) List.mem_cons_self]; rfl
  | sort keys =>
    have hkeys : keys.mapM (fun key => (f key.1).map (·, key.2)) =
        some (keys.map fun key => (h key.1, key.2)) := mapM_eq_some_map fun key hk => by
      rw [hf (key.1, 1) (List.mem_map.2 ⟨key, hk, rfl⟩)]
      rfl
    rw [traverse?, hkeys]
    rfl
  | groupby key aggregates =>
    have hfields : aggregates.mapM (fun field => (f field.2).map (field.1, ·)) =
        some (aggregates.map fun field => (field.1, h field.2)) := mapM_eq_some_map fun field hm => by
      rw [hf (field.2, 1) (List.mem_cons_of_mem _ (List.mem_map.2 ⟨field, hm, rfl⟩))]
      rfl
    rw [traverse?, hf (key, 1) List.mem_cons_self, hfields]
    rfl
  | oneOr default => rw [traverse?, hf (default, 0) List.mem_cons_self]; rfl
  | _ => rfl

namespace Term

theorem children_mapOperands (id : Nat) (h : Term → Term) (t : Term) :
    (t.mapOperands id h).children = t.children.map fun c => (h c.1, c.2) := by
  cases t <;> simp [mapOperands, children, Step.operands_mapOperands, Function.comp_def]

theorem traverse?_eq_some {id : Nat} {t : Term} (hf : ∀ c ∈ t.children, f c.1 = some (h c.1)) :
    t.traverse? id f = some (t.mapOperands id h) := by
  cases t with
  | record _ fields =>
    have hfields : fields.mapM (fun field => (f field.2).map (field.1, ·)) =
        some (fields.map fun field => (field.1, h field.2)) := mapM_eq_some_map fun field hm => by
      rw [hf (field.2, 0) (List.mem_map.2 ⟨field, hm, rfl⟩)]
      rfl
    rw [traverse?, hfields]
    rfl
  | step _ subject action =>
    have haction : action.traverse? f = some (action.mapOperands h) :=
      Step.traverse?_eq_some fun c hc => hf c (List.mem_cons_of_mem _ hc)
    rw [traverse?, hf (subject, 0) List.mem_cons_self, haction]
    rfl
  | _ => rfl

/-- A node depends on its operands only by what they are mapped to. -/
theorem mapOperands_congr {id : Nat} {t : Term} (hk : ∀ c ∈ t.children, h c.1 = k c.1) :
    t.mapOperands id h = t.mapOperands id k := by
  have hh : t.traverse? id (fun c => some (h c)) = some (t.mapOperands id h) :=
    traverse?_eq_some fun _ _ => rfl
  have hk' : t.traverse? id (fun c => some (h c)) = some (t.mapOperands id k) :=
    traverse?_eq_some fun c hc => congrArg some (hk c hc)
  exact Option.some.inj (hh.symm.trans hk')

theorem mapOperands_mapOperands (i j : Nat) (h k : Term → Term) (t : Term) :
    (t.mapOperands i h).mapOperands j k = t.mapOperands j fun c => k (h c) := by
  cases t with
  | step id subject action => cases action <;> simp [mapOperands, Step.mapOperands]
  | _ => simp [mapOperands]

end Term

end Operandwise

namespace Term

private theorem renumberFields_eq (f : Nat → Nat) (fields : List (String × Term)) :
    renumberFields f fields = fields.map fun (name, t) => (name, t.renumber f) := by
  induction fields with
  | nil => rfl
  | cons field rest ih => rw [renumberFields, ih, List.map_cons]

private theorem renumberKeys_eq (f : Nat → Nat) (keys : List (Term × Bool)) :
    renumberKeys f keys = keys.map fun (t, descending) => (t.renumber f, descending) := by
  induction keys with
  | nil => rfl
  | cons key rest ih => rw [renumberKeys, ih, List.map_cons]

theorem renumberStep_eq (f : Nat → Nat) (action : Step) :
    renumberStep f action = action.mapOperands (renumber f) := by
  cases action <;> simp only [renumberStep, Step.mapOperands, renumberFields_eq, renumberKeys_eq]

theorem renumber_eq (f : Nat → Nat) (t : Term) :
    t.renumber f = t.mapOperands (f t.id) (renumber f) := by
  cases t <;> simp only [renumber, mapOperands, renumberFields_eq, renumberStep_eq, id]

@[simp] theorem id_renumber (f : Nat → Nat) (t : Term) : (t.renumber f).id = f t.id := by
  cases t <;> simp only [renumber, id]

theorem children_renumber (f : Nat → Nat) (t : Term) :
    (t.renumber f).children = t.children.map fun c => (c.1.renumber f, c.2) := by
  rw [renumber_eq, children_mapOperands]

theorem renumber_renumber (f g : Nat → Nat) (t : Term) :
    (t.renumber f).renumber g = t.renumber fun id => g (f id) := by
  induction t using children_induction with
  | h t ih =>
    rw [renumber_eq g, id_renumber, renumber_eq f, renumber_eq _ t, mapOperands_mapOperands]
    exact mapOperands_congr ih

/-- New numbers leave the tree as it is. -/
@[simp] theorem tree_renumber (f : Nat → Nat) (t : Term) : (t.renumber f).tree = t.tree :=
  renumber_renumber f _ t

section Nodes

private theorem walkFields_eq (level : Nat) (fields : List (String × Term)) :
    walkFields level fields = fields.flatMap fun field => walk level field.2 := by
  induction fields with
  | nil => rfl
  | cons field rest ih => rw [walkFields, ih, List.flatMap_cons]

private theorem walkKeys_eq (level : Nat) (keys : List (Term × Bool)) :
    walkKeys level keys = keys.flatMap fun key => walk level key.1 := by
  induction keys with
  | nil => rfl
  | cons key rest ih => rw [walkKeys, ih, List.flatMap_cons]

private theorem walkStep_eq (level : Nat) (action : Step) :
    walkStep level action = action.operands.flatMap fun c => walk (level + c.2) c.1 := by
  cases action <;>
    simp [walkStep, Step.operands, walkFields_eq, walkKeys_eq, List.flatMap_map]

theorem walk_eq (level : Nat) (t : Term) :
    walk level t = (t, level) :: t.children.flatMap fun c => walk (level + c.2) c.1 := by
  cases t <;> simp [walk, children, walkFields_eq, walkStep_eq, List.flatMap_map]

/-- The scopes around a term do not matter for which nodes are beneath it. -/
private theorem map_walk (t : Term) : ∀ level, (walk level t).map Prod.fst = t.nodes := by
  induction t using children_induction with
  | h t ih =>
    intro level
    rw [nodes, walk_eq level, walk_eq 0, List.map_cons, List.map_cons, List.map_flatMap,
      List.map_flatMap]
    congr 1
    refine List.flatMap_congr fun c hc => ?_
    rw [ih c hc, ih c hc]

theorem mem_nodes {t n : Term} : n ∈ t.nodes ↔ n = t ∨ ∃ c ∈ t.children, n ∈ c.1.nodes := by
  rw [nodes, walk_eq, List.map_cons, List.map_flatMap, List.mem_cons, List.mem_flatMap]
  simp only [map_walk]

theorem self_mem_nodes (t : Term) : t ∈ t.nodes := mem_nodes.2 (.inl rfl)

/-- Only the numbers that occur in a term count for its renumbering. -/
theorem renumber_congr {f g : Nat → Nat} {t : Term} (h : ∀ n ∈ t.nodes, f n.id = g n.id) :
    t.renumber f = t.renumber g := by
  induction t using children_induction with
  | h t ih =>
    rw [renumber_eq, renumber_eq, h t t.self_mem_nodes]
    exact mapOperands_congr fun c hc => ih c hc fun n hn => h n (mem_nodes.2 (.inr ⟨c, hc, hn⟩))

end Nodes

end Term

namespace Arena

variable {a b c : Arena}

theorem Closed.empty : ({} : Arena).Closed where
  id_eq h := by simp at h
  operand h := by simp [Has] at h

theorem Has.id_lt {t : Term} (h : a.Has t) : t.id < a.size :=
  (Array.getElem?_eq_some_iff.1 h).choose

theorem Has.eq_of_id {s t : Term} (hs : a.Has s) (ht : a.Has t) (hid : s.id = t.id) : s = t := by
  rw [Has, hid] at hs
  exact Option.some.inj (hs.symm.trans ht)

theorem Closed.has_of_mem_nodes (h : a.Closed) {t n : Term} (ht : a.Has t) (hn : n ∈ t.nodes) :
    a.Has n ∧ n.id ≤ t.id := by
  induction t using Term.children_induction with
  | h t ih =>
    rcases Term.mem_nodes.1 hn with rfl | ⟨c, hc, hn⟩
    · exact ⟨ht, Nat.le_refl _⟩
    · obtain ⟨hlt, hhas⟩ := h.operand ht c hc
      obtain ⟨hn, hle⟩ := ih c hc hhas hn
      exact ⟨hn, Nat.le_trans hle (Nat.le_of_lt hlt)⟩

/-- In a closed arena a number unfolds to the tree of its node. -/
theorem Closed.unfold_eq (h : a.Closed) {t : Term} (ht : a.Has t) {depth : Nat}
    (hd : t.id < depth) : a.unfold depth t.id = some t.tree := by
  induction t using Term.children_induction generalizing depth with
  | h t ih =>
    obtain ⟨depth, rfl⟩ : ∃ d, depth = d + 1 := ⟨depth - 1, by omega⟩
    rw [unfold, show a.nodes[t.id]? = some t from ht, Option.bind_some, Term.tree, Term.renumber_eq]
    refine Term.traverse?_eq_some fun c hc => ?_
    obtain ⟨hlt, hhas⟩ := h.operand ht c hc
    exact ih c hc hhas (by omega)

theorem Closed.subject (h : a.Closed) {id : Nat} {subject : Term} {action : Step}
    (ht : a.Has (.step id subject action)) : a.Has subject :=
  (h.operand ht (subject, 0) List.mem_cons_self).2

theorem Closed.hasOperands (h : a.Closed) {id : Nat} {subject : Term} {action : Step}
    (ht : a.Has (.step id subject action)) : a.HasOperands action := fun c hc =>
  (h.operand ht c (List.mem_cons_of_mem _ hc)).2

theorem Closed.has_of_mem_spine (h : a.Closed) {t entry : Term} (ht : a.Has t)
    (he : entry ∈ t.spine) : a.Has entry :=
  Term.holds_of_mem_spine (P := a.Has) (fun _ _ _ hs => h.subject hs) ht he

theorem Closed.ordered (h : a.Closed) {t : Term} (ht : a.Has t) : t.Ordered := by
  induction t using Term.children_induction with
  | h t ih =>
    exact .node (fun c hc => (h.operand ht c hc).1) fun c hc => ih c hc (h.operand ht c hc).2

theorem GrownTo.refl (h : a.Closed) : a.GrownTo a := ⟨h, List.prefix_refl _, .inl rfl⟩

theorem GrownTo.trans (h : a.GrownTo b) (h' : b.GrownTo c) : a.GrownTo c := by
  refine ⟨h'.closed, h.appended.trans h'.appended, ?_⟩
  rcases h'.unshared with rfl | hnone
  · exact h.unshared
  · exact .inr hnone

theorem Has.of_prefix {t : Term} (ht : a.Has t) (h : a.nodes.toList <+: b.nodes.toList) :
    b.Has t := by
  obtain ⟨more, hmore⟩ := h
  have hlt : t.id < a.nodes.toList.length := by
    rw [Array.length_toList]
    exact ht.id_lt
  rw [Has, ← Array.getElem?_toList, ← hmore, List.getElem?_append_left hlt,
    Array.getElem?_toList]
  exact ht

theorem GrownTo.has (h : a.GrownTo b) {t : Term} (ht : a.Has t) : b.Has t := ht.of_prefix h.appended

theorem GrownTo.hasOperands (h : a.GrownTo b) {action : Step} (ha : a.HasOperands action) :
    b.HasOperands action := fun c hc => h.has (ha c hc)

/-- Every number stands for the tree that it stood for before nodes were appended. -/
theorem GrownTo.unfold_eq (h : a.GrownTo b) (ha : a.Closed) {id depth : Nat} (hid : id < a.size)
    (hd : id < depth) : b.unfold depth id = a.unfold depth id := by
  obtain ⟨t, ht⟩ : ∃ t, a.nodes[id]? = some t := ⟨_, Array.getElem?_eq_getElem hid⟩
  obtain rfl := ha.id_eq ht
  rw [ha.unfold_eq ht hd, h.closed.unfold_eq (h.has ht) hd]

/-- A token says nothing about nodes. -/
theorem Closed.withToken (h : a.Closed) (token : Option Nat) : { a with token }.Closed where
  id_eq ht := h.id_eq ht
  operand ht := h.operand ht

end Arena

theorem Request.Sound.unfold_eq {r : Request} (h : r.Sound) : r.unfold = some r.root.tree :=
  h.closed.unfold_eq h.root (Nat.lt_succ_self _)

/-- A computation appends nodes to an arena, and its result is as `P` asks of the arena that it
leaves. -/
def Alloc.Grows {α : Type} (m : Alloc α) (a : Arena) (P : Arena → α → Prop) : Prop :=
  a.GrownTo (m a).2 ∧ P (m a).2 (m a).1

namespace Alloc.Grows

variable {α β : Type} {a : Arena} {P : Arena → α → Prop} {Q : Arena → β → Prop}

theorem pure {x : α} (ha : a.Closed) (hx : P a x) : Alloc.Grows (Pure.pure x) a P :=
  ⟨.refl ha, hx⟩

theorem bind {m : Alloc α} {k : α → Alloc β} (hm : m.Grows a P)
    (hk : ∀ b x, a.GrownTo b → P b x → (k x).Grows b Q) : Alloc.Grows (m >>= k) a Q := by
  obtain ⟨hgrown, hx⟩ := hm
  obtain ⟨hgrown', hy⟩ := hk _ _ hgrown hx
  exact ⟨hgrown.trans hgrown', hy⟩

theorem mono {m : Alloc α} {P' : Arena → α → Prop} (h : m.Grows a P)
    (hP : ∀ b x, a.GrownTo b → P b x → P' b x) : m.Grows a P' := ⟨h.1, hP _ _ h.1 h.2⟩

/-- A new node keeps the arena closed if its operands are there. -/
theorem alloc {make : Nat → Term} (ha : a.Closed) (hid : (make a.size).id = a.size)
    (hc : ∀ c ∈ (make a.size).children, a.Has c.1) :
    (alloc make).Grows a fun b t => b.Has t ∧ t = make a.size := by
  let b : Arena := { nodes := a.nodes.push (make a.size), token := none }
  have happended : a.nodes.toList <+: b.nodes.toList := by
    rw [Array.toList_push]
    exact List.prefix_append _ _
  have hnode : ∀ {i : Nat} {t : Term}, b.nodes[i]? = some t →
      i = a.size ∧ t = make a.size ∨ a.nodes[i]? = some t := by
    intro i t ht
    rw [Array.getElem?_push] at ht
    split at ht
    · exact .inl ⟨‹_›, (Option.some.inj ht).symm⟩
    · exact .inr ht
  have hclosed : b.Closed := by
    refine ⟨fun ht => ?_, fun {t} ht c hm => ?_⟩
    · rcases hnode ht with ⟨rfl, rfl⟩ | ht
      · exact hid
      · exact ha.id_eq ht
    · rcases hnode ht with ⟨-, rfl⟩ | ht
      · have hold : a.Has c.1 := hc c hm
        refine ⟨?_, hold.of_prefix happended⟩
        rw [hid]
        exact hold.id_lt
      · obtain ⟨hlt, hold⟩ := ha.operand ht c hm
        exact ⟨hlt, hold.of_prefix happended⟩
  have hlast : b.Has (make a.size) := by
    rw [Arena.Has, hid]
    exact Array.getElem?_push_size
  exact ⟨⟨hclosed, happended, .inr rfl⟩, hlast, rfl⟩

theorem step {subject : Term} {action : Step} (ha : a.Closed) (hs : a.Has subject)
    (hc : a.HasOperands action) :
    (QueryPushdown.alloc (.step · subject action)).Grows a
      fun b t => b.Has t ∧ t = .step a.size subject action := by
  refine alloc ha rfl fun c hm => ?_
  rcases List.mem_cons.1 hm with rfl | hm
  · exact hs
  · exact hc c hm

theorem record {fields : List (String × Term)} (ha : a.Closed) (hf : ∀ f ∈ fields, a.Has f.2) :
    (QueryPushdown.alloc (.record · fields)).Grows a
      fun b t => b.Has t ∧ t = .record a.size fields := by
  refine alloc ha rfl fun c hm => ?_
  obtain ⟨f, hmem, rfl⟩ := List.mem_map.1 hm
  exact hf f hmem

/-- The request that a computation builds in the arena of another one. -/
theorem sound_rebuild {r : Request} {build : Term → Alloc Term}
    (h : (build r.root).Grows r.arena Arena.Has) :
    (r.rebuild build).Sound ∧ r.arena.GrownTo (r.rebuild build).arena :=
  ⟨⟨h.1.closed, h.2⟩, h.1⟩

end Alloc.Grows

end QueryPushdown
