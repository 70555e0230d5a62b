import QueryPushdown.Proofs.Transform.Appending
import QueryPushdown.Request.Draft

/-!
# Drafts as trees

A draft describes a tree: every part stands for itself and a name for the part bound to it, however
the arenas of the parts are shared or copied when the request is built. Each arena that a name holds
is known by its token, so two requests with one token stand in one arena.
-/

namespace QueryPushdown

namespace Draft

mutual

/-- The tree that a draft describes when these trees are bound to names. A part that is looked up by
its number in an arena is not described. -/
def treeIn (trees : List (String × Option Term)) : Draft → Option Term
  | source name => some (.source 0 name)
  | literal value => some (.literal 0 value)
  | context depth => if 0 < depth then none else some (.context 0 depth.natAbs)
  | up scopes => some (.context 0 scopes)
  | field subject name => do some (.step 0 (← treeIn trees subject) (.field name))
  | unary op subject => do some (.step 0 (← treeIn trees subject) (.unary op))
  | binary op lhs rhs => do
    let lhs ← treeIn trees lhs
    some (.step 0 lhs (.binary op (← treeIn trees rhs)))
  | filter subject predicate => do
    let subject ← treeIn trees subject
    some (.step 0 subject (.filter (← treeIn trees predicate)))
  | map subject transform => do
    let subject ← treeIn trees subject
    some (.step 0 subject (.map (← treeIn trees transform)))
  | sort subject keys => do
    let subject ← treeIn trees subject
    some (.step 0 subject (.sort (← keysIn trees keys)))
  | slice subject start stop => do some (.step 0 (← treeIn trees subject) (.slice start stop))
  | index subject position => do some (.step 0 (← treeIn trees subject) (.index position))
  | groupby subject key aggregates => do
    let subject ← treeIn trees subject
    let key ← treeIn trees key
    some (.step 0 subject (.groupby key (Fields.ofList (← fieldsIn trees aggregates))))
  | distinct subject => do some (.step 0 (← treeIn trees subject) .distinct)
  | one subject => do some (.step 0 (← treeIn trees subject) .one)
  | oneOr subject default => do
    let subject ← treeIn trees subject
    some (.step 0 subject (.oneOr (← treeIn trees default)))
  | aggregate op subject => do some (.step 0 (← treeIn trees subject) (.aggregate op))
  | record fields => do some (.record 0 (Fields.ofList (← fieldsIn trees fields)))
  | bind name value body => do
    let value ← treeIn trees value
    treeIn ((name, some value) :: trees) body
  | named name => (trees.lookup name).join
  | part _ _ => none

def fieldsIn (trees : List (String × Option Term)) :
    List (String × Draft) → Option (List (String × Term))
  | [] => some []
  | (name, d) :: rest => do
    let t ← treeIn trees d
    some ((name, t) :: (← fieldsIn trees rest))

def keysIn (trees : List (String × Option Term)) :
    List (Draft × Bool) → Option (List (Term × Bool))
  | [] => some []
  | (d, descending) :: rest => do
    let t ← treeIn trees d
    some ((t, descending) :: (← keysIn trees rest))

end

/-- The tree that a draft describes, if it only uses names that it binds. -/
def tree? (d : Draft) : Option Term := treeIn [] d

end Draft

theorem Fields.map_insert {α β : Type} (f : α → β) (fields : Fields α) (name : String) (a : α) :
    (insert fields name a).map (fun e => (e.1, f e.2)) =
      insert (fields.map fun e => (e.1, f e.2)) name (f a) := by
  induction fields with
  | nil => rfl
  | cons entry rest ih =>
    by_cases h : entry.1 = name
    · simp [insert, h]
    · simp [insert, h, ih]

theorem Fields.map_ofList {α β : Type} (f : α → β) (entries : List (String × α)) :
    (ofList entries).map (fun e => (e.1, f e.2)) = ofList (entries.map fun e => (e.1, f e.2)) := by
  have hextend : ∀ fields : Fields α, (extend fields entries).map (fun e => (e.1, f e.2)) =
      extend (fields.map fun e => (e.1, f e.2)) (entries.map fun e => (e.1, f e.2)) := by
    unfold extend
    induction entries with
    | nil => exact fun _ => rfl
    | cons entry rest ih =>
      intro fields
      rw [List.foldl_cons, ih, map_insert]
      rfl
  exact hextend []

namespace Arena

variable {a b c : Arena}

theorem GrownTo.agrees (h : a.GrownTo b) (hag : a.Agrees c) : b.Agrees c := by
  rcases h.unshared with rfl | hnone
  · exact hag
  · intro hshared
    rw [shared, hnone] at hshared
    cases hshared

theorem agrees_empty (b : Arena) : ({} : Arena).Agrees b := fun h => by cases h

end Arena

namespace Request

variable {a : Arena} {r : Request}

theorem withRoot?_sound {s : Request} {id : Nat} (hr : r.Sound) (h : r.withRoot? id = some s) :
    s.Sound ∧ s.arena = r.arena := by
  obtain ⟨root, hnode, rfl⟩ := Option.map_eq_some_iff.1 h
  obtain rfl := hr.closed.id_eq hnode
  exact ⟨⟨hr.closed, hnode⟩, rfl⟩

theorem bringFields_grows {fields : List (String × Request)} (ha : a.Closed)
    (h : ∀ f ∈ fields, f.2.Sound ∧ a.Agrees f.2.arena) :
    (bringFields fields).Grows a fun b brought => (∀ f ∈ brought, b.Has f.2) ∧
      (brought.map fun f => (f.1, f.2.tree)) = fields.map fun f => (f.1, f.2.root.tree) := by
  induction fields generalizing a with
  | nil => exact .pure ha ⟨by simp, rfl⟩
  | cons field rest ih =>
    obtain ⟨hsound, hag⟩ := h field List.mem_cons_self
    refine (bring_grows ha hsound hag).bind fun b t hb ht => ?_
    have hrest := ih hb.closed fun f hf =>
      ⟨(h f (List.mem_cons_of_mem _ hf)).1, hb.agrees (h f (List.mem_cons_of_mem _ hf)).2⟩
    refine hrest.bind fun c brought hc hm => .pure hc.closed ⟨fun f hf => ?_, ?_⟩
    · rcases List.mem_cons.1 hf with rfl | hf
      · exact hc.has ht.1
      · exact hm.1 f hf
    · rw [List.map_cons, List.map_cons, hm.2, ht.2]

theorem bringKeys_grows {keys : List (Request × Bool)} (ha : a.Closed)
    (h : ∀ k ∈ keys, k.1.Sound ∧ a.Agrees k.1.arena) :
    (bringKeys keys).Grows a fun b brought => (∀ k ∈ brought, b.Has k.1) ∧
      (brought.map fun k => (k.1.tree, k.2)) = keys.map fun k => (k.1.root.tree, k.2) := by
  induction keys generalizing a with
  | nil => exact .pure ha ⟨by simp, rfl⟩
  | cons key rest ih =>
    obtain ⟨hsound, hag⟩ := h key List.mem_cons_self
    refine (bring_grows ha hsound hag).bind fun b t hb ht => ?_
    have hrest := ih hb.closed fun k hk =>
      ⟨(h k (List.mem_cons_of_mem _ hk)).1, hb.agrees (h k (List.mem_cons_of_mem _ hk)).2⟩
    refine hrest.bind fun c brought hc hm => .pure hc.closed ⟨fun k hk => ?_, ?_⟩
    · rcases List.mem_cons.1 hk with rfl | hk
      · exact hc.has ht.1
      · exact hm.1 k hk
    · rw [List.map_cons, List.map_cons, hm.2, ht.2]

/-- What a builder makes of a request: a sound request on the arena of the first with another
tree. -/
structure Becomes (r s : Request) (tree : Term) : Prop where
  sound : s.Sound
  grown : r.arena.GrownTo s.arena
  tree_eq : s.root.tree = tree

theorem becomes_rebuild {build : Term → Alloc Term} {tree : Term}
    (h : (build r.root).Grows r.arena fun b t => b.Has t ∧ t.tree = tree) :
    r.Becomes (r.rebuild build) tree := by
  obtain ⟨hsound, hgrown⟩ := Alloc.Grows.sound_rebuild (h.mono fun _ _ _ ht => ht.1)
  exact ⟨hsound, hgrown, h.2.2⟩

/-- A step allocated on a node has the tree of the step on the tree of the node. -/
theorem step_grows {b : Arena} {subject : Term} {action : Step} {tree : Term} {shape : Step}
    (hb : b.Closed) (hs : b.Has subject) (htree : subject.tree = tree) (hc : b.HasOperands action)
    (hshape : action.mapOperands Term.tree = shape) :
    (alloc (.step · subject action)).Grows b
      fun c t => c.Has t ∧ t.tree = .step 0 tree shape := by
  refine (Alloc.Grows.step hb hs hc).mono fun c t _ ⟨hhas, ht⟩ => ⟨hhas, ?_⟩
  rw [ht, Term.tree, Term.renumber_eq, ← htree, ← hshape]
  rfl

theorem wrap_becomes (hr : r.Sound) {action : Step} (h : action.operands = []) :
    r.Becomes (r.wrap action) (.step 0 r.root.tree action) := by
  refine becomes_rebuild (step_grows hr.closed hr.root rfl (fun c hc => ?_) ?_)
  · rw [h] at hc
    cases hc
  · exact Step.mapOperands_eq_self h Term.tree

theorem combine_becomes {other : Request} (hr : r.Sound) (ho : other.Sound)
    (hag : r.arena.Agrees other.arena) {action : Term → Step}
    (hops : ∀ t, ∀ c ∈ (action t).operands, c.1 = t)
    (hshape : ∀ t, (action t).mapOperands Term.tree = action t.tree) :
    r.Becomes (r.combine other action) (.step 0 r.root.tree (action other.root.tree)) := by
  refine becomes_rebuild ((bring_grows hr.closed ho hag).bind fun b t hb ht => ?_)
  refine step_grows hb.closed (hb.has hr.root) rfl (fun c hc => ?_) ?_
  · rw [hops t c hc]
    exact ht.1
  · rw [hshape, ht.2]

theorem sort_becomes {keys : List (Request × Bool)} (hr : r.Sound)
    (hk : ∀ k ∈ keys, k.1.Sound ∧ r.arena.Agrees k.1.arena) :
    r.Becomes (r.sort keys)
      (.step 0 r.root.tree (.sort (keys.map fun k => (k.1.root.tree, k.2)))) := by
  refine becomes_rebuild ((bringKeys_grows hr.closed hk).bind fun b brought hb hm => ?_)
  refine step_grows hb.closed (hb.has hr.root) rfl (fun c hc => ?_) ?_
  · obtain ⟨k, hk, rfl⟩ := List.mem_map.1 hc
    exact hm.1 k hk
  · exact congrArg Step.sort hm.2

theorem groupby_becomes {key : Request} {aggregates : List (String × Request)} (hr : r.Sound)
    (hk : key.Sound ∧ r.arena.Agrees key.arena)
    (hf : ∀ f ∈ aggregates, f.2.Sound ∧ r.arena.Agrees f.2.arena) :
    r.Becomes (r.groupby key aggregates) (.step 0 r.root.tree (.groupby key.root.tree
      (Fields.ofList (aggregates.map fun f => (f.1, f.2.root.tree))))) := by
  refine becomes_rebuild ((bring_grows hr.closed hk.1 hk.2).bind fun b t hb ht => ?_)
  refine (bringFields_grows hb.closed fun f hm => ⟨(hf f hm).1, hb.agrees (hf f hm).2⟩).bind
    fun c brought hc hm => ?_
  refine step_grows hc.closed (hc.has (hb.has hr.root)) rfl (fun d hd => ?_) ?_
  · rcases List.mem_cons.1 hd with rfl | hd
    · exact hc.has ht.1
    · obtain ⟨f, hf, rfl⟩ := List.mem_map.1 hd
      rcases Fields.mem_of_mem_extend hf with hf | hf
      · cases hf
      · exact hm.1 f hf
  · rw [← hm.2, ← Fields.map_ofList, ← ht.2]
    rfl

theorem record_becomes {fields : List (String × Request)} (root : Term)
    (hf : ∀ f ∈ fields, f.2.Sound) :
    Becomes ⟨{}, root⟩ (record fields)
      (.record 0 (Fields.ofList (fields.map fun f => (f.1, f.2.root.tree)))) := by
  have hbrought := bringFields_grows Arena.Closed.empty fun f hm =>
    ⟨hf f hm, Arena.agrees_empty f.2.arena⟩
  have hgrows := hbrought.bind (Q := fun b t => b.Has t ∧ t.tree =
      .record 0 (Fields.ofList (fields.map fun f => (f.1, f.2.root.tree))))
    (k := fun brought => alloc (.record · (Fields.ofList brought))) fun b brought hb hm => by
      refine (Alloc.Grows.record hb.closed fun f hf => ?_).mono fun c t _ ⟨hhas, ht⟩ => ⟨hhas, ?_⟩
      · rcases Fields.mem_of_mem_extend hf with hf | hf
        · cases hf
        · exact hm.1 f hf
      · rw [ht, ← hm.2, ← Fields.map_ofList, Term.tree, Term.renumber_eq]
        rfl
  exact ⟨⟨hgrows.1.closed, hgrows.2.1⟩, hgrows.1, hgrows.2.2⟩

end Request

/-- The nodes of the arenas that names hold, by token. -/
abbrev Held := List (Array Term)

/-- An arena under a token has the nodes that are held under it. -/
def Arena.HeldIn (a : Arena) (held : Held) : Prop :=
  ∀ token, a.token = some token → held[token]? = some a.nodes

theorem Arena.HeldIn.mono {a : Arena} {held held' : Held} (h : a.HeldIn held)
    (hext : held <+: held') : a.HeldIn held' := fun token ht => by
  have hheld := h token ht
  obtain ⟨more, rfl⟩ := hext
  have hlt : token < held.length := (List.getElem?_eq_some_iff.1 hheld).choose
  rw [List.getElem?_append_left hlt, hheld]

theorem Arena.HeldIn.agrees {a b : Arena} {held : Held} (ha : a.HeldIn held) (hb : b.HeldIn held) :
    a.Agrees b := fun h => by
  obtain ⟨hsome, hsame⟩ := Bool.and_eq_true_iff.1 h
  obtain ⟨token, ht⟩ := Option.isSome_iff_exists.1 hsome
  have hb := hb token ((beq_iff_eq.1 hsame).symm.trans ht)
  exact Option.some.inj ((ha token ht).symm.trans hb)

theorem Arena.HeldIn.of_grownTo {a b : Arena} {held : Held} (ha : a.HeldIn held)
    (h : a.GrownTo b) : b.HeldIn held := by
  rcases h.unshared with rfl | hnone
  · exact ha
  · intro token ht
    rw [hnone] at ht
    cases ht

theorem Arena.heldIn_empty (held : Held) : ({} : Arena).HeldIn held := fun _ h => by cases h

/-- A request that is sound among those that names hold. -/
structure Request.SoundIn (r : Request) (held : Held) : Prop where
  sound : r.Sound
  held : r.arena.HeldIn held

theorem Request.SoundIn.mono {r : Request} {held held' : Held} (h : r.SoundIn held)
    (hext : held <+: held') : r.SoundIn held' := ⟨h.sound, h.held.mono hext⟩

theorem Request.Becomes.soundIn {r s : Request} {tree : Term} {held : Held} (h : r.Becomes s tree)
    (hr : r.SoundIn held) : s.SoundIn held := ⟨h.sound, hr.held.of_grownTo h.grown⟩

namespace Draft

/-- A computation that builds what `described` describes. It succeeds if anything is described, what
it builds is as `S` asks among the arenas held by then, and relates to the description by `D`. -/
def Build.Makes {α τ : Type} (m : Build α) (held : Held) (described : Option τ)
    (S : Held → α → Prop) (D : α → τ → Prop) : Prop :=
  (described.isSome → ∃ y, m held.length = .ok y) ∧
    ∀ x n, m held.length = .ok (x, n) → ∃ held' : Held, held <+: held' ∧ held'.length = n ∧
      S held' x ∧ ∀ t, described = some t → D x t

namespace Build.Makes

variable {α β τ σ : Type} {held : Held} {described : Option τ} {described' : Option σ}
  {S : Held → α → Prop} {D : α → τ → Prop} {S' : Held → β → Prop} {D' : β → σ → Prop}

theorem pure {x : α} (hS : S held x) (hD : ∀ t, described = some t → D x t) :
    Makes (Pure.pure x) held described S D := by
  refine ⟨fun _ => ⟨_, rfl⟩, fun y n h => ?_⟩
  cases h
  exact ⟨held, List.prefix_refl _, rfl, hS, hD⟩

theorem bind {m : Build α} {k : α → Build β} (hm : m.Makes held described S D)
    (hsome : described'.isSome → described.isSome)
    (hk : ∀ held' x, held <+: held' → S held' x → (∀ t, described = some t → D x t) →
      (k x).Makes held' described' S' D') : Makes (m >>= k) held described' S' D' := by
  obtain ⟨htotal, hpartial⟩ := hm
  constructor
  · intro hd
    obtain ⟨⟨x, n⟩, hx⟩ := htotal (hsome hd)
    obtain ⟨held', hext, rfl, hS, hD⟩ := hpartial x n hx
    obtain ⟨y, hy⟩ := (hk held' x hext hS hD).1 hd
    exact ⟨y, Outcome.bind_eq_ok.2 ⟨_, hx, hy⟩⟩
  · intro y n' h
    obtain ⟨⟨x, n⟩, hx, hy⟩ := Outcome.bind_eq_ok.1 h
    obtain ⟨held', hext, rfl, hS, hD⟩ := hpartial x n hx
    obtain ⟨held'', hext', hlen, hS', hD'⟩ := (hk held' x hext hS hD).2 y n' hy
    exact ⟨held'', hext.trans hext', hlen, hS', hD'⟩

end Build.Makes

/-- Requests are bound to the same names as trees, each to a request of its tree. -/
def Bound (held : Held) (bindings : Bindings) (trees : List (String × Option Term)) : Prop :=
  List.Forall₂ (fun b t => b.1 = t.1 ∧ b.2.SoundIn held ∧ ∀ tree, t.2 = some tree →
    b.2.root.tree = tree) bindings trees

theorem Bound.mono {held held' : Held} {bindings : Bindings} {trees : List (String × Option Term)}
    (h : Bound held bindings trees) (hext : held <+: held') : Bound held' bindings trees :=
  h.imp fun _ _ ⟨hname, hsound, htree⟩ => ⟨hname, hsound.mono hext, htree⟩

/-- A draft is built to a request of the tree that it describes. -/
def IsBuilt (held : Held) (bindings : Bindings) (trees : List (String × Option Term))
    (d : Draft) : Prop :=
  (buildIn bindings d).Makes held (treeIn trees d) (fun held r => r.SoundIn held)
    fun r t => r.root.tree = t

section Described

variable {τ σ ρ υ : Type} {o : Option τ} {p : Option σ} {q : Option ρ}

private theorem isSome_first {f : τ → Option υ} (h : (o >>= f).isSome) : o.isSome := by
  cases o with
  | none => cases h
  | some x => rfl

private theorem isSome_second {f : τ → σ → Option υ}
    (h : (o >>= fun x => p >>= f x).isSome) : p.isSome := by
  cases o with
  | none => cases h
  | some x => exact isSome_first h

private theorem isSome_third {f : τ → σ → ρ → Option υ}
    (h : (o >>= fun x => p >>= fun y => q >>= f x y).isSome) : q.isSome := by
  cases o with
  | none => cases h
  | some x => exact isSome_second h

end Described

section Parts

variable {held : Held} {bindings : Bindings} {trees : List (String × Option Term)}
  {subject operand : Draft}

private theorem wrap_makes (hs : IsBuilt held bindings trees subject) {action : Step}
    (ha : action.operands = []) :
    Build.Makes (do pure ((← buildIn bindings subject).wrap action)) held
      (do some (.step 0 (← treeIn trees subject) action)) (fun held r => r.SoundIn held)
      fun r t => r.root.tree = t := by
  refine hs.bind isSome_first fun held' r _ hr htree => ?_
  have hwrap := Request.wrap_becomes hr.sound ha
  refine .pure (hwrap.soundIn hr) fun t ht => ?_
  obtain ⟨s, hs, ht⟩ := Option.bind_eq_some_iff.1 ht
  rw [hwrap.tree_eq, htree s hs]
  exact Option.some.inj ht

private theorem combine_makes (hs : IsBuilt held bindings trees subject)
    (ho : ∀ held', held <+: held' → IsBuilt held' bindings trees operand) {action : Term → Step}
    (hops : ∀ t, ∀ c ∈ (action t).operands, c.1 = t)
    (hshape : ∀ t, (action t).mapOperands Term.tree = action t.tree) :
    Build.Makes (do
        let s ← buildIn bindings subject
        pure (s.combine (← buildIn bindings operand) action)) held
      (do
        let s ← treeIn trees subject
        some (.step 0 s (action (← treeIn trees operand)))) (fun held r => r.SoundIn held)
      fun r t => r.root.tree = t := by
  refine hs.bind isSome_first fun held₁ r hext₁ hr htree => ?_
  refine (ho held₁ hext₁).bind isSome_second fun held₂ s hext₂ hs htree' => ?_
  have hr' := hr.mono hext₂
  have hcombine := Request.combine_becomes hr'.sound hs.sound (hr'.held.agrees hs.held) hops hshape
  refine .pure (hcombine.soundIn hr') fun t ht => ?_
  obtain ⟨x, hx, ht⟩ := Option.bind_eq_some_iff.1 ht
  obtain ⟨y, hy, ht⟩ := Option.bind_eq_some_iff.1 ht
  rw [hcombine.tree_eq, htree x hx, htree' y hy]
  exact Option.some.inj ht

private theorem named_makes (hb : Bound held bindings trees) (name : String) :
    IsBuilt held bindings trees (.named name) := by
  rw [IsBuilt, buildIn, treeIn]
  induction hb with
  | nil => exact ⟨fun h => (by cases h), fun _ _ h => (by cases h)⟩
  | @cons b t bindings trees hbt _ ih =>
    obtain ⟨hname, hsound, htree⟩ := hbt
    by_cases h : name = b.1
    · rw [List.lookup_cons, List.lookup_cons, ← hname, beq_iff_eq.2 h]
      exact .pure hsound htree
    · rw [List.lookup_cons, List.lookup_cons, ← hname, beq_false_of_ne h]
      exact ih

private theorem hold_makes {r : Request} {described : Option Term} (hr : r.SoundIn held)
    (ht : ∀ t, described = some t → r.root.tree = t) :
    (hold r).Makes held described (fun held r => r.SoundIn held) fun r t => r.root.tree = t := by
  unfold hold
  split
  · exact .pure hr ht
  · refine ⟨fun _ => ⟨_, rfl⟩, fun s n h => ?_⟩
    cases h
    refine ⟨held ++ [r.arena.nodes], List.prefix_append _ _, by simp, ⟨?_, ?_⟩, ht⟩
    · exact ⟨hr.sound.closed.withToken _, hr.sound.root⟩
    · intro token htoken
      obtain rfl := Option.some.inj htoken
      simp

private theorem part_makes (hs : IsBuilt held bindings trees subject) (id : Nat) :
    IsBuilt held bindings trees (.part subject id) := by
  rw [IsBuilt, buildIn, treeIn]
  obtain ⟨-, hpartial⟩ := hs
  refine ⟨fun h => (by cases h), fun s n h => ?_⟩
  obtain ⟨⟨r, n'⟩, hr, h⟩ := Outcome.bind_eq_ok.1 h
  obtain ⟨held', hext, rfl, hsound, -⟩ := hpartial r n' hr
  dsimp only at h
  cases hroot : r.withRoot? id with
  | none =>
    rw [hroot] at h
    cases h
  | some s' =>
    rw [hroot] at h
    cases h
    obtain ⟨hs, harena⟩ := Request.withRoot?_sound hsound.sound hroot
    exact ⟨held', hext, rfl, ⟨hs, harena ▸ hsound.held⟩, fun t ht => by cases ht⟩

private theorem bind_makes {name : String} {value body : Draft}
    (hb : Bound held bindings trees) (hv : IsBuilt held bindings trees value)
    (hbody : ∀ held' bindings' trees', Bound held' bindings' trees' →
      IsBuilt held' bindings' trees' body) :
    IsBuilt held bindings trees (.bind name value body) := by
  rw [IsBuilt, buildIn, treeIn]
  refine hv.bind isSome_first fun held₁ r hext₁ hr htree => ?_
  refine (hold_makes hr htree).bind isSome_first fun held₂ s hext₂ hs htree' => ?_
  have hbound : Bound held₂ ((name, s) :: bindings) ((name, treeIn trees value) :: trees) :=
    .cons ⟨rfl, hs, htree'⟩ (hb.mono (hext₁.trans hext₂))
  have hmakes := hbody _ _ _ hbound
  cases hvalue : treeIn trees value with
  | none => exact ⟨fun h => (by cases h), fun x n h => by
      obtain ⟨held₃, hext₃, hlen, hx, -⟩ := hmakes.2 x n h
      exact ⟨held₃, hext₃, hlen, hx, fun t ht => by cases ht⟩⟩
  | some v =>
    rw [IsBuilt, hvalue] at hmakes
    exact hmakes

private theorem sort_makes {keys : List (Draft × Bool)} (hs : IsBuilt held bindings trees subject)
    (hk : ∀ held', held <+: held' → (buildKeys bindings keys).Makes held' (keysIn trees keys)
      (fun held ks => ∀ k ∈ ks, k.1.SoundIn held)
      fun ks ts => ks.map (fun k => (k.1.root.tree, k.2)) = ts) :
    IsBuilt held bindings trees (.sort subject keys) := by
  rw [IsBuilt, buildIn, treeIn]
  refine hs.bind isSome_first fun held₁ r hext₁ hr htree => ?_
  refine (hk held₁ hext₁).bind isSome_second fun held₂ ks hext₂ hks htrees => ?_
  have hr' := hr.mono hext₂
  have hsort := Request.sort_becomes hr'.sound fun k hk =>
    ⟨(hks k hk).sound, hr'.held.agrees (hks k hk).held⟩
  refine .pure (hsort.soundIn hr') fun t ht => ?_
  obtain ⟨x, hx, ht⟩ := Option.bind_eq_some_iff.1 ht
  obtain ⟨ts, hts, ht⟩ := Option.bind_eq_some_iff.1 ht
  rw [hsort.tree_eq, htree x hx, htrees ts hts]
  exact Option.some.inj ht

private theorem groupby_makes {key : Draft} {aggregates : List (String × Draft)}
    (hs : IsBuilt held bindings trees subject)
    (hk : ∀ held', held <+: held' → IsBuilt held' bindings trees key)
    (hf : ∀ held', held <+: held' → (buildFields bindings aggregates).Makes held'
      (fieldsIn trees aggregates) (fun held fs => ∀ f ∈ fs, f.2.SoundIn held)
      fun fs ts => fs.map (fun f => (f.1, f.2.root.tree)) = ts) :
    IsBuilt held bindings trees (.groupby subject key aggregates) := by
  rw [IsBuilt, buildIn, treeIn]
  refine hs.bind isSome_first fun held₁ r hext₁ hr htree => ?_
  refine (hk held₁ hext₁).bind isSome_second fun held₂ k hext₂ hk htreek => ?_
  refine (hf held₂ (hext₁.trans hext₂)).bind isSome_third
    fun held₃ fs hext₃ hfs htrees => ?_
  have hr' := hr.mono (hext₂.trans hext₃)
  have hk' := hk.mono hext₃
  have hgroupby := Request.groupby_becomes hr'.sound ⟨hk'.sound, hr'.held.agrees hk'.held⟩
    fun f hf => ⟨(hfs f hf).sound, hr'.held.agrees (hfs f hf).held⟩
  refine .pure (hgroupby.soundIn hr') fun t ht => ?_
  obtain ⟨x, hx, ht⟩ := Option.bind_eq_some_iff.1 ht
  obtain ⟨y, hy, ht⟩ := Option.bind_eq_some_iff.1 ht
  obtain ⟨ts, hts, ht⟩ := Option.bind_eq_some_iff.1 ht
  rw [hgroupby.tree_eq, htree x hx, htreek y hy, htrees ts hts]
  exact Option.some.inj ht

private theorem record_makes {fields : List (String × Draft)}
    (hf : (buildFields bindings fields).Makes held (fieldsIn trees fields)
      (fun held fs => ∀ f ∈ fs, f.2.SoundIn held)
      fun fs ts => fs.map (fun f => (f.1, f.2.root.tree)) = ts) :
    IsBuilt held bindings trees (.record fields) := by
  rw [IsBuilt, buildIn, treeIn]
  refine hf.bind isSome_first fun held' fs _ hfs htrees => ?_
  have hrecord := Request.record_becomes default fun f hf => (hfs f hf).sound
  refine .pure ⟨hrecord.sound, (Arena.heldIn_empty held').of_grownTo hrecord.grown⟩ fun t ht => ?_
  obtain ⟨ts, hts, ht⟩ := Option.bind_eq_some_iff.1 ht
  rw [hrecord.tree_eq, htrees ts hts]
  exact Option.some.inj ht

private theorem single_makes {make : Nat → Term} (hid : (make 0).id = 0)
    (hc : (make 0).children = []) (htree : (make 0).tree = make 0) :
    Build.Makes (pure (Request.single make)) held (some (make 0)) (fun held r => r.SoundIn held)
      fun r t => r.root.tree = t := by
  refine .pure ⟨Request.single_sound hid hc, fun token ht => by cases ht⟩ fun t ht => ?_
  exact htree.trans (Option.some.inj ht)

end Parts

mutual

/-- Every draft is built to a sound request, of the tree that it describes. -/
theorem isBuilt (d : Draft) {held : Held} {bindings : Bindings}
    {trees : List (String × Option Term)} (hb : Bound held bindings trees) :
    IsBuilt held bindings trees d := by
  cases d with
  | source name => exact single_makes rfl rfl rfl
  | literal value => exact single_makes rfl rfl rfl
  | context depth =>
    rw [IsBuilt, buildIn, treeIn]
    split
    · exact ⟨fun h => (by cases h), fun _ _ h => (by cases h)⟩
    · exact single_makes rfl rfl rfl
  | up scopes => exact single_makes rfl rfl rfl
  | field subject name => exact wrap_makes (isBuilt subject hb) rfl
  | unary op subject => exact wrap_makes (isBuilt subject hb) rfl
  | binary op lhs rhs =>
    exact combine_makes (isBuilt lhs hb) (fun _ h => isBuilt rhs (hb.mono h))
      (fun t c hc => by rw [List.mem_singleton.1 hc]) fun _ => rfl
  | filter subject predicate =>
    exact combine_makes (isBuilt subject hb) (fun _ h => isBuilt predicate (hb.mono h))
      (fun t c hc => by rw [List.mem_singleton.1 hc]) fun _ => rfl
  | map subject transform =>
    exact combine_makes (isBuilt subject hb) (fun _ h => isBuilt transform (hb.mono h))
      (fun t c hc => by rw [List.mem_singleton.1 hc]) fun _ => rfl
  | sort subject keys =>
    exact sort_makes (isBuilt subject hb) fun _ h => keys_built keys (hb.mono h)
  | slice subject start stop => exact wrap_makes (isBuilt subject hb) rfl
  | index subject position => exact wrap_makes (isBuilt subject hb) rfl
  | groupby subject key aggregates =>
    exact groupby_makes (isBuilt subject hb) (fun _ h => isBuilt key (hb.mono h))
      fun _ h => fields_built aggregates (hb.mono h)
  | distinct subject => exact wrap_makes (isBuilt subject hb) rfl
  | one subject => exact wrap_makes (isBuilt subject hb) rfl
  | oneOr subject default =>
    exact combine_makes (isBuilt subject hb) (fun _ h => isBuilt default (hb.mono h))
      (fun t c hc => by rw [List.mem_singleton.1 hc]) fun _ => rfl
  | aggregate op subject => exact wrap_makes (isBuilt subject hb) rfl
  | record fields => exact record_makes (fields_built fields hb)
  | bind name value body =>
    exact bind_makes hb (isBuilt value hb) fun _ _ _ h => isBuilt body h
  | named name => exact named_makes hb name
  | part subject id => exact part_makes (isBuilt subject hb) id
termination_by sizeOf d

theorem fields_built (fields : List (String × Draft)) {held : Held} {bindings : Bindings}
    {trees : List (String × Option Term)} (hb : Bound held bindings trees) :
    (buildFields bindings fields).Makes held (fieldsIn trees fields)
      (fun held fs => ∀ f ∈ fs, f.2.SoundIn held)
      fun fs ts => fs.map (fun f => (f.1, f.2.root.tree)) = ts := by
  match fields with
  | [] => exact .pure (by simp) fun t ht => Option.some.inj ht
  | (name, d) :: rest =>
    rw [buildFields, fieldsIn]
    refine (isBuilt d hb).bind isSome_first fun held₁ r hext₁ hr htree => ?_
    refine (fields_built rest (hb.mono hext₁)).bind isSome_second
      fun held₂ fs hext₂ hfs htrees => .pure (fun f hf => ?_) fun t ht => ?_
    · rcases List.mem_cons.1 hf with rfl | hf
      · exact hr.mono hext₂
      · exact hfs f hf
    · obtain ⟨x, hx, ht⟩ := Option.bind_eq_some_iff.1 ht
      obtain ⟨ts, hts, ht⟩ := Option.bind_eq_some_iff.1 ht
      rw [List.map_cons, htree x hx, htrees ts hts]
      exact Option.some.inj ht
termination_by sizeOf fields

theorem keys_built (keys : List (Draft × Bool)) {held : Held} {bindings : Bindings}
    {trees : List (String × Option Term)} (hb : Bound held bindings trees) :
    (buildKeys bindings keys).Makes held (keysIn trees keys)
      (fun held ks => ∀ k ∈ ks, k.1.SoundIn held)
      fun ks ts => ks.map (fun k => (k.1.root.tree, k.2)) = ts := by
  match keys with
  | [] => exact .pure (by simp) fun t ht => Option.some.inj ht
  | (d, descending) :: rest =>
    rw [buildKeys, keysIn]
    refine (isBuilt d hb).bind isSome_first fun held₁ r hext₁ hr htree => ?_
    refine (keys_built rest (hb.mono hext₁)).bind isSome_second
      fun held₂ ks hext₂ hks htrees => .pure (fun k hk => ?_) fun t ht => ?_
    · rcases List.mem_cons.1 hk with rfl | hk
      · exact hr.mono hext₂
      · exact hks k hk
    · obtain ⟨x, hx, ht⟩ := Option.bind_eq_some_iff.1 ht
      obtain ⟨ts, hts, ht⟩ := Option.bind_eq_some_iff.1 ht
      rw [List.map_cons, htree x hx, htrees ts hts]
      exact Option.some.inj ht
termination_by sizeOf keys

end

/-- A draft that describes a tree is built to a request that unfolds to it. -/
theorem build_of_tree? {d : Draft} {t : Term} (h : d.tree? = some t) :
    ∃ r, d.build = .ok r ∧ r.Sound ∧ r.unfold = some t := by
  obtain ⟨htotal, hpartial⟩ : IsBuilt [] [] [] d := d.isBuilt .nil
  obtain ⟨⟨r, n⟩, hr⟩ := htotal (by rw [show treeIn [] d = some t from h]; rfl)
  obtain ⟨held, -, -, hsound, htree⟩ := hpartial r n hr
  have hsound' : Request.Sound { r with arena := { r.arena with token := none } } :=
    ⟨hsound.sound.closed.withToken none, hsound.sound.root⟩
  refine ⟨_, Outcome.bind_eq_ok.2 ⟨_, hr, rfl⟩, hsound', ?_⟩
  rw [hsound'.unfold_eq, ← htree t h]

theorem sound_of_build {d : Draft} {r : Request} (h : d.build = .ok r) : r.Sound := by
  obtain ⟨⟨s, n⟩, hs, h⟩ := Outcome.bind_eq_ok.1 h
  cases h
  have hbuilt : IsBuilt [] [] [] d := d.isBuilt .nil
  obtain ⟨held, -, -, hsound, -⟩ := hbuilt.2 s n hs
  exact ⟨hsound.sound.closed.withToken none, hsound.sound.root⟩

end Draft

/-- `s` stands in the arena of `r` with nodes appended, where every number of the arena of `r` still
stands for the same tree. -/
structure Request.Extends (r s : Request) : Prop where
  sound : s.Sound
  appended : r.arena.nodes.toList <+: s.arena.nodes.toList
  denotes : ∀ id < r.arena.size, s.arena.unfold (id + 1) id = r.arena.unfold (id + 1) id

theorem Request.Sound.extends {r s : Request} (hr : r.Sound) (hs : s.Sound)
    (h : r.arena.GrownTo s.arena) : r.Extends s :=
  ⟨hs, h.appended, fun id hid => h.unfold_eq hr.closed hid (Nat.lt_succ_self id)⟩

theorem Request.Becomes.extends {r s : Request} {tree : Term} (h : r.Becomes s tree)
    (hr : r.Sound) : r.Extends s := hr.extends h.sound h.grown

/-- The operands of a builder that are requests of their own: sound ones that pass for the same
arena only if they stand in it. -/
def Request.Joins (r : Request) (others : List Request) : Prop :=
  ∀ other ∈ others, other.Sound ∧ r.arena.Agrees other.arena

/-- A draft is built to the tree that it describes. Every arena that a draft builds is closed, and
builders, imports and rewrites keep arenas closed and only append to them; an import appends a copy
of each node beneath the root once, or nothing within one arena. -/
theorem Draft.build_denotes :
    (∀ (d : Draft) (t : Term), d.tree? = some t →
      ∃ r, d.build = .ok r ∧ r.Sound ∧ r.unfold = some t) ∧
    (∀ (d : Draft) (r : Request), d.build = .ok r → r.Sound) ∧
    (∀ r : Request, r.Sound →
      (∀ action : Step, action.operands = [] → r.Extends (r.wrap action)) ∧
      (∀ other op, r.Joins [other] → r.Extends (r.combine other (.binary op))) ∧
      (∀ other, r.Joins [other] → r.Extends (r.combine other .filter)) ∧
      (∀ other, r.Joins [other] → r.Extends (r.combine other .map)) ∧
      (∀ other, r.Joins [other] → r.Extends (r.combine other .oneOr)) ∧
      (∀ keys, r.Joins (keys.map Prod.fst) → r.Extends (r.sort keys)) ∧
      (∀ key aggregates, r.Joins (key :: aggregates.map Prod.snd) →
        r.Extends (r.groupby key aggregates)) ∧
      (∀ id s, r.withRoot? id = some s → r.Extends s) ∧
      (∀ marker c, r.cut marker = .ok c → r.Extends c.before ∧ r.Extends c.after) ∧
      (∀ before s, r.Joins [before] → before.recompose r = .ok s → r.Extends s) ∧
      (∀ target replacement s, r.arena.Has replacement →
        r.replaceOnChain target replacement = .ok s → r.Extends s) ∧
      (∀ t level scopes, r.arena.Has t →
        r.Extends (r.rebuild fun _ => t.shift level scopes)) ∧
      (∀ keep, r.Extends (r.splitBy keep).kept ∧ r.Extends (r.splitBy keep).remainder) ∧
      r.isolate.remainder.Sound ∧
      (r.Extends r.isolate.remainder ∨ ∃ b, r.isolate.remainder = .literal (.bool b))) ∧
    ((∀ name, (Request.source name).Sound) ∧ (∀ value, (Request.literal value).Sound) ∧
      (∀ up, (Request.context up).Sound) ∧
      ∀ fields, (∀ f ∈ fields, f.2.Sound) → (Request.record fields).Sound) ∧
    (∀ (a : Arena) (r : Request), a.Closed → r.Sound →
      (a.shared r.arena = true → Request.bring r a = (r.root, a)) ∧
      (a.shared r.arena = false → a.GrownTo (Request.bring r a).2 ∧
        (Request.bring r a).2.Has (Request.bring r a).1 ∧
        a.Imports r.root (Request.bring r a).2 (Request.bring r a).1)) := by
  refine ⟨fun d t h => build_of_tree? h, fun d r h => sound_of_build h, fun r hr => ?_, ?_,
    fun a r ha hr => ⟨Request.bring_of_shared, Request.bring_of_not_shared ha hr⟩⟩
  · have hjoin : ∀ {other}, r.Joins [other] → other.Sound ∧ r.arena.Agrees other.arena :=
      fun h => h _ List.mem_cons_self
    refine ⟨fun action h => ?wrap, fun other op h => ?binary, fun other h => ?filter,
      fun other h => ?map, fun other h => ?oneOr, fun keys h => ?sort,
      fun key aggregates h => ?groupby, fun id s h => ?withRoot, fun marker c h => ?cut,
      fun before s hb h => ?recompose, fun target replacement s ht h => ?replace,
      fun t level scopes ht => ?shift, fun keep => ?split, ?isolate⟩
    case wrap => exact (Request.wrap_becomes hr h).extends hr
    case binary =>
      exact (Request.combine_becomes hr (hjoin h).1 (hjoin h).2
        (fun t c hc => by rw [List.mem_singleton.1 hc]) fun _ => rfl).extends hr
    case filter =>
      exact (Request.combine_becomes hr (hjoin h).1 (hjoin h).2
        (fun t c hc => by rw [List.mem_singleton.1 hc]) fun _ => rfl).extends hr
    case map =>
      exact (Request.combine_becomes hr (hjoin h).1 (hjoin h).2
        (fun t c hc => by rw [List.mem_singleton.1 hc]) fun _ => rfl).extends hr
    case oneOr =>
      exact (Request.combine_becomes hr (hjoin h).1 (hjoin h).2
        (fun t c hc => by rw [List.mem_singleton.1 hc]) fun _ => rfl).extends hr
    case sort =>
      exact (Request.sort_becomes hr fun k hk => h _ (List.mem_map.2 ⟨k, hk, rfl⟩)).extends hr
    case groupby =>
      exact (Request.groupby_becomes hr (h key List.mem_cons_self) fun f hf =>
        h _ (List.mem_cons_of_mem _ (List.mem_map.2 ⟨f, hf, rfl⟩))).extends hr
    case withRoot =>
      obtain ⟨hs, harena⟩ := Request.withRoot?_sound hr h
      exact hr.extends hs (harena ▸ .refl hs.closed)
    case cut =>
      obtain ⟨⟨hbefore, harena⟩, hafter, hgrown⟩ := Request.cut_sound hr h
      exact ⟨hr.extends hbefore (harena ▸ .refl hbefore.closed), hr.extends hafter hgrown⟩
    case recompose =>
      obtain ⟨hs, hgrown⟩ := Request.recompose_sound (hjoin hb).1 hr (hjoin hb).2 h
      exact hr.extends hs hgrown
    case replace =>
      obtain ⟨hs, hgrown⟩ := Request.replaceOnChain_sound hr ht h
      exact hr.extends hs hgrown
    case shift =>
      have hgrows : (t.shift level scopes).Grows r.arena Arena.Has := t.shift_grows hr.closed ht
      obtain ⟨hs, hgrown⟩ : (r.rebuild fun _ => t.shift level scopes).Sound ∧ _ :=
        Alloc.Grows.sound_rebuild hgrows
      exact hr.extends hs hgrown
    case split =>
      obtain ⟨⟨hk, hgrownk⟩, hl, hgrownl⟩ := Request.splitBy_sound keep hr
      exact ⟨hr.extends hk hgrownk, hr.extends hl hgrownl⟩
    case isolate =>
      obtain ⟨hs, hgrown⟩ := Request.isolate_sound hr
      exact ⟨hs, hgrown.imp_left (hr.extends hs)⟩
  · exact ⟨fun _ => Request.single_sound rfl rfl, fun _ => Request.single_sound rfl rfl,
      fun _ => Request.single_sound rfl rfl, fun fields hf =>
        (Request.record_becomes default hf).sound⟩

/-- A source used twice, as a subject and within the predicate over it. -/
theorem Draft.selfCounting_build_denotes :
    ∃ r, (Draft.bind "items" (.source "items") (.filter (.named "items")
        (.binary .eq (.field (.up 0) "id") (.aggregate .len (.named "items"))))).build = .ok r ∧
      r.Sound ∧ r.unfold = some (.step 0 (.source 0 "items") (.filter
        (.step 0 (.step 0 (.context 0 0) (.field "id"))
          (.binary .eq (.step 0 (.source 0 "items") (.aggregate .len)))))) :=
  Draft.build_denotes.1 _ _ rfl

end QueryPushdown
