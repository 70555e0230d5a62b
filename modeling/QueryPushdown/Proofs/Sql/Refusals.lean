import QueryPushdown.Proofs.Request.Refusals
import QueryPushdown.Proofs.Sql.Lowers
import QueryPushdown.Sql.Fragment

/-!
# What selects refuse and support

The lowering of a request to a select refuses nodes of the request only, whatever the scopes around
them bind. What it lowers is made of nodes that the cheap check lets pass.
-/

namespace QueryPushdown.Sql

/-- What an action of the lowering refuses is one of these nodes, whichever aliases are taken. -/
def Lowering.Blames {α : Type} (P : Nat → Prop) (x : Lowering α) : Prop :=
  ∀ n, Refusal.Blames P (x n)

namespace Lowering.Blames

variable {α β : Type} {P Q : Nat → Prop} {x : Lowering α} {node : Nat}

theorem pure (a : α) : Blames P (Pure.pure a : Lowering α) := fun _ => .ok _

theorem bind {f : α → Lowering β} (hx : Blames P x) (hf : ∀ a, Blames P (f a)) :
    Blames P (x >>= f) := fun n => (hx n).bind fun p => hf p.1 p.2

theorem mono (h : ∀ node, P node → Q node) (hx : Blames P x) : Blames Q x :=
  fun n => (hx n).mono h

theorem refuse (h : P node) (obstacle : Obstacle) :
    Blames P (Sql.refuse node obstacle : Lowering α) := fun _ => .error h

theorem orRefuse (h : P node) (x : Except Obstacle α) : Blames P (Sql.orRefuse node x) := by
  cases x with
  | ok a => exact .pure a
  | error obstacle => exact .refuse h obstacle

theorem freshAlias : Blames P Sql.freshAlias := fun _ => .ok _

variable {target : Target} {scopes : List Binding} {t : Term} {r : Relation}

theorem typeOf (h : P t.id) : Blames P (Sql.typeOf target scopes t) := by
  unfold Sql.typeOf
  split
  · exact .pure _
  · exact .refuse h _

theorem itemTypeOf (h : P t.id) : Blames P (Sql.itemTypeOf target scopes t) := by
  refine (typeOf h).bind fun ty => ?_
  cases ty.item? with
  | some item => exact .pure item
  | none => exact .refuse h _

theorem bindingOf (h : P node) (up : Nat) : Blames P (Sql.bindingOf scopes node up) := by
  unfold Sql.bindingOf
  split
  · exact .pure _
  · exact .refuse h _

theorem singleColumn {x : Lowering Shape} (h : P node) (hx : Blames P x) :
    Blames P (Sql.singleColumn node x) := by
  refine hx.bind fun s => ?_
  cases s with
  | scalar e ty => exact .pure e
  | mapping | unreadable => exact .refuse h _

theorem wrap (h : P node) (r : Relation) : Blames P (r.wrap node) :=
  (orRefuse h _).bind fun _ => freshAlias.bind fun _ => .pure _

theorem opened (h : P node) (r : Relation) : Blames P (r.opened node) := by
  unfold Relation.opened
  split
  · exact .pure r
  · exact .wrap h r

theorem toArray {x : Lowering Relation} {ty : Ty} (h : P node) (hx : Blames P x) :
    Blames P (Relation.toArray target node ty x) := by
  unfold Relation.toArray
  split
  · exact .refuse h _
  · refine hx.bind fun r => ?_
    split
    · exact (orRefuse h _).bind fun _ => .pure _
    · exact .refuse h _

theorem membersAggregate (h : P node) (op : AggregateOp) (m : Members) :
    Blames P (m.aggregate node op) := by
  unfold Members.aggregate
  dsimp only
  split
  · exact .pure _
  · exact .pure _
  · exact .refuse h _

theorem relationAggregate (h : P node) (op : AggregateOp) (r : Relation) :
    Blames P (r.aggregate node op) := by
  refine (opened h r).bind fun r => ?_
  dsimp only
  split
  · exact .pure _
  · exact .pure _
  · exact (refuse h _).bind fun _ => .pure _

mutual

theorem literalShape (h : P node) : ∀ v : Value, Blames P (Sql.literalShape node v)
  | .mapping fields => (literalFields h fields).bind fun _ => .pure _
  | .list _ => .refuse h _
  | .null | .bool _ | .int _ | .float _ | .text _ => .pure _

theorem literalFields (h : P node) :
    ∀ fields : List (String × Value), Blames P (Sql.literalFields node fields)
  | [] => .pure _
  | (_, v) :: rest => (literalShape h v).bind fun _ => (literalFields h rest).bind fun _ => .pure _

end

end Lowering.Blames

open Lowering (Blames)

/-- Whatever a term is lowered to, these nodes are refused at most. -/
structure Blamed (P : Nat → Prop) (target : Target) (t : Term) : Prop where
  self : P t.id
  shape : ∀ scopes, Blames P (shapeOf target scopes t)
  relation : ∀ scopes, Blames P (relationOf target scopes t)
  members : ∀ scopes, Blames P (membersOf target scopes t)

section Blamed

variable {P Q : Nat → Prop} {target : Target} {id : Nat} {t subject : Term} {action : Step}

theorem Blamed.mono (h : ∀ node, P node → Q node) (ht : Blamed P target t) : Blamed Q target t where
  self := h _ ht.self
  shape scopes := (ht.shape scopes).mono h
  relation scopes := (ht.relation scopes).mono h
  members scopes := (ht.members scopes).mono h

theorem Blamed.column (ht : Blamed P target t) (scopes : List Binding) :
    Blames P (singleColumn t.id (shapeOf target scopes t)) :=
  .singleColumn ht.self (ht.shape scopes)

theorem fieldShapes_blames {fields : List (String × Term)} (h : ∀ f ∈ fields, Blamed P target f.2)
    (scopes : List Binding) : Blames P (fieldShapes target scopes fields) := by
  induction fields with
  | nil => exact .pure _
  | cons f fields ih =>
    obtain ⟨hf, hfields⟩ := List.forall_mem_cons.1 h
    exact (hf.shape scopes).bind fun _ => (ih hfields).bind fun _ => .pure _

theorem keyColumns_blames {keys : List (Term × Bool)} (h : ∀ k ∈ keys, Blamed P target k.1)
    (scopes : List Binding) : Blames P (keyColumns target scopes keys) := by
  induction keys with
  | nil => exact .pure _
  | cons k keys ih =>
    obtain ⟨hk, hkeys⟩ := List.forall_mem_cons.1 h
    exact (hk.column scopes).bind fun _ => (ih hkeys).bind fun _ => .pure _

section Step

variable (hid : P id) (hs : Blamed P target subject)
  (ho : ∀ c ∈ action.operands, Blamed P target c.1)

include hid hs ho

theorem stepRelation_blames (scopes : List Binding) :
    Blames P (stepRelation target scopes (.step id subject action)
      (relationOf target scopes subject) action) := by
  have hsubject := hs.relation scopes
  cases action with
  | filter predicate =>
    rw [stepRelation]
    exact hsubject.bind fun r => (Blames.opened hid r).bind fun r =>
      ((ho _ List.mem_cons_self).column _).bind fun _ => .pure _
  | map transform =>
    have hrest : ∀ r : Relation, Blames P (do
        let shape ← shapeOf target (r.element :: scopes) transform
        let item ← itemTypeOf target scopes (.step id subject (.map transform))
        pure { r with shape := shape, item := item } : Lowering Relation) := fun r =>
      ((ho _ List.mem_cons_self).shape _).bind fun _ =>
        (Blames.itemTypeOf hid).bind fun _ => .pure _
    rw [stepRelation]
    refine hsubject.bind fun r => ?_
    dsimp only
    split
    · exact (Blames.wrap hid r).bind hrest
    · exact hrest r
  | sort keys =>
    rw [stepRelation]
    refine hsubject.bind fun r => (Blames.opened hid r).bind fun r =>
      (keyColumns_blames (fun k hk => ?_) _).bind fun _ => .pure _
    exact ho (k.1, 1) (List.mem_map.2 ⟨k, hk, rfl⟩)
  | slice start stop =>
    rw [stepRelation]
    split
    · exact .refuse hid _
    · exact hsubject.bind fun _ => .pure _
  | distinct =>
    have hrest : ∀ r : Relation, Blames P (do
        if !r.select.orderBy.isEmpty then refuse id .orderedDistinct
        else pure { r with select := { r.select with distinct := true } } : Lowering Relation) := by
      intro r
      split
      · exact .refuse hid _
      · exact .pure _
    rw [stepRelation]
    refine hsubject.bind fun r => ?_
    dsimp only
    split
    · exact hrest r
    · exact (Blames.wrap hid r).bind hrest
  | groupby key aggregates =>
    rw [stepRelation]
    split
    · exact .refuse hid _
    · have hkey := ho (key, 1) List.mem_cons_self
      have hfields : ∀ f ∈ aggregates, Blamed P target f.2 := fun f hf =>
        ho (f.2, 1) (List.mem_cons_of_mem _ (List.mem_map.2 ⟨f, hf, rfl⟩))
      exact hsubject.bind fun r => (Blames.opened hid r).bind fun r =>
        (hkey.shape _).bind fun _ => (Blames.orRefuse hkey.self _).bind fun _ =>
          (fieldShapes_blames hfields _).bind fun _ => (Blames.itemTypeOf hid).bind fun _ =>
            .wrap hid _
  | _ =>
    simp only [stepRelation]
    exact .refuse hid _

theorem membersOf_step_blames (scopes : List Binding) :
    Blames P (membersOf target scopes (.step id subject action)) := by
  cases action with
  | filter predicate =>
    rw [membersOf]
    refine (hs.members scopes).bind fun m => ?_
    cases m with
    | none => exact .pure _
    | some m => exact ((ho _ List.mem_cons_self).column _).bind fun _ => .pure _
  | map transform =>
    rw [membersOf]
    refine (hs.members scopes).bind fun m => ?_
    cases m with
    | none => exact .pure _
    | some m =>
      exact ((ho _ List.mem_cons_self).shape _).bind fun _ =>
        (Blames.itemTypeOf hid).bind fun _ => .pure _
  | _ =>
    simp only [membersOf]
    exact .pure _

end Step

section Subject

variable {s : Subject} {ty : Ty} {scopes : List Binding} (hid : P id)

include hid

theorem binary_blames {op : BinaryOp} {operand : Term} (hs : Blames P s.column)
    (hshape : Blames P s.shape) (hr : Blamed P target operand) :
    Blames P (s.binary id ty op operand (shapeOf target scopes operand)) := by
  have hcolumn := hr.column scopes
  unfold Subject.binary
  split
  · exact hs.bind fun _ => hcolumn.bind fun _ => .pure _
  · exact hs.bind fun _ => hcolumn.bind fun _ => .pure _
  · split
    · split
      · exact hs.bind fun _ => .pure _
      · exact .refuse hid _
    · exact .refuse hid _
  · split
    · refine hshape.bind fun a => (hr.shape scopes).bind fun b => ?_
      split
      · exact .pure _
      · exact .refuse hid _
    · refine hs.bind fun a => hcolumn.bind fun b => ?_
      split
      · split
        · exact .pure _
        · exact .refuse hid _
      · exact .pure _
      · exact .refuse hid _

theorem aggregate_blames {op : AggregateOp} {subjectTy : Lowering Ty} (hs : Blames P s.column)
    (hshape : Blames P s.shape) (hrelation : Blames P s.relation) (hmembers : Blames P s.members)
    (hty : Blames P subjectTy) : Blames P (s.aggregate id ty op subjectTy) := by
  refine hmembers.bind fun members => ?_
  cases members with
  | some members => exact (Blames.membersAggregate hid op members).bind fun _ => .pure _
  | none =>
    refine hty.bind fun sty => ?_
    split
    · split
      · exact hs.bind fun _ => .pure _
      · exact .refuse hid _
    · refine hshape.bind fun shape => ?_
      split
      · exact .pure _
      · exact .refuse hid _
    · exact hrelation.bind fun r => (Blames.relationAggregate hid op r).bind fun _ => .pure _

theorem field_blames (hshape : Blames P s.shape) (name : String) : Blames P (s.field id name) := by
  refine hshape.bind fun shape => ?_
  split
  · split
    · exact .pure _
    · exact .refuse hid _
  · exact .refuse hid _

end Subject

theorem stepShape_blames (hid : P id) (hs : Blamed P target subject)
    (ho : ∀ c ∈ action.operands, Blamed P target c.1) (scopes : List Binding) (ty : Ty) :
    Blames P (stepShape target scopes id ty
      { term := subject
        relation := relationOf target scopes subject
        shape := shapeOf target scopes subject
        members := membersOf target scopes subject } action) := by
  have hshape := hs.shape scopes
  have hcolumn := hs.column scopes
  cases action with
  | field name => exact field_blames hid hshape name
  | unary op => cases op with
    | not => exact hcolumn.bind fun _ => .pure _
    | neg => exact hcolumn.bind fun _ => .pure _
  | binary op rhs => exact binary_blames hid hcolumn hshape (ho (rhs, 0) List.mem_cons_self)
  | aggregate op =>
    exact aggregate_blames hid hcolumn hshape (hs.relation scopes) (hs.members scopes)
      (.typeOf hs.self)
  | _ =>
    simp only [stepShape]
    exact .refuse hid _

theorem Blamed.step (hid : P id) (hs : Blamed P target subject)
    (ho : ∀ c ∈ action.operands, Blamed P target c.1) :
    Blamed P target (.step id subject action) where
  self := hid
  shape scopes := by
    rw [shapeOf]
    refine (Blames.typeOf hid).bind fun ty => ?_
    split
    · exact .toArray hid (stepRelation_blames hid hs ho scopes)
    · exact stepShape_blames hid hs ho scopes ty
  relation scopes := by
    rw [relationOf]
    exact stepRelation_blames hid hs ho scopes
  members := membersOf_step_blames hid hs ho

theorem Blamed.source {name : String} (hid : P id) : Blamed P target (.source id name) := by
  have hsource : ∀ scopes, Blames P (relationOf target scopes (.source id name)) := by
    intro scopes
    rw [relationOf]
    split
    · exact Blames.freshAlias.bind fun _ => .pure _
    · exact .refuse hid _
  refine ⟨hid, fun scopes => ?_, hsource, fun scopes => ?_⟩
  · rw [shapeOf]
    exact (Blames.typeOf hid).bind fun ty => .toArray hid (hsource scopes)
  · simp only [membersOf]
    exact .pure _

theorem Blamed.literal {v : Value} (hid : P id) : Blamed P target (.literal id v) := by
  refine ⟨hid, fun scopes => ?_, fun scopes => ?_, fun scopes => ?_⟩
  · rw [shapeOf]
    split
    · exact .toArray hid (.refuse hid _)
    · exact .literalShape hid v
  · simp only [relationOf]
    exact .refuse hid _
  · simp only [membersOf]
    exact .pure _

theorem Blamed.context {up : Nat} (hid : P id) : Blamed P target (.context id up) := by
  refine ⟨hid, fun scopes => ?_, fun scopes => ?_, fun scopes => ?_⟩
  · rw [shapeOf]
    refine (Blames.typeOf hid).bind fun ty => ?_
    split
    · exact .toArray hid (.refuse hid _)
    · refine (Blames.bindingOf hid up).bind fun b => ?_
      cases b with
      | element shape ty => exact .pure _
      | group member ty => exact .refuse hid _
  · simp only [relationOf]
    exact .refuse hid _
  · rw [membersOf]
    refine (Blames.bindingOf hid up).bind fun b => ?_
    cases b with
    | element shape ty => exact .pure _
    | group member ty => exact .pure _

theorem Blamed.record {fields : List (String × Term)} (hid : P id)
    (hf : ∀ f ∈ fields, Blamed P target f.2) : Blamed P target (.record id fields) := by
  refine ⟨hid, fun scopes => ?_, fun scopes => ?_, fun scopes => ?_⟩
  · rw [shapeOf]
    exact (fieldShapes_blames hf scopes).bind fun _ => .pure _
  · simp only [relationOf]
    exact .refuse hid _
  · simp only [membersOf]
    exact .pure _

end Blamed

/-- The lowering of a term refuses nodes beneath the term. -/
theorem blamed (target : Target) (t : Term) : Blamed t.Beneath target t := by
  induction t using Term.children_induction with
  | h t ih =>
    have hself := Term.Beneath.self t
    have hoperand : ∀ c ∈ t.children, Blamed t.Beneath target c.1 := fun c hc =>
      (ih c hc).mono fun _ => .operand hc
    cases t with
    | source id name => exact .source hself
    | literal id v => exact .literal hself
    | context id up => exact .context hself
    | record id fields =>
      exact .record hself fun f hf => hoperand (f.2, 0) (List.mem_map.2 ⟨f, hf, rfl⟩)
    | step id subject action =>
      exact .step hself (hoperand (subject, 0) List.mem_cons_self)
        fun c hc => hoperand c (List.mem_cons_of_mem _ hc)

namespace Query

variable {P : Nat → Prop} {node : Nat} {target : Target}

theorem project_blames (h : P node) (select : Select) (shape : Shape) (cardinality : Cardinality) :
    Blames P (project node select shape cardinality) :=
  (Blames.orRefuse h _).bind fun _ => (Blames.orRefuse h _).bind fun _ => .pure _

theorem single_blames (h : P node) {subject : Term} (default : Option Value)
    (hs : Blamed P target subject) :
    Blames P (single node subject default (relationOf target [] subject)) :=
  (hs.relation []).bind fun r => project_blames h _ r.shape _

theorem ofTerm_blames (target : Target) (t : Term) : Blames t.Beneath (ofTerm target t) := by
  have hself := Term.Beneath.self t
  have ht := blamed target t
  have hoperand : ∀ c ∈ t.children, Blamed t.Beneath target c.1 := fun c hc =>
    (blamed target c.1).mono fun _ => .operand hc
  unfold ofTerm
  split
  · exact single_blames hself none (hoperand (_, 0) List.mem_cons_self)
  · split
    · exact single_blames hself _ (hoperand (_, 0) List.mem_cons_self)
    · exact .refuse (hoperand (_, 0) (List.mem_cons_of_mem _ List.mem_cons_self)).self _
  · refine (Blames.typeOf hself).bind fun ty => ?_
    split
    · exact (ht.relation []).bind fun r => project_blames hself r.select r.shape _
    · exact (ht.shape []).bind fun s => project_blames hself {} s _

end Query

/-- A select is refused for the sake of a node of the request. -/
theorem compile_blames (d : Dialect) (schema : Schema) (t : Term) :
    Refusal.Blames t.Beneath (compile d schema t) := by
  have hquery : Refusal.Blames t.Beneath (query d schema t) := by
    unfold query
    split
    · exact .error (.self t)
    · exact (Query.ofTerm_blames (d.target schema) t 0).bind fun _ => .ok _
  exact hquery.bind fun _ => .ok _

/-- Everything beneath a term passes the cheap check. -/
abbrev Admits (t : Term) : Prop := expressible.Admits isRefused t

theorem Admits.supports {t : Term} (h : Admits t) : Sql.supports t = true := Registry.admits_iff.1 h

/-- Whatever a term is lowered to, it passes the cheap check. -/
structure Expressed (target : Target) (t : Term) : Prop where
  shape : ∀ {bs n s m}, ToShape target bs t n s m → Admits t
  relation : ∀ {bs n r m}, ToRelation target bs t n r m → Admits t
  members : ∀ {bs n members m}, ToMembers target bs t n members m → Admits t

section Expressed

variable {target : Target} {bs : List Binding} {id n m : Nat} {subject : Term} {action : Step}

theorem admits_literal (id : Nat) (v : Value) : Admits (.literal id v) := .intro ⟨rfl, rfl⟩ nofun

/-- No operator between two columns is a match, and divisors are literals. -/
theorem Combines.allows {ty : Ty} {a b e : Expr} {op : BinaryOp} {rhs : Term}
    (h : Combines ty a b op rhs e) (id : Nat) (lhs : Term) :
    expressible.Allows isRefused (.step id lhs (.binary op rhs)) := by
  cases h with
  | and | or => exact ⟨rfl, rfl⟩
  | divide hdivisor => exact ⟨rfl, by simp [isRefused, hdivisor]⟩
  | operation _ hop _ hoperator =>
    cases op with
    | matching => cases hoperator
    | div => exact absurd rfl hop
    | _ => exact ⟨rfl, rfl⟩

theorem ToFields.admits {fields : List (String × Term)} {shapes : List (String × Shape)}
    (hf : ∀ f ∈ fields, Expressed target f.2) (h : ToFields target bs fields n shapes m) :
    ∀ f ∈ fields, Admits f.2 := by
  induction fields generalizing n shapes with
  | nil => exact nofun
  | cons f fields ih =>
    obtain ⟨hfirst, hrest⟩ := List.forall_mem_cons.1 hf
    cases h with
    | cons h hmore => exact List.forall_mem_cons.2 ⟨hfirst.shape h, ih hrest hmore⟩

theorem ToKeys.admits {keys : List (Term × Bool)} {orderBy : List (Expr × Bool)}
    (hk : ∀ k ∈ keys, Expressed target k.1) (h : ToKeys target bs keys n orderBy m) :
    ∀ k ∈ keys, Admits k.1 := by
  induction keys generalizing n orderBy with
  | nil => exact nofun
  | cons k keys ih =>
    obtain ⟨hfirst, hrest⟩ := List.forall_mem_cons.1 hk
    cases h with
    | cons h hmore => exact List.forall_mem_cons.2 ⟨hfirst.shape h, ih hrest hmore⟩

section Step

variable (hs : Expressed target subject) (ho : ∀ c ∈ action.operands, Expressed target c.1)

include hs ho

theorem ToRelation.admits_step {r : Relation}
    (h : ToRelation target bs (.step id subject action) n r m) :
    Admits (.step id subject action) := by
  cases h with
  | filter _ h _ hp =>
    exact .step ⟨rfl, rfl⟩ (hs.relation h) fun c hc =>
      List.mem_singleton.1 hc ▸ (ho _ List.mem_cons_self).shape hp
  | map _ h _ hf =>
    exact .step ⟨rfl, rfl⟩ (hs.relation h) fun c hc =>
      List.mem_singleton.1 hc ▸ (ho _ List.mem_cons_self).shape hf
  | sort _ h _ hk =>
    have hkeys := hk.admits fun k hk => ho (k.1, 1) (List.mem_map.2 ⟨k, hk, rfl⟩)
    refine .step ⟨rfl, rfl⟩ (hs.relation h) fun c hc => ?_
    obtain ⟨k, hk, rfl⟩ := List.mem_map.1 hc
    exact hkeys k hk
  | slice _ h => exact .step ⟨rfl, rfl⟩ (hs.relation h) nofun
  | distinct _ h => exact .step ⟨rfl, rfl⟩ (hs.relation h) nofun
  | groupby _ _ h _ hk _ hf =>
    have hfields := hf.admits fun f hf =>
      ho (f.2, 1) (List.mem_cons_of_mem _ (List.mem_map.2 ⟨f, hf, rfl⟩))
    refine .step ⟨rfl, rfl⟩ (hs.relation h) fun c hc => ?_
    rcases List.mem_cons.1 hc with rfl | hc
    · exact (ho _ List.mem_cons_self).shape hk
    · obtain ⟨f, hf, rfl⟩ := List.mem_map.1 hc
      exact hfields f hf

theorem ToMembers.admits_step {members : Members}
    (h : ToMembers target bs (.step id subject action) n members m) :
    Admits (.step id subject action) := by
  cases h with
  | filter _ h hp =>
    exact .step ⟨rfl, rfl⟩ (hs.members h) fun c hc =>
      List.mem_singleton.1 hc ▸ (ho _ List.mem_cons_self).shape hp
  | map _ h hf =>
    exact .step ⟨rfl, rfl⟩ (hs.members h) fun c hc =>
      List.mem_singleton.1 hc ▸ (ho _ List.mem_cons_self).shape hf

theorem ToShape.admits_step {s : Shape} (h : ToShape target bs (.step id subject action) n s m) :
    Admits (.step id subject action) := by
  cases h with
  | array _ h => exact h.admits_step hs ho
  | field _ h => exact .step ⟨rfl, rfl⟩ (hs.shape h) nofun
  | not _ _ h => exact .step ⟨rfl, rfl⟩ (hs.shape h) nofun
  | neg _ _ h => exact .step ⟨rfl, rfl⟩ (hs.shape h) nofun
  | combined _ _ hl hr he =>
    exact .step (he.allows id subject) (hs.shape hl) fun c hc =>
      List.mem_singleton.1 hc ▸ (ho _ List.mem_cons_self).shape hr
  | matching _ j h hp =>
    refine .step ⟨rfl, ?_⟩ (hs.shape h) fun c hc =>
      List.mem_singleton.1 hc ▸ admits_literal j _
    simp [isRefused, Pattern.Anchored.ofTerm?, hp]
  | merged _ hl hr =>
    exact .step ⟨rfl, rfl⟩ (hs.shape hl) fun c hc =>
      List.mem_singleton.1 hc ▸ (ho _ List.mem_cons_self).shape hr
  | @ofMembers _ _ _ _ op _ _ _ _ _ h =>
    exact .step ⟨by cases op <;> rfl, rfl⟩ (hs.members h) nofun
  | length _ _ _ h => exact .step ⟨rfl, rfl⟩ (hs.shape h) nofun
  | count _ _ h => exact .step ⟨rfl, rfl⟩ (hs.shape h) nofun
  | @aggregate _ _ _ _ _ op _ _ _ _ _ _ h =>
    exact .step ⟨by cases op <;> rfl, rfl⟩ (hs.relation h) nofun

end Step

end Expressed

/-- A lowered term passes the cheap check. -/
theorem expressed (target : Target) (t : Term) : Expressed target t := by
  induction t using Term.children_induction with
  | h t ih =>
    cases t with
    | source id name =>
      have hsource : Admits (.source id name) := .intro ⟨rfl, rfl⟩ nofun
      exact ⟨fun _ => hsource, fun _ => hsource, fun _ => hsource⟩
    | literal id v =>
      have hliteral := admits_literal id v
      exact ⟨fun _ => hliteral, fun _ => hliteral, fun _ => hliteral⟩
    | context id up =>
      have hcontext : Admits (.context id up) := .intro ⟨rfl, rfl⟩ nofun
      exact ⟨fun _ => hcontext, fun _ => hcontext, fun _ => hcontext⟩
    | record id fields =>
      refine ⟨fun h => ?_, fun h => (nomatch h), fun h => (nomatch h)⟩
      cases h with
      | array _ h => cases h
      | record _ h =>
        have hfields := h.admits fun f hf => ih (f.2, 0) (List.mem_map.2 ⟨f, hf, rfl⟩)
        refine .intro ⟨rfl, rfl⟩ fun c hc => ?_
        obtain ⟨f, hf, rfl⟩ := List.mem_map.1 hc
        exact hfields f hf
    | step id subject action =>
      have hs : Expressed target subject := ih (subject, 0) List.mem_cons_self
      have ho : ∀ c ∈ action.operands, Expressed target c.1 := fun c hc =>
        ih c (List.mem_cons_of_mem _ hc)
      refine ⟨fun h => ?_, fun h => ?_, fun h => ?_⟩
      all_goals exact h.admits_step hs ho

namespace Query

variable {target : Target} {t : Term} {n m : Nat} {q : Query}

theorem single_eq_ok {node : Nat} {subject : Term} {default : Option Value}
    (h : Lowers (single node subject default (relationOf target [] subject)) n q m) :
    Admits subject := by
  obtain ⟨r, k, hr, -⟩ := Lowers.bind h
  exact (expressed target subject).relation ((reached target subject).relation hr)

theorem admits_ofTerm (h : Lowers (ofTerm target t) n q m) : Admits t := by
  unfold ofTerm at h
  split at h
  · exact .step ⟨rfl, rfl⟩ (single_eq_ok h) nofun
  · split at h
    · rename_i j v
      exact .step ⟨rfl, rfl⟩ (single_eq_ok h) fun c hc =>
        List.mem_singleton.1 hc ▸ admits_literal j v
    · exact h.refuse.elim
  · obtain ⟨ty, k, -, h⟩ := Lowers.bind h
    split at h
    · obtain ⟨r, k, hr, -⟩ := Lowers.bind h
      exact (expressed target t).relation ((reached target t).relation hr)
    · obtain ⟨s, k, hs, -⟩ := Lowers.bind h
      exact (expressed target t).shape ((reached target t).shape hs)

end Query

/-- What is compiled to a select passes the cheap check. -/
theorem admits_of_compile {d : Dialect} {schema : Schema} {t : Term} {f : Fragment}
    (h : compile d schema t = .ok f) : Admits t := by
  obtain ⟨q, hq, -⟩ := Refusal.bind_eq_ok h
  unfold query at hq
  split at hq
  · cases hq
  · obtain ⟨⟨q', m⟩, hq', -⟩ := Refusal.bind_eq_ok hq
    exact Query.admits_ofTerm hq'

end QueryPushdown.Sql
