import QueryPushdown.Proofs.Sql.Relations

/-!
# What lowering gives

`Lowers` runs an action of the lowering from one free alias to the next. The relations below say
what a term is lowered to without mention of refusals: which shape, relation or members of a group,
made of what its operands are lowered to, and which aliases are taken. Whatever the lowering gives is
related to its term, so properties of lowered terms are proved by induction over these relations.
-/

namespace QueryPushdown.Sql

/-- The type of a term under the bindings. -/
abbrev Infers (target : Target) (scopes : List Binding) (t : Term) (ty : Ty) : Prop :=
  t.infer target.schema (scopes.map Binding.ty) = .ok ty

/-- An action gives a result; the aliases from `n` up to `m` are taken. -/
def Lowers {α : Type} (x : Lowering α) (n : Nat) (a : α) (m : Nat) : Prop := x n = .ok (a, m)

namespace Lowers

variable {α β : Type} {target : Target} {scopes : List Binding} {node n m : Nat} {t : Term}

theorem bind {x : Lowering α} {f : α → Lowering β} {b : β} (h : Lowers (x >>= f) n b m) :
    ∃ a k, Lowers x n a k ∧ Lowers (f a) k b m := by
  obtain ⟨⟨a, k⟩, ha, hb⟩ := Refusal.bind_eq_ok h
  exact ⟨a, k, ha, hb⟩

/-- What follows both branches of a choice follows the choice. -/
theorem ite_bind {c : Prop} [Decidable c] {x y : Lowering α} {f : α → Lowering β} {b : β}
    (h : Lowers (if c then x >>= f else y >>= f) n b m) :
    ∃ a k, Lowers (if c then x else y) n a k ∧ Lowers (f a) k b m := by
  split at h
  · rename_i hc
    rw [if_pos hc]
    exact h.bind
  · rename_i hc
    rw [if_neg hc]
    exact h.bind

theorem pure {a b : α} (h : Lowers (Pure.pure a) n b m) : a = b ∧ n = m := by
  cases h
  exact ⟨rfl, rfl⟩

theorem refuse {obstacle : Obstacle} {a : α} (h : Lowers (Sql.refuse node obstacle) n a m) :
    False := by
  cases h

theorem orRefuse {x : Except Obstacle α} {a : α} (h : Lowers (Sql.orRefuse node x) n a m) :
    x = .ok a ∧ n = m := by
  cases x with
  | error obstacle => exact h.refuse.elim
  | ok b =>
    obtain ⟨rfl, rfl⟩ := h.pure
    exact ⟨rfl, rfl⟩

theorem freshAlias {a : Nat} (h : Lowers Sql.freshAlias n a m) : a = n ∧ m = n + 1 := by
  cases h
  exact ⟨rfl, rfl⟩

theorem typeOf {ty : Ty} (h : Lowers (Sql.typeOf target scopes t) n ty m) :
    Infers target scopes t ty ∧ n = m := by
  unfold Sql.typeOf at h
  split at h
  · rename_i hty
    obtain ⟨rfl, rfl⟩ := h.pure
    exact ⟨hty, rfl⟩
  · exact h.refuse.elim

theorem itemTypeOf {item : Ty} (h : Lowers (Sql.itemTypeOf target scopes t) n item m) :
    (∃ ty, Infers target scopes t ty ∧ ty.item? = some item) ∧
      n = m := by
  obtain ⟨ty, k, htype, h⟩ := h.bind
  obtain ⟨hty, rfl⟩ := htype.typeOf
  cases hitem : ty.item? with
  | none =>
    rw [hitem] at h
    exact h.refuse.elim
  | some i =>
    rw [hitem] at h
    obtain ⟨rfl, rfl⟩ := h.pure
    exact ⟨⟨ty, hty, hitem⟩, rfl⟩

theorem bindingOf {up : Nat} {b : Binding} (h : Lowers (Sql.bindingOf scopes node up) n b m) :
    scopes[up]? = some b ∧ n = m := by
  unfold Sql.bindingOf at h
  split at h
  · rename_i hb
    obtain ⟨rfl, rfl⟩ := h.pure
    exact ⟨hb, rfl⟩
  · exact h.refuse.elim

theorem singleColumn {x : Lowering Shape} {e : Expr} (h : Lowers (Sql.singleColumn node x) n e m) :
    ∃ ty, Lowers x n (.scalar e ty) m := by
  obtain ⟨s, k, hs, h⟩ := h.bind
  cases s with
  | scalar e' ty =>
    obtain ⟨rfl, rfl⟩ := h.pure
    exact ⟨ty, hs⟩
  | mapping | unreadable => exact h.refuse.elim

end Lowers

namespace Relation

/-- A relation is kept as it is, or turned into a derived table. -/
inductive Opens (r : Relation) (keep : Bool) (n : Nat) : Relation → Nat → Prop
  | kept (h : keep = true) : Opens r keep n r n
  | derived {columns : List (Expr × String)} (h : r.shape.selected = .ok columns) :
    Opens r keep n (r.derived columns n) (n + 1)

theorem derived_of_wrap {node n m : Nat} {r r' : Relation} (h : Lowers (r.wrap node) n r' m) :
    ∃ columns, r.shape.selected = .ok columns ∧ r' = r.derived columns n ∧ m = n + 1 := by
  obtain ⟨columns, k, hselected, h⟩ := h.bind
  obtain ⟨hcolumns, rfl⟩ := hselected.orRefuse
  obtain ⟨number, k, hnumber, h⟩ := h.bind
  obtain ⟨rfl, rfl⟩ := hnumber.freshAlias
  obtain ⟨rfl, rfl⟩ := h.pure
  exact ⟨columns, hcolumns, rfl, rfl⟩

theorem opens_of_lowers {node n m : Nat} {keep : Bool} {r r' : Relation}
    (h : Lowers (if keep then pure r else r.wrap node) n r' m) : r.Opens keep n r' m := by
  cases keep with
  | true =>
    obtain ⟨rfl, rfl⟩ := h.pure
    exact .kept rfl
  | false =>
    obtain ⟨columns, hcolumns, rfl, rfl⟩ := derived_of_wrap h
    exact .derived hcolumns

theorem opens_of_lowers_not {node n m : Nat} {change : Bool} {r r' : Relation}
    (h : Lowers (if change then r.wrap node else pure r) n r' m) : r.Opens (!change) n r' m := by
  rw [← ite_not] at h
  exact opens_of_lowers (by cases change <;> exact h)

/-- A further conjunct of the `WHERE` clause. -/
def restricted (r : Relation) (e : Expr) : Relation :=
  { r with select := { r.select with filter := r.select.filter ++ [e] } }

/-- Further keys, before those that there are. -/
def orderedBy (r : Relation) (orderBy : List (Expr × Bool)) : Relation :=
  { r with select := { r.select with orderBy := orderBy ++ r.select.orderBy } }

def sliced (r : Relation) (start stop : Option Int64) : Relation :=
  { r with select := r.select.slice start stop }

def deduplicated (r : Relation) : Relation :=
  { r with select := { r.select with distinct := true } }

/-- One row for each group, its key and aggregates over it. -/
def grouped (r : Relation) (groupBy : List Expr) (key : Shape) (fields : List (String × Shape))
    (item : Ty) : Relation where
  select := { r.select with orderBy := [], groupBy := groupBy }
  shape := .mapping (Fields.extend [("key", key)] fields)
  item := item

/-- A column over all rows, as a sub-select. -/
def total (r : Relation) (column : Expr) : Expr :=
  .subquery { r.select with orderBy := [], columns := [(column, "c0")] }

end Relation

/-- The members that an aggregate is restricted to. -/
def Members.restriction (m : Members) : Option Expr :=
  if m.filter.isEmpty then none else some (.all m.filter)

/-- An expression of two columns. -/
inductive Combines (ty : Ty) (a b : Expr) : BinaryOp → Term → Expr → Prop
  | and (rhs : Term) : Combines ty a b .and rhs (.and [a, b])
  | or (rhs : Term) : Combines ty a b .or rhs (.or [a, b])
  | divide {rhs : Term} (h : isDivisor rhs = true) :
    Combines ty a b .div rhs (.operation (.cast a .real) .div b)
  | operation {op : BinaryOp} {operator : Operator} (rhs : Term) (hop : op ≠ .div)
    (hmerge : ¬ (op = .add ∧ ty.isMapping = true)) (h : operatorOf? op ty = some operator) :
    Combines ty a b op rhs (.operation a operator b)

mutual

/-- A term is lowered to columns. -/
inductive ToShape (target : Target) : List Binding → Term → Nat → Shape → Nat → Prop
  | array {bs : List Binding} {t : Term} {n m : Nat} {r : Relation} {e : Expr} {ety : Ty}
    {ty : Ty} (hty : Infers target bs t ty) (h : ToRelation target bs t n r m)
    (hr : r.shape = .scalar e ety) :
    ToShape target bs t n
      (.scalar (.array { r.select with columns := [(e, Shape.columnName 0)] }) ty) m
  | literal {bs : List Binding} {id n m : Nat} {v : Value} {s : Shape}
    (h : Lowers (literalShape id v) n s m) : ToShape target bs (.literal id v) n s m
  | context {bs : List Binding} {up : Nat} {s : Shape} {ty : Ty} (id n : Nat)
    (h : bs[up]? = some (.element s ty)) : ToShape target bs (.context id up) n s n
  | record {bs : List Binding} {n m : Nat} {fields : List (String × Term)}
    {shapes : List (String × Shape)} (id : Nat) (h : ToFields target bs fields n shapes m) :
    ToShape target bs (.record id fields) n (.mapping shapes) m
  | field {bs : List Binding} {n m : Nat} {subject : Term} {name : String}
    {shapes : List (String × Shape)} {s : Shape} (id : Nat)
    (h : ToShape target bs subject n (.mapping shapes) m) (hs : Fields.get? shapes name = some s) :
    ToShape target bs (.step id subject (.field name)) n s m
  | not {bs : List Binding} {n m : Nat} {subject : Term} {e : Expr} {ety ty : Ty} (id : Nat)
    (hty : Infers target bs (.step id subject (.unary .not)) ty)
    (h : ToShape target bs subject n (.scalar e ety) m) :
    ToShape target bs (.step id subject (.unary .not)) n (.scalar (.not e) ty) m
  | neg {bs : List Binding} {n m : Nat} {subject : Term} {e : Expr} {ety ty : Ty} (id : Nat)
    (hty : Infers target bs (.step id subject (.unary .neg)) ty)
    (h : ToShape target bs subject n (.scalar e ety) m) :
    ToShape target bs (.step id subject (.unary .neg)) n (.scalar (.neg e) ty) m
  | combined {bs : List Binding} {n k m : Nat} {lhs rhs : Term} {op : BinaryOp} {a b e : Expr}
    {aty bty ty : Ty} (id : Nat)
    (hty : Infers target bs (.step id lhs (.binary op rhs)) ty)
    (hl : ToShape target bs lhs n (.scalar a aty) k)
    (hr : ToShape target bs rhs k (.scalar b bty) m) (he : Combines ty a b op rhs e) :
    ToShape target bs (.step id lhs (.binary op rhs)) n (.scalar e ty) m
  | matching {bs : List Binding} {n m : Nat} {subject : Term} {e : Expr} {ety : Ty} {text : String}
    {pattern : Pattern.Anchored} (id literal : Nat)
    (h : ToShape target bs subject n (.scalar e ety) m)
    (hp : Pattern.Anchored.ofText? text = some pattern) :
    ToShape target bs (.step id subject (.binary .matching (.literal literal (.text text)))) n
      (.scalar (matchingExpr e pattern) .bool) m
  | merged {bs : List Binding} {n k m : Nat} {lhs rhs : Term} {as more : List (String × Shape)}
    (id : Nat) (hl : ToShape target bs lhs n (.mapping as) k)
    (hr : ToShape target bs rhs k (.mapping more) m) :
    ToShape target bs (.step id lhs (.binary .add rhs)) n (.mapping (Fields.extend as more)) m
  | ofMembers {bs : List Binding} {n m : Nat} {subject : Term} {op : AggregateOp}
    {members : Members} {arg : Expr} {ty : Ty} (id : Nat)
    (hty : Infers target bs (.step id subject (.aggregate op)) ty)
    (h : ToMembers target bs subject n members m)
    (harg : op = .len ∨ ∃ aty, members.shape = .scalar arg aty) :
    ToShape target bs (.step id subject (.aggregate op)) n
      (.scalar (reduce op arg members.restriction) ty) m
  | length {bs : List Binding} {n m : Nat} {subject : Term} {e : Expr} {ety ty : Ty} (id : Nat)
    (hty : Infers target bs (.step id subject (.aggregate .len)) ty)
    (hsubject : Infers target bs subject .string)
    (h : ToShape target bs subject n (.scalar e ety) m) :
    ToShape target bs (.step id subject (.aggregate .len)) n
      (.scalar (.call .length [e] none) ty) m
  | count {bs : List Binding} {n m : Nat} {subject : Term} {shapes : List (String × Shape)}
    {ty : Ty} (id : Nat)
    (hty : Infers target bs (.step id subject (.aggregate .len)) ty)
    (h : ToShape target bs subject n (.mapping shapes) m) :
    ToShape target bs (.step id subject (.aggregate .len)) n
      (.scalar (.value (.int (Int64.ofNat shapes.length))) ty) m
  | aggregate {bs : List Binding} {n k m : Nat} {subject : Term} {op : AggregateOp}
    {r r' : Relation} {arg : Expr} {ty : Ty} (id : Nat)
    (hty : Infers target bs (.step id subject (.aggregate op)) ty)
    (h : ToRelation target bs subject n r k)
    (hopen : r.Opens r.isOpen k r' m) (harg : op = .len ∨ ∃ aty, r'.shape = .scalar arg aty) :
    ToShape target bs (.step id subject (.aggregate op)) n
      (.scalar (r'.total (reduce op arg none)) ty) m

/-- A term is lowered to rows. -/
inductive ToRelation (target : Target) : List Binding → Term → Nat → Relation → Nat → Prop
  | source {bs : List Binding} {name : String} {c : Collection} (id n : Nat)
    (hc : target.schema.find? name = some c) :
    ToRelation target bs (.source id name) n (.ofCollection c n) (n + 1)
  | filter {bs : List Binding} {n k k' m : Nat} {subject predicate : Term} {r r' : Relation}
    {e : Expr} {ety : Ty} (id : Nat) (h : ToRelation target bs subject n r k)
    (hopen : r.Opens r.isOpen k r' k')
    (hp : ToShape target (r'.element :: bs) predicate k' (.scalar e ety) m) :
    ToRelation target bs (.step id subject (.filter predicate)) n (r'.restricted e) m
  | map {bs : List Binding} {n k k' m : Nat} {subject transform : Term} {r r' : Relation}
    {shape : Shape} {ty item : Ty} (id : Nat) (h : ToRelation target bs subject n r k)
    (hopen : r.Opens (!r.select.distinct) k r' k')
    (hf : ToShape target (r'.element :: bs) transform k' shape m)
    (hty : Infers target bs (.step id subject (.map transform)) ty)
    (hitem : ty.item? = some item) :
    ToRelation target bs (.step id subject (.map transform)) n
      { r' with shape := shape, item := item } m
  | sort {bs : List Binding} {n k k' m : Nat} {subject : Term} {keys : List (Term × Bool)}
    {r r' : Relation} {orderBy : List (Expr × Bool)} (id : Nat)
    (h : ToRelation target bs subject n r k) (hopen : r.Opens r.isOpen k r' k')
    (hk : ToKeys target (r'.element :: bs) keys k' orderBy m) :
    ToRelation target bs (.step id subject (.sort keys)) n (r'.orderedBy orderBy) m
  | slice {bs : List Binding} {n m : Nat} {subject : Term} {start stop : Option Int64}
    {r : Relation} (id : Nat) (h : ToRelation target bs subject n r m)
    (hforward : Step.isForward start stop = true) :
    ToRelation target bs (.step id subject (.slice start stop)) n (r.sliced start stop) m
  | distinct {bs : List Binding} {n k m : Nat} {subject : Term} {r r' : Relation} (id : Nat)
    (h : ToRelation target bs subject n r k) (hopen : r.Opens r.select.isUnbounded k r' m)
    (horder : r'.select.orderBy = []) :
    ToRelation target bs (.step id subject .distinct) n r'.deduplicated m
  | groupby {bs : List Binding} {n k k' k₁ m : Nat} {subject key : Term}
    {aggregates : List (String × Term)} {r r' : Relation} {keyShape : Shape} {groupBy : List Expr}
    {fields : List (String × Shape)} {ty item : Ty} {columns : List (Expr × String)} (id : Nat)
    (hne : aggregates.isEmpty = false) (h : ToRelation target bs subject n r k)
    (hopen : r.Opens r.isOpen k r' k') (hk : ToShape target (r'.element :: bs) key k' keyShape k₁)
    (hcolumns : keyShape.columns = .ok groupBy)
    (hf : ToFields target (.group r'.shape r'.item :: bs) aggregates k₁ fields m)
    (hty : Infers target bs (.step id subject (.groupby key aggregates)) ty)
    (hitem : ty.item? = some item)
    (hselected : (r'.grouped groupBy keyShape fields item).shape.selected = .ok columns) :
    ToRelation target bs (.step id subject (.groupby key aggregates)) n
      ((r'.grouped groupBy keyShape fields item).derived columns m) (m + 1)

/-- A term filters and maps the members of a group. -/
inductive ToMembers (target : Target) : List Binding → Term → Nat → Members → Nat → Prop
  | context {bs : List Binding} {up : Nat} {member : Shape} {ty : Ty} (id n : Nat)
    (h : bs[up]? = some (.group member ty)) :
    ToMembers target bs (.context id up) n ⟨member, ty, []⟩ n
  | filter {bs : List Binding} {n k m : Nat} {subject predicate : Term} {members : Members}
    {e : Expr} {ety : Ty} (id : Nat) (h : ToMembers target bs subject n members k)
    (hp : ToShape target (.element members.shape members.item :: bs) predicate k
      (.scalar e ety) m) :
    ToMembers target bs (.step id subject (.filter predicate)) n
      { members with filter := members.filter ++ [e] } m
  | map {bs : List Binding} {n k m : Nat} {subject transform : Term} {members : Members}
    {shape : Shape} {ty item : Ty} (id : Nat) (h : ToMembers target bs subject n members k)
    (hf : ToShape target (.element members.shape members.item :: bs) transform k shape m)
    (hty : Infers target bs (.step id subject (.map transform)) ty)
    (hitem : ty.item? = some item) :
    ToMembers target bs (.step id subject (.map transform)) n
      { members with shape := shape, item := item } m

inductive ToFields (target : Target) : List Binding → List (String × Term) → Nat →
    List (String × Shape) → Nat → Prop
  | nil (bs : List Binding) (n : Nat) : ToFields target bs [] n [] n
  | cons {bs : List Binding} {n k m : Nat} {name : String} {t : Term} {s : Shape}
    {rest : List (String × Term)} {shapes : List (String × Shape)}
    (h : ToShape target bs t n s k) (hrest : ToFields target bs rest k shapes m) :
    ToFields target bs ((name, t) :: rest) n ((name, s) :: shapes) m

inductive ToKeys (target : Target) : List Binding → List (Term × Bool) → Nat →
    List (Expr × Bool) → Nat → Prop
  | nil (bs : List Binding) (n : Nat) : ToKeys target bs [] n [] n
  | cons {bs : List Binding} {n k m : Nat} {t : Term} {descending : Bool} {e : Expr} {ety : Ty}
    {rest : List (Term × Bool)} {orderBy : List (Expr × Bool)}
    (h : ToShape target bs t n (.scalar e ety) k) (hrest : ToKeys target bs rest k orderBy m) :
    ToKeys target bs ((t, descending) :: rest) n ((e, descending) :: orderBy) m

end

section

variable {target : Target} {bs : List Binding} {id n m : Nat}

/-- Whatever a term is lowered to is related to it. -/
structure Reached (target : Target) (t : Term) : Prop where
  shape : ∀ {bs n s m}, Lowers (shapeOf target bs t) n s m → ToShape target bs t n s m
  relation : ∀ {bs n r m}, Lowers (relationOf target bs t) n r m → ToRelation target bs t n r m
  members : ∀ {bs n members m}, Lowers (membersOf target bs t) n members m →
    match members with
    | some members => ToMembers target bs t n members m
    | none => n = m

theorem Reached.column {t : Term} {node : Nat} {e : Expr} (ht : Reached target t)
    (h : Lowers (singleColumn node (shapeOf target bs t)) n e m) :
    ∃ ty, ToShape target bs t n (.scalar e ty) m := by
  obtain ⟨ty, h⟩ := h.singleColumn
  exact ⟨ty, ht.shape h⟩

theorem toFields {fields : List (String × Term)} {shapes : List (String × Shape)}
    (hf : ∀ f ∈ fields, Reached target f.2)
    (h : Lowers (fieldShapes target bs fields) n shapes m) :
    ToFields target bs fields n shapes m := by
  induction fields generalizing n shapes with
  | nil =>
    rw [fieldShapes] at h
    obtain ⟨rfl, rfl⟩ := h.pure
    exact .nil bs n
  | cons f fields ih =>
    obtain ⟨name, t⟩ := f
    obtain ⟨ht, hf⟩ := List.forall_mem_cons.1 hf
    rw [fieldShapes] at h
    obtain ⟨s, k, hs, h⟩ := h.bind
    obtain ⟨others, k', hothers, h⟩ := h.bind
    obtain ⟨rfl, rfl⟩ := h.pure
    exact .cons (ht.shape hs) (ih hf hothers)

theorem toKeys {keys : List (Term × Bool)} {orderBy : List (Expr × Bool)}
    (hk : ∀ k ∈ keys, Reached target k.1)
    (h : Lowers (keyColumns target bs keys) n orderBy m) : ToKeys target bs keys n orderBy m := by
  induction keys generalizing n orderBy with
  | nil =>
    rw [keyColumns] at h
    obtain ⟨rfl, rfl⟩ := h.pure
    exact .nil bs n
  | cons key keys ih =>
    obtain ⟨t, descending⟩ := key
    obtain ⟨ht, hk⟩ := List.forall_mem_cons.1 hk
    rw [keyColumns] at h
    obtain ⟨e, k, he, h⟩ := h.bind
    obtain ⟨others, k', hothers, h⟩ := h.bind
    obtain ⟨rfl, rfl⟩ := h.pure
    obtain ⟨ty, he⟩ := ht.column he
    exact .cons he (ih hk hothers)

section Relations

variable {subject : Term} {action : Step} {r : Relation} (hs : Reached target subject)
  (ho : ∀ c ∈ action.operands, Reached target c.1)

include hs ho in
/-- A step over rows is one of the row operations. -/
theorem toRelation_step (h : Lowers (relationOf target bs (.step id subject action)) n r m) :
    ToRelation target bs (.step id subject action) n r m := by
  rw [relationOf] at h
  cases action with
  | filter predicate =>
    rw [stepRelation] at h
    obtain ⟨r₀, k, hr₀, h⟩ := h.bind
    obtain ⟨r₁, k', hopen, h⟩ := h.bind
    obtain ⟨e, k₁, he, h⟩ := h.bind
    obtain ⟨rfl, rfl⟩ := h.pure
    obtain ⟨ty, he⟩ := (ho _ List.mem_cons_self).column he
    exact .filter id (hs.relation hr₀) (Relation.opens_of_lowers hopen) he
  | map transform =>
    rw [stepRelation] at h
    obtain ⟨r₀, k, hr₀, h⟩ := h.bind
    obtain ⟨r₁, k', hopen, h⟩ := h.ite_bind
    obtain ⟨shape, k₁, hshape, h⟩ := h.bind
    obtain ⟨item, k₂, htype, h⟩ := h.bind
    obtain ⟨⟨ty, hty, hitem⟩, rfl⟩ := htype.itemTypeOf
    obtain ⟨rfl, rfl⟩ := h.pure
    exact .map id (hs.relation hr₀) (Relation.opens_of_lowers_not hopen)
      ((ho _ List.mem_cons_self).shape hshape) hty hitem
  | sort keys =>
    rw [stepRelation] at h
    obtain ⟨r₀, k, hr₀, h⟩ := h.bind
    obtain ⟨r₁, k', hopen, h⟩ := h.bind
    obtain ⟨orderBy, k₁, hk, h⟩ := h.bind
    obtain ⟨rfl, rfl⟩ := h.pure
    exact .sort id (hs.relation hr₀) (Relation.opens_of_lowers hopen)
      (toKeys (fun k hk => ho (k.1, 1) (List.mem_map.2 ⟨k, hk, rfl⟩)) hk)
  | slice start stop =>
    rw [stepRelation] at h
    split at h
    · exact h.refuse.elim
    rename_i hforward
    obtain ⟨r₀, k, hr₀, h⟩ := h.bind
    obtain ⟨rfl, rfl⟩ := h.pure
    exact .slice id (hs.relation hr₀) (by simpa using hforward)
  | distinct =>
    rw [stepRelation] at h
    obtain ⟨r₀, k, hr₀, h⟩ := h.bind
    obtain ⟨r₁, k', hopen, h⟩ := h.ite_bind
    change Lowers (if _ then _ else _) _ _ _ at h
    split at h
    · exact h.refuse.elim
    rename_i horder
    obtain ⟨rfl, rfl⟩ := h.pure
    exact .distinct id (hs.relation hr₀) (Relation.opens_of_lowers hopen) (by simpa using horder)
  | groupby key aggregates =>
    rw [stepRelation] at h
    cases hne : aggregates.isEmpty with
    | true =>
      rw [if_pos hne] at h
      exact h.refuse.elim
    | false =>
      rw [hne, if_neg Bool.false_ne_true] at h
      obtain ⟨r₀, k, hr₀, h⟩ := h.bind
      obtain ⟨r₁, k', hopen, h⟩ := h.bind
      obtain ⟨keyShape, k₁, hkey, h⟩ := h.bind
      obtain ⟨groupBy, k₂, hcolumns, h⟩ := h.bind
      obtain ⟨hgroupBy, rfl⟩ := hcolumns.orRefuse
      obtain ⟨fields, k₃, hfields, h⟩ := h.bind
      obtain ⟨item, k₄, htype, h⟩ := h.bind
      obtain ⟨⟨ty, hty, hitem⟩, rfl⟩ := htype.itemTypeOf
      obtain ⟨columns, hselected, rfl, rfl⟩ := Relation.derived_of_wrap h
      refine .groupby id hne (hs.relation hr₀) (Relation.opens_of_lowers hopen)
        ((ho _ List.mem_cons_self).shape hkey) hgroupBy (toFields (fun f hf => ?_) hfields) hty
        hitem hselected
      exact ho (f.2, 1) (List.mem_cons_of_mem _ (List.mem_map.2 ⟨f, hf, rfl⟩))
  | _ =>
    simp only [stepRelation] at h
    exact h.refuse.elim

end Relations

theorem lowers_toArray {node : Nat} {ty : Ty} {x : Lowering Relation} {s : Shape}
    (h : Lowers (Relation.toArray target node ty x) n s m) :
    ∃ r e ety, Lowers x n r m ∧ r.shape = .scalar e ety ∧
      s = .scalar (.array { r.select with columns := [(e, Shape.columnName 0)] }) ty := by
  unfold Relation.toArray at h
  split at h
  · exact h.refuse.elim
  obtain ⟨r, k, hr, h⟩ := h.bind
  cases hshape : r.shape with
  | mapping | unreadable =>
    rw [hshape] at h
    exact h.refuse.elim
  | scalar e ety =>
    rw [hshape] at h
    obtain ⟨columns, k', hselected, h⟩ := h.bind
    obtain ⟨hcolumns, rfl⟩ := hselected.orRefuse
    obtain ⟨rfl, rfl⟩ := h.pure
    cases hcolumns
    exact ⟨r, e, ety, hr, hshape, rfl⟩

section Shapes

variable {subject : Term} {s : Shape} {ty : Ty}

/-- A binary operator makes one column of two, or extends one mapping by another. -/
theorem toShape_binary {op : BinaryOp} {rhs : Term} {s : Subject} {shape : Shape}
    (hty : Infers target bs (.step id subject (.binary op rhs)) ty)
    (hs : Reached target subject) (hr : Reached target rhs) (hterm : s.term = subject)
    (hshape : s.shape = shapeOf target bs subject)
    (h : Lowers (s.binary id ty op rhs (shapeOf target bs rhs)) n shape m) :
    ToShape target bs (.step id subject (.binary op rhs)) n shape m := by
  have hcolumn : s.column = singleColumn subject.id (shapeOf target bs subject) := by
    rw [Subject.column, hterm, hshape]
  have htwo : ∀ {f : Expr → Expr → Lowering Shape}, Lowers (do
      let a ← s.column
      let b ← singleColumn rhs.id (shapeOf target bs rhs)
      f a b) n shape m →
      ∃ a b k k' aty bty, ToShape target bs subject n (.scalar a aty) k ∧
        ToShape target bs rhs k (.scalar b bty) k' ∧ Lowers (f a b) k' shape m := by
    intro f h
    obtain ⟨a, k, ha, h⟩ := h.bind
    obtain ⟨b, k', hb, h⟩ := h.bind
    rw [hcolumn] at ha
    obtain ⟨aty, ha⟩ := hs.column ha
    obtain ⟨bty, hb⟩ := hr.column hb
    exact ⟨a, b, k, k', aty, bty, ha, hb, h⟩
  unfold Subject.binary at h
  split at h
  · obtain ⟨a, b, k, k', aty, bty, ha, hb, h⟩ := htwo h
    obtain ⟨rfl, rfl⟩ := h.pure
    exact .combined id hty ha hb (.and rhs)
  · obtain ⟨a, b, k, k', aty, bty, ha, hb, h⟩ := htwo h
    obtain ⟨rfl, rfl⟩ := h.pure
    exact .combined id hty ha hb (.or rhs)
  · split at h
    · split at h
      · rename_i pattern hpattern
        obtain ⟨a, k, ha, h⟩ := h.bind
        obtain ⟨rfl, rfl⟩ := h.pure
        rw [hcolumn] at ha
        obtain ⟨aty, ha⟩ := hs.column ha
        exact .matching id _ ha hpattern
      · exact h.refuse.elim
    · exact h.refuse.elim
  · split at h
    · rename_i hmerge
      obtain ⟨rfl, -⟩ := hmerge
      obtain ⟨a, k, ha, h⟩ := h.bind
      obtain ⟨b, k', hb, h⟩ := h.bind
      rw [hshape] at ha
      cases a with
      | scalar | unreadable => exact h.refuse.elim
      | mapping as =>
        cases b with
        | scalar | unreadable => exact h.refuse.elim
        | mapping more =>
          obtain ⟨rfl, rfl⟩ := h.pure
          exact .merged id (hs.shape ha) (hr.shape hb)
    · rename_i hmerge
      obtain ⟨a, b, k, k', aty, bty, ha, hb, h⟩ := htwo h
      split at h
      · split at h
        · rename_i hdivisor
          obtain ⟨rfl, rfl⟩ := h.pure
          exact .combined id hty ha hb (.divide hdivisor)
        · exact h.refuse.elim
      · rename_i hdiv _ _ _ _ hoperator
        obtain ⟨rfl, rfl⟩ := h.pure
        exact .combined id hty ha hb (.operation rhs hdiv hmerge hoperator)
      · exact h.refuse.elim

theorem lowers_membersAggregate {node : Nat} {op : AggregateOp} {members : Members} {e : Expr}
    (h : Lowers (members.aggregate node op) n e m) :
    n = m ∧ ∃ arg, (op = .len ∨ ∃ aty, members.shape = .scalar arg aty) ∧
      e = reduce op arg members.restriction := by
  unfold Members.aggregate at h
  dsimp only at h
  split at h
  · obtain ⟨rfl, rfl⟩ := h.pure
    exact ⟨rfl, .value .null, .inl rfl, rfl⟩
  · rename_i arg aty _ hshape
    obtain ⟨rfl, rfl⟩ := h.pure
    exact ⟨rfl, arg, .inr ⟨aty, hshape⟩, rfl⟩
  · exact h.refuse.elim

theorem lowers_relationAggregate {node : Nat} {op : AggregateOp} {r : Relation} {e : Expr}
    (h : Lowers (r.aggregate node op) n e m) :
    ∃ r' arg, r.Opens r.isOpen n r' m ∧ (op = .len ∨ ∃ aty, r'.shape = .scalar arg aty) ∧
      e = r'.total (reduce op arg none) := by
  obtain ⟨r', k, hopen, h⟩ := h.bind
  have hopen := Relation.opens_of_lowers hopen
  dsimp only at h
  split at h
  · obtain ⟨rfl, rfl⟩ := h.pure
    exact ⟨r', .value .null, hopen, .inl rfl, rfl⟩
  · rename_i arg aty _ hshape _
    obtain ⟨rfl, rfl⟩ := h.pure
    exact ⟨r', arg, hopen, .inr ⟨aty, hshape⟩, rfl⟩
  · obtain ⟨_, _, h, -⟩ := h.bind
    exact h.refuse.elim

/-- An aggregate ranges over the members of a group, or over the rows of a select of its own; the lengths
of texts and mappings are columns. -/
theorem toShape_aggregate {op : AggregateOp}
    (hty : Infers target bs (.step id subject (.aggregate op)) ty) (hs : Reached target subject)
    (h : Lowers (stepShape target bs id ty
      { term := subject
        relation := relationOf target bs subject
        shape := shapeOf target bs subject
        members := membersOf target bs subject } (.aggregate op)) n s m) :
    ToShape target bs (.step id subject (.aggregate op)) n s m := by
  rw [stepShape] at h
  obtain ⟨members, k, hmembers, h⟩ := h.bind
  cases members with
  | some members =>
    obtain ⟨e, k', he, h⟩ := h.bind
    obtain ⟨rfl, arg, harg, rfl⟩ := lowers_membersAggregate he
    obtain ⟨rfl, rfl⟩ := h.pure
    exact .ofMembers id hty (hs.members hmembers) harg
  | none =>
    obtain rfl : n = k := hs.members hmembers
    obtain ⟨sty, k, htype, h⟩ := h.bind
    obtain ⟨hsty, rfl⟩ := htype.typeOf
    split at h
    · split at h
      · rename_i hlen
        obtain ⟨e, k, he, h⟩ := h.bind
        obtain ⟨rfl, rfl⟩ := h.pure
        obtain ⟨ety, he⟩ := hs.column he
        subst hlen
        exact .length id hty hsty he
      · exact h.refuse.elim
    · obtain ⟨shape, k, hshape, h⟩ := h.bind
      split at h
      · obtain ⟨rfl, rfl⟩ := h.pure
        exact .count id hty (hs.shape hshape)
      · exact h.refuse.elim
    · obtain ⟨r, k, hr, h⟩ := h.bind
      obtain ⟨e, k', he, h⟩ := h.bind
      obtain ⟨r', arg, hopen, harg, rfl⟩ := lowers_relationAggregate he
      obtain ⟨rfl, rfl⟩ := h.pure
      exact .aggregate id hty (hs.relation hr) hopen harg

/-- The subject of a step, as its lowered forms. -/
theorem toShape_step {action : Step}
    (hty : Infers target bs (.step id subject action) ty)
    (hs : Reached target subject)
    (ho : ∀ c ∈ action.operands, Reached target c.1)
    (h : Lowers (stepShape target bs id ty
      { term := subject
        relation := relationOf target bs subject
        shape := shapeOf target bs subject
        members := membersOf target bs subject } action) n s m) :
    ToShape target bs (.step id subject action) n s m := by
  cases action with
  | field name =>
    rw [stepShape] at h
    obtain ⟨shape, k, hshape, h⟩ := h.bind
    cases shape with
    | scalar | unreadable => exact h.refuse.elim
    | mapping shapes =>
      dsimp only at h
      split at h
      · rename_i hget
        obtain ⟨rfl, rfl⟩ := h.pure
        exact .field id (hs.shape hshape) hget
      · exact h.refuse.elim
  | unary op =>
    cases op <;>
    · rw [stepShape] at h
      obtain ⟨e, k, he, h⟩ := h.bind
      obtain ⟨rfl, rfl⟩ := h.pure
      obtain ⟨ety, he⟩ := hs.column he
      first | exact .not id hty he | exact .neg id hty he
  | binary op rhs =>
    rw [stepShape] at h
    exact toShape_binary hty hs (ho _ List.mem_cons_self) rfl rfl h
  | aggregate op => exact toShape_aggregate hty hs h
  | _ =>
    simp only [stepShape] at h
    exact h.refuse.elim

end Shapes

section Members

variable {subject : Term} {action : Step} {members : Option Members} (hs : Reached target subject)
  (ho : ∀ c ∈ action.operands, Reached target c.1)

include hs ho in
/-- Only filters and maps keep to the members of a group. -/
theorem toMembers_step : Lowers (membersOf target bs (.step id subject action)) n members m →
    match members with
    | some members => ToMembers target bs (.step id subject action) n members m
    | none => n = m := by
  intro h
  cases action with
  | filter predicate =>
    rw [membersOf] at h
    obtain ⟨before, k, hbefore, h⟩ := h.bind
    cases before with
    | none =>
      obtain ⟨rfl, rfl⟩ := h.pure
      exact hs.members hbefore
    | some before =>
      obtain ⟨e, k', he, h⟩ := h.bind
      obtain ⟨rfl, rfl⟩ := h.pure
      obtain ⟨ety, he⟩ := (ho _ List.mem_cons_self).column he
      exact .filter id (hs.members hbefore) he
  | map transform =>
    rw [membersOf] at h
    obtain ⟨before, k, hbefore, h⟩ := h.bind
    cases before with
    | none =>
      obtain ⟨rfl, rfl⟩ := h.pure
      exact hs.members hbefore
    | some before =>
      obtain ⟨shape, k', hshape, h⟩ := h.bind
      obtain ⟨item, k₁, htype, h⟩ := h.bind
      obtain ⟨⟨ty, hty, hitem⟩, rfl⟩ := htype.itemTypeOf
      obtain ⟨rfl, rfl⟩ := h.pure
      exact .map id (hs.members hbefore) ((ho _ List.mem_cons_self).shape hshape) hty hitem
  | _ =>
    simp only [membersOf] at h
    obtain ⟨rfl, rfl⟩ := h.pure
    exact rfl

end Members

end

namespace Reached

theorem source (id : Nat) (name : String) : Reached target (.source id name) := by
  have hsource : ∀ {bs n r m}, Lowers (relationOf target bs (.source id name)) n r m →
      ToRelation target bs (.source id name) n r m := by
    intro bs n r m h
    rw [relationOf] at h
    split at h
    · rename_i hc
      obtain ⟨table, k, htable, h⟩ := h.bind
      obtain ⟨rfl, rfl⟩ := htable.freshAlias
      obtain ⟨rfl, rfl⟩ := h.pure
      exact .source id _ hc
    · exact h.refuse.elim
  refine ⟨fun h => ?_, hsource, fun h => ?_⟩
  · rw [shapeOf] at h
    obtain ⟨ty, k, htype, h⟩ := h.bind
    obtain ⟨hty, rfl⟩ := htype.typeOf
    obtain ⟨r, e, ety, hr, hshape, rfl⟩ := lowers_toArray h
    exact .array hty (hsource (by rw [relationOf]; exact hr)) hshape
  · simp only [membersOf] at h
    obtain ⟨rfl, rfl⟩ := h.pure
    rfl

theorem literal (id : Nat) (v : Value) : Reached target (.literal id v) := by
  refine ⟨fun h => ?_, fun h => ?_, fun h => ?_⟩
  · rw [shapeOf] at h
    split at h
    · obtain ⟨r, _, _, hr, _⟩ := lowers_toArray h
      exact hr.refuse.elim
    · exact .literal h
  · simp only [relationOf] at h
    exact h.refuse.elim
  · simp only [membersOf] at h
    obtain ⟨rfl, rfl⟩ := h.pure
    rfl

/-- An element is read as a shape, and a group as its members. -/
theorem context (id up : Nat) : Reached target (.context id up) := by
  refine ⟨fun h => ?_, fun h => ?_, fun h => ?_⟩
  · rw [shapeOf] at h
    obtain ⟨ty, k, htype, h⟩ := h.bind
    obtain ⟨hty, rfl⟩ := htype.typeOf
    split at h
    · obtain ⟨r, _, _, hr, _⟩ := lowers_toArray h
      exact hr.refuse.elim
    obtain ⟨b, k, hbinding, h⟩ := h.bind
    obtain ⟨hb, rfl⟩ := hbinding.bindingOf
    cases b with
    | group member ty => exact h.refuse.elim
    | element shape ty =>
      obtain ⟨rfl, rfl⟩ := h.pure
      exact .context id _ hb
  · simp only [relationOf] at h
    exact h.refuse.elim
  · rw [membersOf] at h
    obtain ⟨b, k, hbinding, h⟩ := h.bind
    obtain ⟨hb, rfl⟩ := hbinding.bindingOf
    cases b with
    | group member ty =>
      obtain ⟨rfl, rfl⟩ := h.pure
      exact .context id _ hb
    | element shape ty =>
      obtain ⟨rfl, rfl⟩ := h.pure
      exact rfl

theorem record {fields : List (String × Term)} (id : Nat)
    (hf : ∀ f ∈ fields, Reached target f.2) : Reached target (.record id fields) := by
  refine ⟨fun h => ?_, fun h => ?_, fun h => ?_⟩
  · rw [shapeOf] at h
    obtain ⟨shapes, k, hshapes, h⟩ := h.bind
    obtain ⟨rfl, rfl⟩ := h.pure
    exact .record id (toFields hf hshapes)
  · simp only [relationOf] at h
    exact h.refuse.elim
  · simp only [membersOf] at h
    obtain ⟨rfl, rfl⟩ := h.pure
    rfl

theorem step {subject : Term} {action : Step} (id : Nat) (hs : Reached target subject)
    (ho : ∀ c ∈ action.operands, Reached target c.1) :
    Reached target (.step id subject action) := by
  refine ⟨fun h => ?_, toRelation_step hs ho, toMembers_step hs ho⟩
  rw [shapeOf] at h
  obtain ⟨ty, k, htype, h⟩ := h.bind
  obtain ⟨hty, rfl⟩ := htype.typeOf
  split at h
  · obtain ⟨r, e, ety, hr, hshape, rfl⟩ := lowers_toArray h
    exact .array hty (toRelation_step hs ho (by rw [relationOf]; exact hr)) hshape
  · exact toShape_step hty hs ho h

end Reached

/-- Lowering reaches nothing else. -/
theorem reached (target : Target) (t : Term) : Reached target t := by
  induction t using Term.children_induction with
  | h t ih =>
    cases t with
    | source id name => exact .source id name
    | literal id v => exact .literal id v
    | context id up => exact .context id up
    | record id fields =>
      exact .record id fun f hf => ih (f.2, 0) (List.mem_map.2 ⟨f, hf, rfl⟩)
    | step id subject action =>
      exact .step id (ih (subject, 0) List.mem_cons_self)
        fun c hc => ih c (List.mem_cons_of_mem _ hc)

end QueryPushdown.Sql
