import QueryPushdown.Proofs.Document.Finding
import QueryPushdown.Proofs.Request.Refusals

/-!
# What finds refuse and support

The compilation of a request to a find refuses nodes of the request only. What it compiles is made
of nodes that the cheap check lets pass.
-/

namespace QueryPushdown

open Refusal (Blames)

namespace Filter

variable {P : Nat → Prop} {e : Element} {node : Nat}

theorem constant_blames (h : P node) (v : Value) : Blames P (constant node v) := by
  unfold constant
  split
  · exact .ok _
  · exact .ok _
  · exact .error h

theorem flag_blames {t : Term} (h : P t.id) : Blames P (flag e t) := by
  unfold flag
  split
  · exact .ok _
  · exact .error h

theorem comparison_blames (h : P node) (op : BinaryOp) (lhs rhs : Term) :
    Blames P (comparison e node op lhs rhs) := by
  unfold comparison
  dsimp only
  split
  · exact .ok _
  · exact .error h

theorem matching_blames (h : P node) (subject pattern : Term) :
    Blames P (matching e node subject pattern) := by
  unfold matching
  split
  · exact .error h
  · split
    · split
      · exact .ok _
      · exact .ok _
      · exact .error h
    · exact .error h

end Filter

namespace Term

theorem filterOf_blames (e : Filter.Element) (t : Term) : Blames t.Beneath (t.filterOf e) := by
  induction t using children_induction with
  | h t ih =>
    cases t with
    | literal id v => exact Filter.constant_blames (.self _) v
    | source | context | record => exact .error (.self _)
    | step id subject action =>
      have hself : (step id subject action).Beneath id := .self _
      have hsubject : Blames (step id subject action).Beneath (subject.filterOf e) :=
        (ih (subject, 0) List.mem_cons_self).mono fun _ => .operand List.mem_cons_self
      cases action with
      | field name => exact Filter.flag_blames hself
      | unary op => cases op with
        | not => exact hsubject.bind fun _ => .ok _
        | neg => exact .error hself
      | binary op rhs =>
        have hmem : (rhs, 0) ∈ (step id subject (.binary op rhs)).children :=
          List.mem_cons_of_mem _ List.mem_cons_self
        have hrhs : Blames (step id subject (.binary op rhs)).Beneath (rhs.filterOf e) :=
          (ih (rhs, 0) hmem).mono fun _ => .operand hmem
        cases op with
        | eq | ne | lt | le | gt | ge => exact Filter.comparison_blames hself _ subject rhs
        | and | or => exact hsubject.bind fun _ => hrhs.bind fun _ => .ok _
        | matching => exact Filter.matching_blames hself subject rhs
        | add | sub | mul | div => exact .error hself
      | _ => exact .error hself

theorem projectionsOf_blames {P : Nat → Prop} {fields : List (String × Term)}
    (h : ∀ f ∈ fields, Blames P f.2.projectionOf) : Blames P (projectionsOf fields) := by
  induction fields with
  | nil => exact .ok _
  | cons f fields ih =>
    obtain ⟨hf, hfields⟩ := List.forall_mem_cons.1 h
    exact hf.bind fun _ => (ih hfields).bind fun _ => .ok _

theorem projectionOf_blames (t : Term) : Blames t.Beneath t.projectionOf := by
  induction t using children_induction with
  | h t ih =>
    cases t with
    | source | literal => exact .error (.self _)
    | context id up =>
      rw [projectionOf]
      split
      · exact .ok _
      · exact .error (.self _)
    | record id fields =>
      refine .bind (projectionsOf_blames fun f hf => ?_) fun _ => .ok _
      have hmem : (f.2, 0) ∈ (record id fields).children := List.mem_map.2 ⟨f, hf, rfl⟩
      exact (ih (f.2, 0) hmem).mono fun _ => .operand hmem
    | step id subject action => cases action with
      | field name =>
        rw [projectionOf]
        split
        · exact .ok _
        · exact .error (.self _)
      | _ => exact .error (.self _)

end Term

namespace Find

variable {schema : Schema} {P : Nat → Prop} {node : Nat}

theorem checkReorderable_blames (h : P node) (step : String) (q : Find) :
    Blames P (checkReorderable node step q) := by
  unfold checkReorderable
  split
  · exact .error h
  · split
    · exact .error h
    · exact .ok _

theorem sortKeys_blames {keys : List (Term × Bool)} (h : ∀ k ∈ keys, P k.1.id) :
    Blames P (sortKeys keys) := by
  induction keys with
  | nil => exact .ok _
  | cons k keys ih =>
    obtain ⟨hk, hkeys⟩ := List.forall_mem_cons.1 h
    rw [sortKeys]
    split
    · exact .error hk
    · exact (ih hkeys).bind fun _ => .ok _

theorem projection?_blames (t : Term) : Blames t.Beneath (projection? t) := by
  refine t.projectionOf_blames.bind fun p => ?_
  split
  · exact .ok _
  · exact .ok _

theorem itemType_blames {t : Term} (h : P t.id) : Blames P (itemType schema t) := by
  unfold itemType
  split
  · exact .error h
  · split
    · exact .ok _
    · exact .error h

theorem ofList_blames (t : Term) : Blames t.Beneath (ofList schema t) := by
  induction t using Term.children_induction with
  | h t ih =>
    cases t with
    | source id name =>
      rw [ofList]
      split
      · exact .ok _
      · exact .error (.self _)
    | literal | context | record => exact .error (.self _)
    | step id subject action =>
      have hself : (Term.step id subject action).Beneath id := .self _
      have hmem : (subject, 0) ∈ (Term.step id subject action).children := List.mem_cons_self
      have hsubject : Blames (Term.step id subject action).Beneath (ofList schema subject) :=
        (ih (subject, 0) hmem).mono fun _ => .operand hmem
      cases action with
      | filter predicate =>
        have hpredicate : (predicate, 1) ∈ (Term.step id subject (.filter predicate)).children :=
          List.mem_cons_of_mem _ List.mem_cons_self
        rw [ofList]
        refine hsubject.bind fun q => (checkReorderable_blames hself _ q).bind fun _ =>
          (itemType_blames (.operand hmem (.self _))).bind fun item => ?_
        exact ((predicate.filterOf_blames _).mono fun _ => .operand hpredicate).bind fun _ => .ok _
      | sort keys =>
        rw [ofList]
        refine hsubject.bind fun q => (checkReorderable_blames hself _ q).bind fun _ =>
          (sortKeys_blames fun k hk => ?_).bind fun _ => .ok _
        have hmem : (k.1, 1) ∈ keys.map fun key => (key.1, 1) := List.mem_map.2 ⟨k, hk, rfl⟩
        exact .operand (List.mem_cons_of_mem _ hmem) (.self _)
      | slice start stop =>
        rw [ofList]
        split
        · exact .error hself
        · exact hsubject.bind fun _ => .ok _
      | map transform =>
        have htransform : (transform, 1) ∈ (Term.step id subject (.map transform)).children :=
          List.mem_cons_of_mem _ List.mem_cons_self
        rw [ofList]
        refine hsubject.bind fun q => ?_
        dsimp only
        split
        · exact .error hself
        · refine Blames.bind ?_ fun _ => .ok _
          exact (projection?_blames transform).mono fun _ => .operand htransform
      | _ => exact .error hself

/-- A step that ends a request, over a list that was compiled. -/
theorem ended_blames {id : Nat} {subject : Term} {action : Step} (f : Find → Find) :
    Blames (Term.step id subject action).Beneath (do pure (f (← ofList schema subject))) :=
  ((ofList_blames subject).mono fun _ => .operand (c := (subject, 0)) List.mem_cons_self).bind
    fun _ => .ok _

theorem ofTerm_blames (t : Term) : Blames t.Beneath (ofTerm schema t) := by
  have hlist : Blames t.Beneath (ofList schema t) := ofList_blames t
  unfold ofTerm
  split
  · exact ended_blames fun q => { q with single := some _ }
  · rename_i id subject default
    have hmem : (default, 0) ∈ (Term.step id subject (.oneOr default)).children :=
      List.mem_cons_of_mem _ List.mem_cons_self
    split
    · exact ended_blames fun q => { q with single := some _ }
    · exact .error (.operand hmem (.self _))
  · rename_i id subject position
    dsimp only
    split
    · exact .error (.self _)
    · exact ended_blames fun q => { q with single := some _ }
  · rename_i id subject
    split
    · exact .error (.operand (c := (subject, 0)) List.mem_cons_self (.self _))
    · split
      · exact ended_blames fun q => { q with count := true }
      · exact .error (.self _)
  · exact hlist

/-- A find is refused for the sake of a node of the request. -/
theorem compile_blames (schema : Schema) (t : Term) : Blames t.Beneath (compile schema t) := by
  unfold compile
  split
  · exact .error (.self t)
  · exact ofTerm_blames t

/-- Everything beneath a term passes the cheap check. -/
abbrev Admits (t : Term) : Prop := expressible.Admits isRefused t

theorem Admits.supports {t : Term} (h : Admits t) : Find.supports t = true :=
  Registry.admits_iff.1 h

section Admits

variable {t lhs rhs : Term} {id : Nat} {e : Filter.Element} {f : Filter}

theorem admits_source (id : Nat) (name : String) : Admits (.source id name) :=
  .intro ⟨rfl, rfl⟩ nofun

theorem admits_literal (id : Nat) (v : Value) : Admits (.literal id v) :=
  .intro ⟨rfl, rfl⟩ nofun

theorem admits_context (id up : Nat) : Admits (.context id up) :=
  .intro ⟨rfl, rfl⟩ nofun

theorem admits_path {path : String} (h : t.path? = some path) : Admits t := by
  refine Term.path_induction (P := fun t _ => Admits t) (fun id j name _ => ?_)
    (fun id subject name p _ _ ih => ?_) h
  · exact .step ⟨rfl, rfl⟩ (admits_context j 0) nofun
  · exact .step ⟨rfl, rfl⟩ ih nofun

theorem admits_scalar {v : Value} (h : t.scalarLiteral? = some v) : Admits t := by
  obtain ⟨-, j, rfl⟩ := Filter.scalarLiteral?_eq_some h
  exact admits_literal j v

/-- A comparison that became a filter is between a field and a literal. -/
theorem admits_comparison {op : BinaryOp} (h : Filter.comparison e id op lhs rhs = .ok f) :
    isFieldComparison lhs rhs = true ∧ Admits lhs ∧ Admits rhs := by
  unfold Filter.comparison at h
  dsimp only at h
  cases hc : Filter.comparison? e op lhs rhs with
  | none =>
    rw [hc] at h
    cases h
  | some found =>
    unfold Filter.comparison? at hc
    split at hc
    · rename_i path v hl hr
      have hpath := Filter.scalarPath?_eq_some hl
      exact ⟨by simp [isFieldComparison, hpath, hr], admits_path hpath, admits_scalar hr⟩
    · split at hc
      · rename_i path v hr hl
        have hpath := Filter.scalarPath?_eq_some hr
        exact ⟨by simp [isFieldComparison, hpath, hl], admits_scalar hl, admits_path hpath⟩
      · cases hc

theorem admits_flag (h : Filter.flag e t = .ok f) : Admits t := by
  unfold Filter.flag at h
  split at h
  · rename_i path hpath _
    exact admits_path hpath
  · cases h

/-- A pattern that became a filter is anchored and matched against a field. -/
theorem admits_matching (h : Filter.matching e id lhs rhs = .ok f) :
    (lhs.path?.isSome && (Pattern.Anchored.ofTerm? rhs).isSome) = true ∧
      Admits lhs ∧ Admits rhs := by
  unfold Filter.matching at h
  split at h
  · cases h
  · rename_i path hl
    have hpath := Filter.scalarPath?_eq_some hl
    split at h
    · rename_i j text
      refine ⟨?_, admits_path hpath, admits_literal j _⟩
      rw [hpath, Pattern.Anchored.ofTerm?]
      cases hanchored : Pattern.Anchored.ofText? text with
      | some pattern => rfl
      | none =>
        rw [hanchored] at h
        cases h
    · cases h

theorem admits_filterOf : ∀ {t : Term} {f : Filter}, t.filterOf e = .ok f → Admits t := by
  intro t
  induction t using Term.children_induction with
  | h t ih =>
    intro f h
    cases t with
    | literal id v => exact admits_literal id v
    | source | context | record => cases h
    | step id subject action =>
      have hsubject : ∀ {f}, subject.filterOf e = .ok f → Admits subject :=
        ih (subject, 0) List.mem_cons_self
      cases action with
      | field name => exact admits_flag h
      | unary op => cases op with
        | not =>
          obtain ⟨g, hg, -⟩ := Refusal.bind_eq_ok h
          exact .step ⟨rfl, rfl⟩ (hsubject hg) nofun
        | neg => cases h
      | binary op rhs =>
        have hmem : (rhs, 0) ∈ (Term.step id subject (.binary op rhs)).children :=
          List.mem_cons_of_mem _ List.mem_cons_self
        have hrhs : ∀ {f}, rhs.filterOf e = .ok f → Admits rhs := ih (rhs, 0) hmem
        have hstep : expressible.Allows isRefused (.step id subject (.binary op rhs)) →
            Admits subject → Admits rhs → Admits (.step id subject (.binary op rhs)) :=
          fun ha hs hr => .step ha hs fun c hc => List.mem_singleton.1 hc ▸ hr
        cases op with
        | eq | ne | lt | le | gt | ge =>
          obtain ⟨hfield, hl, hr⟩ := admits_comparison h
          exact hstep ⟨rfl, by simp [isRefused, hfield]⟩ hl hr
        | and | or =>
          obtain ⟨g, hg, h⟩ := Refusal.bind_eq_ok h
          obtain ⟨g', hg', -⟩ := Refusal.bind_eq_ok h
          exact hstep ⟨rfl, rfl⟩ (hsubject hg) (hrhs hg')
        | matching =>
          obtain ⟨hanchored, hl, hr⟩ := admits_matching h
          exact hstep ⟨rfl, by simp only [isRefused, hanchored]; rfl⟩ hl hr
        | add | sub | mul | div => cases h
      | _ => cases h

theorem projectionOf_of_projectionsOf {fields : List (String × Term)}
    {ps : List (String × Projection)} (h : projectionsOf fields = .ok ps) :
    ∀ f ∈ fields, ∃ p, f.2.projectionOf = .ok p := by
  induction fields generalizing ps with
  | nil => exact nofun
  | cons f fields ih =>
    obtain ⟨p, hp, h⟩ := Refusal.bind_eq_ok h
    obtain ⟨others, hothers, -⟩ := Refusal.bind_eq_ok h
    exact List.forall_mem_cons.2 ⟨⟨p, hp⟩, ih hothers⟩

theorem admits_projectionOf : ∀ {t : Term} {p : Projection}, t.projectionOf = .ok p → Admits t := by
  intro t
  induction t using Term.children_induction with
  | h t ih =>
    intro p h
    cases t with
    | source | literal => cases h
    | context id up => exact admits_context id up
    | record id fields =>
      obtain ⟨ps, hps, -⟩ := Refusal.bind_eq_ok h
      refine .intro ⟨rfl, rfl⟩ fun c hc => ?_
      obtain ⟨field, hfield, rfl⟩ := List.mem_map.1 hc
      obtain ⟨p, hp⟩ := projectionOf_of_projectionsOf hps field hfield
      exact ih (field.2, 0) hc hp
    | step id subject action => cases action with
      | field name =>
        rw [Term.projectionOf] at h
        split at h
        · rename_i path hpath
          exact admits_path hpath
        · cases h
      | _ => cases h

theorem admits_sortKeys {keys : List (Term × Bool)} {sort : Document}
    (h : sortKeys keys = .ok sort) : ∀ k ∈ keys, Admits k.1 := by
  induction keys generalizing sort with
  | nil => exact nofun
  | cons k keys ih =>
    rw [sortKeys] at h
    split at h
    · cases h
    · rename_i path hpath
      obtain ⟨rest, hrest, -⟩ := Refusal.bind_eq_ok h
      exact List.forall_mem_cons.2 ⟨admits_path hpath, ih hrest⟩

theorem admits_ofList {schema : Schema} {q : Find} (h : ofList schema t = .ok q) : Admits t := by
  refine ofList_induction (P := fun t _ => Admits t) ?_ ?_ ?_ ?_ ?_ h
  · exact fun id name _ => admits_source id name
  · intro id t q predicate e f _ _ ih _ hf
    exact .step ⟨rfl, rfl⟩ ih fun c hc => List.mem_singleton.1 hc ▸ admits_filterOf hf
  · intro id t q ts keys _ _ ih _ hkeys
    refine .step ⟨rfl, rfl⟩ ih fun c hc => ?_
    obtain ⟨k, hk, rfl⟩ := List.mem_map.1 hc
    exact admits_sortKeys hkeys k hk
  · exact fun id t q start stop _ ih _ => .step ⟨rfl, rfl⟩ ih nofun
  · intro id t q transform projection _ ih _ hprojection
    obtain ⟨p, hp, -⟩ := Refusal.bind_eq_ok hprojection
    exact .step ⟨rfl, rfl⟩ ih fun c hc => List.mem_singleton.1 hc ▸ admits_projectionOf hp

theorem admits_ofTerm {schema : Schema} {q : Find} (h : ofTerm schema t = .ok q) : Admits t := by
  unfold ofTerm at h
  split at h
  · obtain ⟨p, hp, -⟩ := Refusal.bind_eq_ok h
    exact .step ⟨rfl, rfl⟩ (admits_ofList hp) nofun
  · split at h
    · rename_i id subject j v
      obtain ⟨p, hp, -⟩ := Refusal.bind_eq_ok h
      exact .step ⟨rfl, rfl⟩ (admits_ofList hp) fun c hc =>
        List.mem_singleton.1 hc ▸ admits_literal j v
    · cases h
  · split at h
    · cases h
    · obtain ⟨p, hp, -⟩ := Refusal.bind_eq_ok h
      exact .step ⟨rfl, rfl⟩ (admits_ofList hp) nofun
  · split at h
    · cases h
    · split at h
      · obtain ⟨p, hp, -⟩ := Refusal.bind_eq_ok h
        exact .step ⟨rfl, rfl⟩ (admits_ofList hp) nofun
      · cases h
  · exact admits_ofList h

/-- What is compiled to a find passes the cheap check. -/
theorem admits_of_compile {schema : Schema} {q : Find} (h : compile schema t = .ok q) :
    Admits t := by
  unfold compile at h
  split at h
  · cases h
  · exact admits_ofTerm h

end Admits

end Find

end QueryPushdown
