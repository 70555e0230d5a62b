import QueryPushdown.Proofs.Fields
import QueryPushdown.Proofs.Pairs
import QueryPushdown.Proofs.Request.Operands
import QueryPushdown.Request.Typing

/-!
# References of typed terms

A term that has a type refers only to elements of the frames it was typed in.
-/

namespace QueryPushdown

variable {schema : Schema} {frames : Frames}

theorem inferFields_paired {fields : List (String × Term)} {tys : List (String × Ty)}
    (h : inferFields schema frames fields = .ok tys) :
    Fields.Paired (fun t ty => t.infer schema frames = .ok ty) fields tys := by
  induction fields generalizing tys with
  | nil =>
    cases h
    exact .nil
  | cons field rest ih =>
    obtain ⟨name, t⟩ := field
    rw [inferFields] at h
    obtain ⟨ty, ht, h⟩ := Outcome.bind_eq_ok.1 h
    obtain ⟨others, hrest, h⟩ := Outcome.bind_eq_ok.1 h
    cases h
    exact .cons ⟨rfl, ht⟩ (ih hrest)

theorem inferFields_mem {fields : List (String × Term)} {tys : List (String × Ty)}
    (h : inferFields schema frames fields = .ok tys) :
    ∀ f ∈ fields, ∃ ty, f.2.infer schema frames = .ok ty := by
  intro f hf
  obtain ⟨g, -, -, hg⟩ := exists_of_mem_left (inferFields_paired h) hf
  exact ⟨g.2, hg⟩

theorem inferKeys_mem {keys : List (Term × Bool)} (h : inferKeys schema frames keys = .ok ()) :
    ∀ k ∈ keys, ∃ ty, k.1.infer schema frames = .ok ty := by
  induction keys with
  | nil => exact fun k hk => by cases hk
  | cons key rest ih =>
    obtain ⟨t, descending⟩ := key
    rw [inferKeys] at h
    obtain ⟨ty, ht, h⟩ := Outcome.bind_eq_ok.1 h
    intro k hk
    rcases List.mem_cons.1 hk with rfl | hk
    · exact ⟨ty, ht⟩
    · exact ih h k hk

/-- The operands of a typed step have types under the frames that the step opens. -/
theorem Step.infer_operands {action : Step} {subject ty : Ty}
    (h : action.infer schema frames subject = .ok ty) :
    ∀ c ∈ action.operands, ∃ (inner : Frames) (ty : Ty), inner.length = frames.length + c.2 ∧
      c.1.infer schema inner = .ok ty := by
  intro c hc
  cases action with
  | binary op rhs =>
    obtain rfl := List.mem_singleton.1 hc
    rw [infer] at h
    obtain ⟨ty, ht, _⟩ := Outcome.bind_eq_ok.1 h
    exact ⟨frames, ty, rfl, ht⟩
  | filter t | map t =>
    obtain rfl := List.mem_singleton.1 hc
    rw [infer] at h
    obtain ⟨item, _, h⟩ := Outcome.bind_eq_ok.1 h
    obtain ⟨ty, ht, _⟩ := Outcome.bind_eq_ok.1 h
    exact ⟨item :: frames, ty, rfl, ht⟩
  | sort keys =>
    obtain ⟨k, hk, rfl⟩ := List.mem_map.1 hc
    rw [infer] at h
    obtain ⟨item, _, h⟩ := Outcome.bind_eq_ok.1 h
    obtain ⟨_, hkeys, _⟩ := Outcome.bind_eq_ok.1 h
    obtain ⟨ty, ht⟩ := inferKeys_mem hkeys k hk
    exact ⟨item :: frames, ty, rfl, ht⟩
  | groupby key aggregates =>
    rw [infer] at h
    obtain ⟨item, _, h⟩ := Outcome.bind_eq_ok.1 h
    obtain ⟨keyTy, hkey, h⟩ := Outcome.bind_eq_ok.1 h
    rcases List.mem_cons.1 hc with rfl | hc
    · exact ⟨item :: frames, keyTy, rfl, hkey⟩
    · obtain ⟨f, hf, rfl⟩ := List.mem_map.1 hc
      have hne : aggregates.isEmpty = false := by
        cases aggregates with
        | nil => cases hf
        | cons => rfl
      rw [hne, if_neg (by decide)] at h
      obtain ⟨tys, hfields, _⟩ := Outcome.bind_eq_ok.1 h
      obtain ⟨ty, ht⟩ := inferFields_mem hfields f hf
      exact ⟨subject :: frames, ty, rfl, ht⟩
  | oneOr t =>
    obtain rfl := List.mem_singleton.1 hc
    rw [infer] at h
    obtain ⟨item, _, h⟩ := Outcome.bind_eq_ok.1 h
    obtain ⟨ty, ht, _⟩ := Outcome.bind_eq_ok.1 h
    exact ⟨frames, ty, rfl, ht⟩
  | _ => cases hc

theorem Frames.lt_length_of_read {up : Nat} {ty : Ty} (h : Frames.read frames up = .ok ty) :
    up < frames.length := by
  unfold Frames.read at h
  split at h
  · cases h
  · split at h
    · rename_i hget
      exact (List.getElem?_eq_some_iff.1 hget).1
    · cases h

/-- The references of a term that has a type stay inside its frames. -/
theorem Term.references_of_infer {t : Term} {ty : Ty} (h : t.infer schema frames = .ok ty) :
    t.References (fun level up => up < level) frames.length := by
  induction t using children_induction generalizing frames ty with
  | h t ih =>
    refine .node (fun id up ht => ?_) fun c hc => ?_
    · subst ht
      exact Frames.lt_length_of_read h
    · have hchild : ∃ (inner : Frames) (ty : Ty), inner.length = frames.length + c.2 ∧
          c.1.infer schema inner = .ok ty := by
        cases t with
        | source id name => cases hc
        | literal id value => cases hc
        | context id up => cases hc
        | record id fields =>
          rw [infer] at h
          obtain ⟨tys, hfields, _⟩ := Outcome.bind_eq_ok.1 h
          obtain ⟨f, hf, rfl⟩ := List.mem_map.1 hc
          obtain ⟨ty, ht⟩ := inferFields_mem hfields f hf
          exact ⟨frames, ty, rfl, ht⟩
        | step id subject action =>
          rw [infer] at h
          obtain ⟨sty, hsubject, haction⟩ := Outcome.bind_eq_ok.1 h
          rcases List.mem_cons.1 hc with rfl | hc
          · exact ⟨frames, sty, rfl, hsubject⟩
          · exact Step.infer_operands haction c hc
      obtain ⟨inner, cty, hlen, hinfer⟩ := hchild
      exact hlen ▸ ih c hc hinfer

end QueryPushdown
