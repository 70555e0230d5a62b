import QueryPushdown.Proofs.Request.Arenas
import QueryPushdown.Refusal
import QueryPushdown.Request.Registry

/-!
# What compilers refuse and support

A compiler that goes down a term refuses a node beneath it or gives a result. What it supports is
told by single nodes: a term is supported when every node beneath it is, whatever stands around
it.
-/

namespace QueryPushdown

/-- Numbers of nodes beneath a term. -/
def Term.Beneath (t : Term) (node : Nat) : Prop := t.contains node = true

namespace Term

variable {t : Term} {node : Nat}

theorem beneath_iff : t.Beneath node ↔ ∃ n ∈ t.nodes, n.id = node := by
  simp [Beneath, contains]

theorem Beneath.self (t : Term) : t.Beneath t.id := beneath_iff.2 ⟨t, t.self_mem_nodes, rfl⟩

theorem Beneath.operand {c : Term × Nat} (hc : c ∈ t.children) (h : c.1.Beneath node) :
    t.Beneath node := by
  obtain ⟨n, hn, hid⟩ := beneath_iff.1 h
  exact beneath_iff.2 ⟨n, mem_nodes.2 (.inr ⟨c, hc, hn⟩), hid⟩

theorem nodes_subset_of_mem_spine {entry : Term} (h : entry ∈ t.spine) :
    entry.nodes ⊆ t.nodes := by
  refine holds_of_mem_spine (P := fun e => e.nodes ⊆ t.nodes) ?_ (List.Subset.refl _) h
  exact fun id subject action hs n hn =>
    hs (mem_nodes.2 (.inr ⟨(subject, 0), List.mem_cons_self, hn⟩))

end Term

/-- What an action refuses is one of these nodes. -/
def Refusal.Blames {α : Type} (P : Nat → Prop) (x : Except Refusal α) : Prop :=
  ∀ refusal, x = .error refusal → P refusal.node

namespace Refusal.Blames

variable {α β : Type} {P Q : Nat → Prop} {x : Except Refusal α}

theorem ok (a : α) : Blames P (.ok a) := fun _ h => by cases h

theorem error {refusal : Refusal} (h : P refusal.node) :
    Blames P (.error refusal : Except Refusal α) :=
  fun _ he => by
    cases he
    exact h

theorem bind {f : α → Except Refusal β} (hx : Blames P x) (hf : ∀ a, Blames P (f a)) :
    Blames P (x >>= f) := by
  cases x with
  | ok a => exact hf a
  | error refusal => exact .error (hx refusal rfl)

theorem mono (h : ∀ node, P node → Q node) (hx : Blames P x) : Blames Q x :=
  fun refusal he => h _ (hx refusal he)

end Refusal.Blames

namespace Registry

/-- Whether a node is served, and is none of those that are refused wherever they stand. -/
def Allows (r : Registry Unit) (refused : Term → Bool) (node : Term) : Prop :=
  (r.resolveKind? (NodeKind.ofTerm node)).isSome = true ∧ refused node = false

/-- Whether everything beneath a term is allowed. -/
def Admits (r : Registry Unit) (refused : Term → Bool) (t : Term) : Prop :=
  ∀ n ∈ t.nodes, r.Allows refused n

variable {r : Registry Unit} {refused : Term → Bool} {t : Term}

theorem admits_iff : r.Admits refused t ↔ (r.supports t && !t.nodes.any refused) = true := by
  simp [Admits, Allows, supports, unhandled?, forall_and, Option.isSome_iff_ne_none]

namespace Admits

/-- A node that is allowed, over operands that are admitted. -/
theorem intro (h : r.Allows refused t) (hc : ∀ c ∈ t.children, r.Admits refused c.1) :
    r.Admits refused t := by
  intro n hn
  rcases Term.mem_nodes.1 hn with rfl | ⟨c, hc', hn⟩
  · exact h
  · exact hc c hc' n hn

theorem step {id : Nat} {subject : Term} {action : Step}
    (h : r.Allows refused (.step id subject action)) (hs : r.Admits refused subject)
    (ho : ∀ c ∈ action.operands, r.Admits refused c.1) :
    r.Admits refused (.step id subject action) :=
  intro h fun c hc => (List.mem_cons.1 hc).elim (fun he => he ▸ hs) (ho c)

theorem entry {entry : Term} (h : r.Admits refused t) (he : entry ∈ t.chain) :
    r.Admits refused entry :=
  fun n hn => h n (Term.nodes_subset_of_mem_spine (Term.mem_chain.1 he) hn)

end Admits

end Registry

end QueryPushdown
