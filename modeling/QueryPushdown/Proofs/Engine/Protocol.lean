import QueryPushdown.Engine.Planning
import QueryPushdown.Proofs.Document.Refusals
import QueryPushdown.Proofs.Sql.Decoding
import QueryPushdown.Proofs.Sql.Refusals
import QueryPushdown.Store.Catalog

/-!
# Compilers and their checks

Planning relies on two things: a refusal names a node beneath the prefix, so that there is an entry
of the chain to cut at, and the cheap check that comes before the compiler never rejects what the
compiler expresses. Both compilers see to that.
-/

namespace QueryPushdown

/-- A node beneath a term is beneath an entry of its chain. -/
theorem Term.Beneath.entryHolding? {t : Term} {node : Nat} (h : t.Beneath node) :
    ∃ entry ∈ t.chain, t.entryHolding? node = some entry := by
  have hsome : (t.entryHolding? node).isSome = true :=
    List.find?_isSome.2 ⟨t, mem_chain.2 t.self_mem_spine, h⟩
  obtain ⟨entry, hentry⟩ := Option.isSome_iff_exists.1 hsome
  exact ⟨entry, List.mem_of_find?_eq_some hentry, hentry⟩

/-- What planning relies on when a term was compiled. -/
structure Protocol {α : Type} (supports : Term → Bool) (t : Term) (compiled : Except Refusal α) :
    Prop where
  /-- A refused node is beneath the term, and so beneath an entry of its chain. -/
  located : ∀ refusal, compiled = .error refusal → t.contains refusal.node = true ∧
    ∃ entry ∈ t.chain, t.entryHolding? refusal.node = some entry
  /-- The cheap check passes every entry of the chain of what is compiled. -/
  supported : ∀ a, compiled = .ok a → ∀ entry ∈ t.chain, supports entry = true

/-- What is made of the result does not matter. -/
theorem Protocol.map {α β : Type} {supports : Term → Bool} {t : Term} {compiled : Except Refusal α}
    (h : Protocol supports t compiled) (f : α → β) :
    Protocol supports t (do pure (f (← compiled))) := by
  cases compiled with
  | ok a => exact ⟨fun _ he => (nomatch he), fun _ _ => h.supported a rfl⟩
  | error refusal =>
    refine ⟨fun refused he => ?_, fun _ he => (nomatch he)⟩
    cases he
    exact h.located refusal rfl

/-- What is compiled passes the cheap check. -/
theorem Backend.compileChecked_of_protocol {b : Backend} {schema : Schema} {r : Request}
    {fragment : Fragment} (h : Protocol b.supports r.root (b.compile schema r))
    (hc : b.compile schema r = .ok fragment) : b.compileChecked schema r = .ok fragment := by
  have hnone : (r.root.chain.find? fun entry => !b.supports entry) = none :=
    List.find?_eq_none.2 fun entry he => by simp [h.supported fragment hc entry he]
  rw [compileChecked, hnone, hc]

theorem Find.keeps_protocol (schema : Schema) (t : Term) :
    Protocol Find.supports t (Find.compile schema t) where
  located refusal h := by
    have hbeneath := Find.compile_blames schema t refusal h
    exact ⟨hbeneath, hbeneath.entryHolding?⟩
  supported _ h _ he := Find.Admits.supports ((Find.admits_of_compile h).entry he)

theorem Sql.keeps_protocol (d : Dialect) (schema : Schema) (t : Term) :
    Protocol Sql.supports t (Sql.compile d schema t) where
  located refusal h := by
    have hbeneath := Sql.compile_blames d schema t refusal h
    exact ⟨hbeneath, hbeneath.entryHolding?⟩
  supported _ h _ he := Sql.Admits.supports ((Sql.admits_of_compile h).entry he)

/-- For every schema and request, the compilation to finds, and the compilation to selects in both
dialects, refuse a node of the request or pass the cheap check; so a store never leaves undone what
its compiler expresses for the sake of the check. -/
theorem compilers_keep_protocol (schema : Schema) (r : Request) :
    (Protocol Find.supports r.root (Find.compile schema r.root) ∧
      ∀ d : Sql.Dialect, Protocol Sql.supports r.root (Sql.compile d schema r.root)) ∧
    ∀ (c : Store.Catalog) (store : String) (fragment : Fragment),
      ((c.documentBackend store).compile schema r = .ok fragment →
        (c.documentBackend store).compileChecked schema r = .ok fragment) ∧
      ∀ d, (c.relationalBackend d store).compile schema r = .ok fragment →
        (c.relationalBackend d store).compileChecked schema r = .ok fragment := by
  have hfind := Find.keeps_protocol schema r.root
  have hselect := fun d => Sql.keeps_protocol d schema r.root
  refine ⟨⟨hfind, hselect⟩, fun c store fragment => ⟨?_, fun d => ?_⟩⟩
  · exact Backend.compileChecked_of_protocol (hfind.map _)
  · exact Backend.compileChecked_of_protocol ((hselect d).map _)

/-- The filter above a slice is refused by the compilation to finds, not by that to selects. -/
theorem compilers_keep_protocol_nearlyDearest :
    (∃ refusal, Find.compile .prices Request.nearlyDearest.root = .error refusal ∧
      Request.nearlyDearest.root.contains refusal.node = true) ∧
    ∃ f, Sql.compile .postgresql .prices Request.nearlyDearest.root = .ok f ∧
      ∀ entry ∈ Request.nearlyDearest.root.chain, Sql.supports entry = true := by
  obtain ⟨⟨hfind, hselect⟩, -⟩ := compilers_keep_protocol .prices Request.nearlyDearest
  refine ⟨⟨_, rfl, (hfind.located _ rfl).1⟩, ?_⟩
  exact ⟨_, rfl, (hselect .postgresql).supported _ rfl⟩

end QueryPushdown
