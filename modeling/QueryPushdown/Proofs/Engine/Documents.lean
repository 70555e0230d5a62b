import Mathlib.Data.List.Nodup
import QueryPushdown.Proofs.Document.Answers
import QueryPushdown.Store.Catalog

/-!
# Document stores as backends

A database over a catalog of document stores reads what the tables hold, and its backend answers a
find from the very table that the interpreter would have scanned.
-/

namespace QueryPushdown

theorem Schema.names_add {s s' : Schema} {c : Collection} (h : s.add c = .ok s') :
    Fields.names s'.collections = Fields.names s.collections ++ [c.name] ∧
      c.name ∉ Fields.names s.collections := by
  unfold add at h
  split at h
  · cases h
  · split at h
    · cases h
    · rename_i hnew
      cases h
      refine ⟨?_, fun hm => hnew (Fields.has_iff_mem_names.2 hm)⟩
      rw [Fields.insert_of_not_has c (eq_false_of_ne_true hnew), Fields.names, List.map_append]
      rfl

/-- The collections of a schema have different names. -/
theorem Schema.nodup_ofCollections {cs : List Collection} {s : Schema}
    (h : ofCollections cs = .ok s) : (cs.map Collection.name).Nodup := by
  have hfold : ∀ {cs : List Collection} {s₀ s : Schema}, cs.foldlM add s₀ = .ok s →
      (Fields.names s₀.collections).Nodup →
      (Fields.names s₀.collections ++ cs.map Collection.name).Nodup := by
    intro cs
    induction cs with
    | nil => exact fun _ hn => by simpa using hn
    | cons c cs ih =>
      intro s₀ s h hn
      rw [List.foldlM_cons] at h
      obtain ⟨s₁, hadd, h⟩ := Outcome.bind_eq_ok.1 h
      obtain ⟨hnames, hnew⟩ := names_add hadd
      have hn₁ : (Fields.names s₁.collections).Nodup := by
        rw [hnames]
        refine List.nodup_append.2 ⟨hn, List.nodup_singleton _, fun n hn' m hm hnm => hnew ?_⟩
        rwa [← List.mem_singleton.1 hm, ← hnm]
      have := ih h hn₁
      rwa [hnames, List.append_assoc] at this
  exact hfold h List.nodup_nil

namespace Term

theorem head_mem_nodes (t : Term) : t.head ∈ t.nodes := by
  induction t using spine.induct with
  | case1 id subject action ih =>
    rw [nodes, walk, List.map_cons, List.map_append]
    exact List.mem_cons_of_mem _ (List.mem_append_left _ ih)
  | case2 t ht =>
    cases t with
    | step id subject action => exact absurd rfl (ht id subject action)
    | _ => exact List.mem_cons_self

/-- What one node adds to the names stays among them. -/
theorem mem_foldl_of_mem {add : List String → Term → List String} {name : String} {t : Term}
    (hkeep : ∀ names s, name ∈ names → name ∈ add names s) (hadd : ∀ names, name ∈ add names t)
    {ts : List Term} (ht : t ∈ ts) (names : List String) : name ∈ ts.foldl add names := by
  have hkept : ∀ (ts : List Term) (names : List String), name ∈ names →
      name ∈ ts.foldl add names := by
    intro ts
    induction ts with
    | nil => exact fun _ hn => hn
    | cons s ts ih => exact fun names hn => ih _ (hkeep names s hn)
  induction ts generalizing names with
  | nil => cases ht
  | cons s ts ih =>
    rcases List.mem_cons.1 ht with rfl | ht
    · exact hkept ts _ (hadd names)
    · exact ih ht _

theorem mem_sources_of_mem_nodes {t : Term} {id : Nat} {name : String}
    (h : .source id name ∈ t.nodes) : name ∈ t.sources := by
  refine mem_foldl_of_mem (fun names s hn => ?_) (fun names => ?_) h []
  · split
    · split
      · exact hn
      · exact List.mem_append_left _ hn
    · exact hn
  · dsimp only
    split
    · rename_i hcontains
      exact List.contains_iff_mem.1 hcontains
    · exact List.mem_append_right _ (List.mem_singleton_self name)

end Term

namespace Store.Catalog

variable {c : Catalog} {settings : Settings} {dialect : Sql.Dialect} {db : Db} {e : Entry}
  {name : String}

/-- A catalog of document stores, no table longer than memory addresses reach. -/
def IsDocuments (c : Catalog) : Prop :=
  ∀ e ∈ c, ∃ t, e.contents = .documents t ∧ t.rows.length < 2 ^ 64

/-- No two entries of a registered catalog have one name. -/
theorem nodup_of_ofSources (h : Db.ofSources c.sources settings dialect = .ok db) :
    (c.map Entry.name).Nodup ∧
      db.sources = Fields.ofList (c.map fun e => (e.name, c.source e)) ∧ db.settings = settings := by
  obtain ⟨schema, hschema, h⟩ := Outcome.bind_eq_ok.1 h
  cases h
  have hnames := Schema.nodup_ofCollections hschema
  rw [sources, List.map_map, List.map_map] at hnames
  refine ⟨hnames, ?_, rfl⟩
  change Fields.ofList (List.map _ (List.map _ _)) = _
  rw [List.map_map]
  rfl

theorem entry_unique (hn : (c.map Entry.name).Nodup) {e e' : Entry} (he : e ∈ c) (he' : e' ∈ c)
    (h : e.name = e'.name) : e = e' :=
  List.inj_on_of_nodup_map hn he he' h

theorem source?_eq_some (h : Db.ofSources c.sources settings dialect = .ok db) {s : Source}
    (hs : db.source? name = some s) : ∃ e ∈ c, e.name = name ∧ s = c.source e := by
  obtain ⟨-, hsources, -⟩ := nodup_of_ofSources h
  rw [Db.source?, hsources] at hs
  rcases Fields.mem_of_mem_extend (Fields.mem_of_get? hs) with hm | hm
  · cases hm
  · obtain ⟨e, he, heq⟩ := List.mem_map.1 hm
    cases heq
    exact ⟨e, he, rfl, rfl⟩

theorem source?_of_mem (h : Db.ofSources c.sources settings dialect = .ok db) (he : e ∈ c) :
    db.source? e.name = some (c.source e) := by
  obtain ⟨hn, hsources, -⟩ := nodup_of_ofSources h
  have hnames : (Fields.names (c.map fun e => (e.name, c.source e))).Nodup := by
    rw [Fields.names, List.map_map]
    exact hn
  rw [Db.source?, hsources, Fields.ofList, Fields.get?_extend [] hnames,
    Fields.get?_of_mem hnames (List.mem_map.2 ⟨e, he, rfl⟩), Option.some_or]

theorem table_of_mem (hn : (c.map Entry.name).Nodup) {t : Table} (he : e ∈ c)
    (ht : e.contents = .documents t) : c.findSome? (·.table? e.store e.name) = some t := by
  have hfound : e.table? e.store e.name = some t := by simp [Entry.table?, ht]
  cases hc : c.findSome? (·.table? e.store e.name) with
  | none =>
    rw [List.findSome?_eq_none_iff.1 hc e he] at hfound
    cases hfound
  | some t' =>
    obtain ⟨e', he', ht'⟩ := List.exists_of_findSome?_eq_some hc
    have hname : e'.name = e.name := by
      unfold Entry.table? at ht'
      split at ht'
      · split at ht'
        · rename_i hboth
          exact eq_of_beq (Bool.and_eq_true_iff.1 hboth).2
        · cases ht'
      · cases ht'
    obtain rfl := entry_unique hn he' he hname
    rw [← ht', hfound]

/-- The backend of a request over document stores answers finds on its sources from the tables that
hold their elements. -/
theorem documentBackend_of_backend? (h : Db.ofSources c.sources settings dialect = .ok db)
    (hdocuments : c.IsDocuments) {r : Term} {b : Backend}
    (hb : db.backend? r = some b) : ∃ store, b = c.documentBackend store ∧
      ∀ name ∈ r.sources, ∃ e ∈ c, e.name = name ∧ e.store = store := by
  have hsource : ∀ {name : String} {b : Backend},
      (do (← db.source? name).backend? : Option Backend) = some b →
      ∃ e ∈ c, e.name = name ∧ b = c.documentBackend e.store := by
    intro name b hb
    obtain ⟨s, hs, hb⟩ := Option.bind_eq_some_iff.1 hb
    obtain ⟨e, he, hname, rfl⟩ := source?_eq_some h hs
    obtain ⟨t, ht, -⟩ := hdocuments e he
    refine ⟨e, he, hname, ?_⟩
    rw [source, ht] at hb
    cases hb
    rfl
  have hmapM : ∀ {names : List String} {bs : List Backend},
      (names.mapM fun name => do (← db.source? name).backend?) = some bs →
      (∀ b ∈ bs, ∃ e ∈ c, b = c.documentBackend e.store) ∧
      ∀ name ∈ names, ∃ e ∈ c, e.name = name ∧ c.documentBackend e.store ∈ bs := by
    intro names
    induction names with
    | nil =>
      intro bs hbs
      cases hbs
      exact ⟨fun _ h => (by cases h), fun _ h => (by cases h)⟩
    | cons name names ih =>
      intro bs hbs
      rw [List.mapM_cons] at hbs
      obtain ⟨b, hb, hbs⟩ := Option.bind_eq_some_iff.1 hbs
      obtain ⟨others, hothers, hbs⟩ := Option.bind_eq_some_iff.1 hbs
      cases hbs
      obtain ⟨e, he, hname, rfl⟩ := hsource hb
      obtain ⟨hstores, hentries⟩ := ih hothers
      refine ⟨fun b hb => ?_, fun n hn => ?_⟩
      · rcases List.mem_cons.1 hb with rfl | hb
        · exact ⟨e, he, rfl⟩
        · exact hstores b hb
      · rcases List.mem_cons.1 hn with rfl | hn
        · exact ⟨e, he, hname, List.mem_cons_self⟩
        · obtain ⟨e', he', hname', hmem⟩ := hentries n hn
          exact ⟨e', he', hname', List.mem_cons_of_mem _ hmem⟩
  unfold Db.backend? at hb
  obtain ⟨bs, hbs, hb⟩ := Option.bind_eq_some_iff.1 hb
  obtain ⟨first, hfirst, hb⟩ := Option.bind_eq_some_iff.1 hb
  obtain ⟨hstores, hentries⟩ := hmapM hbs
  split at hb
  · rename_i hall
    cases hb
    obtain ⟨e, -, rfl⟩ := hstores _ (List.mem_of_mem_head? hfirst)
    refine ⟨e.store, rfl, fun name hname => ?_⟩
    obtain ⟨e', he', hname', hmem⟩ := hentries name hname
    have hstore := eq_of_beq (List.all_eq_true.1 hall _ hmem)
    exact ⟨e', he', hname', String.append_right_inj _ |>.1 hstore⟩
  · cases hb

/-- A find runs on the table that the interpreter reads. -/
theorem runFind_eq (h : Db.ofSources c.sources settings dialect = .ok db)
    (hdocuments : c.IsDocuments) {q : Find} (he : e ∈ c) (hname : e.name = q.collection) :
    ∃ documents : List Document, db.input q.collection = documents.mapM Document.toValue ∧
      documents.length < 2 ^ 64 ∧ (c.runFind e.store (.find q)).outcome = q.answer documents := by
  obtain ⟨t, ht, hlen⟩ := hdocuments e he
  refine ⟨t.documents, ?_, ?_, ?_⟩
  · rw [← hname, Db.input, source?_of_mem h he]
    change e.all = _
    rw [Entry.all, ht]
    rfl
  · rwa [Table.documents, List.length_map]
  · rw [runFind, ← hname, table_of_mem (nodup_of_ofSources h).1 he ht]
    rfl

end Store.Catalog

end QueryPushdown
