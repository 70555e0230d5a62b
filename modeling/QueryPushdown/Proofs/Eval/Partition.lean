import QueryPushdown.Proofs.Eval.Grouping
import QueryPushdown.Proofs.Eval.Occurrences
import QueryPushdown.Proofs.Value.Classes

/-!
# Distinct elements and groups

Both go by the quadratic definition, whether or not all values have keys. Distinct elements are those that
equal no element yielded before. A group is opened by an element whose key equals that of no group before,
and takes the later elements with an equal key; no element is lost, and none is in two groups.
-/

namespace QueryPushdown

section Gathering

variable {κ α : Type} {same : κ → κ → Bool}

theorem foldl_joinGroup (g : κ × List α) (groups : List (κ × List α)) (keyed : List (κ × α)) :
    keyed.foldl (fun groups p => joinGroup same p.1 p.2 groups) (g :: groups) =
      (g.1, g.2 ++ (keyed.filter fun p => same g.1 p.1).map Prod.snd) ::
        (keyed.filter fun p => !same g.1 p.1).foldl
          (fun groups p => joinGroup same p.1 p.2 groups) groups := by
  induction keyed generalizing g groups with
  | nil => rw [List.filter_nil, List.map_nil, List.append_nil]; rfl
  | cons p keyed ih =>
    obtain ⟨k, members⟩ := g
    rw [List.foldl_cons, joinGroup]
    cases hp : same k p.1 with
    | true =>
      rw [if_pos rfl, ih]
      simp [hp]
    | false =>
      rw [if_neg Bool.false_ne_true, ih]
      simp [hp]

/-- The first group is opened by the first element and takes all elements with an equal key. -/
theorem gather_cons (k : κ) (a : α) (keyed : List (κ × α)) :
    gather same ((k, a) :: keyed) =
      (k, a :: (keyed.filter fun p => same k p.1).map Prod.snd) ::
        gather same (keyed.filter fun p => !same k p.1) :=
  foldl_joinGroup (k, [a]) [] keyed

/-- There is a group for each first occurrence of a key, in this order. -/
theorem map_fst_gather (keyed : List (κ × α)) :
    (gather same keyed).map Prod.fst =
      (keyed.map Prod.fst).eraseDupsBy fun b a => same a b := by
  match keyed with
  | [] => rfl
  | (k, a) :: keyed =>
    have hrest := map_fst_gather (keyed.filter fun p => !same k p.1)
    have hfilter : (keyed.filter fun p => !same k p.1).map Prod.fst =
        (keyed.map Prod.fst).filter fun b => decide (same k b = false) := by
      rw [List.filter_map]
      refine congrArg (List.map Prod.fst) (List.filter_congr fun p _ => ?_)
      rw [Function.comp_apply]
      cases same k p.1 <;> rfl
    rw [gather_cons, List.map_cons, List.map_cons, List.eraseDupsBy_cons, hrest, hfilter]
termination_by keyed.length
decreasing_by exact Occurrences.length_filter_lt _ _ _

/-- Each element is in one group. -/
theorem flatMap_gather_perm (keyed : List (κ × α)) :
    ((gather same keyed).flatMap Prod.snd).Perm (keyed.map Prod.snd) := by
  match keyed with
  | [] => exact .nil
  | (k, a) :: keyed =>
    have hrest := flatMap_gather_perm (keyed.filter fun p => !same k p.1)
    have hparts : ((keyed.filter fun p => same k p.1) ++ keyed.filter fun p => !same k p.1).Perm
        keyed := List.filter_append_perm _ _
    have hall := hparts.map Prod.snd
    rw [List.map_append] at hall
    rw [gather_cons, List.flatMap_cons, List.map_cons, List.cons_append]
    exact ((hrest.append_left _).trans hall).cons a
termination_by keyed.length
decreasing_by exact Occurrences.length_filter_lt _ _ _

/-- A group has the element that opened it and the later elements whose key equals its own. No key before
it does. -/
theorem opened_of_mem_gather {keyed : List (κ × α)} {g : κ × List α}
    (htrans : ∀ a b c, same a b = true → same b c = true → same a c = true)
    (hsymm : ∀ p ∈ keyed, ∀ q ∈ keyed, same p.1 q.1 = same q.1 p.1)
    (hg : g ∈ gather same keyed) :
    ∃ before a after, keyed = before ++ (g.1, a) :: after ∧
      (∀ p ∈ before, same p.1 g.1 = false) ∧
      g.2 = a :: (after.filter fun p => same p.1 g.1).map Prod.snd := by
  match keyed with
  | [] => cases hg
  | (k, a) :: keyed =>
    rw [gather_cons] at hg
    obtain ⟨hfirst, hothers⟩ := List.forall_mem_cons.1 hsymm
    obtain ⟨-, hk⟩ := List.forall_mem_cons.1 hfirst
    rcases List.mem_cons.1 hg with rfl | hg
    · refine ⟨[], a, keyed, rfl, fun _ hp => (by cases hp), ?_⟩
      exact congrArg (a :: List.map Prod.snd ·) (List.filter_congr fun p hp => hk p hp)
    · have hsub : ∀ p ∈ keyed.filter fun p => !same k p.1, p ∈ keyed :=
        fun p hp => (List.mem_filter.1 hp).1
      obtain ⟨before, b, after, hsplit, hbefore, hmembers⟩ := opened_of_mem_gather htrans
        (fun p hp q hq => (List.forall_mem_cons.1 (hothers p (hsub p hp))).2 q (hsub q hq)) hg
      obtain ⟨front, back, rfl, rfl, hback⟩ := List.filter_eq_append_iff.1 hsplit
      obtain ⟨skipped, rest, rfl, hskipped, hnew, rfl⟩ := List.filter_eq_cons_iff.1 hback
      have hnew : same k g.1 = false := by simpa using hnew
      -- What equals the first key cannot equal a key that does not.
      have hapart : ∀ {q : κ}, same k q = true → same q g.1 = false := fun {q} hq => by
        rw [Bool.eq_false_iff]
        intro h
        rw [htrans k q g.1 hq h] at hnew
        cases hnew
      refine ⟨(k, a) :: front ++ skipped, b, rest, by simp, fun p hp => ?_, ?_⟩
      · rcases List.mem_append.1 hp with hp | hp
        · rcases List.mem_cons.1 hp with rfl | hp
          · exact hnew
          · cases hsame : same k p.1 with
            | true => exact hapart hsame
            | false => exact hbefore p (List.mem_filter.2 ⟨hp, by rw [hsame]; rfl⟩)
        · exact hapart (by simpa using hskipped p hp)
      · rw [hmembers, List.filter_filter]
        refine congrArg (b :: List.map Prod.snd ·) (List.filter_congr fun p _ => ?_)
        cases hsame : same k p.1 with
        | true => rw [hapart hsame]; rfl
        | false => exact Bool.and_true _
termination_by keyed.length
decreasing_by exact Occurrences.length_filter_lt _ _ _

end Gathering

theorem Occurrences.eraseDupsBy_concat {α : Type} (r : α → α → Bool) (xs : List α) (y : α) :
    (xs ++ [y]).eraseDupsBy r =
      if (xs.eraseDupsBy r).any (r y) then xs.eraseDupsBy r else xs.eraseDupsBy r ++ [y] := by
  match xs with
  | [] => rfl
  | x :: xs =>
    have hrest := eraseDupsBy_concat r (xs.filter fun b => decide (r b x = false)) y
    rw [List.cons_append, List.eraseDupsBy_cons, List.filter_append, List.eraseDupsBy_cons,
      List.any_cons]
    cases hy : r y x with
    | true => simp [hy]
    | false =>
      have hkept : [y].filter (fun b => decide (r b x = false)) = [y] := by simp [hy]
      rw [hkept, hrest, Bool.false_or]
      split <;> rfl
termination_by xs.length
decreasing_by exact length_filter_lt _ _ _

/-- The first occurrences among elements one by one: an element is kept unless it equals one that was
kept before. -/
theorem Value.firsts_concat (vs : List Value) (v : Value) : firsts (vs ++ [v]) =
    if (firsts vs).any (·.isEq v) then firsts vs else firsts vs ++ [v] :=
  Occurrences.eraseDupsBy_concat _ vs v

/-- What a group becomes: its key, with its elements or what is aggregated over them. -/
def groupElement (input : Input) (scope : Scope) (aggregates : List (String × Term))
    (g : Value × List Value) : Outcome Value :=
  if aggregates.isEmpty then .ok (.mapping [("key", g.1), ("group", .list g.2)])
  else do
    let fields ← (evalFields input (.list g.2 :: scope) aggregates).outcome
    pure (.mapping (Fields.extend [("key", g.1)] fields))

namespace Term

variable {input : Input} {scope : Scope} {id : Nat} {subject key : Term} {w : Value}
  {vs : List Value} {ks : Value → Value}

/-- A step that groups elements whose keys do not fail makes an element of each group. -/
theorem outcome_groupby (aggregates : List (String × Term))
    (hw : subject.outcome input scope = .ok w) (hvs : w.sequence = .ok vs)
    (hks : ∀ v ∈ vs, key.outcome input (v :: scope) = .ok (ks v)) :
    (step id subject (.groupby key aggregates)).outcome input scope = (do
      pure (.list (← (gather Value.isEq (vs.map fun v => (ks v, v))).mapM
        (groupElement input scope aggregates)))) := by
  have hfold : ∀ g : Groups, vs.foldlM (fun (groups : Groups) v => do
      pure (groups.insert (← key.outcome input (v :: scope)) v)) g =
      .ok (vs.foldl (fun groups v => groups.insert (ks v) v) g) := by
    clear hvs
    induction vs with
    | nil => exact fun _ => rfl
    | cons v vs ih =>
      intro g
      obtain ⟨hv, hrest⟩ := List.forall_mem_cons.1 hks
      rw [List.foldlM_cons, hv]
      exact ih hrest _
  have hgather := Groups.foldl_insert_eq_gather (vs.map fun v => (ks v, v))
  rw [List.foldl_map] at hgather
  rw [outcome_step _ hw, Step.outcome_groupby, hvs]
  have hgroups := hfold {}
  simp only [bind, Except.bind] at hgroups ⊢
  rw [hgroups]
  dsimp only
  rw [hgather]
  rfl

/-- A group of a key that holds no `NaN` has all the elements with an equal key. The others are left with
the element that opened them. -/
theorem members_of_mem_gather (hks : ∀ v ∈ vs, (ks v).Distinct) {g : Value × List Value}
    (hg : g ∈ gather Value.isEq (vs.map fun v => (ks v, v))) :
    ∃ before v after, vs = before ++ v :: after ∧ ks v = g.1 ∧
      (∀ u ∈ before, (ks u).isEq g.1 = false) ∧
      g.2 = v :: after.filter (fun u => (ks u).isEq g.1) ∧
      (g.1.WithoutNaN → g.2 = vs.filter fun u => (ks u).isEq g.1) := by
  have hdistinct : ∀ p ∈ vs.map fun v => (ks v, v), p.1.Distinct := List.forall_mem_map.2 hks
  obtain ⟨front, v, back, hsplit, hbefore, hmembers⟩ := opened_of_mem_gather
    (fun a b c => @Value.isEq_trans a b c)
    (fun p hp q hq => Value.isEq_comm (hdistinct p hp) (hdistinct q hq)) hg
  obtain ⟨before, rest, rfl, rfl, hrest⟩ := List.map_eq_append_iff.1 hsplit
  obtain ⟨u, after, rfl, hopener, rfl⟩ := List.map_eq_cons_iff.1 hrest
  obtain ⟨hkey, rfl⟩ := Prod.mk.inj hopener
  have hbefore := List.forall_mem_map.1 hbefore
  have hmembers : g.2 = u :: after.filter fun w => (ks w).isEq g.1 := by
    rw [hmembers, List.filter_map, List.map_map]
    exact congrArg (u :: ·) (List.map_id' _)
  refine ⟨before, u, after, rfl, hkey, hbefore, hmembers, fun hnan => ?_⟩
  have hself : (ks u).isEq g.1 = true := by
    rw [hkey, Value.isEq_self_iff (hkey ▸ hks u (by simp))]
    exact hnan
  have hnone : before.filter (fun w => (ks w).isEq g.1) = [] := by
    rw [List.filter_eq_nil_iff]
    intro w hw
    rw [hbefore w hw]
    exact Bool.false_ne_true
  rw [hmembers, List.filter_append, hnone, List.nil_append, List.filter_cons, hself, if_pos rfl]

/-- Distinct elements are those that equal none yielded before. Groups are opened by the first occurrences of
their keys, in order; a group has the element that opened it and all the others whose key equals its own, in
order, and every element is in one group. Only a key that holds a `NaN` does not equal itself. -/
theorem outcome_distinct_groupby (aggregates : List (String × Term))
    (hw : subject.outcome input scope = .ok w) (hvs : w.sequence = .ok vs) :
    (step id subject .distinct).outcome input scope = .ok (.list (Value.firsts vs)) ∧
    (∀ us u, Value.firsts (us ++ [u]) =
      if (Value.firsts us).any (·.isEq u) then Value.firsts us else Value.firsts us ++ [u]) ∧
    ((∀ v ∈ vs, key.outcome input (v :: scope) = .ok (ks v) ∧ (ks v).Distinct) →
      ∃ groups : List (Value × List Value),
        (step id subject (.groupby key aggregates)).outcome input scope =
          (do pure (.list (← groups.mapM (groupElement input scope aggregates)))) ∧
        groups.map Prod.fst = Value.firsts (vs.map ks) ∧
        (groups.flatMap Prod.snd).Perm vs ∧
        ∀ g ∈ groups, ∃ before v after, vs = before ++ v :: after ∧ ks v = g.1 ∧
          (∀ u ∈ before, (ks u).isEq g.1 = false) ∧
          g.2 = v :: after.filter (fun u => (ks u).isEq g.1) ∧
          (g.1.WithoutNaN → g.2 = vs.filter fun u => (ks u).isEq g.1)) := by
  refine ⟨?_, Value.firsts_concat, fun hks => ?_⟩
  · rw [outcome_step _ hw, Step.outcome_distinct, hvs, ← Seen.fresh_eq_firsts]
    rfl
  · have hperm := @flatMap_gather_perm _ _ Value.isEq (vs.map fun v => (ks v, v))
    have hkeys := @map_fst_gather _ _ Value.isEq (vs.map fun v => (ks v, v))
    rw [List.map_map] at hperm hkeys
    refine ⟨_, outcome_groupby aggregates hw hvs fun v hv => (hks v hv).1, hkeys, ?_,
      fun g hg => members_of_mem_gather (fun v hv => (hks v hv).2) hg⟩
    exact hperm.trans (.of_eq (List.map_id' vs))

end Term

/-- Elements with keys before and after elements without. -/
def Value.mixed : List Value :=
  [.int 1, .list [.int 2], .float ⟨0x3FF0000000000000⟩, .float .nan,
    .list [.float ⟨0x4000000000000000⟩], .float .nan]

theorem Value.distinct_of_mem_mixed : ∀ v ∈ mixed, v.Distinct := by
  intro v hv
  simp only [mixed, List.mem_cons, List.not_mem_nil, or_false] at hv
  rcases hv with rfl | rfl | rfl | rfl | rfl | rfl
  · exact .int 1
  · exact .list fun u hu => List.mem_singleton.1 hu ▸ .int 2
  · exact .float _
  · exact .float _
  · exact .list fun u hu => List.mem_singleton.1 hu ▸ .float _
  · exact .float _

theorem Value.firsts_mixed :
    firsts mixed = [.int 1, .list [.int 2], .float .nan, .float .nan] := by
  have hone : (int 1).isEq (.float ⟨0x3FF0000000000000⟩) = true := by decide +kernel
  have htwo : (list [.int 2]).isEq (.list [.float ⟨0x4000000000000000⟩]) = true := by
    decide +kernel
  have hnan : (int 1).isEq (.float .nan) = false ∧ (float .nan).isEq (.float .nan) = false := by
    decide +kernel
  have hkinds : (int 1).isEq (.list [.int 2]) = false ∧
      (int 1).isEq (.list [.float ⟨0x4000000000000000⟩]) = false ∧
      (list [.int 2]).isEq (.float .nan) = false := ⟨rfl, rfl, rfl⟩
  simp [firsts, mixed, List.eraseDupsBy_cons, hone, htwo, hnan, hkinds]

theorem Value.mixed_distinct_groupby :
    (Term.step 2 (.literal 0 (.list mixed)) .distinct).outcome .empty [] =
      .ok (.list [.int 1, .list [.int 2], .float .nan, .float .nan]) ∧
    ∃ groups : List (Value × List Value),
      (Term.step 2 (.literal 0 (.list mixed)) (.groupby (.context 1 0) [])).outcome .empty [] =
        .ok (.list (groups.map fun g => .mapping [("key", g.1), ("group", .list g.2)])) ∧
      groups.map Prod.fst = [.int 1, .list [.int 2], .float .nan, .float .nan] ∧
      (groups.flatMap Prod.snd).Perm mixed := by
  obtain ⟨hdistinct, -, hgroupby⟩ := @Term.outcome_distinct_groupby .empty [] 2
    (.literal 0 (.list mixed)) (.context 1 0) (.list mixed) mixed (fun v => v) [] rfl rfl
  obtain ⟨groups, houtcome, hkeys, hperm, -⟩ :=
    hgroupby fun v hv => ⟨rfl, distinct_of_mem_mixed v hv⟩
  rw [List.map_id', firsts_mixed] at hkeys
  refine ⟨firsts_mixed ▸ hdistinct, groups, ?_, hkeys, hperm⟩
  have helements : groups.mapM (groupElement .empty [] []) =
      .ok (groups.map fun g => mapping [("key", g.1), ("group", .list g.2)]) :=
    Outcome.mapM_eq_map fun _ _ => rfl
  rw [houtcome, helements]
  rfl

/-- The group of a `NaN` has the element that opened it, although no key equals its own. -/
theorem Term.groupby_nan :
    (step 2 (literal 0 (.list [.float .nan])) (.groupby (context 1 0) [])).outcome .empty [] =
      .ok (.list [.mapping [("key", .float .nan), ("group", .list [.float .nan])]]) ∧
    [Value.float .nan].filter (fun key => key.isEq (.float .nan)) = [] := ⟨rfl, rfl⟩

end QueryPushdown
