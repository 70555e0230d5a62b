import QueryPushdown.Eval.Group
import QueryPushdown.Proofs.Pairs
import QueryPushdown.Proofs.Value.Equality

/-!
# Groups of equal keys

Elements are gathered one by one under the first key that equals their own. Whether places are
remembered by key or searched for one by one, requests group their elements in this way. Keys that are
compared alike open the same groups and fill them with the same members.
-/

namespace QueryPushdown

section Gathering

variable {κ α : Type}

/-- Adds an element to the first group under an equal key, or opens a new group at the end. -/
def joinGroup (same : κ → κ → Bool) (key : κ) (a : α) : List (κ × List α) → List (κ × List α)
  | [] => [(key, [a])]
  | (k, as) :: rest =>
    if same k key then (k, as ++ [a]) :: rest else (k, as) :: joinGroup same key a rest

/-- Elements grouped by their keys, in order of the first member. -/
def gather (same : κ → κ → Bool) (keyed : List (κ × α)) : List (κ × List α) :=
  keyed.foldl (fun groups p => joinGroup same p.1 p.2 groups) []

theorem length_joinGroup_le (same : κ → κ → Bool) (key : κ) (a : α) (groups : List (κ × List α)) :
    (joinGroup same key a groups).length ≤ groups.length + 1 := by
  induction groups with
  | nil => exact Nat.le_refl _
  | cons g groups ih =>
    rw [joinGroup]
    split
    · exact Nat.le_succ _
    · exact Nat.succ_le_succ ih

/-- There are no more groups than elements. -/
theorem length_gather_le (same : κ → κ → Bool) (keyed : List (κ × α)) :
    (gather same keyed).length ≤ keyed.length := by
  have hfold : ∀ groups : List (κ × List α),
      (keyed.foldl (fun groups p => joinGroup same p.1 p.2 groups) groups).length ≤
        groups.length + keyed.length := by
    induction keyed with
    | nil => exact fun groups => Nat.le_refl _
    | cons p keyed ih =>
      intro groups
      have hjoin := length_joinGroup_le same p.1 p.2 groups
      have hrest := ih (joinGroup same p.1 p.2 groups)
      rw [List.foldl_cons, List.length_cons]
      omega
  have h := hfold []
  rwa [List.length_nil, Nat.zero_add] at h

variable {μ β : Type} {R : κ × α → μ × β → Prop}

/-- Two groups have members in pairs, and the keys go with the first ones. -/
def GroupsMatch (R : κ × α → μ × β → Prop) (g : κ × List α) (h : μ × List β) : Prop :=
  List.Forall₂ (fun a b => ∃ k l, R (k, a) (l, b)) g.2 h.2 ∧
    ∃ a as b bs, g.2 = a :: as ∧ h.2 = b :: bs ∧ R (g.1, a) (h.1, b)

/-- Pairs whose keys are compared alike are gathered into groups that match. -/
theorem gather_match {same : κ → κ → Bool} {same' : μ → μ → Bool}
    (hsame : ∀ p q p' q', R p q → R p' q' → same p.1 p'.1 = same' q.1 q'.1)
    {ps : List (κ × α)} {qs : List (μ × β)} (h : List.Forall₂ R ps qs) :
    List.Forall₂ (GroupsMatch R) (gather same ps) (gather same' qs) := by
  have hjoin : ∀ {gs hs p q}, R p q → List.Forall₂ (GroupsMatch R) gs hs →
      List.Forall₂ (GroupsMatch R) (joinGroup same p.1 p.2 gs) (joinGroup same' q.1 q.2 hs) := by
    intro gs hs p q hpq hgs
    induction hgs with
    | nil => exact .cons ⟨.cons ⟨_, _, hpq⟩ .nil, _, _, _, _, rfl, rfl, hpq⟩ .nil
    | @cons g h gs hs hgh hrest ih =>
      obtain ⟨k, as⟩ := g
      obtain ⟨l, bs⟩ := h
      obtain ⟨hmembers, a, as', b, bs', rfl, rfl, hfirst⟩ := hgh
      rw [joinGroup, joinGroup, hsame _ _ _ _ hfirst hpq]
      split
      · exact .cons ⟨List.rel_append hmembers (.cons ⟨_, _, hpq⟩ .nil), _, _, _, _, rfl, rfl,
          hfirst⟩ hrest
      · exact .cons ⟨hmembers, _, _, _, _, rfl, rfl, hfirst⟩ ih
  have hfold : ∀ {gs hs}, List.Forall₂ (GroupsMatch R) gs hs → List.Forall₂ (GroupsMatch R)
      (ps.foldl (fun groups p => joinGroup same p.1 p.2 groups) gs)
      (qs.foldl (fun groups p => joinGroup same' p.1 p.2 groups) hs) := by
    induction h with
    | nil => exact id
    | cons hpq _ ih => exact fun hgs => ih (hjoin hpq hgs)
  exact hfold .nil

end Gathering

namespace Groups

variable {groups : List (Value × List Value)} {key element v : Value}

/-- The element joins the first group with an equal key. -/
theorem add_placeOf (groups : List (Value × List Value)) (key element : Value) :
    add groups (placeOf groups key) key element = joinGroup Value.isEq key element groups := by
  unfold placeOf
  induction groups with
  | nil => rfl
  | cons g groups ih =>
    obtain ⟨k, members⟩ := g
    rw [List.findIdx_cons, joinGroup]
    cases k.isEq key with
    | true => rfl
    | false => exact congrArg _ ih

theorem placeOf_eq_findIdx (groups : List (Value × List Value)) (v : Value) :
    placeOf groups v = (groups.map Prod.fst).findIdx (·.isEq v) := by
  rw [List.findIdx_map]
  rfl

/-- A key that equals none opens a group under it. -/
theorem map_fst_joinGroup (groups : List (Value × List Value)) (key element : Value) :
    (joinGroup Value.isEq key element groups).map Prod.fst =
      if placeOf groups key < groups.length then groups.map Prod.fst
      else groups.map Prod.fst ++ [key] := by
  unfold placeOf
  induction groups with
  | nil => rfl
  | cons g groups ih =>
    obtain ⟨k, members⟩ := g
    rw [List.findIdx_cons, joinGroup]
    cases k.isEq key with
    | true => exact (if_pos (Nat.succ_pos _)).symm
    | false =>
      simp only [Bool.false_eq_true, if_false, cond_false, List.map_cons, ih, List.length_cons,
        Nat.add_lt_add_iff_right]
      split <;> rfl

/-- The places that are remembered are those of the groups, as long as all values have keys. -/
def Remembers (g : Groups) : Prop := ∀ places, g.places = some places → ∀ v k, v.key? = some k →
  placeOf g.groups v = (places.lookup k).getD g.groups.length ∧
    ∀ place, places.lookup k = some place → place < g.groups.length

/-- A group that is opened is found by the values that no other group is for. -/
theorem placeOf_opened {groups' : List (Value × List Value)}
    (h : groups'.map Prod.fst = groups.map Prod.fst ++ [key]) (v : Value) :
    placeOf groups' v = if placeOf groups v < groups.length then placeOf groups v
      else groups.length + if key.isEq v then 0 else 1 := by
  rw [placeOf_eq_findIdx, h, List.findIdx_append, ← placeOf_eq_findIdx, List.length_map]
  cases hv : key.isEq v <;> simp [hv, List.findIdx_cons, Nat.add_comm]

/-- A place is remembered for the key of a group that is opened, and the others stay. -/
theorem Remembers.opened {places : List (Key × Nat)} {groups' : List (Value × List Value)}
    {k : Key} (h : ({ groups, places := some places } : Groups).Remembers)
    (hk : key.key? = some k) (hnew : places.lookup k = none)
    (hkeys : groups'.map Prod.fst = groups.map Prod.fst ++ [key]) :
    ({ groups := groups', places := some ((k, groups.length) :: places) } : Groups).Remembers := by
  intro places' hplaces v l hv
  cases hplaces
  have hlength := congrArg List.length hkeys
  rw [List.length_map, List.length_append, List.length_map, List.length_singleton] at hlength
  obtain ⟨hplace, hlt⟩ := h places rfl v l hv
  dsimp only at hplace hlt ⊢
  rw [placeOf_opened hkeys, hlength, List.lookup_cons, hplace]
  by_cases hsame : l = k
  · subst hsame
    rw [beq_self_eq_true, hnew, Value.isEq_of_key? hk hv]
    simp
  · have hother : key.isEq v = false := Bool.eq_false_iff.2 fun heq =>
      hsame (Option.some.inj (hv.symm.trans ((Value.key?_of_isEq heq).symm.trans hk)))
    rw [beq_false_of_ne hsame, hother]
    cases hlookup : places.lookup l with
    | none => simp
    | some place =>
      have hlt := hlt place hlookup
      dsimp only
      rw [Option.getD_some, Option.getD_some, if_pos hlt]
      exact ⟨rfl, fun _ he => Nat.lt_succ_of_lt (Option.some.inj he ▸ hlt)⟩

theorem Remembers.insert {g : Groups} (h : g.Remembers) (key element : Value) :
    (g.insert key element).groups = joinGroup Value.isEq key element g.groups ∧
      (g.insert key element).Remembers := by
  obtain ⟨places, groups⟩ := g
  have hkeys := map_fst_joinGroup groups key element
  rw [← add_placeOf] at hkeys ⊢
  unfold Groups.insert
  split
  · rename_i places k hplaces hk
    cases hplaces
    obtain ⟨hplace, hlt⟩ := h places rfl key k hk
    split
    · rename_i place hlookup
      rw [hlookup, Option.getD_some] at hplace
      rw [hplace, if_pos (hlt place hlookup)] at hkeys
      refine ⟨by rw [hplace], fun places' hplaces' v k' hv => ?_⟩
      have hlength := congrArg List.length hkeys
      rw [List.length_map, List.length_map] at hlength
      dsimp only at hplaces' ⊢
      rw [placeOf_eq_findIdx, hkeys, ← placeOf_eq_findIdx, hlength]
      exact h places' hplaces' v k' hv
    · rename_i hlookup
      rw [hlookup, Option.getD_none] at hplace
      rw [hplace, if_neg (Nat.lt_irrefl _)] at hkeys
      exact ⟨by rw [hplace], h.opened hk hlookup hkeys⟩
  · exact ⟨rfl, fun places hplaces => nomatch hplaces⟩

/-- Whether or not all values have keys, elements are gathered under the first key that equals
theirs. -/
theorem foldl_insert_eq_gather (keyed : List (Value × Value)) :
    (keyed.foldl (fun (g : Groups) p => g.insert p.1 p.2) {}).groups =
      gather Value.isEq keyed := by
  have hfold : ∀ {g : Groups}, g.Remembers →
      (keyed.foldl (fun (g : Groups) p => g.insert p.1 p.2) g).groups =
        keyed.foldl (fun groups p => joinGroup Value.isEq p.1 p.2 groups) g.groups := by
    induction keyed with
    | nil => exact fun _ => rfl
    | cons p keyed ih =>
      intro g hg
      obtain ⟨hgroups, hmore⟩ := hg.insert p.1 p.2
      rw [List.foldl_cons, List.foldl_cons, ih hmore, hgroups]
  refine hfold fun places hplaces v k _ => ?_
  cases hplaces
  exact ⟨rfl, fun _ h => nomatch h⟩

end Groups

end QueryPushdown
