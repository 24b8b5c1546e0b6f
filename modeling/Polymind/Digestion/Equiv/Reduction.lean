import Polymind.Digestion.Equiv.Coverage
import Polymind.Lib.Forest

/-!
# The reduction loops

What `reduce_group` and the loop over the reversed units do.  `Formed` is what is known of a reducer
by itself; `Drafted` says that the reducers so far are a forest over the chunks, and which stages
have no parent yet.

* `reduceGroup_ne_diverges`: the grouping loop ends on every list it enters;
* `reduceUnits_formed`: every reducer keeps to the fan-in, the depth and the capacity;
* `reduceGroup_drafted`: one unit turns its children into one stage;
* `reduceUnits_builds`: in the end only the root has no parent.
-/

namespace Polymind.Digestion

open Json Documents Forest

variable {U : Type} [DecidableEq U] {ids : Ids U} {a : ExtractionArtifact U}
  {profile : DigestionProfile}

/-! ### Groups -/

theorem groupsOf_nil {α : Type} {n : Nat} (hn : 0 < n) : groupsOf n ([] : List α) = [] := by
  have hzero : (([] : List α).length + n - 1) / n = 0 := by
    rw [List.length_nil, Nat.zero_add]
    exact Nat.div_eq_of_lt (by omega)
  rw [groupsOf, hzero]
  rfl

theorem groupsOf_cons {α : Type} {n : Nat} (hn : 0 < n) {l : List α} (hl : l ≠ []) :
    groupsOf n l = l.take n :: groupsOf n (l.drop n) := by
  have hpos : 0 < l.length := List.length_pos_of_ne_nil hl
  have hcount : (l.length + n - 1) / n = ((l.drop n).length + n - 1) / n + 1 := by
    rw [List.length_drop]
    rcases Nat.lt_or_ge l.length n with hlt | hge
    · have hone : (l.length + n - 1) / n = 1 := by
        refine Nat.div_eq_of_lt_le ?_ ?_ <;> omega
      have hzero : (l.length - n + n - 1) / n = 0 := Nat.div_eq_of_lt (by omega)
      rw [hone, hzero]
    · rw [show l.length + n - 1 = (l.length - n + n - 1) + n by omega, Nat.add_div_right _ hn]
  rw [groupsOf, hcount, List.range_succ_eq_map, List.map_cons, List.map_map, groupsOf]
  simp only [Nat.zero_mul, List.drop_zero]
  refine congrArg _ (List.map_congr_left fun i _ => ?_)
  simp only [Function.comp]
  rw [List.drop_drop, Nat.succ_mul, Nat.add_comm]

/-- Induction over the groups of a list. -/
theorem groupsOf_induction {α : Type} {n : Nat} (hn : 0 < n) {P : List α → Prop} (hnil : P [])
    (hcons : ∀ l, l ≠ [] → P (l.drop n) → P l) : ∀ l, P l := by
  intro l
  induction hlen : l.length using Nat.strong_induction_on generalizing l with
  | _ k ih =>
    by_cases hl : l = []
    · exact hl ▸ hnil
    · have hpos : 0 < l.length := List.length_pos_of_ne_nil hl
      refine hcons l hl (ih (l.drop n).length ?_ _ rfl)
      rw [List.length_drop]
      omega

/-- The groups of a list, joined, are the list. -/
theorem groupsOf_flatten {α : Type} {n : Nat} (hn : 0 < n) (l : List α) :
    (groupsOf n l).flatten = l := by
  induction l using groupsOf_induction hn with
  | hnil => rw [groupsOf_nil hn]; rfl
  | hcons l hl ih => rw [groupsOf_cons hn hl, List.flatten_cons, ih, List.take_append_drop]

theorem mem_groupsOf {α : Type} {n : Nat} (hn : 0 < n) {l g : List α} (hg : g ∈ groupsOf n l) :
    g ≠ [] ∧ g.length ≤ n := by
  induction l using groupsOf_induction hn with
  | hnil =>
    rw [groupsOf_nil hn] at hg
    cases hg
  | hcons l hl ih =>
    rw [groupsOf_cons hn hl, List.mem_cons] at hg
    rcases hg with rfl | hg
    · refine ⟨?_, by rw [List.length_take]; omega⟩
      rw [Ne, List.take_eq_nil_iff]
      rintro (rfl | rfl)
      · omega
      · exact hl rfl
    · exact ih hg

/-- Groups of two or more shorten a list of two or more. -/
theorem length_groupsOf_le {α : Type} {n : Nat} (hn : 0 < n) (l : List α) :
    (groupsOf n l).length ≤ l.length ∧ (2 ≤ n → 2 ≤ l.length → (groupsOf n l).length < l.length) := by
  induction l using groupsOf_induction hn with
  | hnil => rw [groupsOf_nil hn]; simp
  | hcons l hl ih =>
    have hpos : 0 < l.length := List.length_pos_of_ne_nil hl
    rw [groupsOf_cons hn hl, List.length_cons]
    have hdrop : (l.drop n).length = l.length - n := List.length_drop
    omega

theorem groupsOf_ne_nil {α : Type} {n : Nat} (hn : 0 < n) {l : List α} (hl : l ≠ []) :
    groupsOf n l ≠ [] := by
  rw [groupsOf_cons hn hl]
  exact List.cons_ne_nil _ _

/-! ### Termination -/

/-- A step that gives one key for each group, or raises. -/
theorem formReducer_following {chunkCount : Nat} {node : StructuralUnit U} {allow : Allowance}
    {s t : Draft U × List U} {group : List U}
    (h : formReducer ids a profile chunkCount node allow s group = .ok t) :
    t.2.length = s.2.length + 1 := by
  unfold formReducer at h
  rw [bind_eq_ok] at h
  obtain ⟨levels, -, h⟩ := h
  dsimp only at h
  split at h
  · cases h
  rw [bind_eq_ok] at h
  obtain ⟨positions, -, h⟩ := h
  split at h
  · cases h
  rw [← Except.ok.inj h]
  simp

theorem lookupAll_ne_diverges (d : Dict U Nat) (keys : List U) :
    lookupAll d keys ≠ .error .diverges := by
  refine mapM_ne_error fun k _ => ?_
  split <;> simp

theorem formReducer_ne_diverges (chunkCount : Nat) (node : StructuralUnit U) (allow : Allowance)
    (s : Draft U × List U) (group : List U) :
    formReducer ids a profile chunkCount node allow s group ≠ .error .diverges := by
  unfold formReducer
  refine bind_ne_error (lookupAll_ne_diverges _ _) fun levels _ => ?_
  dsimp only
  split
  · simp [limitExceeded]
  · refine bind_ne_error (lookupAll_ne_diverges _ _) fun positions _ => ?_
    split <;> simp [limitExceeded]

theorem formReducers_following {chunkCount : Nat} {node : StructuralUnit U} {allow : Allowance}
    {groups : List (List U)} {s : Draft U} {t : Draft U × List U}
    (h : groups.foldlM (formReducer ids a profile chunkCount node allow) (s, []) = .ok t) :
    t.2.length = groups.length := by
  refine foldlM_ok_prefix (fun done t => t.2.length = done.length) h rfl ?_
  intro done group s t _ hs ht
  rw [formReducer_following ht, hs, List.length_append, List.length_singleton]

/-- The `while True` of `reduce_group` ends: with a capacity of two or more every round shortens the
list, and a single child needs one round only. -/
theorem reduceLoop_ne_diverges {chunkCount : Nat} {node : StructuralUnit U} {allow : Allowance}
    (hcapacity : 0 < allow.capacity.toNat) :
    ∀ (rounds : Nat) (current : List U) (s : Draft U), current ≠ [] → current.length ≤ rounds →
      2 ≤ allow.capacity.toNat ∨ current.length = 1 →
      reduceLoop ids a profile chunkCount node allow rounds current s ≠ .error .diverges := by
  intro rounds
  induction rounds with
  | zero =>
    intro current s hne hlen
    exact absurd (List.eq_nil_of_length_eq_zero (by omega)) hne
  | succ rounds ih =>
    intro current s hne hlen hshort
    rw [reduceLoop]
    refine bind_ne_error (foldlM_ne_error (fun s g _ => formReducer_ne_diverges _ _ _ s g) _) ?_
    rintro ⟨t, following⟩ hfold
    have hcount : following.length = _ := formReducers_following hfold
    obtain ⟨hle, hlt⟩ := length_groupsOf_le hcapacity current
    have hpos : 0 < following.length := by
      rw [hcount]
      exact List.length_pos_of_ne_nil (groupsOf_ne_nil hcapacity hne)
    rcases following with _ | ⟨key, _ | ⟨key', rest⟩⟩
    · simp at hpos
    · simp
    · -- at least two keys are left, so that the round shortened the list
      have htwo : 2 ≤ (key :: key' :: rest).length := by simp
      have hcap : 2 ≤ allow.capacity.toNat := by omega
      exact ih _ t (List.cons_ne_nil _ _) (by omega) (.inl hcap)

omit [DecidableEq U] in
/-- The capacity with which `reduce_group` enters its loop. -/
theorem enough_capacity {capacity : Int} {managed : Bool} {children : List U} (hne : children ≠ [])
    (h : ¬capacity < (if managed then min 2 (children.length : Int) else 2)) :
    0 < capacity.toNat ∧ (2 ≤ capacity.toNat ∨ children.length = 1) := by
  have hpos : 0 < children.length := List.length_pos_of_ne_nil hne
  split at h <;> omega

/-- `reduce_group` ends on every list of children. -/
theorem reduceGroup_ne_diverges (chunkCount : Nat) (root : U) (node : StructuralUnit U)
    (children : List U) (s : Draft U) :
    reduceGroup ids a profile chunkCount root node children s ≠ .error .diverges := by
  unfold reduceGroup
  split
  · simp
  rename_i hne
  rw [List.isEmpty_iff] at hne
  dsimp only
  by_cases hcap : (allowance ids profile root node.path).capacity
      < (if profile.managedInputBudget.isSome then min 2 (children.length : Int) else 2)
  · rw [if_pos hcap]
    simp [limitExceeded]
  · rw [if_neg hcap]
    obtain ⟨hpos, hshort⟩ := enough_capacity hne hcap
    exact map_ne_error (reduceLoop_ne_diverges hpos _ _ _ hne (Nat.le_refl _) hshort)

/-! ### Single reducers -/

/-- The id of a reducer. -/
def reducerKey (ids : Ids U) (a : ExtractionArtifact U) (profile : DigestionProfile) (unit : U)
    (children : List U) : U :=
  ids.stableId ([ids.uuidStr a.extractionId, profile.digest ids, "reduction".toList,
    ids.uuidStr unit] ++ children.map ids.uuidStr)

/-- The reducer of a group. -/
def reducerOf (ids : Ids U) (a : ExtractionArtifact U) (profile : DigestionProfile)
    (node : StructuralUnit U) (allow : Allowance) (group : List U) (levels : List Nat) :
    ReductionNode U :=
  ⟨reducerKey ids a profile node.structuralUnitId group, node.structuralUnitId, group,
    1 + levels.foldl max 0, node.path, allow.overhead + group.length * allow.perChild⟩

/-- What one step of the grouping loop does. -/
theorem formReducer_ok {chunkCount : Nat} {node : StructuralUnit U} {allow : Allowance}
    {s t : Draft U × List U} {group : List U}
    (h : formReducer ids a profile chunkCount node allow s group = .ok t) :
    ∃ levels position n, lookupAll s.1.levels group = .ok levels
      ∧ n = reducerOf ids a profile node allow group levels
      ∧ n.level ≤ profile.maxDepth ∧ chunkCount + (s.1.reducers.length + 1) + 2 ≤ profile.maxSteps
      ∧ t = (⟨s.1.reducers ++ [n], s.1.levels.set n.stageId n.level,
          s.1.positions.set n.stageId position⟩, s.2 ++ [n.stageId]) := by
  unfold formReducer at h
  rw [bind_eq_ok] at h
  obtain ⟨levels, hlevels, h⟩ := h
  dsimp only at h
  split at h
  · cases h
  rename_i hdepth
  rw [bind_eq_ok] at h
  obtain ⟨positions, -, h⟩ := h
  split at h
  · cases h
  rename_i hsteps
  rw [List.length_append, List.length_singleton] at hsteps
  refine ⟨levels, positions.min?.getD 0, _, hlevels, rfl, ?_, by omega, (Except.ok.inj h).symm⟩
  change 1 + levels.foldl max 0 ≤ profile.maxDepth
  omega

/-- What is known of a reducer by itself. -/
structure Formed (ids : Ids U) (a : ExtractionArtifact U) (profile : DigestionProfile) (root : U)
    (units : List (StructuralUnit U)) (n : ReductionNode U) : Prop where
  unit : ∃ node ∈ units, n.structuralParent = node.structuralUnitId ∧ n.path = node.path
  stageId : n.stageId = reducerKey ids a profile n.structuralParent n.children
  nonempty : n.children ≠ []
  fits : (n.children.length : Int) ≤ (allowance ids profile root n.path).capacity
  depth : n.level ≤ profile.maxDepth
  estimate : n.estimatedTokens = (allowance ids profile root n.path).overhead
    + n.children.length * (allowance ids profile root n.path).perChild

theorem formReducer_formed {chunkCount : Nat} {root : U} {units : List (StructuralUnit U)}
    {node : StructuralUnit U} (hnode : node ∈ units) {s t : Draft U × List U} {group : List U}
    (hne : group ≠ []) (hfits : (group.length : Int) ≤ (allowance ids profile root node.path).capacity)
    (hs : ∀ n ∈ s.1.reducers, Formed ids a profile root units n)
    (h : formReducer ids a profile chunkCount node (allowance ids profile root node.path) s group
      = .ok t) :
    ∀ n ∈ t.1.reducers, Formed ids a profile root units n := by
  obtain ⟨levels, position, n, -, hn, hdepth, -, rfl⟩ := formReducer_ok h
  intro m hm
  rcases List.mem_append.mp hm with hm | hm
  · exact hs m hm
  · rw [List.mem_singleton.mp hm]
    subst hn
    exact ⟨⟨node, hnode, rfl, rfl⟩, rfl, hne, hfits, hdepth, rfl⟩

omit [DecidableEq U] in
/-- The groups of a round are within the capacity. -/
theorem group_fits {capacity : Int} (hpos : 0 < capacity.toNat) {current group : List U}
    (hg : group ∈ groupsOf capacity.toNat current) :
    group ≠ [] ∧ (group.length : Int) ≤ capacity := by
  obtain ⟨hne, hle⟩ := mem_groupsOf hpos hg
  exact ⟨hne, by omega⟩

theorem reduceLoop_formed {chunkCount : Nat} {root : U} {units : List (StructuralUnit U)}
    {node : StructuralUnit U} (hnode : node ∈ units)
    (hpos : 0 < (allowance ids profile root node.path).capacity.toNat) :
    ∀ {rounds : Nat} {current : List U} {s : Draft U} {r : U × Draft U},
      (∀ n ∈ s.reducers, Formed ids a profile root units n) →
      reduceLoop ids a profile chunkCount node (allowance ids profile root node.path) rounds current s
        = .ok r →
      ∀ n ∈ r.2.reducers, Formed ids a profile root units n := by
  intro rounds
  induction rounds with
  | zero =>
    intro current s r _ h
    cases h
  | succ rounds ih =>
    intro current s r hs h
    rw [reduceLoop, bind_eq_ok] at h
    obtain ⟨⟨t, following⟩, hfold, h⟩ := h
    have ht : ∀ n ∈ t.reducers, Formed ids a profile root units n :=
      foldlM_ok_induction (fun s => ∀ n ∈ s.1.reducers, Formed ids a profile root units n) hfold hs
        fun group hgroup s t hs ht =>
          formReducer_formed hnode (group_fits hpos hgroup).1 (group_fits hpos hgroup).2 hs ht
    rcases following with _ | ⟨key, _ | ⟨key', rest⟩⟩
    · exact ih ht h
    · rw [← Except.ok.inj h]
      exact ht
    · exact ih ht h

/-- What `reduce_group` does with children: it enters its loop with enough capacity. -/
theorem reduceGroup_ok {chunkCount : Nat} {root : U} {node : StructuralUnit U} {children : List U}
    {s : Draft U} {r : Option U × Draft U}
    (h : reduceGroup ids a profile chunkCount root node children s = .ok r) :
    (children = [] ∧ r = (none, s)) ∨
      (children ≠ [] ∧ 0 < (allowance ids profile root node.path).capacity.toNat
        ∧ ∃ key t, reduceLoop ids a profile chunkCount node (allowance ids profile root node.path)
            children.length children s = .ok (key, t) ∧ r = (some key, t)) := by
  unfold reduceGroup at h
  split at h
  · rename_i hempty
    exact .inl ⟨List.isEmpty_iff.mp hempty, (Except.ok.inj h).symm⟩
  · rename_i hne
    rw [List.isEmpty_iff] at hne
    dsimp only at h
    by_cases hcap : (allowance ids profile root node.path).capacity
        < (if profile.managedInputBudget.isSome then min 2 (children.length : Int) else 2)
    · rw [if_pos hcap] at h
      cases h
    · rw [if_neg hcap, map_eq_ok] at h
      obtain ⟨⟨key, t⟩, hloop, hr⟩ := h
      exact .inr ⟨hne, (enough_capacity hne hcap).1, key, t, hloop, hr.symm⟩

theorem reduceUnit_formed {chunks : List (AnalysisChunk U)} {root : U}
    {units : List (StructuralUnit U)} {node : StructuralUnit U} (hnode : node ∈ units)
    {s t : Draft U × Dict U (Option U)}
    (hs : ∀ n ∈ s.1.reducers, Formed ids a profile root units n)
    (h : reduceUnit ids a profile chunks root s node = .ok t) :
    ∀ n ∈ t.1.reducers, Formed ids a profile root units n := by
  unfold reduceUnit at h
  dsimp only at h
  rw [bind_eq_ok] at h
  obtain ⟨children, -, h⟩ := h
  rw [bind_eq_ok] at h
  obtain ⟨⟨output, draft⟩, hgroup, h⟩ := h
  rw [← Except.ok.inj h]
  obtain ⟨-, hr⟩ | ⟨-, hpos, key, draft', hloop, hr⟩ := reduceGroup_ok hgroup
  · rw [(Prod.mk.inj hr).2]
    exact hs
  · rw [(Prod.mk.inj hr).2]
    exact reduceLoop_formed hnode hpos hs hloop

/-- Every reducer of a plan keeps to the capacity and the depth. -/
theorem reduceUnits_formed {first : StructuralUnit U} {rest : List (StructuralUnit U)}
    {chunks : List (AnalysisChunk U)} {reducers : List (ReductionNode U)} {rootId : U}
    (h : reduceUnits ids a profile (first :: rest) chunks = .ok (reducers, rootId)) :
    ∀ n ∈ reducers, Formed ids a profile first.structuralUnitId (first :: rest) n := by
  unfold reduceUnits at h
  dsimp only at h
  rw [bind_eq_ok] at h
  obtain ⟨⟨draft, outputs⟩, hfold, h⟩ := h
  have hformed := foldlM_ok_induction (fun s => ∀ n ∈ s.1.reducers,
      Formed ids a profile first.structuralUnitId (first :: rest) n) hfold (by simp)
    fun node hnode s t hs ht => reduceUnit_formed (List.mem_reverse.mp hnode) hs ht
  dsimp only at h
  split at h
  · rw [← (Prod.mk.inj (Except.ok.inj h)).1]
    exact hformed
  · cases h

/-! ### The forest of stages -/

/-- The reducers as nodes of a forest. -/
def nodesOf (reducers : List (ReductionNode U)) : List (U × List U) :=
  reducers.map fun n => (n.stageId, n.children)

omit [DecidableEq U] in
theorem keys_nodesOf (reducers : List (ReductionNode U)) :
    keys (nodesOf reducers) = reducers.map ReductionNode.stageId := by
  rw [keys, nodesOf, List.map_map]
  rfl

/-- The reducers so far are a forest over the chunks, with the levels recorded. -/
structure Drafted (ids : Ids U) (a : ExtractionArtifact U) (profile : DigestionProfile)
    (chunks : List (AnalysisChunk U)) (s : Draft U) (free : List U) : Prop where
  builds : Builds (chunks.map AnalysisChunk.chunkId) (nodesOf s.reducers) free
  keyed : ∀ n ∈ s.reducers, ∃ unit, n.stageId = reducerKey ids a profile unit n.children
  chunkLevels : ∀ c ∈ chunks, s.levels.get? c.chunkId = some 0
  levels : ∀ n ∈ s.reducers, s.levels.get? n.stageId = some n.level
  leveled : ∀ n ∈ s.reducers, ∃ levels, lookupAll s.levels n.children = .ok levels
    ∧ n.level = 1 + levels.foldl max 0
  few : s.reducers ≠ [] → chunks.length + s.reducers.length + 2 ≤ profile.maxSteps

/-- What the ids of the chunks are made from. -/
def Keyed (ids : Ids U) (a : ExtractionArtifact U) (profile : DigestionProfile)
    (chunks : List (AnalysisChunk U)) : Prop :=
  (chunks.map AnalysisChunk.chunkId).Nodup ∧
    ∀ c ∈ chunks, ∃ unit, c.chunkId = chunkKey ids a profile unit c.pieces

section

variable {chunks : List (AnalysisChunk U)}

omit [DecidableEq U] in
theorem reducerKey_ne_chunkKey (hc : ids.CollisionFree) (u v : U) (children : List U)
    (pieces : List (SourcePiece U)) :
    reducerKey ids a profile u children ≠ chunkKey ids a profile v pieces := by
  intro h
  have hparts := hc.stableId_injective h
  simp only [List.cons_append, List.cons.injEq, true_and] at hparts
  exact absurd hparts.1 (by decide)

omit [DecidableEq U] in
theorem reducerKey_children (hc : ids.CollisionFree) {u v : U} {children children' : List U}
    (h : reducerKey ids a profile u children = reducerKey ids a profile v children') :
    children = children' := by
  have hparts := hc.stableId_injective h
  simp only [List.cons_append, List.nil_append, List.cons.injEq, true_and] at hparts
  exact List.map_injective_iff.mpr hc.uuidStr_injective hparts.2

/-- The id of a new reducer is new: its children have no parent yet. -/
theorem Drafted.fresh (hc : ids.CollisionFree) (hkeyed : Keyed ids a profile chunks) {s : Draft U}
    {free group rest : List U} (h : Drafted ids a profile chunks s free)
    (hsplit : free.Perm (group ++ rest)) (hne : group ≠ []) (unit : U) :
    reducerKey ids a profile unit group
      ∉ chunks.map AnalysisChunk.chunkId ++ keys (nodesOf s.reducers) := by
  intro hmem
  rcases List.mem_append.mp hmem with hmem | hmem
  · obtain ⟨c, hcmem, hid⟩ := List.mem_map.mp hmem
    obtain ⟨v, hv⟩ := hkeyed.2 c hcmem
    exact reducerKey_ne_chunkKey hc _ _ _ _ (hid.symm.trans hv)
  · rw [keys_nodesOf] at hmem
    obtain ⟨n, hn, hid⟩ := List.mem_map.mp hmem
    obtain ⟨v, hv⟩ := h.keyed n hn
    have hchildren := reducerKey_children hc (hv.symm.trans hid)
    -- a child of the older reducer with this id would be free and not free
    obtain ⟨k, hk⟩ := List.exists_mem_of_ne_nil _ hne
    have hnd := h.builds.children_nodup hkeyed.1
    have hold : k ∈ Forest.children (nodesOf s.reducers) :=
      List.mem_flatMap.mpr ⟨_, List.mem_map_of_mem hn, hchildren ▸ hk⟩
    have hfree : k ∈ free := hsplit.symm.subset (List.mem_append_left _ hk)
    exact (List.nodup_append.mp hnd).2.2 k hold k hfree rfl

theorem lookupAll_eq_ok {d : Dict U Nat} {keys : List U} {ns : List Nat} :
    lookupAll d keys = .ok ns ↔ List.Forall₂ (fun k n => d.get? k = some n) keys ns := by
  rw [lookupAll, mapM_eq_ok]
  constructor
  · refine fun h => h.imp fun k n hk => ?_
    split at hk
    · rename_i m hm
      rw [hm, Except.ok.inj hk]
    · cases hk
  · refine fun h => h.imp fun k n hk => ?_
    rw [hk]

/-- A new entry does not change what is looked up. -/
theorem lookupAll_set {d : Dict U Nat} {key : U} {level : Nat} {keys : List U} {ns : List Nat}
    (hkey : key ∉ keys) (h : lookupAll d keys = .ok ns) :
    lookupAll (d.set key level) keys = .ok ns := by
  rw [lookupAll_eq_ok] at h ⊢
  induction h with
  | nil => exact .nil
  | @cons k n keys ns hk _ ih =>
    rw [List.mem_cons, not_or] at hkey
    refine .cons ?_ (ih hkey.2)
    rw [Dict.get?_set, if_neg (Ne.symm hkey.1)]
    exact hk

/-- One reducer takes its children from the stages without a parent. -/
theorem Drafted.formReducer (hc : ids.CollisionFree) (hkeyed : Keyed ids a profile chunks)
    {node : StructuralUnit U} {allow : Allowance} {s t : Draft U × List U}
    {free group rest : List U} (h : Drafted ids a profile chunks s.1 free)
    (hsplit : free.Perm (group ++ rest)) (hne : group ≠ [])
    (ht : formReducer ids a profile chunks.length node allow s group = .ok t) :
    ∃ key, t.2 = s.2 ++ [key] ∧ Drafted ids a profile chunks t.1 (key :: rest) := by
  obtain ⟨levels, position, n, hlevels, hn, -, hsteps, rfl⟩ := formReducer_ok ht
  have hfresh : n.stageId ∉ chunks.map AnalysisChunk.chunkId ++ keys (nodesOf s.1.reducers) := by
    rw [hn]
    exact h.fresh hc hkeyed hsplit hne node.structuralUnitId
  have hget : ∀ k, k ∈ chunks.map AnalysisChunk.chunkId ++ keys (nodesOf s.1.reducers) →
      (s.1.levels.set n.stageId n.level).get? k = s.1.levels.get? k := by
    intro k hk
    rw [Dict.get?_set, if_neg]
    rintro rfl
    exact hfresh hk
  have hold : ∀ m ∈ s.1.reducers, n.stageId ∉ m.children := by
    intro m hm hmem
    refine hfresh (h.builds.perm.subset (List.mem_append_left _ ?_))
    exact List.mem_flatMap.mpr ⟨_, List.mem_map_of_mem hm, hmem⟩
  refine ⟨n.stageId, rfl, ?_⟩
  refine ⟨?_, ?_, ?_, ?_, ?_, ?_⟩
  · have hnode : nodesOf (s.1.reducers ++ [n]) = nodesOf s.1.reducers ++ [(n.stageId, group)] := by
      rw [nodesOf, List.map_append, ← nodesOf, hn]
      rfl
    change Builds _ (nodesOf (s.1.reducers ++ [n])) _
    rw [hnode]
    exact .node h.builds hsplit hne hfresh
  · intro m hm
    rcases List.mem_append.mp hm with hm | hm
    · exact h.keyed m hm
    · rw [List.mem_singleton.mp hm, hn]
      exact ⟨node.structuralUnitId, rfl⟩
  · intro c hcmem
    rw [hget _ (List.mem_append_left _ (List.mem_map_of_mem hcmem))]
    exact h.chunkLevels c hcmem
  · intro m hm
    rcases List.mem_append.mp hm with hm | hm
    · rw [hget _ (List.mem_append_right _ (keys_nodesOf s.1.reducers ▸ List.mem_map_of_mem hm))]
      exact h.levels m hm
    · rw [List.mem_singleton.mp hm, Dict.get?_set, if_pos rfl]
  · intro m hm
    rcases List.mem_append.mp hm with hm | hm
    · obtain ⟨ls, hls, hlevel⟩ := h.leveled m hm
      exact ⟨ls, lookupAll_set (hold m hm) hls, hlevel⟩
    · rw [List.mem_singleton.mp hm]
      refine ⟨levels, lookupAll_set ?_ (by rw [hn]; exact hlevels), by rw [hn]; rfl⟩
      intro hmem
      refine hfresh (h.builds.mem_of_free (hsplit.symm.subset (List.mem_append_left _ ?_)))
      rw [hn] at hmem
      rw [hn]
      exact hmem
  · intro _
    simpa using hsteps

/-- One round of the grouping loop. -/
theorem Drafted.formReducers (hc : ids.CollisionFree) (hkeyed : Keyed ids a profile chunks)
    {node : StructuralUnit U} {allow : Allowance} {s : Draft U} {t : Draft U × List U}
    {groups : List (List U)} (hgroups : ∀ g ∈ groups, g ≠ []) {free rest : List U}
    (h : Drafted ids a profile chunks s free) (hsplit : free.Perm (groups.flatten ++ rest))
    (ht : groups.foldlM (Digestion.formReducer ids a profile chunks.length node allow) (s, []) = .ok t) :
    ∃ free', free'.Perm (t.2 ++ rest) ∧ Drafted ids a profile chunks t.1 free' := by
  have hloop := foldlM_ok_prefix (fun done t => ∃ todo free', groups = done ++ todo
      ∧ free'.Perm (t.2 ++ (todo.flatten ++ rest)) ∧ Drafted ids a profile chunks t.1 free') ht
    ⟨groups, free, rfl, hsplit, h⟩ ?_
  · obtain ⟨todo, free', hsame, hperm, hdraft⟩ := hloop
    obtain rfl : todo = [] := List.self_eq_append_right.mp hsame
    exact ⟨free', by simpa using hperm, hdraft⟩
  · rintro done g s t ⟨later, hlater⟩ ⟨todo, free', hsame, hperm, hdraft⟩ hstep
    obtain rfl : todo = g :: later := List.append_cancel_left (hsame.symm.trans hlater)
    have hg : g ≠ [] := hgroups g (hlater ▸ List.mem_append_right _ (List.mem_cons_self ..))
    have hsplit' : free'.Perm (g ++ (s.2 ++ (later.flatten ++ rest))) := by
      refine hperm.trans ?_
      rw [List.flatten_cons, List.append_assoc]
      exact List.perm_append_comm_assoc _ _ _
    obtain ⟨key, hkey, hdraft'⟩ := hdraft.formReducer hc hkeyed hsplit' hg hstep
    refine ⟨later, _, by rw [hlater, List.append_assoc]; rfl, ?_, hdraft'⟩
    rw [hkey, List.append_assoc]
    exact (List.perm_middle).symm

/-- The grouping loop turns the children of a unit into one stage. -/
theorem Drafted.reduceLoop (hc : ids.CollisionFree) (hkeyed : Keyed ids a profile chunks)
    {node : StructuralUnit U} {allow : Allowance} (hpos : 0 < allow.capacity.toNat) {rest : List U} :
    ∀ {rounds : Nat} {current : List U} {s : Draft U} {free : List U} {key : U} {t : Draft U},
      Drafted ids a profile chunks s free → free.Perm (current ++ rest) →
      Digestion.reduceLoop ids a profile chunks.length node allow rounds current s = .ok (key, t) →
      ∃ free', free'.Perm (key :: rest) ∧ Drafted ids a profile chunks t free' := by
  intro rounds
  induction rounds with
  | zero =>
    intro current s free key t _ _ h
    cases h
  | succ rounds ih =>
    intro current s free key t hs hsplit h
    rw [Digestion.reduceLoop, bind_eq_ok] at h
    obtain ⟨⟨u, following⟩, hfold, h⟩ := h
    have hgroups : ∀ g ∈ groupsOf allow.capacity.toNat current, g ≠ [] :=
      fun g hg => (mem_groupsOf hpos hg).1
    obtain ⟨free', hperm, hdraft⟩ := hs.formReducers hc hkeyed hgroups
      (by rwa [groupsOf_flatten hpos]) hfold
    rcases following with _ | ⟨k, _ | ⟨k', more⟩⟩
    · exact ih hdraft hperm h
    · obtain ⟨rfl, rfl⟩ := Prod.mk.inj (Except.ok.inj h)
      exact ⟨free', hperm, hdraft⟩
    · exact ih hdraft hperm h

/-- `reduce_group`: the children of a unit, which have no parent yet, get one. -/
theorem Drafted.reduceGroup (hc : ids.CollisionFree) (hkeyed : Keyed ids a profile chunks) {root : U}
    {node : StructuralUnit U} {s : Draft U} {children free rest : List U} {r : Option U × Draft U}
    (h : Drafted ids a profile chunks s free) (hsplit : free.Perm (children ++ rest))
    (hr : Digestion.reduceGroup ids a profile chunks.length root node children s = .ok r) :
    ∃ free', free'.Perm (r.1.toList ++ rest) ∧ Drafted ids a profile chunks r.2 free' := by
  obtain ⟨rfl, rfl⟩ | ⟨-, hpos, key, t, hloop, rfl⟩ := reduceGroup_ok hr
  · exact ⟨free, hsplit, h⟩
  · exact h.reduceLoop hc hkeyed hpos hsplit hloop

/-! ### The loop over the units -/

/-- The output of a unit, if it has one. -/
def outputOf (outputs : Dict U (Option U)) (v : StructuralUnit U) : Option U :=
  (outputs.get? v.structuralUnitId).join

/-- The parent of a unit is not among some others. -/
def parentOutside (done : List (StructuralUnit U)) (v : StructuralUnit U) : Bool :=
  v.parentId.all fun q => q ∉ idsOfUnits done

/-- What has no parent when some units are done: the chunks of the others, and the outputs of the
units whose parent is not done. -/
def pendingStages (chunks : List (AnalysisChunk U)) (done : List (StructuralUnit U))
    (outputs : Dict U (Option U)) : List U :=
  (chunks.filter fun c => c.structuralParent ∉ idsOfUnits done).map AnalysisChunk.chunkId
    ++ (done.filter (parentOutside done)).filterMap (outputOf outputs)

omit [DecidableEq U] in
/-- A list filtered by one of two exclusive conditions. -/
theorem filter_or_perm {α : Type} (l : List α) {p q r : α → Bool}
    (hpq : ∀ x ∈ l, p x = (q x || r x)) (hqr : ∀ x ∈ l, q x = true → r x = false) :
    (l.filter p).Perm (l.filter q ++ l.filter r) := by
  refine ((l.filter p).filter_append_perm q).symm.trans ?_
  rw [List.filter_filter, List.filter_filter]
  refine List.Perm.append (.of_eq (List.filter_congr fun x hx => ?_))
    (.of_eq (List.filter_congr fun x hx => ?_))
  · rw [hpq x hx]
    cases q x <;> simp
  · rw [hpq x hx]
    have := hqr x hx
    cases hq : q x
    · simp
    · simp [this hq]

section

variable {root : U} {before done : List (StructuralUnit U)} {u : StructuralUnit U}

omit [DecidableEq U] in
theorem idsOfUnits_append (l m : List (StructuralUnit U)) :
    idsOfUnits (l ++ m) = idsOfUnits l ++ idsOfUnits m := by
  simp [idsOfUnits]

/-- The chunks of the units that are not done are those of the next unit and of the others. -/
theorem pendingChunks_perm (hu : u.structuralUnitId ∉ idsOfUnits done)
    (chunks : List (AnalysisChunk U)) :
    ((chunks.filter fun c => c.structuralParent ∉ idsOfUnits done).map AnalysisChunk.chunkId).Perm
      ((chunks.filter fun c => c.structuralParent = u.structuralUnitId).map AnalysisChunk.chunkId
        ++ (chunks.filter fun c => c.structuralParent ∉ idsOfUnits (u :: done)).map
          AnalysisChunk.chunkId) := by
  rw [← List.map_append]
  refine (filter_or_perm chunks (fun c _ => ?_) fun c _ hq => ?_).map _
  · by_cases hc : c.structuralParent = u.structuralUnitId
    · simp [hc, hu]
    · simp [idsOfUnits, hc]
  · rw [decide_eq_true_eq] at hq
    simp [idsOfUnits, hq]

/-- The units that are done and whose parent is not are the children of the next unit and others. -/
theorem pendingUnits_perm (hu : u.structuralUnitId ∉ idsOfUnits done) :
    (done.filter (parentOutside done)).Perm
      (done.filter (fun v => v.parentId = some u.structuralUnitId)
        ++ done.filter (parentOutside (u :: done))) := by
  refine filter_or_perm done (fun v _ => ?_) fun v _ hq => ?_
  · unfold parentOutside
    cases v.parentId with
    | none => simp
    | some q =>
      by_cases hq : q = u.structuralUnitId
      · simp [hq, hu]
      · simp [idsOfUnits, hq]
  · rw [decide_eq_true_eq] at hq
    simp [parentOutside, idsOfUnits, hq]

/-- The children of a unit are done before it. -/
theorem childIds_perm (h : Grown root (before ++ u :: done)) :
    u.childIds.Perm
      ((done.filter fun v => v.parentId = some u.structuralUnitId).map
        StructuralUnit.structuralUnitId) := by
  have hu : u ∈ before ++ u :: done := by simp
  have hsub : done.Sublist (before ++ u :: done) :=
    (List.sublist_cons_self _ _).trans (List.sublist_append_right _ _)
  refine (List.perm_ext_iff_of_nodup (h.childIds_nodup hu) ?_).mpr fun c => ?_
  · exact h.nodup.sublist ((List.filter_sublist.trans hsub).map _)
  · rw [h.mem_childIds hu, List.mem_map]
    constructor
    · rintro ⟨v, hv, hid, hparent⟩
      exact ⟨v, List.mem_filter.mpr ⟨h.after hv hparent, by simpa using hparent⟩, hid⟩
    · rintro ⟨v, hv, hid⟩
      obtain ⟨hv, hparent⟩ := List.mem_filter.mp hv
      exact ⟨v, hsub.subset hv, hid, by simpa using hparent⟩

end

/-- What the loop over the reversed units keeps. -/
def Reduced (ids : Ids U) (a : ExtractionArtifact U) (profile : DigestionProfile)
    (chunks : List (AnalysisChunk U)) (done : List (StructuralUnit U))
    (s : Draft U × Dict U (Option U)) : Prop :=
  ∃ free, free.Perm (pendingStages chunks done s.2) ∧ Drafted ids a profile chunks s.1 free

/-- One round: the stages a unit takes have no parent yet, and its output waits for its parent. -/
theorem Reduced.reduceUnit (hc : ids.CollisionFree) (hkeyed : Keyed ids a profile chunks)
    {root first : U} {before done : List (StructuralUnit U)} {u : StructuralUnit U}
    (hgrown : Grown root (before ++ u :: done)) {s t : Draft U × Dict U (Option U)}
    (h : Reduced ids a profile chunks done s)
    (ht : reduceUnit ids a profile chunks first s u = .ok t) :
    Reduced ids a profile chunks (u :: done) t := by
  obtain ⟨free, hfree, hdraft⟩ := h
  unfold Digestion.reduceUnit at ht
  dsimp only at ht
  rw [bind_eq_ok] at ht
  obtain ⟨children, hchildren, ht⟩ := ht
  rw [bind_eq_ok] at ht
  obtain ⟨⟨output, draft⟩, hgroup, ht⟩ := ht
  unfold sortByPosition at hchildren
  rw [bind_eq_ok] at hchildren
  obtain ⟨_, -, hchildren⟩ := hchildren
  have hnd : (idsOfUnits (u :: done)).Nodup := by
    have := hgrown.nodup
    rw [idsOfUnits_append] at this
    exact (List.nodup_append.mp this).2.1
  have hu : u.structuralUnitId ∉ idsOfUnits done := (List.nodup_cons.mp hnd).1
  -- the children are the unit's chunks and the outputs of the units below it
  have hown : children.Perm
      ((chunks.filter fun c => c.structuralParent = u.structuralUnitId).map AnalysisChunk.chunkId
        ++ (done.filter fun v => v.parentId = some u.structuralUnitId).filterMap (outputOf s.2)) := by
    rw [← Except.ok.inj hchildren]
    refine (List.perm_insertionSort _ _).trans (List.Perm.append_left _ ?_)
    refine ((childIds_perm hgrown).filterMap _).trans ?_
    rw [List.filterMap_map]
    exact .of_eq rfl
  have hsplit : free.Perm (children
      ++ ((chunks.filter fun c => c.structuralParent ∉ idsOfUnits (u :: done)).map AnalysisChunk.chunkId
        ++ (done.filter (parentOutside (u :: done))).filterMap (outputOf s.2))) := by
    refine hfree.trans ?_
    refine ((pendingChunks_perm hu chunks).append ((pendingUnits_perm hu).filterMap _)).trans ?_
    rw [List.filterMap_append]
    refine List.Perm.trans ?_ (hown.symm.append_right _)
    rw [List.append_assoc, List.append_assoc]
    exact List.Perm.append_left _ (List.perm_append_comm_assoc _ _ _)
  obtain ⟨free', hfree', hdraft'⟩ := hdraft.reduceGroup hc hkeyed hsplit hgroup
  rw [← Except.ok.inj ht]
  refine ⟨free', hfree'.trans ?_, hdraft'⟩
  -- the unit waits for its parent, which stands before it
  have hwaits : parentOutside (u :: done) u = true := by
    unfold parentOutside
    cases hparent : u.parentId with
    | none => rfl
    | some q =>
      have hq := hgrown.before hparent
      have := hgrown.nodup
      rw [idsOfUnits_append] at this
      simp only [Option.all_some, decide_eq_true_eq]
      exact fun hmem => (List.nodup_append.mp this).2.2 q hq q hmem rfl
  have hothers : (done.filter (parentOutside (u :: done))).filterMap
        (outputOf (s.2.set u.structuralUnitId output))
      = (done.filter (parentOutside (u :: done))).filterMap (outputOf s.2) := by
    refine List.filterMap_congr fun v hv => ?_
    rw [outputOf, outputOf, Dict.get?_set, if_neg]
    rintro hid
    exact hu (hid ▸ List.mem_map_of_mem (List.mem_filter.mp hv).1)
  have hself : outputOf (s.2.set u.structuralUnitId output) u = output := by
    rw [outputOf, Dict.get?_set, if_pos rfl]
    rfl
  unfold pendingStages
  rw [List.filter_cons_of_pos hwaits, List.filterMap_cons, hself, hothers]
  cases output with
  | none => exact .of_eq rfl
  | some key =>
    rw [Option.toList_some, List.singleton_append]
    exact List.perm_middle.symm

/-- Before the loop nothing is reduced. -/
theorem Reduced.start (hkeyed : Keyed ids a profile chunks) (positions : Dict U Nat) :
    Reduced ids a profile chunks []
      (⟨[], Dict.ofList (chunks.map fun c => (c.chunkId, 0)), positions⟩, []) := by
  refine ⟨chunks.map AnalysisChunk.chunkId, ?_, ?_⟩
  · simp [pendingStages, idsOfUnits]
  · have hkeys : ((chunks.map fun c => (c.chunkId, 0)).map Prod.fst).Nodup := by
      rw [List.map_map]
      exact hkeyed.1
    refine ⟨.leaves, by simp, fun c hcmem => ?_, by simp, by simp, by simp⟩
    rw [Dict.ofList_eq_self hkeys]
    exact Dict.get?_of_mem hkeys (List.mem_map_of_mem hcmem)

/-- When all units are done only the output of the root waits. -/
theorem pendingStages_all {root : U} {first : StructuralUnit U} {rest : List (StructuralUnit U)}
    (hgrown : Grown root (first :: rest))
    (hparents : ∀ c ∈ chunks, c.structuralParent ∈ idsOfUnits (first :: rest))
    (outputs : Dict U (Option U)) :
    pendingStages chunks (first :: rest) outputs = (outputOf outputs first).toList := by
  have hchunks : (chunks.filter fun c => c.structuralParent ∉ idsOfUnits (first :: rest)) = [] := by
    rw [List.filter_eq_nil_iff]
    intro c hcmem
    simpa using hparents c hcmem
  have hfirst : parentOutside (first :: rest) first = true := by
    obtain ⟨r, hr, -, hparent, -⟩ := hgrown.first
    obtain rfl : first = r := by simpa using hr
    simp [parentOutside, hparent]
  have hrest : rest.filter (parentOutside (first :: rest)) = [] := by
    rw [List.filter_eq_nil_iff]
    intro v hv
    obtain ⟨i, hi, rfl⟩ := List.getElem_of_mem hv
    have hget : (first :: rest)[i + 1]? = some rest[i] := by simp [List.getElem?_eq_getElem hi]
    obtain ⟨j, p, -, hp, hparent, -⟩ := hgrown.parent i _ hget
    have hmem : p.structuralUnitId ∈ idsOfUnits (first :: rest) :=
      List.mem_map_of_mem (List.mem_of_getElem? hp)
    simpa [parentOutside, hparent] using hmem
  rw [pendingStages, hchunks, List.filter_cons_of_pos hfirst, hrest, List.filterMap_cons]
  cases outputOf outputs first <;> rfl

/-- In the end only the root has no parent. -/
theorem reduceUnits_builds (hc : ids.CollisionFree) (hkeyed : Keyed ids a profile chunks)
    {root : U} {units : List (StructuralUnit U)} (hgrown : Grown root units)
    (hparents : ∀ c ∈ chunks, c.structuralParent ∈ idsOfUnits units)
    {reducers : List (ReductionNode U)} {rootId : U}
    (h : reduceUnits ids a profile units chunks = .ok (reducers, rootId)) :
    ∃ draft, draft.reducers = reducers ∧ Drafted ids a profile chunks draft [rootId] := by
  cases units with
  | nil => cases h
  | cons first rest =>
    unfold reduceUnits at h
    dsimp only at h
    rw [bind_eq_ok] at h
    obtain ⟨⟨draft, outputs⟩, hfold, h⟩ := h
    have hreduced := foldlM_ok_prefix (fun done s => Reduced ids a profile chunks done.reverse s) hfold
      (Reduced.start hkeyed _) ?_
    · rw [List.reverse_reverse] at hreduced
      obtain ⟨free, hfree, hdraft⟩ := hreduced
      rw [pendingStages_all hgrown hparents] at hfree
      dsimp only at h
      split at h
      · rename_i key hkey
        obtain ⟨rfl, rfl⟩ := Prod.mk.inj (Except.ok.inj h)
        rw [outputOf, hkey] at hfree
        exact ⟨draft, rfl, List.perm_singleton.mp hfree ▸ hdraft⟩
      · cases h
    · rintro done u s t ⟨later, hlater⟩ hs ht
      have hunits : first :: rest = later.reverse ++ u :: done.reverse := by
        rw [← List.reverse_reverse (first :: rest), hlater]
        simp
      rw [List.reverse_append, List.reverse_singleton, List.singleton_append]
      exact Reduced.reduceUnit hc hkeyed (hunits ▸ hgrown) hs ht

end

end Polymind.Digestion
