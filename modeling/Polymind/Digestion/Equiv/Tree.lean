import Polymind.Digestion.Equiv.Reduction
import Polymind.Digestion.Workflow

/-!
# The reduction graph of a plan is a tree

The forest of `Drafted` read off a whole plan.  `PlanTree` collects what the later stages rely on:
distinct ids, children before parents, one parent for every stage but the root.

* `Planned.tree`: every plan that `build_plan` returns is a tree;
* `Planned.planRules`: its steps satisfy the plan rules of `Admission.valid`;
* `plan_admissible`: both, with the structural map and the grouping loop they rest on.
-/

namespace Polymind.Digestion

open Json Documents Forest

variable {U : Type} [DecidableEq U] {ids : Ids U} {a : ExtractionArtifact U}
  {profile : DigestionProfile} {ref : ObjectRef U} {plan : Plan U}

/-! ### There is a reducer -/

theorem formReducers_ne_nil {chunkCount : Nat} {node : StructuralUnit U} {allow : Allowance}
    {groups : List (List U)} (hgroups : groups ≠ []) {s : Draft U} {t : Draft U × List U}
    (h : groups.foldlM (formReducer ids a profile chunkCount node allow) (s, []) = .ok t) :
    t.1.reducers ≠ [] := by
  refine foldlM_ok_prefix (fun done t => done ≠ [] → t.1.reducers ≠ []) h (by simp) ?_ hgroups
  intro done group s t _ _ ht _
  obtain ⟨levels, position, n, -, -, -, -, rfl⟩ := formReducer_ok ht
  simp

theorem reduceLoop_ne_nil {chunkCount : Nat} {node : StructuralUnit U} {allow : Allowance}
    (hpos : 0 < allow.capacity.toNat) :
    ∀ {rounds : Nat} {current : List U} {s : Draft U} {r : U × Draft U}, current ≠ [] →
      reduceLoop ids a profile chunkCount node allow rounds current s = .ok r → r.2.reducers ≠ [] := by
  intro rounds
  induction rounds with
  | zero =>
    intro current s r _ h
    cases h
  | succ rounds ih =>
    intro current s r hne h
    rw [reduceLoop, bind_eq_ok] at h
    obtain ⟨⟨t, following⟩, hfold, h⟩ := h
    have hgroups := groupsOf_ne_nil hpos hne
    have ht := formReducers_ne_nil hgroups hfold
    have hcount : following.length = _ := formReducers_following hfold
    rcases following with _ | ⟨key, _ | ⟨key', rest⟩⟩
    · exact absurd (List.eq_nil_of_length_eq_zero hcount.symm) hgroups
    · rw [← Except.ok.inj h]
      exact ht
    · exact ih (List.cons_ne_nil _ _) h

/-- The root comes out of the grouping loop of the first unit, so that there is a reducer. -/
theorem reduceUnits_ne_nil {units : List (StructuralUnit U)} {chunks : List (AnalysisChunk U)}
    {reducers : List (ReductionNode U)} {rootId : U}
    (h : reduceUnits ids a profile units chunks = .ok (reducers, rootId)) : reducers ≠ [] := by
  cases units with
  | nil => cases h
  | cons first rest =>
    unfold reduceUnits at h
    dsimp only at h
    rw [bind_eq_ok] at h
    obtain ⟨⟨draft, outputs⟩, hfold, h⟩ := h
    rw [List.reverse_cons, List.foldlM_append, bind_eq_ok] at hfold
    obtain ⟨s, -, hlast⟩ := hfold
    rw [List.foldlM_cons, bind_eq_ok] at hlast
    obtain ⟨t, hunit, hlast⟩ := hlast
    obtain rfl : t = (draft, outputs) := Except.ok.inj hlast
    unfold reduceUnit at hunit
    dsimp only at hunit h
    rw [bind_eq_ok] at hunit
    obtain ⟨children, -, hunit⟩ := hunit
    rw [bind_eq_ok] at hunit
    obtain ⟨⟨output, draft'⟩, hgroup, hunit⟩ := hunit
    obtain ⟨rfl, rfl⟩ := Prod.mk.inj (Except.ok.inj hunit)
    rw [Dict.get?_set, if_pos rfl] at h
    obtain ⟨-, hr⟩ | ⟨hne, hpos, key, draft', hloop, hr⟩ := reduceGroup_ok hgroup
    · obtain ⟨rfl, -⟩ := Prod.mk.inj hr
      cases h
    · obtain ⟨rfl, rfl⟩ := Prod.mk.inj hr
      obtain ⟨rfl, -⟩ := Prod.mk.inj (Except.ok.inj h)
      exact reduceLoop_ne_nil hpos hne hloop

/-! ### The tree -/

/-- A stage and one of its children. -/
def Plan.Child (plan : Plan U) (parent child : U) : Prop :=
  ∃ n ∈ plan.reducers, n.stageId = parent ∧ child ∈ n.children

/-- The level of a stage: that of its reducer, and 0 for a chunk. -/
def Plan.levelOf (plan : Plan U) (k : U) : Nat :=
  ((plan.reducers.find? fun n => n.stageId = k).map ReductionNode.level).getD 0

/-- The reduction graph of a plan is a tree over its chunks. -/
structure PlanTree (plan : Plan U) : Prop where
  nodup : plan.stages.Nodup
  ordered : ∀ before n after, plan.reducers = before ++ n :: after →
    ∀ k ∈ n.children, k ∈ plan.chunks.map AnalysisChunk.chunkId ++ before.map ReductionNode.stageId
  rootReducer : plan.rootId ∈ plan.reducers.map ReductionNode.stageId
  rootFree : ∀ n ∈ plan.reducers, plan.rootId ∉ n.children
  childrenNodup : ∀ n ∈ plan.reducers, n.children.Nodup
  parent : ∀ k ∈ plan.stages, k ≠ plan.rootId → ∃! n, n ∈ plan.reducers ∧ k ∈ n.children
  reached : ∀ k ∈ plan.stages, Relation.ReflTransGen plan.Child plan.rootId k
  fanIn : ∀ n ∈ plan.reducers, 1 ≤ n.children.length ∧ n.children.length ≤ plan.profile.maxFanIn
  level : ∀ n ∈ plan.reducers, n.level ≤ plan.profile.maxDepth
    ∧ n.level = 1 + (n.children.map plan.levelOf).foldl max 0

theorem Planned.grown (h : Planned ids a profile ref plan) :
    Grown (structureRoot ids a profile) plan.structureMap.units := by
  obtain ⟨units, hunits, hmap⟩ := structureOf_eq_ok_iff.mp h.structured
  rw [hmap]
  exact (assemble_ok hunits).1

theorem Planned.keyed (hc : ids.CollisionFree) (h : Planned ids a profile ref plan) :
    Keyed ids a profile plan.chunks := by
  refine ⟨h.chunkIds_nodup hc, fun c hcmem => ?_⟩
  obtain ⟨i, hsettled⟩ := h.chunk hcmem
  obtain ⟨node, -, hmade⟩ := hsettled.made
  exact ⟨_, hmade.chunkId⟩

/-- The draft a plan was made from. -/
theorem Planned.drafted (hc : ids.CollisionFree) (h : Planned ids a profile ref plan) :
    ∃ draft, draft.reducers = plan.reducers
      ∧ Drafted ids a profile plan.chunks draft [plan.rootId] := by
  refine reduceUnits_builds hc (h.keyed hc) h.grown (fun c hcmem => ?_) h.reduced
  obtain ⟨i, hsettled⟩ := h.chunk hcmem
  obtain ⟨node, hnode, hmade⟩ := hsettled.made
  rw [hmade.parent]
  exact List.mem_map_of_mem hnode

/-- The root of the structural map, by which the reducers are measured. -/
theorem Planned.formed (h : Planned ids a profile ref plan) :
    ∃ root, ∀ n ∈ plan.reducers, Formed ids a profile root plan.structureMap.units n := by
  have hreduced := h.reduced
  cases hunits : plan.structureMap.units with
  | nil =>
    rw [hunits] at hreduced
    cases hreduced
  | cons first rest =>
    rw [hunits] at hreduced
    exact ⟨first.structuralUnitId, reduceUnits_formed hreduced⟩

omit [DecidableEq U] in
theorem capacity_le_maxFanIn (root : U) (path : List Str) :
    (allowance ids profile root path).capacity ≤ profile.maxFanIn := by
  unfold allowance
  dsimp only
  split
  · exact Int.min_le_left _ _
  · exact (Int.min_le_left _ _).trans (Int.min_le_left _ _)

omit [DecidableEq U] in
/-- The stages of a plan, as the forest has them. -/
theorem stages_eq (plan : Plan U) :
    plan.stages = plan.chunks.map AnalysisChunk.chunkId ++ keys (nodesOf plan.reducers) := by
  rw [Plan.stages, keys_nodesOf]

omit [DecidableEq U] in
theorem child_iff {x y : U} : Forest.Child (nodesOf plan.reducers) x y ↔ plan.Child x y := by
  constructor
  · rintro ⟨group, hmem, hy⟩
    obtain ⟨n, hn, hpair⟩ := List.mem_map.mp hmem
    obtain ⟨rfl, rfl⟩ := Prod.mk.inj hpair
    exact ⟨n, hn, rfl, hy⟩
  · rintro ⟨n, hn, rfl, hy⟩
    exact ⟨n.children, List.mem_map_of_mem hn, hy⟩

section

variable {draft : Draft U}

/-- The levels recorded while planning are the levels of the plan. -/
theorem levels_get? (hnd : plan.stages.Nodup) (hreducers : draft.reducers = plan.reducers)
    (h : Drafted ids a profile plan.chunks draft [plan.rootId]) {k : U} (hk : k ∈ plan.stages) :
    draft.levels.get? k = some (plan.levelOf k) := by
  rw [Plan.stages, List.nodup_append] at hnd
  rcases List.mem_append.mp hk with hk | hk
  · -- no reducer has the id of a chunk
    obtain ⟨c, hcmem, rfl⟩ := List.mem_map.mp hk
    have hnone : plan.reducers.find? (fun n => n.stageId = c.chunkId) = none := by
      rw [List.find?_eq_none]
      intro n hn heq
      rw [decide_eq_true_eq] at heq
      exact hnd.2.2 _ hk _ (heq ▸ List.mem_map_of_mem hn) rfl
    rw [h.chunkLevels c hcmem, Plan.levelOf, hnone]
    rfl
  · obtain ⟨n, hn, rfl⟩ := List.mem_map.mp hk
    obtain ⟨m, hm⟩ : ∃ m, plan.reducers.find? (fun m => m.stageId = n.stageId) = some m := by
      rw [← Option.isSome_iff_exists, List.find?_isSome]
      exact ⟨n, hn, by simp⟩
    have hid : m.stageId = n.stageId := by simpa using List.find?_some hm
    have hmn : m = n := List.inj_on_of_nodup_map hnd.2.1 (List.mem_of_find?_eq_some hm) hn hid
    rw [Plan.levelOf, hm, hmn, h.levels n (hreducers ▸ hn)]
    rfl

/-- The levels looked up for the children of a reducer are the levels of the plan. -/
theorem lookupAll_levels (hnd : plan.stages.Nodup) (hreducers : draft.reducers = plan.reducers)
    (h : Drafted ids a profile plan.chunks draft [plan.rootId]) {children : List U}
    (hstages : ∀ k ∈ children, k ∈ plan.stages) {levels : List Nat}
    (hlevels : lookupAll draft.levels children = .ok levels) : levels = children.map plan.levelOf := by
  rw [lookupAll_eq_ok] at hlevels
  induction hlevels with
  | nil => rfl
  | @cons k l children levels hk _ ih =>
    rw [levels_get? hnd hreducers h (hstages k (List.mem_cons_self ..)), Option.some.injEq] at hk
    rw [List.map_cons, hk, ih fun x hx => hstages x (List.mem_cons_of_mem _ hx)]

end

omit [DecidableEq U] in
theorem mem_nodesOf {n : ReductionNode U} (hn : n ∈ plan.reducers) :
    (n.stageId, n.children) ∈ nodesOf plan.reducers :=
  List.mem_map_of_mem hn

/-- The forest of a plan. -/
theorem Planned.builds (hc : ids.CollisionFree) (h : Planned ids a profile ref plan) :
    Builds (plan.chunks.map AnalysisChunk.chunkId) (nodesOf plan.reducers) [plan.rootId] := by
  obtain ⟨draft, hreducers, hdraft⟩ := h.drafted hc
  exact hreducers ▸ hdraft.builds

theorem Planned.stages_nodup (hc : ids.CollisionFree) (h : Planned ids a profile ref plan) :
    plan.stages.Nodup := by
  rw [stages_eq]
  exact (h.builds hc).nodup (h.chunkIds_nodup hc)

theorem Planned.child_mem_stages (hc : ids.CollisionFree) (h : Planned ids a profile ref plan)
    {n : ReductionNode U} (hn : n ∈ plan.reducers) : ∀ k ∈ n.children, k ∈ plan.stages := by
  intro k hk
  rw [stages_eq]
  exact (h.builds hc).mem_of_child (mem_nodesOf hn) hk

/-- Every plan that `build_plan` returns is a tree. -/
theorem Planned.tree (hc : ids.CollisionFree) (h : Planned ids a profile ref plan) :
    PlanTree plan := by
  have hbuilds := h.builds hc
  have hleaves := h.chunkIds_nodup hc
  have hnd := h.stages_nodup hc
  obtain ⟨root, hformed⟩ := h.formed
  refine ⟨hnd, ?_, ?_, ?_, ?_, ?_, ?_, ?_, ?_⟩
  · intro before n after hsplit k hk
    have hnodes : nodesOf plan.reducers
        = nodesOf before ++ (n.stageId, n.children) :: nodesOf after := by
      rw [hsplit]
      simp [nodesOf]
    rw [← keys_nodesOf]
    exact (hbuilds.children_before _ _ _ _ hnodes).2 k hk
  · rw [← keys_nodesOf]
    refine hbuilds.root_mem ?_
    simpa [nodesOf] using reduceUnits_ne_nil h.reduced
  · exact fun n hn => hbuilds.free_not_child hleaves (mem_nodesOf hn) (List.mem_singleton.mpr rfl)
  · exact fun n hn => hbuilds.group_nodup hleaves (mem_nodesOf hn)
  · intro k hk hne
    rw [stages_eq] at hk
    obtain ⟨node, hnode, hkn⟩ := hbuilds.exists_parent hk (by simpa using hne)
    obtain ⟨n, hn, rfl⟩ := List.mem_map.mp hnode
    refine ⟨n, ⟨hn, hkn⟩, ?_⟩
    rintro m ⟨hm, hkm⟩
    have hsame := hbuilds.parent_unique hleaves (mem_nodesOf hm) hnode hkm hkn
    rw [Plan.stages, List.nodup_append] at hnd
    exact List.inj_on_of_nodup_map hnd.2.1 hm hn (congrArg Prod.fst hsame)
  · intro k hk
    obtain ⟨r, hr, hreach⟩ := hbuilds.reaches (stages_eq plan ▸ hk)
    rw [List.mem_singleton.mp hr] at hreach
    exact hreach.lift id fun x y hxy => child_iff.mp hxy
  · intro n hn
    have hform := hformed n hn
    have hfits := hform.fits.trans (capacity_le_maxFanIn root n.path)
    rw [h.profile_eq]
    exact ⟨List.length_pos_of_ne_nil hform.nonempty, by exact_mod_cast hfits⟩
  · intro n hn
    obtain ⟨draft, hreducers, hdraft⟩ := h.drafted hc
    obtain ⟨levels, hlevels, hlevel⟩ := hdraft.leveled n (hreducers ▸ hn)
    rw [h.profile_eq]
    refine ⟨(hformed n hn).depth, ?_⟩
    rw [hlevel, lookupAll_levels hnd hreducers hdraft (h.child_mem_stages hc hn) hlevels]

/-! ### The steps of a plan -/

theorem planOrdered_append (seen : List Str) (l m : List Jobs.StepSpec) :
    Jobs.planOrdered seen (l ++ m) = (Jobs.planOrdered seen l
      && Jobs.planOrdered ((l.map Jobs.StepSpec.unitId).reverse ++ seen) m) := by
  induction l generalizing seen with
  | nil => simp [Jobs.planOrdered]
  | cons s l ih =>
    simp only [List.cons_append, Jobs.planOrdered, ih, List.map_cons, List.reverse_cons,
      List.append_assoc, Bool.and_assoc, List.nil_append]

/-- Steps with new ids, each after the steps it depends on. -/
theorem planOrdered_of {seen : List Str} {steps : List Jobs.StepSpec}
    (hnd : (steps.map Jobs.StepSpec.unitId).Nodup) (hnew : ∀ s ∈ steps, s.unitId ∉ seen)
    (hdeps : ∀ before s after, steps = before ++ s :: after → s.dependsOn.Nodup
      ∧ ∀ d ∈ s.dependsOn, d ∈ seen ∨ d ∈ before.map Jobs.StepSpec.unitId) :
    Jobs.planOrdered seen steps = true := by
  induction steps generalizing seen with
  | nil => rfl
  | cons s steps ih =>
    obtain ⟨hs, hnd⟩ := List.nodup_cons.mp hnd
    obtain ⟨hdistinct, hseen⟩ := hdeps [] s steps rfl
    simp only [Jobs.planOrdered, Bool.and_eq_true, Bool.not_eq_true', List.contains_eq_mem,
      decide_eq_false_iff_not, decide_eq_true_eq, List.all_eq_true]
    refine ⟨⟨⟨hnew s (List.mem_cons_self ..), fun d hd => ?_⟩, hdistinct⟩, ih hnd ?_ ?_⟩
    · simpa using hseen d hd
    · intro t ht hmem
      rcases List.mem_cons.mp hmem with he | hmem
      · exact hs (he ▸ List.mem_map_of_mem ht)
      · exact hnew t (List.mem_cons_of_mem _ ht) hmem
    · intro before t after hsplit
      obtain ⟨ht, hd⟩ := hdeps (s :: before) t after (by rw [hsplit]; rfl)
      refine ⟨ht, fun d hmem => ?_⟩
      have := hd d hmem
      simp only [List.map_cons, List.mem_cons] at this ⊢
      tauto

omit [DecidableEq U] in
/-- The first character of `plan/...` and some character of `digest` are not those of an id. -/
theorem uuidStr_ne (hc : ids.CollisionFree) (u : U) {s : Str} {c : Char} (hmem : c ∈ s)
    (hchar : isHexChar c = false) (hdash : c ≠ '-') : ids.uuidStr u ≠ s := by
  rintro rfl
  rcases hc.uuidStr_chars u c hmem with hx | hx
  · rw [hchar] at hx
    cases hx
  · exact hdash hx

omit [DecidableEq U] in
theorem anchor_ne (hc : ids.CollisionFree) (u : U) (planRef : ObjectRef U) :
    ids.uuidStr u ≠ anchorText ids planRef :=
  uuidStr_ne hc u (c := 'p') (by simp [anchorText]) (by decide) (by decide)

omit [DecidableEq U] in
theorem digest_ne (hc : ids.CollisionFree) (u : U) : ids.uuidStr u ≠ digestText :=
  uuidStr_ne hc u (c := 'g') (by decide) (by decide) (by decide)

omit [DecidableEq U] in
theorem anchor_ne_digest (planRef : ObjectRef U) : digestText ≠ anchorText ids planRef := by
  intro h
  have := congrArg List.head? h
  simp [digestText, anchorText] at this

theorem maxSteps_le (h : profile.valid = true) : profile.maxSteps ≤ 1000 := by
  simp only [DigestionProfile.valid, Bool.and_eq_true, decide_eq_true_eq] at h
  omega

/-- The steps of the chunks depend on the first step only. -/
theorem planOrdered_chunks (hc : ids.CollisionFree) (htree : PlanTree plan) (planRef : ObjectRef U)
    {f : AnalysisChunk U → Jobs.StepSpec} (hid : ∀ c, (f c).unitId = ids.uuidStr c.chunkId)
    (hdeps : ∀ c, (f c).dependsOn = [anchorText ids planRef]) :
    Jobs.planOrdered [anchorText ids planRef] (plan.chunks.map f) = true := by
  have hchunks : (plan.chunks.map AnalysisChunk.chunkId).Nodup := (List.nodup_append.mp htree.nodup).1
  refine planOrdered_of ?_ ?_ ?_
  · have := hchunks.map hc.uuidStr_injective
    rw [List.map_map] at this ⊢
    simpa [Function.comp_def, hid] using this
  · intro s hs hmem
    obtain ⟨c, -, rfl⟩ := List.mem_map.mp hs
    exact anchor_ne hc _ _ ((hid c).symm.trans (List.mem_singleton.mp hmem))
  · intro before s after hsplit
    have hs : s ∈ plan.chunks.map f := hsplit ▸ List.mem_append_right _ (List.mem_cons_self ..)
    obtain ⟨c, -, rfl⟩ := List.mem_map.mp hs
    rw [hdeps]
    exact ⟨List.nodup_singleton _, fun d hd => .inl hd⟩

/-- The steps of the reducers depend on chunks and earlier reducers. -/
theorem planOrdered_reducers (hc : ids.CollisionFree) (htree : PlanTree plan) (planRef : ObjectRef U)
    {g : ReductionNode U → Jobs.StepSpec} (hid : ∀ n, (g n).unitId = ids.uuidStr n.stageId)
    (hdeps : ∀ n, (g n).dependsOn = n.children.map ids.uuidStr) {seen : List Str}
    (hseen : ∀ s, s ∈ seen ↔ s = anchorText ids planRef ∨ ∃ c ∈ plan.chunks, s = ids.uuidStr c.chunkId) :
    Jobs.planOrdered seen (plan.reducers.map g) = true := by
  obtain ⟨-, hreducers, hdisjoint⟩ := List.nodup_append.mp htree.nodup
  refine planOrdered_of ?_ ?_ ?_
  · have := hreducers.map hc.uuidStr_injective
    rw [List.map_map] at this ⊢
    simpa [Function.comp_def, hid] using this
  · intro s hs hmem
    obtain ⟨n, hn, rfl⟩ := List.mem_map.mp hs
    rcases (hseen _).mp hmem with hanchor | ⟨c, hcmem, hchunk⟩
    · exact anchor_ne hc _ _ ((hid n).symm.trans hanchor)
    · have := hc.uuidStr_injective (hchunk.symm.trans (hid n))
      exact hdisjoint _ (List.mem_map_of_mem hcmem) _ (List.mem_map_of_mem hn) this
  · intro before s after hsplit
    obtain ⟨earlier, later, hreds, rfl, hlater⟩ := List.map_eq_append_iff.mp hsplit
    obtain ⟨n, rest, rfl, rfl, -⟩ := List.map_eq_cons_iff.mp hlater
    have hn : n ∈ plan.reducers := hreds ▸ List.mem_append_right _ (List.mem_cons_self ..)
    rw [hdeps]
    refine ⟨(htree.childrenNodup n hn).map hc.uuidStr_injective, fun d hd => ?_⟩
    obtain ⟨k, hk, rfl⟩ := List.mem_map.mp hd
    rcases List.mem_append.mp (htree.ordered earlier n rest hreds k hk) with hk | hk
    · obtain ⟨c, hcmem, rfl⟩ := List.mem_map.mp hk
      exact .inl ((hseen _).mpr (.inr ⟨c, hcmem, rfl⟩))
    · obtain ⟨m, hm, rfl⟩ := List.mem_map.mp hk
      refine .inr (List.mem_map.mpr ⟨g m, List.mem_map_of_mem hm, hid m⟩)

/-- The steps of a plan satisfy the plan rules of `Admission.valid`. -/
theorem Planned.planRules (hc : ids.CollisionFree) (h : Planned ids a profile ref plan)
    (planRef : ObjectRef U) : Jobs.planRules (specs ids plan planRef) = true := by
  have htree := h.tree hc
  obtain ⟨draft, hreducers, hdraft⟩ := h.drafted hc
  have hfew := hdraft.few (by rw [hreducers]; exact reduceUnits_ne_nil h.reduced)
  rw [hreducers] at hfew
  have hmax := maxSteps_le h.profileValid
  simp only [Jobs.planRules, Bool.and_eq_true, decide_eq_true_eq]
  refine ⟨⟨by simp [specs], ?_⟩, ?_⟩
  · simp only [specs, List.length_append, List.length_map, List.length_singleton]
    omega
  unfold specs
  dsimp only
  rw [planOrdered_append, planOrdered_append, planOrdered_append, Bool.and_eq_true, Bool.and_eq_true,
    Bool.and_eq_true]
  refine ⟨⟨⟨rfl, ?_⟩, ?_⟩, ?_⟩
  · exact planOrdered_chunks hc htree planRef (fun _ => rfl) fun _ => rfl
  · refine planOrdered_reducers hc htree planRef (fun _ => rfl) (fun _ => rfl) fun s => ?_
    simp only [List.map_append, List.map_cons, List.map_nil, List.map_map, List.mem_append,
      List.mem_reverse, List.mem_cons, List.not_mem_nil, or_false, List.mem_map, Function.comp]
    tauto
  · -- the last step depends on the root
    obtain ⟨n, hn, hroot⟩ := List.mem_map.mp htree.rootReducer
    refine planOrdered_of (by simp) ?_ ?_
    · intro s hs hmem
      obtain rfl := List.mem_singleton.mp hs
      simp only [List.append_nil, List.map_append, List.map_cons, List.map_nil, List.map_map,
        List.mem_append, List.mem_reverse, List.mem_cons, List.not_mem_nil, or_false, List.mem_map,
        Function.comp] at hmem
      rcases hmem with (hanchor | ⟨c, -, hchunk⟩) | ⟨m, -, hred⟩
      · exact anchor_ne_digest planRef hanchor
      · exact digest_ne hc _ hchunk
      · exact digest_ne hc _ hred
    · intro before s after hsplit
      obtain rfl : before = [] := by
        cases before with
        | nil => rfl
        | cons b before => simp at hsplit
      obtain ⟨rfl, -⟩ := List.cons.inj hsplit
      refine ⟨List.nodup_singleton _, fun d hd => .inl ?_⟩
      rw [List.mem_singleton.mp hd]
      simp only [List.append_nil, List.mem_reverse, List.map_append, List.mem_append]
      refine .inr ?_
      rw [List.map_map, List.mem_map]
      exact ⟨n, hn, by rw [← hroot]; rfl⟩

/-! ### The whole -/

/-- Every block of a valid artifact is owned by one unit of its structural map. -/
theorem assemble_owns_once (hc : ids.CollisionFree) (hvalid : a.valid ids = true)
    {units : List (StructuralUnit U)} (h : assemble ids a profile = .ok units)
    {p : TextUnit U × Block U} (hp : p ∈ inventory a) :
    ∃! u, u ∈ units ∧ p.2.blockId ∈ u.blockIds := by
  obtain ⟨hgrown, howned⟩ := assemble_ok h
  have hmem : p.2.blockId ∈ ownedBlocks units := howned.symm.subset (List.mem_map_of_mem hp)
  have hnd : (ownedBlocks units).Nodup := howned.nodup_iff.mpr (inventory_nodup hc hvalid)
  obtain ⟨u, hu, hup⟩ := List.mem_flatMap.mp hmem
  refine ⟨u, ⟨hu, hup⟩, ?_⟩
  rintro v ⟨hv, hvp⟩
  have hpairs : units.Pairwise fun u v => u.blockIds.Disjoint v.blockIds :=
    (List.nodup_flatMap.mp hnd).2
  have hsymm : Std.Symm fun u v : StructuralUnit U => u.blockIds.Disjoint v.blockIds :=
    ⟨fun _ _ hd x hx hy => hd hy hx⟩
  by_contra hne
  exact hpairs.forall hv hu hne hvp hup

/-- **The planned reduction graph is a tree that admission accepts.**  Every plan that `build_plan`
returns is a tree over its chunks, and its steps satisfy the plan rules of `Admission.valid`; every
structural map that `_structure` assembles is accepted by `StructuralMap.tree` and owns each block of
a valid artifact once; and the grouping loop of `reduce_group` ends. -/
theorem plan_admissible (hc : ids.CollisionFree) :
    (∀ (a : ExtractionArtifact U) profile ref plan, buildPlan ids a profile ref = .ok plan →
      PlanTree plan ∧ ∀ planRef, Jobs.planRules (specs ids plan planRef) = true)
    ∧ (∀ (a : ExtractionArtifact U) profile units, assemble ids a profile = .ok units →
      structuralTree units = true
        ∧ (a.valid ids = true → ∀ p ∈ inventory a, ∃! u, u ∈ units ∧ p.2.blockId ∈ u.blockIds))
    ∧ ∀ (a : ExtractionArtifact U) profile chunkCount root node children s,
      reduceGroup ids a profile chunkCount root node children s ≠ .error .diverges := by
  refine ⟨?_, ?_, ?_⟩
  · intro a profile ref plan h
    have hplan := buildPlan_ok h
    exact ⟨hplan.tree hc, hplan.planRules hc⟩
  · intro a profile units h
    exact ⟨structuralTree_of_grown (assemble_ok h).1, fun hvalid p hp =>
      assemble_owns_once hc hvalid h hp⟩
  · intro a profile chunkCount root node children s
    exact reduceGroup_ne_diverges chunkCount root node children s

/-- The theorem applies to the sample's plan. -/
theorem plan_admissible_sample : PlanTree (legacyPlan keep)
    ∧ Jobs.planRules (specs (sampleIds keep legacyProfile) (legacyPlan keep)
        (sampleRef keep legacyProfile)) = true := by
  obtain ⟨htree, hrules⟩ := (plan_admissible (tableIds_collisionFree _ _)).1 sampleArtifact
    legacyProfile (sampleRef keep legacyProfile) (legacyPlan keep) (buildPlan_legacy smallCut_keep)
  exact ⟨htree, hrules (sampleRef keep legacyProfile)⟩

end Polymind.Digestion
