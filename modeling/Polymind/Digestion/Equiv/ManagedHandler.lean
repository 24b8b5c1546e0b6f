import Polymind.Digestion.ManagedHandler
import Polymind.Digestion.Equiv.Acceptance
import Polymind.Digestion.Equiv.Rendering

/-!
# The stages of the managed handler

`ManagedDigestionHandler` tells the last reducer of a structural unit from the others by its position
among its siblings.  In every plan that `build_plan` returns this is the place of the reducer in the
tree: `managedStage_eq` reads the stage off the parent of the reducer.

The reducers of a unit are `Chained`: all but the last have their parent among them.  This holds of
what `reduceLoop` adds, since a round takes up all that the round before has left.
-/

namespace Polymind.Digestion

open Json Documents Llm

variable {U : Type} [DecidableEq U] {ids : Ids U} {a : ExtractionArtifact U}
  {profile : DigestionProfile} {ref : ObjectRef U} {plan : Plan U}

/-! ### The reducers of a unit -/

/-- All reducers but the last have a parent in the list. -/
def Chained (l : List (ReductionNode U)) : Prop :=
  ∀ n ∈ l, l.getLast? = some n ∨ ∃ m ∈ l, n.stageId ∈ m.children

/-- What one round adds: a reducer of the unit for each group. -/
theorem formReducers_added {chunkCount : Nat} {node : StructuralUnit U} {allow : Allowance}
    {groups : List (List U)} {s : Draft U} {t : Draft U × List U}
    (h : groups.foldlM (formReducer ids a profile chunkCount node allow) (s, []) = .ok t) :
    ∃ added, t.1.reducers = s.reducers ++ added ∧ t.2 = added.map ReductionNode.stageId
      ∧ added.map ReductionNode.children = groups
      ∧ ∀ n ∈ added, n.structuralParent = node.structuralUnitId := by
  refine foldlM_ok_prefix (fun done t => ∃ added, t.1.reducers = s.reducers ++ added
    ∧ t.2 = added.map ReductionNode.stageId ∧ added.map ReductionNode.children = done
    ∧ ∀ n ∈ added, n.structuralParent = node.structuralUnitId) h ⟨[], by simp⟩ ?_
  rintro done group s' t' - ⟨added, hreducers, hkeys, hgroups, hunit⟩ ht
  obtain ⟨levels, position, n, -, rfl, -, -, rfl⟩ := formReducer_ok ht
  refine ⟨added ++ [reducerOf ids a profile node allow group levels], ?_, ?_, ?_, ?_⟩
  · rw [hreducers, List.append_assoc]
  · rw [hkeys, List.map_append]
    rfl
  · rw [List.map_append, hgroups]
    rfl
  · intro m hm
    rcases List.mem_append.mp hm with hm | hm
    · exact hunit m hm
    · rw [List.mem_singleton.mp hm]
      rfl

/-- The loop with the reducers `earlier` it has added before this round, of which those in `current` are
still without a parent. -/
theorem reduceLoop_chained {chunkCount : Nat} {node : StructuralUnit U} {allow : Allowance}
    (hpos : 0 < allow.capacity.toNat) {start : List (ReductionNode U)} :
    ∀ {rounds : Nat} {current : List U} {s : Draft U} {r : U × Draft U}
      (earlier : List (ReductionNode U)), s.reducers = start ++ earlier →
      (∀ n ∈ earlier, n.structuralParent = node.structuralUnitId) →
      (∀ n ∈ earlier, n.stageId ∈ current ∨ ∃ m ∈ earlier, n.stageId ∈ m.children) →
      reduceLoop ids a profile chunkCount node allow rounds current s = .ok r →
      ∃ added, r.2.reducers = start ++ added ∧ Chained added
        ∧ ∀ n ∈ added, n.structuralParent = node.structuralUnitId := by
  intro rounds
  induction rounds with
  | zero =>
    intro current s r earlier _ _ _ h
    cases h
  | succ rounds ih =>
    intro current s r earlier hearlier hunit hopen h
    rw [reduceLoop, bind_eq_ok] at h
    obtain ⟨⟨t, following⟩, hfold, h⟩ := h
    obtain ⟨added, hadded, hkeys, hgroups, hnode⟩ := formReducers_added hfold
    have hreducers : t.reducers = start ++ (earlier ++ added) := by
      rw [← List.append_assoc, ← hearlier]
      exact hadded
    have hall : ∀ n ∈ earlier ++ added, n.structuralParent = node.structuralUnitId := fun n hn =>
      (List.mem_append.mp hn).elim (hunit n) (hnode n)
    -- the groups of the round are all of `current`, so that what was open has a parent now
    have hclosed : ∀ n ∈ earlier, ∃ m ∈ earlier ++ added, n.stageId ∈ m.children := by
      intro n hn
      rcases hopen n hn with hcurrent | ⟨m, hm, hchild⟩
      · rw [← groupsOf_flatten hpos current, ← hgroups] at hcurrent
        obtain ⟨group, hgroup, hmem⟩ := List.mem_flatten.mp hcurrent
        obtain ⟨m, hm, rfl⟩ := List.mem_map.mp hgroup
        exact ⟨m, List.mem_append_right _ hm, hmem⟩
      · exact ⟨m, List.mem_append_left _ hm, hchild⟩
    have hnext : ∀ n ∈ earlier ++ added,
        n.stageId ∈ following ∨ ∃ m ∈ earlier ++ added, n.stageId ∈ m.children := by
      intro n hn
      rcases List.mem_append.mp hn with hn | hn
      · exact .inr (hclosed n hn)
      · rw [show following = added.map ReductionNode.stageId from hkeys]
        exact .inl (List.mem_map_of_mem hn)
    rcases following with _ | ⟨key, _ | ⟨key', rest⟩⟩
    · exact ih (earlier ++ added) hreducers hall hnext h
    · -- the last round has added one reducer
      obtain rfl : r = (key, t) := (Except.ok.inj h).symm
      obtain ⟨last, rfl, -⟩ := List.map_eq_singleton_iff.mp hkeys.symm
      refine ⟨earlier ++ [last], hreducers, fun n hn => ?_, hall⟩
      rcases List.mem_append.mp hn with hn | hn
      · exact .inr (hclosed n hn)
      · rw [List.mem_singleton.mp hn]
        exact .inl List.getLast?_concat
    · exact ih (earlier ++ added) hreducers hall hnext h

/-- What one unit adds. -/
theorem reduceUnit_chained {chunks : List (AnalysisChunk U)} {root : U} {node : StructuralUnit U}
    {s t : Draft U × Dict U (Option U)} (h : reduceUnit ids a profile chunks root s node = .ok t) :
    ∃ added, t.1.reducers = s.1.reducers ++ added ∧ Chained added
      ∧ ∀ n ∈ added, n.structuralParent = node.structuralUnitId := by
  unfold reduceUnit at h
  dsimp only at h
  rw [bind_eq_ok] at h
  obtain ⟨children, -, h⟩ := h
  rw [bind_eq_ok] at h
  obtain ⟨⟨output, draft⟩, hgroup, h⟩ := h
  rw [← Except.ok.inj h]
  obtain ⟨-, hr⟩ | ⟨-, hpos, key, draft', hloop, hr⟩ := reduceGroup_ok hgroup
  · rw [(Prod.mk.inj hr).2]
    exact ⟨[], (List.append_nil _).symm, by simp [Chained], by simp⟩
  · rw [(Prod.mk.inj hr).2]
    exact reduceLoop_chained hpos [] (List.append_nil _).symm (by simp) (by simp) hloop

/-- The reducers of a plan that belong to one unit. -/
theorem reduceUnits_chained {units : List (StructuralUnit U)}
    {chunks : List (AnalysisChunk U)} {reducers : List (ReductionNode U)} {rootId : U}
    (hnd : (idsOfUnits units).Nodup) (h : reduceUnits ids a profile units chunks = .ok (reducers, rootId))
    (unit : U) : Chained (reducers.filter fun n => n.structuralParent = unit) := by
  cases units with
  | nil => cases h
  | cons first rest =>
  unfold reduceUnits at h
  dsimp only at h
  rw [bind_eq_ok] at h
  obtain ⟨⟨draft, outputs⟩, hfold, h⟩ := h
  -- the reducers so far belong to the units that are done, and those of each unit are chained
  have hinv := foldlM_ok_prefix (fun done s =>
      (∀ n ∈ s.1.reducers, n.structuralParent ∈ idsOfUnits done)
        ∧ Chained (s.1.reducers.filter fun n => n.structuralParent = unit)) hfold
    ⟨by simp, by simp [Chained]⟩ ?_
  · dsimp only at h
    split at h
    · rw [← (Prod.mk.inj (Except.ok.inj h)).1]
      exact hinv.2
    · cases h
  rintro done node s t ⟨later, hsplit⟩ ⟨hdone, hchained⟩ ht
  obtain ⟨added, hadded, hnew, hunit⟩ := reduceUnit_chained ht
  have hfresh : node.structuralUnitId ∉ idsOfUnits done := by
    have hrev : (idsOfUnits (first :: rest).reverse).Nodup := by
      rw [idsOfUnits, List.map_reverse, List.nodup_reverse]
      exact hnd
    rw [hsplit, idsOfUnits, List.map_append] at hrev
    intro hmem
    exact (List.nodup_append.mp hrev).2.2 _ hmem _ (List.mem_map_of_mem (List.mem_cons_self)) rfl
  refine ⟨fun n hn => ?_, ?_⟩
  · rw [idsOfUnits, List.map_append, List.mem_append]
    rw [hadded] at hn
    rcases List.mem_append.mp hn with hn | hn
    · exact .inl (hdone n hn)
    · exact .inr (by simp [hunit n hn])
  · rw [hadded, List.filter_append]
    by_cases hsame : node.structuralUnitId = unit
    · have hold : s.1.reducers.filter (fun n => n.structuralParent = unit) = [] := by
        rw [List.filter_eq_nil_iff]
        intro n hn heq
        rw [decide_eq_true_eq] at heq
        exact hfresh (hsame ▸ heq ▸ hdone n hn)
      have hkept : added.filter (fun n => n.structuralParent = unit) = added := by
        rw [List.filter_eq_self]
        intro n hn
        rw [decide_eq_true_eq, hunit n hn, hsame]
      rw [hold, hkept, List.nil_append]
      exact hnew
    · have hnone : added.filter (fun n => n.structuralParent = unit) = [] := by
        rw [List.filter_eq_nil_iff]
        intro n hn heq
        rw [decide_eq_true_eq, hunit n hn] at heq
        exact hsame heq
      rw [hnone, List.append_nil]
      exact hchained

/-! ### The stage of a request -/

theorem PlanTree.reducer_eq (htree : PlanTree plan) {m n : ReductionNode U} (hm : m ∈ plan.reducers)
    (hn : n ∈ plan.reducers) (h : m.stageId = n.stageId) : m = n := by
  have hnd := htree.nodup
  rw [Plan.stages, List.nodup_append] at hnd
  exact List.inj_on_of_nodup_map hnd.2.1 hm hn h

theorem PlanTree.not_chunk (htree : PlanTree plan) {n : ReductionNode U} (hn : n ∈ plan.reducers) :
    n.stageId ∉ plan.chunks.map AnalysisChunk.chunkId := by
  intro hmem
  have hnd := htree.nodup
  rw [Plan.stages, List.nodup_append] at hnd
  exact hnd.2.2 _ hmem _ (List.mem_map_of_mem hn) rfl

/-- A stage has one parent. -/
theorem PlanTree.parent_eq (htree : PlanTree plan) {n p q : ReductionNode U} (hn : n ∈ plan.reducers)
    (hp : p ∈ plan.reducers) (hchild : n.stageId ∈ p.children) (hq : q ∈ plan.reducers)
    (hqchild : n.stageId ∈ q.children) : q = p := by
  have hroot : n.stageId ≠ plan.rootId := fun heq => htree.rootFree p hp (heq ▸ hchild)
  have hstage : n.stageId ∈ plan.stages := List.mem_append_right _ (List.mem_map_of_mem hn)
  exact (htree.parent _ hstage hroot).unique ⟨hq, hqchild⟩ ⟨hp, hchild⟩

/-- A reducer with a parent is the last of its siblings if the parent belongs to another unit. -/
theorem siblings_last (hc : ids.CollisionFree) (hplan : Planned ids a profile ref plan)
    {n p : ReductionNode U} (hn : n ∈ plan.reducers) (hp : p ∈ plan.reducers)
    (hchild : n.stageId ∈ p.children) :
    ∃ last, (siblingsOf plan n).getLast? = some last
      ∧ (last.stageId = n.stageId ↔ p.structuralParent ≠ n.structuralParent) := by
  have htree := hplan.tree hc
  have hmem : n ∈ siblingsOf plan n := List.mem_filter.mpr ⟨hn, by simp⟩
  obtain ⟨last, hlast⟩ : ∃ last, (siblingsOf plan n).getLast? = some last :=
    Option.isSome_iff_exists.mp (List.getLast?_isSome.mpr (List.ne_nil_of_mem hmem))
  refine ⟨last, hlast, ?_, fun hother => ?_⟩
  · -- a parent in the same unit would come after the last sibling
    intro hid hsame
    obtain rfl : last = n := htree.reducer_eq
      (List.mem_of_mem_filter (List.mem_of_getLast? hlast)) hn hid
    obtain ⟨before, after, hsplit⟩ := List.append_of_mem hp
    have hsiblings : siblingsOf plan last
        = before.filter (fun n => n.structuralParent = last.structuralParent)
          ++ p :: after.filter (fun n => n.structuralParent = last.structuralParent) := by
      rw [siblingsOf, hsplit, List.filter_append, List.filter_cons_of_pos (by simpa using hsame)]
    rw [hsiblings, List.getLast?_append_cons] at hlast
    have hafter : last ∈ p :: after := by
      rcases List.mem_cons.mp (List.mem_of_getLast? hlast) with rfl | h
      · exact List.mem_cons_self
      · exact List.mem_cons_of_mem _ (List.mem_of_mem_filter h)
    have hnd := htree.nodup
    rw [Plan.stages, hsplit, List.map_append, ← List.append_assoc, List.nodup_append] at hnd
    have hbefore := htree.ordered before p after hsplit _ hchild
    exact hnd.2.2 _ hbefore _ (List.mem_map_of_mem hafter) rfl
  · rcases reduceUnits_chained hplan.grown.nodup hplan.reduced n.structuralParent n hmem with h | h
    · rw [show (siblingsOf plan n).getLast? = some n from h] at hlast
      rw [← Option.some.inj hlast]
    · -- the parent among the siblings would be a second one
      obtain ⟨m, hm, hmchild⟩ := h
      obtain ⟨hm, hunit⟩ := List.mem_filter.mp hm
      obtain rfl := htree.parent_eq hn hp hchild hm hmchild
      exact absurd (of_decide_eq_true hunit) hother

/-- What the tree says of the stages that a stage profile is for. -/
def Plan.Role (plan : Plan U) (k : U) : ManagedStage → Prop
  | .chunk => k ∈ plan.chunks.map AnalysisChunk.chunkId
  | .root => k = plan.rootId
  | .structural => ∃ n ∈ plan.reducers, ∃ p ∈ plan.reducers,
    n.stageId = k ∧ k ∈ p.children ∧ p.structuralParent ≠ n.structuralParent
  | .intermediate => ∃ n ∈ plan.reducers, ∃ p ∈ plan.reducers,
    n.stageId = k ∧ k ∈ p.children ∧ p.structuralParent = n.structuralParent

/-! Each stage has one role. -/

theorem PlanTree.role_chunk (htree : PlanTree plan) {k : U}
    (hk : k ∈ plan.chunks.map AnalysisChunk.chunkId) (s : ManagedStage) :
    plan.Role k s ↔ s = .chunk := by
  have hreducer : ∀ n ∈ plan.reducers, n.stageId ≠ k := fun n hn heq => htree.not_chunk hn (heq ▸ hk)
  obtain ⟨r, hr, hroot⟩ := List.mem_map.mp htree.rootReducer
  cases s with
  | chunk => exact ⟨fun _ => rfl, fun _ => hk⟩
  | root =>
    refine ⟨fun h => ?_, fun h => by cases h⟩
    exact absurd (hroot.trans (show plan.rootId = k from h.symm)) (hreducer r hr)
  | structural =>
    refine ⟨?_, fun h => by cases h⟩
    rintro ⟨n, hn, p, -, heq, -⟩
    exact absurd heq (hreducer n hn)
  | intermediate =>
    refine ⟨?_, fun h => by cases h⟩
    rintro ⟨n, hn, p, -, heq, -⟩
    exact absurd heq (hreducer n hn)

theorem PlanTree.role_root (htree : PlanTree plan) (s : ManagedStage) :
    plan.Role plan.rootId s ↔ s = .root := by
  obtain ⟨r, hr, hroot⟩ := List.mem_map.mp htree.rootReducer
  cases s with
  | chunk => exact ⟨fun h => absurd (hroot.symm ▸ h) (htree.not_chunk hr), fun h => by cases h⟩
  | root => exact ⟨fun _ => rfl, fun _ => rfl⟩
  | structural =>
    refine ⟨?_, fun h => by cases h⟩
    rintro ⟨m, -, p, hp, -, hchild, -⟩
    exact absurd hchild (htree.rootFree p hp)
  | intermediate =>
    refine ⟨?_, fun h => by cases h⟩
    rintro ⟨m, -, p, hp, -, hchild, -⟩
    exact absurd hchild (htree.rootFree p hp)

theorem PlanTree.role_child (htree : PlanTree plan) {n p : ReductionNode U} (hn : n ∈ plan.reducers)
    (hp : p ∈ plan.reducers) (hchild : n.stageId ∈ p.children) (s : ManagedStage) :
    plan.Role n.stageId s
      ↔ s = if p.structuralParent ≠ n.structuralParent then .structural else .intermediate := by
  have hroot : n.stageId ≠ plan.rootId := fun heq => htree.rootFree p hp (heq ▸ hchild)
  -- the reducers of a role are `n` and its parent
  have hsame : ∀ (P : U → U → Prop), (∃ m ∈ plan.reducers, ∃ q ∈ plan.reducers, m.stageId = n.stageId
      ∧ n.stageId ∈ q.children ∧ P q.structuralParent m.structuralParent)
      ↔ P p.structuralParent n.structuralParent := by
    intro P
    constructor
    · rintro ⟨m, hm, q, hq, heq, hqchild, hP⟩
      rw [← htree.reducer_eq hm hn heq, ← htree.parent_eq hn hp hchild hq hqchild]
      exact hP
    · exact fun hP => ⟨n, hn, p, hp, rfl, hchild, hP⟩
  cases s with
  | chunk =>
    refine ⟨fun h => absurd h (htree.not_chunk hn), fun h => ?_⟩
    split_ifs at h
  | root =>
    refine ⟨fun h => absurd h hroot, fun h => ?_⟩
    split_ifs at h
  | structural =>
    refine (hsame (· ≠ ·)).trans ⟨fun h => (if_pos h).symm, fun h hwrong => ?_⟩
    rw [if_neg (not_not.mpr hwrong)] at h
    cases h
  | intermediate =>
    refine (hsame (· = ·)).trans ⟨fun h => (if_neg (not_not.mpr h)).symm, fun h => ?_⟩
    by_contra hwrong
    rw [if_pos hwrong] at h
    cases h

/-- What a request was built from. -/
theorem stageRequest_ok {k : U} {checkpoints : Dict U (Checkpoint U)} {refs : Dict U (ObjectRef U)}
    {request : StageRequest U} (h : stageRequest ids plan k checkpoints refs = .ok request) :
    request.stageId = k ∧ request.profile = plan.profile
      ∧ ((∃ c, plan.nodes.get? k = some (.chunk c) ∧ request.stage = .analysis)
        ∨ ∃ n, plan.nodes.get? k = some (.reducer n) ∧ request.stage = .reduction) := by
  unfold stageRequest at h
  split at h
  · cases h
  · rename_i c hnode
    obtain ⟨-, rfl⟩ := make_eq_ok.mp h
    exact ⟨rfl, rfl, .inl ⟨c, hnode, rfl⟩⟩
  · rename_i n hnode
    obtain ⟨children, -, h⟩ := bind_eq_ok.mp h
    obtain ⟨-, rfl⟩ := make_eq_ok.mp h
    exact ⟨rfl, rfl, .inr ⟨n, hnode, rfl⟩⟩

theorem mem_of_nodes {k : U} {node : PlanNode U} (h : plan.nodes.get? k = some node) :
    (∃ c ∈ plan.chunks, c.chunkId = k ∧ node = .chunk c)
      ∨ ∃ n ∈ plan.reducers, n.stageId = k ∧ node = .reducer n := by
  have hmem := Dict.mem_of_get?_ofList h
  rcases List.mem_append.mp hmem with hmem | hmem
  · obtain ⟨c, hc, hpair⟩ := List.mem_map.mp hmem
    obtain ⟨rfl, rfl⟩ := Prod.mk.inj hpair
    exact .inl ⟨c, hc, rfl, rfl⟩
  · obtain ⟨n, hn, hpair⟩ := List.mem_map.mp hmem
    obtain ⟨rfl, rfl⟩ := Prod.mk.inj hpair
    exact .inr ⟨n, hn, rfl, rfl⟩

theorem managedStage_analysis {request : StageRequest U} (h : request.stage = .analysis) :
    managedStage plan request = .ok .chunk := by
  rw [managedStage, if_pos h]

theorem managedStage_root {request : StageRequest U} (h : request.stage = .reduction)
    (hroot : request.stageId = plan.rootId) : managedStage plan request = .ok .root := by
  rw [managedStage, if_neg (by rw [h]; decide), if_pos hroot]

theorem managedStage_reducer {request : StageRequest U} {n last : ReductionNode U}
    (h : request.stage = .reduction) (hroot : request.stageId ≠ plan.rootId)
    (hnode : plan.nodes.get? request.stageId = some (.reducer n))
    (hlast : (siblingsOf plan n).getLast? = some last) :
    managedStage plan request
      = .ok (if last.stageId = n.stageId then .structural else .intermediate) := by
  rw [managedStage, if_neg (by rw [h]; decide), if_neg hroot, hnode]
  dsimp only
  rw [hlast]

/-- **The stage profiles follow the tree.**  In a plan of `build_plan` the handler finds a stage for the
request of every stage of the plan: that of its role, which is the only one it has. -/
theorem managedStage_role (hc : ids.CollisionFree) (hbuild : buildPlan ids a profile ref = .ok plan)
    {k : U} {checkpoints : Dict U (Checkpoint U)} {refs : Dict U (ObjectRef U)}
    {request : StageRequest U} (hrequest : stageRequest ids plan k checkpoints refs = .ok request) :
    ∃ stage, managedStage plan request = .ok stage ∧ ∀ s, plan.Role k s ↔ s = stage := by
  have hplan := buildPlan_ok hbuild
  have htree := hplan.tree hc
  obtain ⟨hid, -, ⟨c, hnode, hstage⟩ | ⟨n, hnode, hstage⟩⟩ := stageRequest_ok hrequest
  · have hchunk : k ∈ plan.chunks.map AnalysisChunk.chunkId := by
      obtain ⟨c, hmem, rfl, -⟩ | ⟨n, -, -, hwrong⟩ := mem_of_nodes hnode
      · exact List.mem_map_of_mem hmem
      · cases hwrong
    exact ⟨.chunk, managedStage_analysis hstage, htree.role_chunk hchunk⟩
  · obtain ⟨c, -, -, hwrong⟩ | ⟨n, hn, rfl, heq⟩ := mem_of_nodes hnode
    · cases hwrong
    obtain rfl := PlanNode.reducer.inj heq
    by_cases hroot : n.stageId = plan.rootId
    · refine ⟨.root, managedStage_root hstage (hid.trans hroot), fun s => ?_⟩
      rw [hroot]
      exact htree.role_root s
    · obtain ⟨p, ⟨hp, hchild⟩, -⟩ :=
        htree.parent n.stageId (List.mem_append_right _ (List.mem_map_of_mem hn)) hroot
      obtain ⟨last, hlast, hother⟩ := siblings_last hc hplan hn hp hchild
      refine ⟨_, managedStage_reducer hstage (hid.symm ▸ hroot) (hid.symm ▸ hnode) hlast, fun s => ?_⟩
      rw [htree.role_child hn hp hchild, if_congr hother rfl rfl]

/-- The theorem applies to the sample: the reducer of the text, under that of the document. -/
theorem managedStage_role_sample : ∃ stage,
    managedStage keptPlan (textRequest keep legacyProfile (legacyEstimate keep)) = .ok stage
      ∧ ∀ s, keptPlan.Role 9 s ↔ s = stage :=
  managedStage_role keptIds_collisionFree (buildPlan_legacy smallCut_keep) (text_stageRequest (by decide))

/-! ### Rendering -/

/-- The stage found for a request of any plan is of the kind of the request. -/
theorem managedStage_kind {k : U} {checkpoints : Dict U (Checkpoint U)} {refs : Dict U (ObjectRef U)}
    {request : StageRequest U} (hrequest : stageRequest ids plan k checkpoints refs = .ok request) :
    ∃ stage, managedStage plan request = .ok stage ∧ (request.stage = .analysis ↔ stage = .chunk) := by
  obtain ⟨hid, -, ⟨c, -, hstage⟩ | ⟨n, hnode, hstage⟩⟩ := stageRequest_ok hrequest
  · exact ⟨.chunk, managedStage_analysis hstage, fun _ => rfl, fun _ => hstage⟩
  · have hkind : ∀ {stage : ManagedStage}, stage ≠ .chunk →
        (request.stage = .analysis ↔ stage = .chunk) := fun hne => ⟨fun h => absurd (hstage.symm.trans h) (by decide), fun h => absurd h hne⟩
    by_cases hroot : k = plan.rootId
    · exact ⟨.root, managedStage_root hstage (hid.trans hroot), hkind (by decide)⟩
    · obtain ⟨c, -, -, hwrong⟩ | ⟨m, hm, -, heq⟩ := mem_of_nodes hnode
      · cases hwrong
      obtain rfl := PlanNode.reducer.inj heq
      have hmem : n ∈ siblingsOf plan n := List.mem_filter.mpr ⟨hm, by simp⟩
      obtain ⟨last, hlast⟩ : ∃ last, (siblingsOf plan n).getLast? = some last :=
        Option.isSome_iff_exists.mp (List.getLast?_isSome.mpr (List.ne_nil_of_mem hmem))
      refine ⟨_, managedStage_reducer hstage (hid.symm ▸ hroot) (hid.symm ▸ hnode) hlast, hkind ?_⟩
      split_ifs
      · decide
      · decide

/-- **The handler renders what it is given.**  Let the settings be valid, with `child_input_bytes` set,
and let a plan have a profile that was bound.  Every request of the plan that is admitted is rendered
with the stage profile of its stage, or it cites more evidence than the settings allow. -/
theorem handlerRender_bound {resultSchema : Json} {self : ManagedSynthesisInference} {nil : U}
    {planning : DigestionProfile} {size : Nat} (hw : ids.FixedWidth)
    (hmade : ManagedSynthesisInference.Made ids resultSchema self)
    (hvalid : self.settings.valid resultSchema = true) (hchild : self.settings.childInputBytes.isSome = true)
    (hprofile : self.profile ids resultSchema nil planning = .ok plan.profile)
    {k : U} {checkpoints : Dict U (Checkpoint U)} {refs : Dict U (ObjectRef U)}
    {request : StageRequest U} (hrequest : stageRequest ids plan k checkpoints refs = .ok request)
    (hadmitted : admitRequest ids request = .ok size) :
    ∃ p ∈ self.settings.profiles, managedStage plan request = .ok p.stage
      ∧ handlerRender ids resultSchema self nil plan request
        = if self.settings.maxEvidence < (evidenceOf ids request).length then
            .error (.context "Evidence cardinality exceeds configured bound.")
          else .ok (generation ids resultSchema self.settings p request,
            self.estimate (envelopeSize ids resultSchema self.settings p request)) := by
  obtain ⟨stage, hstage, hkind⟩ := managedStage_kind hrequest
  obtain ⟨-, hbound, -⟩ := stageRequest_ok hrequest
  obtain ⟨p, hp, rfl, hrender⟩ := render_bound stage hw hmade hvalid hchild hprofile hbound hadmitted hkind
  refine ⟨p, hp, hstage, ?_⟩
  obtain ⟨childBytes, hchild⟩ := Option.isSome_iff_exists.mp hchild
  obtain ⟨_, unbound, hunbound, heq, -⟩ := ManagedSynthesisInference.profile_ok hprofile hchild
  have hconfig : plan.profile.inferenceConfig = self.config := by
    rw [heq]
    exact (ManagedSynthesisInference.boundProfile_bound hunbound).inferenceConfig
  have hcheck : checkPlan self plan = .ok () := if_neg (not_not.mpr hconfig)
  obtain ⟨q, -, hfound⟩ := ManagedSynthesisInference.stageProfiles_complete hvalid p.stage
  unfold handlerRender
  rw [hcheck, ok_bind, hstage, ok_bind, ManagedSynthesisInference.stageProfile_eq_ok hfound, ok_bind,
    ManagedSynthesisInference.bind_of_made hmade, ok_bind]
  exact hrender

/-- The plan of the sample under a profile that was bound. -/
def budgetedPlan (budget : ManagedInputBudget) : Plan Nat :=
  { samplePlan wrap samplePlanning 0 with profile := budgetedSample budget }

theorem budgeted_stageRequest (budget : ManagedInputBudget) :
    stageRequest (sampleIds wrap samplePlanning) (budgetedPlan budget) 8 [] []
      = .ok (sampleRequest (budgetedSample budget)) := by
  have hnode : (budgetedPlan budget).nodes.get? 8 = some (.chunk (sampleChunk 0)) := rfl
  have hrequest : chunkRequest (budgetedPlan budget) 8 (sampleChunk 0)
    = sampleRequest (budgetedSample budget) := rfl
  unfold stageRequest
  rw [hnode]
  dsimp only
  rw [hrequest, StageRequest.make, if_pos]
  simp [StageRequest.valid, sampleRequest]

/-- The theorem applies to the sample: the analysis of one piece. -/
theorem handlerRender_bound_sample : ∃ budget size answer,
    sampleInference.profile (sampleIds wrap samplePlanning) .null 0 samplePlanning = .ok (budgetedSample budget)
      ∧ admitRequest (sampleIds wrap samplePlanning) (sampleRequest (budgetedSample budget)) = .ok size
      ∧ handlerRender (sampleIds wrap samplePlanning) .null sampleInference 0 (budgetedPlan budget)
        (sampleRequest (budgetedSample budget)) = .ok answer := by
  obtain ⟨budget, hbudget, hprofile⟩ := sample_profile
  obtain ⟨size, hadmitted⟩ := sample_admitted hbudget
  obtain ⟨p, -, -, hrender⟩ := handlerRender_bound (sample_fixedWidth samplePlanning) sample_made
    sampleSettings_valid rfl hprofile (budgeted_stageRequest budget) hadmitted
  have hlength :
      (evidenceOf (sampleIds wrap samplePlanning) (sampleRequest (budgetedSample budget))).length = 1 := rfl
  have hevidence : ¬ sampleInference.settings.maxEvidence < 1 := by decide
  rw [hlength, if_neg hevidence] at hrender
  exact ⟨budget, size, _, hprofile, hadmitted, hrender⟩

end Polymind.Digestion
