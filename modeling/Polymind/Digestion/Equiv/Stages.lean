import Polymind.Digestion.Equiv.Tree

/-!
# Accepted stages

What it takes for a stage of a plan to be accepted, in the terms of the plan and of what its
children left: the request is that of the chunk or reducer (`stageRequest_chunk`,
`stageRequest_reducer`), and the result passes every check of `validate_result` (`Accepted`).

* `performStage_ok`: how a stage step came to write its checkpoint;
* `acceptResult_ok`: what the checks of `validate_result` leave true of a result;
* `Validated.chunk`, `Validated.reducer`: both for the stages of a plan;
* `get?_links`: the claims a reducer may link are the claims of its children.
-/

namespace Polymind.Digestion

open Json Documents Forest

variable {U : Type} [DecidableEq U] {ids : Ids U} {parse : Parser U} {a : ExtractionArtifact U}
  {profile : DigestionProfile} {ref planRef : ObjectRef U} {plan : Plan U} {o : Outcomes U}

/-! ### Steps -/

/-- How a plan was prepared. -/
theorem prepare_ok (h : prepare ids a ref profile = .ok (plan, planRef)) :
    buildPlan ids a profile ref = .ok plan
      ∧ put ids a.document.scope (plan.modelDump ids) profile.maxArtifactBytes = .ok planRef := by
  unfold prepare at h
  rw [bind_eq_ok] at h
  obtain ⟨plan', hbuild, h⟩ := h
  rw [bind_eq_ok] at h
  obtain ⟨planRef', hput, h⟩ := h
  obtain ⟨rfl, rfl⟩ := Prod.mk.inj (Except.ok.inj h)
  exact ⟨hbuild, hput⟩

/-- How a stage step came to write its checkpoint. -/
theorem performStage_ok {checkpoints : Dict U (Checkpoint U)} {refs : Dict U (ObjectRef U)} {k : U}
    {raw : Bytes} {cp : Checkpoint U} {r : ObjectRef U}
    (h : performStage ids parse a plan planRef checkpoints refs k raw = .ok (cp, r)) :
    ∃ request result children, stageRequest ids plan k checkpoints refs = .ok request
      ∧ validateResult ids parse a raw request = .ok result
      ∧ childCheckpoints checkpoints request = .ok children
      ∧ cp = checkpointOf ids plan planRef request result children
      ∧ checkContribution ids plan.profile planRef result cp.inherited = .ok ()
      ∧ put ids planRef.scope (cp.modelDump ids) plan.profile.maxArtifactBytes = .ok r := by
  unfold performStage at h
  rw [bind_eq_ok] at h
  obtain ⟨request, hrequest, h⟩ := h
  rw [bind_eq_ok] at h
  obtain ⟨result, hresult, h⟩ := h
  rw [bind_eq_ok] at h
  obtain ⟨children, hchildren, h⟩ := h
  dsimp only at h
  rw [bind_eq_ok] at h
  obtain ⟨_, hcontribution, h⟩ := h
  rw [bind_eq_ok] at h
  obtain ⟨r', hput, h⟩ := h
  obtain ⟨rfl, rfl⟩ := Prod.mk.inj (Except.ok.inj h)
  exact ⟨request, result, children, hrequest, hresult, hchildren, rfl, hcontribution, hput⟩

theorem Performed.validated {k : U} (h : Performed ids parse a plan planRef o k) :
    Validated ids parse a plan o k := by
  obtain ⟨raw, h⟩ := h
  obtain ⟨request, result, children, hrequest, hresult, -, hcp, -, -⟩ := performStage_ok h
  refine ⟨raw, request, hrequest, ?_⟩
  rw [hcp]
  exact hresult

/-! ### The nodes of a plan -/

theorem nodes_eq (hnd : plan.stages.Nodup) :
    plan.nodes = plan.chunks.map (fun c => (c.chunkId, PlanNode.chunk c))
      ++ plan.reducers.map fun n => (n.stageId, .reducer n) := by
  refine Dict.ofList_eq_self ?_
  rw [List.map_append, List.map_map, List.map_map]
  exact hnd

theorem nodes_nodup (hnd : plan.stages.Nodup) : (plan.nodes.map Prod.fst).Nodup := by
  rw [nodes_eq hnd, List.map_append, List.map_map, List.map_map]
  exact hnd

theorem nodes_chunk (hnd : plan.stages.Nodup) {c : AnalysisChunk U} (hc : c ∈ plan.chunks) :
    plan.nodes.get? c.chunkId = some (.chunk c) := by
  refine Dict.get?_of_mem (nodes_nodup hnd) ?_
  rw [nodes_eq hnd]
  exact List.mem_append_left _ (List.mem_map_of_mem hc)

theorem nodes_reducer (hnd : plan.stages.Nodup) {n : ReductionNode U} (hn : n ∈ plan.reducers) :
    plan.nodes.get? n.stageId = some (.reducer n) := by
  refine Dict.get?_of_mem (nodes_nodup hnd) ?_
  rw [nodes_eq hnd]
  exact List.mem_append_right _ (List.mem_map_of_mem hn)

theorem dependencies_chunk (hnd : plan.stages.Nodup) {c : AnalysisChunk U} (hc : c ∈ plan.chunks) :
    plan.dependencies c.chunkId = [] := by
  rw [Plan.dependencies, nodes_chunk hnd hc]

theorem dependencies_reducer (hnd : plan.stages.Nodup) {n : ReductionNode U}
    (hn : n ∈ plan.reducers) : plan.dependencies n.stageId = n.children := by
  rw [Plan.dependencies, nodes_reducer hnd hn]

/-! ### Requests -/

theorem stageRequest_chunk (hnd : plan.stages.Nodup) {c : AnalysisChunk U} (hc : c ∈ plan.chunks)
    (checkpoints : Dict U (Checkpoint U)) (refs : Dict U (ObjectRef U)) :
    stageRequest ids plan c.chunkId checkpoints refs
      = StageRequest.make ids (chunkRequest plan c.chunkId c) := by
  rw [stageRequest, nodes_chunk hnd hc]

/-- The request of a reducer, where the outcomes of its children are read. -/
theorem stageRequest_reducer (hnd : plan.stages.Nodup) {n : ReductionNode U} (hn : n ∈ plan.reducers)
    {keys more : List U} (hkeys : ∀ k ∈ n.children, k ∈ keys) (hmore : ∀ k ∈ n.children, k ∈ more) :
    stageRequest ids plan n.stageId (o.checkpoints keys) (o.refs more)
      = StageRequest.make ids (reducerRequest plan n.stageId n (n.children.map o.child)) := by
  have hchildren : n.children.mapM (childInput (o.checkpoints keys) (o.refs more))
      = .ok (n.children.map o.child) := by
    rw [mapM_eq_ok, List.forall₂_map_right_iff, List.forall₂_same]
    intro k hk
    rw [childInput, Outcomes.refs, Outcomes.checkpoints, Dict.get?_map_of_mem _ (hmore k hk),
      Dict.get?_map_of_mem _ (hkeys k hk)]
    rfl
  rw [stageRequest, nodes_reducer hnd hn]
  dsimp only
  rw [hchildren]
  rfl

theorem make_eq_ok {r s : StageRequest U} :
    StageRequest.make ids r = .ok s ↔ r.valid ids = true ∧ r = s := by
  unfold StageRequest.make
  by_cases h : r.valid ids = true
  · simp [h]
  · simp [h]

/-! ### Results -/

/-- What `validate_result` leaves true of a claim. -/
structure ClaimAccepted (ids : Ids U) (request : StageRequest U) (claim : Claim U) : Prop where
  cited : ∀ e ∈ claim.evidenceIds ++ claim.contradictingEvidenceIds, e ∈ allowed ids request
  linked : ∀ k ∈ claim.links, k ∈ (links request).map Prod.fst
  supported : claim.kind = .fact → hasSource request claim = true
  qualified : ∀ q ∈ claim.qualifications, ∀ e ∈ q.evidenceIds, e ∈ allowed ids request

/-- What `validate_result` leaves true of a result. -/
structure Accepted (ids : Ids U) (request : StageRequest U) (result : StageResult U) : Prop where
  stageId : result.stageId = request.stageId
  unavailable : result.outcome = .unavailable → request.stage = .analysis ∧ result.claims = []
  nodup : (result.claims.map Claim.claimId).Nodup
  claims : ∀ claim ∈ result.claims, ClaimAccepted ids request claim
  covered : request.stage = .analysis → result.outcome = .analyzed →
    ∀ e, e ∈ result.cited ↔ e ∈ permitted ids request
  linked : request.stage = .reduction → ∀ k, k ∈ result.linked ↔ k ∈ (links request).map Prod.fst

section

variable {request : StageRequest U} {result : StageResult U}

theorem checkBinding_ok (h : checkBinding request result = .ok ()) :
    result.stageId = request.stageId := by
  unfold checkBinding at h
  rw [ite_error_eq_ok] at h
  exact not_not.mp h.1

omit [DecidableEq U] in
theorem checkOutcome_ok (h : checkOutcome request result = .ok ())
    (hout : result.outcome = .unavailable) : request.stage = .analysis ∧ result.claims = [] := by
  unfold checkOutcome at h
  rw [hout] at h
  dsimp only at h
  rw [ite_error_eq_ok, ite_error_eq_ok] at h
  obtain ⟨hstage, hclaims, -⟩ := h
  exact ⟨not_not.mp hstage, by simpa using hclaims⟩

theorem checkCitations_ok {values : List U} (h : checkCitations ids request values = .ok ()) :
    ∀ e ∈ values, e ∈ allowed ids request := by
  unfold checkCitations at h
  rw [ite_error_eq_ok, ite_error_eq_ok] at h
  simpa using h.2.1

theorem checkLineage_ok {claim : Claim U} (h : checkLineage request claim = .ok ()) :
    ∀ k ∈ claim.links, k ∈ (links request).map Prod.fst := by
  unfold checkLineage at h
  rw [ite_error_eq_ok, ite_error_eq_ok] at h
  have hall := h.2.1
  rw [Bool.not_eq_true', Bool.not_eq_false, List.all_eq_true] at hall
  exact fun k hk => Dict.has_iff.mp (hall k hk)

theorem checkSupport_ok {claim : Claim U} (h : checkSupport request claim = .ok ())
    (hfact : claim.kind = .fact) : hasSource request claim = true := by
  unfold checkSupport at h
  rw [ite_error_eq_ok] at h
  by_contra hne
  exact h.1 (by simp [hfact, hne])

theorem checkQualification_ok {q : Qualification U} (h : checkQualification ids request q = .ok ()) :
    ∀ e ∈ q.evidenceIds, e ∈ allowed ids request := by
  unfold checkQualification at h
  rw [ite_error_eq_ok, ite_error_eq_ok] at h
  have hsource := h.2.1
  simp only [Bool.or_eq_true, Bool.not_eq_true', not_or, Bool.not_eq_false] at hsource
  simpa using hsource.2

/-- One round of the loop over the claims. -/
theorem checkClaim_ok {position : Nat} {seen : List U} {claim : Claim U}
    (h : checkClaim ids request position seen claim = .ok ()) :
    claim.claimId ∉ seen ∧ ClaimAccepted ids request claim := by
  unfold checkClaim at h
  simp only [bind_eq_ok] at h
  obtain ⟨⟨⟩, hidentity, ⟨⟩, -, ⟨⟩, hevidence, ⟨⟩, hagainst, ⟨⟩, hlineage, ⟨⟩, hsupport, ⟨⟩, hqualified,
    -⟩ := h
  unfold checkIdentity at hidentity
  rw [ite_error_eq_ok] at hidentity
  refine ⟨hidentity.1, ?_, checkLineage_ok hlineage, checkSupport_ok hsupport, ?_⟩
  · intro e he
    rcases List.mem_append.mp he with he | he
    · exact checkCitations_ok hevidence e he
    · exact checkCitations_ok hagainst e he
  · exact fun q hq => checkQualification_ok (forM_eq_ok.mp hqualified q hq)

/-- The loop over the claims. -/
theorem checkClaims_ok {position : Nat} {seen : List U} {claims : List (Claim U)}
    (h : checkClaims ids request position seen claims = .ok ()) :
    (claims.map Claim.claimId).Nodup ∧ (∀ claim ∈ claims, claim.claimId ∉ seen)
      ∧ ∀ claim ∈ claims, ClaimAccepted ids request claim := by
  induction claims generalizing position seen with
  | nil => simp
  | cons claim claims ih =>
    rw [checkClaims, bind_eq_ok] at h
    obtain ⟨⟨⟩, hclaim, h⟩ := h
    obtain ⟨hnew, haccepted⟩ := checkClaim_ok hclaim
    obtain ⟨hnd, hfresh, hall⟩ := ih h
    refine ⟨?_, ?_, List.forall_mem_cons.mpr ⟨haccepted, hall⟩⟩
    · rw [List.map_cons, List.nodup_cons]
      refine ⟨fun hmem => ?_, hnd⟩
      obtain ⟨other, hother, heq⟩ := List.mem_map.mp hmem
      exact hfresh other hother (heq ▸ List.mem_cons_self ..)
    · refine List.forall_mem_cons.mpr ⟨hnew, fun other hother hmem => ?_⟩
      exact hfresh other hother (List.mem_cons_of_mem _ hmem)

theorem sameSet_iff {α : Type} [DecidableEq α] {l m : List α} :
    sameSet l m = true ↔ ∀ x, x ∈ l ↔ x ∈ m := by
  simp only [sameSet, Bool.and_eq_true, List.all_eq_true, List.contains_iff_mem]
  constructor
  · rintro ⟨hlm, hml⟩ x
    exact ⟨hlm x, hml x⟩
  · intro h
    exact ⟨fun x => (h x).mp, fun x => (h x).mpr⟩

/-- The checks of `validate_result`. -/
theorem acceptResult_ok (h : acceptResult ids a request result = .ok ()) :
    Accepted ids request result := by
  unfold acceptResult at h
  simp only [bind_eq_ok] at h
  obtain ⟨⟨⟩, -, ⟨⟩, hbinding, ⟨⟩, houtcome, ⟨⟩, -, ⟨⟩, -, ⟨⟩, hclaims, ⟨⟩, hcoverage, -⟩ := h
  obtain ⟨hnd, -, haccepted⟩ := checkClaims_ok hclaims
  unfold checkCoverage at hcoverage
  rw [ite_error_eq_ok, ite_error_eq_ok] at hcoverage
  obtain ⟨hsource, hchild, -⟩ := hcoverage
  refine ⟨checkBinding_ok hbinding, checkOutcome_ok houtcome, hnd, haccepted, ?_, ?_⟩
  · intro hstage hout
    rw [← sameSet_iff]
    by_contra hne
    exact hsource (by simp [hstage, hout, hne])
  · intro hstage
    rw [← sameSet_iff]
    by_contra hne
    exact hchild (by simp [hstage, hne])

/-- `validate_result`. -/
theorem validateResult_ok {raw : Bytes} (h : validateResult ids parse a raw request = .ok result) :
    (∃ size, checkRequest ids request = .ok size)
      ∧ decodeResult parse raw request.profile.responseByteLimit = .ok result
      ∧ acceptResult ids a request result = .ok () := by
  unfold validateResult at h
  rw [bind_eq_ok] at h
  obtain ⟨size, hsize, h⟩ := h
  rw [bind_eq_ok] at h
  obtain ⟨decoded, hdecoded, h⟩ := h
  rw [bind_eq_ok] at h
  obtain ⟨⟨⟩, haccept, h⟩ := h
  obtain rfl := Except.ok.inj h
  exact ⟨⟨size, hsize⟩, hdecoded, haccept⟩

end

/-! ### Families of accepted results -/

/-- The claims of a stage. -/
def Outcomes.claims (o : Outcomes U) (k : U) : List (Claim U) := (o.checkpoint k).result.claims

/-- The request of a reducer, made of the outcomes of its children. -/
def Outcomes.request (o : Outcomes U) (plan : Plan U) (n : ReductionNode U) : StageRequest U :=
  reducerRequest plan n.stageId n (n.children.map o.child)

theorem Validated.chunk (hnd : plan.stages.Nodup) {c : AnalysisChunk U} (hc : c ∈ plan.chunks)
    (h : Validated ids parse a plan o c.chunkId) :
    Accepted ids (chunkRequest plan c.chunkId c) (o.checkpoint c.chunkId).result := by
  obtain ⟨raw, request, hrequest, hresult⟩ := h
  rw [stageRequest_chunk hnd hc, make_eq_ok] at hrequest
  rw [hrequest.2]
  exact acceptResult_ok (validateResult_ok hresult).2.2

theorem Validated.reducer (hnd : plan.stages.Nodup) {n : ReductionNode U} (hn : n ∈ plan.reducers)
    (h : Validated ids parse a plan o n.stageId) :
    Accepted ids (o.request plan n) (o.checkpoint n.stageId).result := by
  obtain ⟨raw, request, hrequest, hresult⟩ := h
  rw [dependencies_reducer hnd hn, stageRequest_reducer hnd hn (fun _ hk => hk) (fun _ hk => hk),
    make_eq_ok] at hrequest
  rw [Outcomes.request, hrequest.2]
  exact acceptResult_ok (validateResult_ok hresult).2.2

/-- A family of results over a plan, each accepted against the request of its stage. -/
structure Family (ids : Ids U) (plan : Plan U) (o : Outcomes U) : Prop where
  nodup : plan.stages.Nodup
  builds : Builds (plan.chunks.map AnalysisChunk.chunkId) (nodesOf plan.reducers) [plan.rootId]
  chunk : ∀ c ∈ plan.chunks,
    Accepted ids (chunkRequest plan c.chunkId c) (o.checkpoint c.chunkId).result
  reducer : ∀ n ∈ plan.reducers, Accepted ids (o.request plan n) (o.checkpoint n.stageId).result

theorem Planned.family (hc : ids.CollisionFree) (h : Planned ids a profile ref plan)
    (hall : ∀ k ∈ plan.stages, Validated ids parse a plan o k) : Family ids plan o := by
  have hnd := h.stages_nodup hc
  refine ⟨hnd, h.builds hc, fun c hcmem => ?_, fun n hn => ?_⟩
  · exact (hall _ (List.mem_append_left _ (List.mem_map_of_mem hcmem))).chunk hnd hcmem
  · exact (hall _ (List.mem_append_right _ (List.mem_map_of_mem hn))).reducer hnd hn

namespace Family

variable (hf : Family ids plan o)

include hf

/-- What holds of the chunks, and of a reducer if of its children, holds of every stage. -/
theorem induction {P : U → Prop} (hchunk : ∀ c ∈ plan.chunks, P c.chunkId)
    (hreducer : ∀ n ∈ plan.reducers, (∀ k ∈ n.children, P k) → P n.stageId) :
    ∀ k ∈ plan.stages, P k := by
  rw [stages_eq]
  refine hf.builds.induction ?_ ?_
  · intro x hx
    obtain ⟨c, hc, rfl⟩ := List.mem_map.mp hx
    exact hchunk c hc
  · intro key group hmem ih
    obtain ⟨n, hn, hpair⟩ := List.mem_map.mp hmem
    obtain ⟨rfl, rfl⟩ := Prod.mk.inj hpair
    exact hreducer n hn ih

/-- The cases of a stage. -/
theorem cases {P : U → Prop} (hchunk : ∀ c ∈ plan.chunks, P c.chunkId)
    (hreducer : ∀ n ∈ plan.reducers, P n.stageId) : ∀ k ∈ plan.stages, P k :=
  hf.induction hchunk fun n hn _ => hreducer n hn

theorem child_mem {n : ReductionNode U} (hn : n ∈ plan.reducers) : ∀ k ∈ n.children, k ∈ plan.stages := by
  intro k hk
  rw [stages_eq]
  exact hf.builds.mem_of_child (mem_nodesOf hn) hk

theorem children_nodup {n : ReductionNode U} (hn : n ∈ plan.reducers) : n.children.Nodup := by
  refine hf.builds.group_nodup ?_ (mem_nodesOf hn)
  exact (List.nodup_append.mp hf.nodup).1

/-- Every result carries the id of its stage. -/
theorem stageId : ∀ k ∈ plan.stages, (o.checkpoint k).result.stageId = k :=
  hf.cases (fun c hc => (hf.chunk c hc).stageId) fun n hn => (hf.reducer n hn).stageId

/-- The claims of a stage have distinct ids. -/
theorem claims_nodup : ∀ k ∈ plan.stages, ((o.claims k).map Claim.claimId).Nodup :=
  hf.cases (fun c hc => (hf.chunk c hc).nodup) fun n hn => (hf.reducer n hn).nodup

end Family

/-! ### The claims of some stages -/

/-- The claims of some stages under the stage and their id. -/
def Outcomes.graph (o : Outcomes U) (keys : List U) : Dict (U × U) (Claim U) :=
  keys.flatMap fun k => (o.claims k).map fun c => ((k, c.claimId), c)

omit [DecidableEq U] in
theorem mem_graph {keys : List U} {k id : U} {c : Claim U} :
    ((k, id), c) ∈ o.graph keys ↔ k ∈ keys ∧ c ∈ o.claims k ∧ c.claimId = id := by
  simp only [Outcomes.graph, List.mem_flatMap, List.mem_map, Prod.mk.injEq]
  constructor
  · rintro ⟨x, hx, d, hd, ⟨rfl, rfl⟩, rfl⟩
    exact ⟨hx, hd, rfl⟩
  · rintro ⟨hk, hmem, rfl⟩
    exact ⟨k, hk, c, hmem, ⟨rfl, rfl⟩, rfl⟩

omit [DecidableEq U] in
/-- Claims with distinct ids in distinct stages have distinct keys. -/
theorem graph_nodup {keys : List U} (hkeys : keys.Nodup)
    (hclaims : ∀ k ∈ keys, ((o.claims k).map Claim.claimId).Nodup) :
    ((o.graph keys).map Prod.fst).Nodup := by
  rw [Outcomes.graph, List.map_flatMap, List.nodup_flatMap]
  refine ⟨fun k hk => ?_, hkeys.imp fun {x y} hne => ?_⟩
  · rw [List.map_map]
    have := (hclaims k hk).map fun {x y : U} (h : (k, x) = (k, y)) => (Prod.mk.inj h).2
    rwa [List.map_map] at this
  · intro p hx hy
    simp only [List.map_map, List.mem_map, Function.comp] at hx hy
    obtain ⟨c, -, rfl⟩ := hx
    obtain ⟨d, -, heq⟩ := hy
    exact hne (Prod.mk.inj heq).1.symm

namespace Family

variable (hf : Family ids plan o)

include hf

/-- The claims a reducer may link are the claims of its children. -/
theorem links_eq {n : ReductionNode U} (hn : n ∈ plan.reducers) :
    links (o.request plan n) = o.graph n.children := by
  have hitems : ((o.request plan n).children.flatMap fun child => child.result.claims.map fun c =>
      ((child.result.stageId, c.claimId), c)) = o.graph n.children := by
    rw [Outcomes.request, reducerRequest, List.flatMap_map, Outcomes.graph]
    refine List.flatMap_congr fun k hk => ?_
    rw [show (o.child k).result.stageId = k from hf.stageId k (hf.child_mem hn k hk)]
    rfl
  rw [links, hitems]
  refine Dict.ofList_eq_self (graph_nodup (hf.children_nodup hn) fun k hk => ?_)
  exact hf.claims_nodup k (hf.child_mem hn k hk)

theorem get?_links {n : ReductionNode U} (hn : n ∈ plan.reducers) {k id : U} {c : Claim U} :
    (links (o.request plan n)).get? (k, id) = some c ↔ k ∈ n.children ∧ c ∈ o.claims k ∧ c.claimId = id := by
  rw [hf.links_eq hn, ← mem_graph]
  refine ⟨Dict.mem_of_get?, Dict.get?_of_mem (graph_nodup (hf.children_nodup hn) fun k hk => ?_)⟩
  exact hf.claims_nodup k (hf.child_mem hn k hk)

theorem mem_links {n : ReductionNode U} (hn : n ∈ plan.reducers) {k id : U} :
    (k, id) ∈ (links (o.request plan n)).map Prod.fst
      ↔ k ∈ n.children ∧ ∃ c ∈ o.claims k, c.claimId = id := by
  rw [hf.links_eq hn, List.mem_map]
  constructor
  · rintro ⟨⟨⟨k', id'⟩, c⟩, hmem, heq⟩
    obtain ⟨rfl, rfl⟩ := Prod.mk.inj heq
    obtain ⟨hk, hc, hid⟩ := mem_graph.mp hmem
    exact ⟨hk, c, hc, hid⟩
  · rintro ⟨hk, c, hc, hid⟩
    exact ⟨_, mem_graph.mpr ⟨hk, hc, hid⟩, rfl⟩

end Family

end Polymind.Digestion
