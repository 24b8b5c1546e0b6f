import Polymind.Digestion.Validation

/-!
# The digestion workflow

`documents/digestion/workflow.py`: the steps a plan is admitted with, the request of a stage, the
stage steps and the `digest` step of `DigestionHandler`.  The ledger and the object store are those
of the job engine; here a step is given the checkpoints and the references it reads from them.
-/

namespace Polymind.Digestion

open Json Documents

variable {U : Type} [DecidableEq U]

def incompatible : Fault := .digestion { category := .incompatibleCheckpoint }

/-! ### Steps -/

/-- `fingerprint(plan.model_dump(mode='json'))`. -/
def Plan.hash (ids : Ids U) (plan : Plan U) : Str := ids.fingerprint (plan.modelDump ids)

/-- The unit id of the first step. -/
def anchorText (ids : Ids U) (planRef : ObjectRef U) : Str :=
  "plan/".toList ++ ids.uuidStr planRef.objectId

def digestText : Str := "digest".toList

/-- `specs`. -/
def specs (ids : Ids U) (plan : Plan U) (planRef : ObjectRef U) : List Jobs.StepSpec :=
  let digest := plan.hash ids
  let anchor := anchorText ids planRef
  [⟨anchor, .normalizing, "digestion-plan/1".toList, digest, []⟩]
    ++ plan.chunks.map (fun c =>
      ⟨ids.uuidStr c.chunkId, .normalizing, "stage-result/1".toList, digest, [anchor]⟩)
    ++ plan.reducers.map (fun n =>
      ⟨ids.uuidStr n.stageId, .normalizing, "stage-result/1".toList, digest,
        n.children.map ids.uuidStr⟩)
    ++ [⟨digestText, .validating, "document-digest/1".toList, digest, [ids.uuidStr plan.rootId]⟩]

/-- `prepare`: the plan and the reference to it. -/
def prepare (ids : Ids U) (a : ExtractionArtifact U) (ref : ObjectRef U)
    (profile : DigestionProfile) : Except Fault (Plan U × ObjectRef U) := do
  let plan ← buildPlan ids a profile ref
  let planRef ← put ids a.document.scope (plan.modelDump ids) profile.maxArtifactBytes
  .ok (plan, planRef)

/-! ### Requests -/

/-- A value of `_nodes`. -/
inductive PlanNode (U : Type) where
  | chunk (chunk : AnalysisChunk U)
  | reducer (node : ReductionNode U)

/-- `_nodes`: the reducers are entered after the chunks. -/
def Plan.nodes (plan : Plan U) : Dict U (PlanNode U) :=
  Dict.ofList (plan.chunks.map (fun c => (c.chunkId, .chunk c))
    ++ plan.reducers.map fun n => (n.stageId, .reducer n))

/-- `ChildInput(artifact=refs[k], result=checkpoints[k].result, ...)`. -/
def childInput (checkpoints : Dict U (Checkpoint U)) (refs : Dict U (ObjectRef U)) (k : U) :
    Except Fault (ChildInput U) :=
  match refs.get? k, checkpoints.get? k with
  | some artifact, some cp => .ok ⟨artifact, cp.result, cp.inherited⟩
  | _, _ => .error .exception

/-- The request of a chunk. -/
def chunkRequest (plan : Plan U) (stageId : U) (chunk : AnalysisChunk U) : StageRequest U :=
  { stageId, stage := .analysis, profile := plan.profile, structuralPath := chunk.path
    sourceData := chunk.pieces }

/-- The request of a reducer. -/
def reducerRequest (plan : Plan U) (stageId : U) (node : ReductionNode U)
    (children : List (ChildInput U)) : StageRequest U :=
  { stageId, stage := .reduction, profile := plan.profile, structuralPath := node.path, children }

/-- `DigestionHandler.request`. -/
def stageRequest (ids : Ids U) (plan : Plan U) (stageId : U) (checkpoints : Dict U (Checkpoint U))
    (refs : Dict U (ObjectRef U)) : Except Fault (StageRequest U) :=
  match plan.nodes.get? stageId with
  | none => .error incompatible
  | some (.chunk chunk) => StageRequest.make ids (chunkRequest plan stageId chunk)
  | some (.reducer node) => do
    let children ← node.children.mapM (childInput checkpoints refs)
    StageRequest.make ids (reducerRequest plan stageId node children)

/-! ### Stage steps -/

/-- The parents of a checkpoint. -/
def parentsOf (plan : Plan U) (planRef : ObjectRef U) (request : StageRequest U) :
    List (ObjectRef U) :=
  match request.stage with
  | .analysis => [planRef, plan.structureMap.extraction]
  | .reduction => request.children.map ChildInput.artifact

/-- `checkpoints[c.result.stage_id] for c in request.children`. -/
def childCheckpoints (checkpoints : Dict U (Checkpoint U)) (request : StageRequest U) :
    Except Fault (List (Checkpoint U)) :=
  request.children.mapM fun c => match checkpoints.get? c.result.stageId with
    | some cp => .ok cp
    | none => .error .exception

/-- What the result will contribute to the reducer above it, with the largest reference. -/
def checkContribution (ids : Ids U) (profile : DigestionProfile) (planRef : ObjectRef U)
    (result : StageResult U) (inherited : InheritedSummary) : Except Fault Unit :=
  match profile.managedInputBudget with
  | none => .ok ()
  | some budget =>
    if budget.childBytes < childContribution ids
        ⟨{ planRef with byteSize := profile.maxArtifactBytes }, result, inherited⟩ then
      .error limitExceeded
    else .ok ()

section

variable (ids : Ids U) (parse : Parser U) (a : ExtractionArtifact U) (plan : Plan U)
  (planRef : ObjectRef U)

/-- The checkpoint of an accepted result. -/
def checkpointOf (request : StageRequest U) (result : StageResult U)
    (children : List (Checkpoint U)) : Checkpoint U :=
  let summary := inheritedSummary result request children
  ⟨plan.hash ids, parentsOf plan planRef request, result, summary.1, summary.2⟩

/-- A stage step of `DigestionHandler.__call__`, on the output of the inference: the checkpoint it
writes and the reference to it. -/
def performStage (checkpoints : Dict U (Checkpoint U)) (refs : Dict U (ObjectRef U)) (stageId : U)
    (raw : Bytes) : Except Fault (Checkpoint U × ObjectRef U) := do
  let request ← stageRequest ids plan stageId checkpoints refs
  let result ← validateResult ids parse a raw request
  let children ← childCheckpoints checkpoints request
  let cp := checkpointOf ids plan planRef request result children
  checkContribution ids plan.profile planRef result cp.inherited
  let ref ← put ids planRef.scope (cp.modelDump ids) plan.profile.maxArtifactBytes
  .ok (cp, ref)

/-! ### The digest step -/

/-- One round of the replay: the checkpoint of a stage is validated against those before it. -/
def replayStage (checkpoints : Dict U (Checkpoint U)) (refs : Dict U (ObjectRef U))
    (ordered : Dict U (Checkpoint U)) (stageId : U) : Except Fault (Dict U (Checkpoint U)) :=
  match checkpoints.get? stageId with
  | none => .error .exception
  | some cp => do
    let request ← stageRequest ids plan stageId ordered refs
    if cp.parents ≠ parentsOf plan planRef request then .error incompatible
    else do
      let _ ← validateResult ids parse a (asciiBytes (cp.result.encode ids)) request
      let children ← childCheckpoints ordered request
      if (cp.inherited, cp.propositions) ≠ inheritedSummary cp.result request children then
        .error incompatible
      else .ok (ordered.set stageId cp)

/-- The replay of the `digest` step: the checkpoints in topological order, or what it raises. -/
def replay (checkpoints : Dict U (Checkpoint U)) (refs : Dict U (ObjectRef U)) :
    Except Fault (Dict U (Checkpoint U)) :=
  plan.stages.foldlM (replayStage ids parse a plan planRef checkpoints refs) []

/-- The `digest` step up to the objects it writes. -/
def performDigest (checkpoints : Dict U (Checkpoint U)) (refs : Dict U (ObjectRef U)) :
    Except Fault (DigestArtifact U) := do
  let ordered ← replay ids parse a plan planRef checkpoints refs
  let digest ← makeDigest ids a plan planRef ordered refs
  if digest.status = .failed then .error (.digestion { category := .coverageFailed })
  else .ok digest

/-! ### Runs -/

/-- What the stage steps of a run left in the ledger and the store: for each stage its checkpoint
and the reference to it. -/
structure Outcomes (U : Type) where
  checkpoint : U → Checkpoint U
  ref : U → ObjectRef U

/-- What a stage hands to the reducer above it. -/
def Outcomes.child (o : Outcomes U) (k : U) : ChildInput U :=
  ⟨o.ref k, (o.checkpoint k).result, (o.checkpoint k).inherited⟩

/-- The checkpoints of some stages, as a step reads them. -/
def Outcomes.checkpoints (o : Outcomes U) (keys : List U) : Dict U (Checkpoint U) :=
  keys.map fun k => (k, o.checkpoint k)

/-- The references of some stages, as a step reads them. -/
def Outcomes.refs (o : Outcomes U) (keys : List U) : Dict U (ObjectRef U) :=
  keys.map fun k => (k, o.ref k)

/-- The stages a stage depends on. -/
def Plan.dependencies (plan : Plan U) (stageId : U) : List U :=
  match plan.nodes.get? stageId with
  | some (.reducer node) => node.children
  | _ => []

/-- The stage step of `k` accepted some output of the inference and left its checkpoint. -/
def Performed (o : Outcomes U) (k : U) : Prop :=
  ∃ raw, performStage ids parse a plan planRef (o.checkpoints (plan.dependencies k))
    (o.refs (plan.dependencies k)) k raw = .ok (o.checkpoint k, o.ref k)

/-- The result of stage `k` was accepted against the request built from its children's. -/
def Validated (o : Outcomes U) (k : U) : Prop :=
  ∃ raw request, stageRequest ids plan k (o.checkpoints (plan.dependencies k))
      (o.refs (plan.dependencies k)) = .ok request
    ∧ validateResult ids parse a raw request = .ok (o.checkpoint k).result

/-- The annotations of stage `k` are those `inherited_summary` computes. -/
def Inherits (o : Outcomes U) (k : U) : Prop :=
  ∀ request, stageRequest ids plan k (o.checkpoints (plan.dependencies k))
      (o.refs (plan.dependencies k)) = .ok request →
    inheritedSummary (o.checkpoint k).result request ((plan.dependencies k).map o.checkpoint)
      = ((o.checkpoint k).inherited, (o.checkpoint k).propositions)

end

end Polymind.Digestion
