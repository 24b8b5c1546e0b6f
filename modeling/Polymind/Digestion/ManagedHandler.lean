import Polymind.Digestion.Managed
import Polymind.Digestion.Workflow

/-!
# The managed handler

`ManagedDigestionHandler` in `documents/digestion/managed.py`: the stage profile a request of the plan
is rendered with.
-/

namespace Polymind.Digestion

open Json Documents Llm

variable {U : Type} [DecidableEq U]

/-- `[n for n in plan.reducers if n.structural_parent == node.structural_parent]`. -/
def siblingsOf (plan : Plan U) (node : ReductionNode U) : List (ReductionNode U) :=
  plan.reducers.filter fun n => n.structuralParent = node.structuralParent

/-- The `stage` of `ManagedDigestionHandler.analyze`.  A request that is in `_nodes` as a chunk, or not at
all, has no `stage_id` to compare. -/
def managedStage (plan : Plan U) (request : StageRequest U) : Except ManagedFault ManagedStage :=
  if request.stage = .analysis then .ok .chunk
  else if request.stageId = plan.rootId then .ok .root
  else match plan.nodes.get? request.stageId with
    | some (.reducer node) => match (siblingsOf plan node).getLast? with
      | some last => .ok (if last.stageId = node.stageId then .structural else .intermediate)
      | none => .error (.fault .exception)
    | some (.chunk _) => .error (.fault .exception)
    | none => .error (.fault .exception)

/-- The check of `ManagedDigestionHandler.__call__` on the plan it has loaded. -/
def checkPlan (self : ManagedSynthesisInference) (plan : Plan U) : Except ManagedFault Unit :=
  if plan.profile.inferenceConfig ≠ self.config then .error (.fault incompatible) else .ok ()

/-- `ManagedDigestionHandler.__call__` and `analyze` up to the call of the provider: what the request is
rendered to. -/
def handlerRender (ids : Ids U) (resultSchema : Json) (self : ManagedSynthesisInference) (nil : U)
    (plan : Plan U) (request : StageRequest U) : Except ManagedFault (GenerationRequest × Nat) := do
  let _ ← checkPlan self plan
  let stage ← managedStage plan request
  let _ ← { self with stage }.stageProfile
  let bound ← self.bind ids resultSchema stage
  bound.render ids resultSchema nil request

end Polymind.Digestion
