import Polymind.Documents.Models
import Polymind.Jobs.Models

/-!
# Digestion contracts

The models of `documents/digestion/models.py` with the JSON each of them is dumped as, and the
encoder of `documents/digestion/codec.py`.  Fields whose type admits one value only appear in the
dumps and not in the structures.
-/

namespace Polymind.Digestion

open Json Documents Jobs

variable {U : Type}

/-! ### Errors -/

inductive ErrorCategory where
  | structuralPlanningFailed | analysisFailed | reducerFailed | evidenceValidationFailed
  | coverageFailed | inferenceContractError | synthesisLimitExceeded | incompatibleCheckpoint
deriving DecidableEq

inductive ValidationDiagnostic where
  | jsonDecode | duplicateJsonKey | pydanticValidation | canonicalSerialization | stageBinding
  | claimIdentity | claimContract | evidenceValidation | coverageValidation | responseLimit
deriving DecidableEq

/-- The members of `ValidationReason` that the modelled functions give. -/
inductive ValidationReason where
  | malformedJson | duplicateJsonKey | pydantic | stageIdMismatch | stageKindMismatch
  | unavailableWithClaims | unavailableMissingLimitation | analyzedWithoutClaims
  | unavailableReduction | claimIdMismatch | duplicateClaimId | originatingStageMismatch
  | subjectOnNonfact | foreignEvidence | duplicateEvidence | invalidQualificationSource
  | invalidChildLink | duplicateChildLink | unsupportedFact | otherEvidenceValidation
  | missingSourceCoverage | missingChildCoverage | rawResponseLimit | canonicalResponseLimit
  | claimLimit | annotationLimit | textLimit
deriving DecidableEq

structure DigestionError where
  category : ErrorCategory
  diagnostic : Option ValidationDiagnostic := none
  reason : Option ValidationReason := none
deriving DecidableEq

/-- How a computation ends without a result: with a `DigestionError`, with another exception, or
not at all. -/
inductive Fault where
  | digestion (error : DigestionError)
  | exception
  | diverges
deriving DecidableEq

def limitExceeded : Fault := .digestion { category := .synthesisLimitExceeded }

def planningFailed : Fault := .digestion { category := .structuralPlanningFailed }

/-! ### Profiles -/

structure ManagedInputBudget where
  inputBytes : Nat
  baseBytes : Nat
  childBytes : Nat
deriving DecidableEq

def ManagedInputBudget.valid (b : ManagedInputBudget) : Bool :=
  0 < b.inputBytes && 0 < b.baseBytes && 1024 < b.childBytes

def ManagedInputBudget.modelDump (b : ManagedInputBudget) : Json :=
  .record [("input_bytes", .nat b.inputBytes), ("base_bytes", .nat b.baseBytes),
    ("child_bytes", .nat b.childBytes)]

structure DigestionProfile where
  version : Str
  structureProfile : Str
  chunkingProfile : Str
  inferenceProfile : Str
  inferenceConfig : Str
  reducerProfile : Str
  promptProfile : Str
  contextTokens : Nat
  reservedOutputTokens : Nat
  templateTokens : Nat
  chunkCharacters : Nat
  maxFanIn : Nat
  maxResultCharacters : Nat
  maxResponseBytes : Option Nat
  managedInputBudget : Option ManagedInputBudget
  maxClaims : Nat
  maxClaimCharacters : Nat
  maxAnnotations : Nat
  maxSourceUnits : Nat
  maxChunks : Nat
  maxSteps : Nat
  maxArtifactBytes : Nat
  maxDepth : Nat
  allowPartial : Bool
  minimumCoverage : ℚ
  maxFailedUnits : Nat
deriving DecidableEq

/-- Field constraints and `DigestionProfile.budget`. -/
def DigestionProfile.valid (p : DigestionProfile) : Bool :=
  isToken p.version && isToken p.structureProfile && isToken p.chunkingProfile
    && isToken p.inferenceProfile && isDigest p.inferenceConfig && isToken p.reducerProfile
    && isToken p.promptProfile && 0 < p.contextTokens && 0 < p.reservedOutputTokens
    && 0 < p.chunkCharacters && 2 ≤ p.maxFanIn && p.maxFanIn ≤ 64 && 0 < p.maxResultCharacters
    && p.maxResponseBytes.all (fun n => 0 < n && n ≤ 4000000)
    && p.managedInputBudget.all ManagedInputBudget.valid && 1 ≤ p.maxClaims && p.maxClaims ≤ 64
    && 64 ≤ p.maxClaimCharacters && p.maxClaimCharacters ≤ 4096 && p.maxAnnotations ≤ 64
    && 0 < p.maxSourceUnits && p.maxSourceUnits ≤ 100000 && 0 < p.maxChunks && p.maxChunks ≤ 900
    && 3 ≤ p.maxSteps && p.maxSteps ≤ 1000 && 0 < p.maxArtifactBytes && 1 ≤ p.maxDepth
    && p.maxDepth ≤ 64 && isRatio p.minimumCoverage
    && p.reservedOutputTokens + p.templateTokens < p.contextTokens

/-- `DigestionProfile.serialize`: two optional fields are left out when they are `None`. -/
def DigestionProfile.modelDump (ids : Ids U) (p : DigestionProfile) : Json :=
  .record ([("version", .str p.version), ("structure_profile", .str p.structureProfile),
    ("chunking_profile", .str p.chunkingProfile), ("inference_profile", .str p.inferenceProfile),
    ("inference_config", .str p.inferenceConfig), ("reducer_profile", .str p.reducerProfile),
    ("prompt_profile", .str p.promptProfile), ("output_schema", .text "stage-result/1"),
    ("role", .text "summarization"), ("capability", .text "structured-output"),
    ("context_tokens", .nat p.contextTokens), ("reserved_output_tokens", .nat p.reservedOutputTokens),
    ("template_tokens", .nat p.templateTokens), ("chunk_characters", .nat p.chunkCharacters),
    ("max_fan_in", .nat p.maxFanIn), ("max_result_characters", .nat p.maxResultCharacters)]
    ++ (match p.maxResponseBytes with
      | none => []
      | some n => [("max_response_bytes", .nat n)])
    ++ (match p.managedInputBudget with
      | none => []
      | some b => [("managed_input_budget", b.modelDump)])
    ++ [("max_claims", .nat p.maxClaims), ("max_claim_characters", .nat p.maxClaimCharacters),
    ("max_annotations", .nat p.maxAnnotations), ("max_source_units", .nat p.maxSourceUnits),
    ("max_chunks", .nat p.maxChunks), ("max_steps", .nat p.maxSteps),
    ("max_artifact_bytes", .nat p.maxArtifactBytes), ("max_depth", .nat p.maxDepth),
    ("overlap_characters", .nat 0), ("estimator", .text "json-characters/1"),
    ("allow_partial", .bool p.allowPartial), ("minimum_coverage", floatJson ids p.minimumCoverage),
    ("max_failed_units", .nat p.maxFailedUnits)])

def DigestionProfile.responseByteLimit (p : DigestionProfile) : Nat :=
  p.maxResponseBytes.getD p.maxResultCharacters

def DigestionProfile.digest (ids : Ids U) (p : DigestionProfile) : Str :=
  ids.fingerprint (p.modelDump ids)

/-! ### Structure -/

inductive StructuralKind where
  | document | section_ | subsection | fallback
deriving DecidableEq

def StructuralKind.text : StructuralKind → Str
  | .document => "document".toList
  | .section_ => "section".toList
  | .subsection => "subsection".toList
  | .fallback => "fallback".toList

inductive StructuralSource where
  | canonicalHeading | canonicalPage | canonicalText | root
deriving DecidableEq

def StructuralSource.text : StructuralSource → Str
  | .canonicalHeading => "canonical-heading".toList
  | .canonicalPage => "canonical-page".toList
  | .canonicalText => "canonical-text".toList
  | .root => "root".toList

inductive Confidence where
  | sourceDeclared | fallback
deriving DecidableEq

def Confidence.text : Confidence → Str
  | .sourceDeclared => "source-declared".toList
  | .fallback => "fallback".toList

structure StructuralUnit (U : Type) where
  structuralUnitId : U
  parentId : Option U
  childIds : List U
  order : Nat
  kind : StructuralKind
  heading : Option Str
  path : List Str
  source : StructuralSource
  confidence : Confidence
  blockIds : List U
  sourceIds : List U
  physicalPages : List Nat
deriving DecidableEq

def StructuralUnit.modelDump (ids : Ids U) (u : StructuralUnit U) : Json :=
  .record [("structural_unit_id", ids.uuidJson u.structuralUnitId),
    ("parent_id", .option ids.uuidJson u.parentId), ("child_ids", ids.uuidsJson u.childIds),
    ("order", .nat u.order), ("kind", .str u.kind.text), ("heading", .option .str u.heading),
    ("path", .arr (u.path.map .str)), ("source", .str u.source.text),
    ("confidence", .str u.confidence.text), ("block_ids", ids.uuidsJson u.blockIds),
    ("source_ids", ids.uuidsJson u.sourceIds), ("physical_pages", .arr (u.physicalPages.map .nat))]

/-- `by_id[key]` of `StructuralMap.tree`. -/
def unitById [DecidableEq U] (units : List (StructuralUnit U)) (key : U) :
    Option (StructuralUnit U) :=
  units.find? fun u => u.structuralUnitId = key

/-- The check `StructuralMap.tree` makes on the children of one unit. -/
def childrenAgree [DecidableEq U] (units : List (StructuralUnit U)) (key : U) :
    Nat → List U → Bool
  | _, [] => true
  | index, child :: children =>
    (match unitById units child with
      | none => false
      | some c => c.parentId == some key && c.order == index)
    && childrenAgree units key (index + 1) children

/-- The walk of `StructuralMap.tree` with its stack and its set of visited units.  Every round adds
a unit to the visited ones or raises, so that more rounds than units cannot be used up. -/
def treeWalk [DecidableEq U] (units : List (StructuralUnit U)) :
    Nat → List U → List U → Option (List U)
  | _, [], visited => some visited
  | 0, _ :: _, _ => none
  | rounds + 1, key :: stack, visited =>
    if key ∈ visited then none
    else match unitById units key with
      | none => none
      | some unit =>
        if childrenAgree units key 0 unit.childIds then
          treeWalk units rounds (unit.childIds.reverse ++ stack) (key :: visited)
        else none

/-- `StructuralMap.tree`; the stack is written with its top first. -/
def structuralTree [DecidableEq U] (units : List (StructuralUnit U)) : Bool :=
  match units with
  | [] => false
  | root :: _ =>
    decide (units.map StructuralUnit.structuralUnitId).Nodup && root.parentId.isNone
      && root.kind == .document
      && match treeWalk units (units.length + 1) [root.structuralUnitId] [] with
        | none => false
        | some visited => visited.length == units.length

structure StructuralMap (U : Type) where
  extraction : ObjectRef U
  documentVersionId : U
  profile : Str
  units : List (StructuralUnit U)
deriving DecidableEq

def StructuralMap.modelDump (ids : Ids U) (m : StructuralMap U) : Json :=
  .record [("schema_version", .text "structure/1"), ("extraction", m.extraction.modelDump ids),
    ("document_version_id", ids.uuidJson m.documentVersionId), ("profile", .str m.profile),
    ("units", .arr (m.units.map (StructuralUnit.modelDump ids)))]

/-! ### Chunks, reducers, plans -/

inductive Limitation where
  | visualUninterpreted | hardSplit | none
deriving DecidableEq

def Limitation.text : Limitation → Str
  | .visualUninterpreted => "visual_uninterpreted".toList
  | .hardSplit => "hard_split".toList
  | .none => "none".toList

structure SourcePiece (U : Type) where
  evidence : EvidenceRef U
  text : Str
  kind : BlockKind
  cells : Option (List (List Str))
  limitation : Limitation
deriving DecidableEq

def SourcePiece.evidenceId (ids : Ids U) (p : SourcePiece U) : U :=
  ids.stableId ["source-evidence/1".toList, ids.fingerprint (p.evidence.modelDump ids)]

def SourcePiece.modelDump (ids : Ids U) (p : SourcePiece U) : Json :=
  .record [("evidence", p.evidence.modelDump ids), ("text", .str p.text), ("kind", .str p.kind.name),
    ("cells", cellsJson p.cells), ("limitation", .str p.limitation.text)]

structure AnalysisChunk (U : Type) where
  chunkId : U
  documentVersionId : U
  structuralParent : U
  path : List Str
  sequence : Nat
  profile : Str
  pieces : List (SourcePiece U)
  estimatedTokens : Nat
deriving DecidableEq

def AnalysisChunk.modelDump (ids : Ids U) (c : AnalysisChunk U) : Json :=
  .record [("schema_version", .text "analysis-chunk/1"), ("chunk_id", ids.uuidJson c.chunkId),
    ("document_version_id", ids.uuidJson c.documentVersionId),
    ("structural_parent", ids.uuidJson c.structuralParent), ("path", .arr (c.path.map .str)),
    ("sequence", .nat c.sequence), ("profile", .str c.profile),
    ("pieces", .arr (c.pieces.map (SourcePiece.modelDump ids))),
    ("estimated_tokens", .nat c.estimatedTokens), ("overlap_with", .arr [])]

structure ReductionNode (U : Type) where
  stageId : U
  structuralParent : U
  children : List U
  level : Nat
  path : List Str
  estimatedTokens : Nat
deriving DecidableEq

def ReductionNode.modelDump (ids : Ids U) (n : ReductionNode U) : Json :=
  .record [("stage_id", ids.uuidJson n.stageId), ("structural_parent", ids.uuidJson n.structuralParent),
    ("children", ids.uuidsJson n.children), ("level", .nat n.level), ("path", .arr (n.path.map .str)),
    ("estimated_tokens", .nat n.estimatedTokens)]

structure Plan (U : Type) where
  profile : DigestionProfile
  structureMap : StructuralMap U
  chunks : List (AnalysisChunk U)
  reducers : List (ReductionNode U)
  rootId : U
  eligible : List U
  skipped : List U
  unsupported : List U
deriving DecidableEq

def Plan.modelDump (ids : Ids U) (p : Plan U) : Json :=
  .record [("schema_version", .text "digestion-plan/1"), ("profile", p.profile.modelDump ids),
    ("structure", p.structureMap.modelDump ids), ("chunks", .arr (p.chunks.map (AnalysisChunk.modelDump ids))),
    ("reducers", .arr (p.reducers.map (ReductionNode.modelDump ids))),
    ("root_id", ids.uuidJson p.rootId), ("eligible", ids.uuidsJson p.eligible),
    ("skipped", ids.uuidsJson p.skipped), ("unsupported", ids.uuidsJson p.unsupported)]

/-! ### Stage results -/

structure ClaimLink (U : Type) where
  stageId : U
  claimId : U
deriving DecidableEq

structure Qualification (U : Type) where
  text : Str
  evidenceIds : List U
deriving DecidableEq

inductive ClaimKind where
  | fact | unknown | unsupported | commentary | structural
deriving DecidableEq

def ClaimKind.text : ClaimKind → Str
  | .fact => "fact".toList
  | .unknown => "unknown".toList
  | .unsupported => "unsupported".toList
  | .commentary => "commentary".toList
  | .structural => "structural".toList

inductive Stance where
  | affirmed | denied | unknown
deriving DecidableEq

def Stance.text : Stance → Str
  | .affirmed => "affirmed".toList
  | .denied => "denied".toList
  | .unknown => "unknown".toList

inductive ClaimStatus where
  | supported | unknown | unsupported
deriving DecidableEq

def ClaimStatus.text : ClaimStatus → Str
  | .supported => "supported".toList
  | .unknown => "unknown".toList
  | .unsupported => "unsupported".toList

structure Claim (U : Type) where
  claimId : U
  originatingStage : U
  text : Str
  kind : ClaimKind
  evidenceIds : List U := []
  contradictingEvidenceIds : List U := []
  qualifications : List (Qualification U) := []
  lineage : List (ClaimLink U) := []
  subject : Option Str := none
  stance : Stance := .unknown
  status : ClaimStatus := .supported
deriving DecidableEq

inductive StageKind where
  | analysis | reduction
deriving DecidableEq

def StageKind.text : StageKind → Str
  | .analysis => "analysis".toList
  | .reduction => "reduction".toList

inductive StageOutcome where
  | analyzed | unavailable
deriving DecidableEq

def StageOutcome.text : StageOutcome → Str
  | .analyzed => "analyzed".toList
  | .unavailable => "unavailable".toList

structure StageResult (U : Type) where
  stageId : U
  kind : StageKind
  outcome : StageOutcome := .analyzed
  claims : List (Claim U)
  openQuestions : List Str := []
  limitations : List Str := []
deriving DecidableEq

def ClaimLink.modelDump (ids : Ids U) (l : ClaimLink U) : Json :=
  .record [("stage_id", ids.uuidJson l.stageId), ("claim_id", ids.uuidJson l.claimId)]

def Qualification.modelDump (ids : Ids U) (q : Qualification U) : Json :=
  .record [("text", .str q.text), ("evidence_ids", ids.uuidsJson q.evidenceIds)]

def Claim.modelDump (ids : Ids U) (c : Claim U) : Json :=
  .record [("claim_id", ids.uuidJson c.claimId), ("originating_stage", ids.uuidJson c.originatingStage),
    ("text", .str c.text), ("kind", .str c.kind.text), ("evidence_ids", ids.uuidsJson c.evidenceIds),
    ("contradicting_evidence_ids", ids.uuidsJson c.contradictingEvidenceIds),
    ("qualifications", .arr (c.qualifications.map (Qualification.modelDump ids))),
    ("lineage", .arr (c.lineage.map (ClaimLink.modelDump ids))), ("subject", .option .str c.subject),
    ("stance", .str c.stance.text), ("status", .str c.status.text)]

def StageResult.modelDump (ids : Ids U) (r : StageResult U) : Json :=
  .record [("schema_version", .text "stage-result/1"), ("stage_id", ids.uuidJson r.stageId),
    ("kind", .str r.kind.text), ("outcome", .str r.outcome.text),
    ("claims", .arr (r.claims.map (Claim.modelDump ids))),
    ("open_questions", .arr (r.openQuestions.map .str)),
    ("limitations", .arr (r.limitations.map .str))]

/-! ### Requests and checkpoints -/

structure Proposition where
  subject : Str
  affirmed : Bool
  denied : Bool
deriving DecidableEq

def Proposition.modelDump (p : Proposition) : Json :=
  .record [("subject", .str p.subject), ("affirmed", .bool p.affirmed), ("denied", .bool p.denied)]

structure InheritedSummary where
  analyzedPieces : Nat
  failedPieces : Nat
  qualifications : Nat
  contradictions : Nat
  openQuestions : Nat
deriving DecidableEq

def InheritedSummary.modelDump (s : InheritedSummary) : Json :=
  .record [("analyzed_pieces", .nat s.analyzedPieces), ("failed_pieces", .nat s.failedPieces),
    ("qualifications", .nat s.qualifications), ("contradictions", .nat s.contradictions),
    ("open_questions", .nat s.openQuestions),
    ("source_set", .text "application-owned-source-lineage")]

structure ChildInput (U : Type) where
  artifact : ObjectRef U
  result : StageResult U
  inherited : InheritedSummary
deriving DecidableEq

def ChildInput.modelDump (ids : Ids U) (c : ChildInput U) : Json :=
  .record [("artifact", c.artifact.modelDump ids), ("result", c.result.modelDump ids),
    ("inherited", c.inherited.modelDump), ("material_kind", .text "generated-intermediate")]

structure StageRequest (U : Type) where
  stageId : U
  stage : StageKind
  profile : DigestionProfile
  structuralPath : List Str
  sourceData : List (SourcePiece U) := []
  children : List (ChildInput U) := []
deriving DecidableEq

/-- `StageRequest.material_boundary`. -/
def StageRequest.valid [DecidableEq U] (ids : Ids U) (r : StageRequest U) : Bool :=
  match r.stage with
  | .analysis => !r.sourceData.isEmpty && r.children.isEmpty
      && decide (r.sourceData.map (SourcePiece.evidenceId ids)).Nodup
  | .reduction => r.sourceData.isEmpty && r.children.length ≤ r.profile.maxFanIn
      && decide (r.children.map fun c => c.result.stageId).Nodup

def StageRequest.modelDump (ids : Ids U) (r : StageRequest U) : Json :=
  .record [("schema_version", .text "stage-request/1"), ("stage_id", ids.uuidJson r.stageId),
    ("stage", .str r.stage.text), ("profile", r.profile.modelDump ids),
    ("structural_path", .arr (r.structuralPath.map .str)),
    ("source_data", .arr (r.sourceData.map (SourcePiece.modelDump ids))),
    ("children", .arr (r.children.map (ChildInput.modelDump ids))),
    ("instructions",
      .text "Analyze data; inherit all child claims and their qualifications/conflicts."),
    ("tools", .arr [])]

/-- `StageRequest(...)`: the request, or a `ValidationError`. -/
def StageRequest.make [DecidableEq U] (ids : Ids U) (r : StageRequest U) :
    Except Fault (StageRequest U) :=
  if r.valid ids then .ok r else .error .exception

structure Checkpoint (U : Type) where
  planHash : Str
  parents : List (ObjectRef U)
  result : StageResult U
  inherited : InheritedSummary
  propositions : List Proposition
deriving DecidableEq

def Checkpoint.modelDump (ids : Ids U) (c : Checkpoint U) : Json :=
  .record [("schema_version", .text "synthesis-checkpoint/1"), ("plan_hash", .str c.planHash),
    ("parents", .arr (c.parents.map (ObjectRef.modelDump ids))), ("result", c.result.modelDump ids),
    ("inherited", c.inherited.modelDump),
    ("propositions", .arr (c.propositions.map Proposition.modelDump))]

/-! ### The codec -/

/-- `encode(result)`: ASCII, one byte for each character. -/
def StageResult.encode (ids : Ids U) (r : StageResult U) : Str := canonical (r.modelDump ids)

/-- `encode(request)`. -/
def StageRequest.encode (ids : Ids U) (r : StageRequest U) : Str := canonical (r.modelDump ids)

/-- `put`: the reference the object store returns for a model, once it has stored it. -/
def put (ids : Ids U) (scope : Scope U) (dump : Json) (limit : Nat) : Except Fault (ObjectRef U) :=
  let data := canonical dump
  if limit < data.length then .error limitExceeded
  else
    let identity := ids.stableId ["digestion-object/1".toList, ids.fingerprint dump]
    .ok ⟨scope, .artifact, identity,
      ids.stableId [scope.identity ids, ObjectKind.artifact.text, ids.uuidStr identity],
      ids.sha256 data, data.length⟩

end Polymind.Digestion
