import Polymind.Digestion.Planning

/-!
# Evidence, lineage and coverage

`documents/digestion/validation.py`: `EvidenceIndex.resolve`, `validate_result`,
`inherited_summary` and `make_digest`.  Reading JSON bytes into a `StageResult` (the parser of the
standard library with unique keys, and the validation of the fields) is a parameter, `Parser`.
-/

namespace Polymind.Digestion

open Json Documents

variable {U : Type} [DecidableEq U]

/-! ### Evidence -/

def evidenceError (reason : ValidationReason) : Fault :=
  .digestion ⟨.evidenceValidationFailed, some .evidenceValidation, some reason⟩

/-- `EvidenceIndex.blocks`. -/
def blockIndex (a : ExtractionArtifact U) : Dict U (TextUnit U × Block U) :=
  Dict.ofList ((inventory a).map fun p => (p.2.blockId, p))

/-- `EvidenceIndex.lines`. -/
def lineIndex (a : ExtractionArtifact U) : Dict U (List Nat) :=
  Dict.ofList ((a.units.filter fun u => u.physicalPage.isNone).map fun u =>
    (u.sourceId, Text.newlines u.text))

/-- The line numbers `EvidenceIndex.resolve` expects of a span of a unit. -/
def expectedLines (a : ExtractionArtifact U) (unit : TextUnit U) (start : Nat) (text : Str) :
    Option Nat × Option Nat :=
  match (lineIndex a).get? unit.sourceId with
  | none => (none, none)
  | some lines =>
    let expected := 1 + Text.bisectLeft lines start
    (some expected, some (expected + innerNewlines text))

/-- `EvidenceIndex.resolve`. -/
def resolve (a : ExtractionArtifact U) (ref : EvidenceRef U) : Except Fault Str :=
  match (blockIndex a).get? ref.blockId with
  | none => .error (evidenceError .otherEvidenceValidation)
  | some (unit, block) =>
    if ref.scope ≠ a.document.scope || ref.documentVersionId ≠ a.document.documentVersionId
        || ref.extractionId ≠ a.extractionId then .error (evidenceError .otherEvidenceValidation)
    else if unit.sourceId ≠ ref.sourceId || !(block.span.start ≤ ref.span.start
        && ref.span.start ≤ ref.span.stop && ref.span.stop ≤ block.span.stop) then
      .error (evidenceError .otherEvidenceValidation)
    else
      let text := Text.slice unit.text ref.span.start ref.span.stop
      if (ref.span.lineStart, ref.span.lineEnd) ≠ expectedLines a unit ref.span.start text then
        .error (evidenceError .otherEvidenceValidation)
      else .ok text

/-! ### Decoding -/

abbrev Bytes := List UInt8

/-- `text.encode('ascii')`. -/
def asciiBytes (text : Str) : Bytes := text.map fun c => c.toNat.toUInt8

/-- `json.loads` with unique keys, followed by `StageResult.model_validate`. -/
abbrev Parser (U : Type) := Bytes → Except Fault (StageResult U)

def limitError (reason : ValidationReason) : Fault :=
  .digestion ⟨.synthesisLimitExceeded, some .responseLimit, some reason⟩

/-- `decode(data, StageResult, limit)`. -/
def decodeResult (parse : Parser U) (data : Bytes) (limit : Nat) : Except Fault (StageResult U) :=
  if limit < data.length then .error (limitError .rawResponseLimit) else parse data

/-! ### Checks on a result as a whole -/

section

variable (ids : Ids U) (request : StageRequest U) (result : StageResult U)

/-- The canonical limit and, in managed mode, the contribution to the reducer above. -/
def checkSize : Except Fault Unit :=
  if request.profile.maxResultCharacters < (result.encode ids).length then
    .error (limitError .canonicalResponseLimit)
  else match request.profile.managedInputBudget with
    | none => .ok ()
    | some budget =>
      if budget.childBytes < resultContribution ids result + childWrapperBytes then
        .error (.digestion ⟨.synthesisLimitExceeded, some .responseLimit, none⟩)
      else .ok ()

def bindingError (reason : ValidationReason) : Fault :=
  .digestion ⟨.inferenceContractError, some .stageBinding, some reason⟩

def checkBinding : Except Fault Unit :=
  if result.stageId ≠ request.stageId then .error (bindingError .stageIdMismatch)
  else if result.kind ≠ request.stage then .error (bindingError .stageKindMismatch)
  else .ok ()

def checkOutcome : Except Fault Unit :=
  match result.outcome with
  | .unavailable =>
    if request.stage ≠ .analysis then .error (bindingError .unavailableReduction)
    else if !result.claims.isEmpty then .error (bindingError .unavailableWithClaims)
    else if result.limitations.isEmpty then .error (bindingError .unavailableMissingLimitation)
    else .ok ()
  | .analyzed =>
    if request.stage = .analysis && result.claims.isEmpty then
      .error (bindingError .analyzedWithoutClaims)
    else .ok ()

def checkCounts : Except Fault Unit :=
  if request.profile.maxClaims < result.claims.length then .error (limitError .claimLimit)
  else if request.profile.maxAnnotations < result.openQuestions.length
      || request.profile.maxAnnotations < result.limitations.length then
    .error (limitError .annotationLimit)
  else .ok ()

/-- Every piece of the request resolves to its text. -/
def checkPieces (a : ExtractionArtifact U) : List (SourcePiece U) → Except Fault Unit
  | [] => .ok ()
  | piece :: pieces => do
    let text ← resolve a piece.evidence
    if text ≠ piece.text then .error (evidenceError .otherEvidenceValidation)
    else checkPieces a pieces

/-- `permitted`: the evidence ids of the request's own pieces. -/
def permitted : List U := request.sourceData.map (SourcePiece.evidenceId ids)

/-- `links`. -/
def links : Dict (U × U) (Claim U) :=
  Dict.ofList (request.children.flatMap fun child => child.result.claims.map fun c =>
    ((child.result.stageId, c.claimId), c))

/-- `allowed`: the permitted ids and those the children's claims cite. -/
def allowed : List U := permitted ids request ++ request.children.flatMap fun c => c.result.cited

/-! ### Checks on a claim -/

/-- The ids of a claim are distinct and allowed. -/
def checkCitations (values : List U) : Except Fault Unit :=
  if ¬values.Nodup then .error (evidenceError .duplicateEvidence)
  else if !values.all (allowed ids request).contains then .error (evidenceError .foreignEvidence)
  else .ok ()

/-- The lineage of a claim as pairs. -/
def Claim.links (claim : Claim U) : List (U × U) := claim.lineage.map fun l => (l.stageId, l.claimId)

def checkLineage (claim : Claim U) : Except Fault Unit :=
  if ¬claim.links.Nodup then .error (evidenceError .duplicateChildLink)
  else if !claim.links.all (Dict.has (links request)) then .error (evidenceError .invalidChildLink)
  else .ok ()

/-- `has_source`: own evidence, or a linked claim with evidence or a lineage of its own. -/
def hasSource (claim : Claim U) : Bool :=
  !claim.evidenceIds.isEmpty || claim.links.any fun k =>
    match (links request).get? k with
    | some c => !c.evidenceIds.isEmpty || !c.lineage.isEmpty
    | none => false

def checkSupport (claim : Claim U) : Except Fault Unit :=
  if claim.kind = .fact && (!hasSource request claim || claim.status ≠ .supported) then
    .error (evidenceError .unsupportedFact)
  else .ok ()

def checkQualification (q : Qualification U) : Except Fault Unit :=
  if !q.evidenceIds.isEmpty && request.profile.maxClaimCharacters < q.text.length then
    .error (evidenceError .textLimit)
  else if q.evidenceIds.isEmpty || ¬q.evidenceIds.Nodup
      || !q.evidenceIds.all (allowed ids request).contains then
    .error (evidenceError .invalidQualificationSource)
  else .ok ()

def identityError (reason : ValidationReason) : Fault :=
  .digestion ⟨.inferenceContractError, some .claimIdentity, some reason⟩

/-- The identity of the claim at a position; `seen` holds the ids before it. -/
def checkIdentity (position : Nat) (seen : List U) (claim : Claim U) : Except Fault Unit :=
  if claim.claimId ∈ seen then .error (identityError .duplicateClaimId)
  else if claim.claimId ≠ ids.stableId [ids.uuidStr request.stageId, natText position] then
    .error (identityError .claimIdMismatch)
  else if claim.originatingStage ≠ request.stageId then
    .error (identityError .originatingStageMismatch)
  else .ok ()

def checkClaimLimits (claim : Claim U) : Except Fault Unit :=
  if request.profile.maxClaimCharacters < claim.text.length then .error (limitError .textLimit)
  else if request.profile.maxAnnotations < claim.qualifications.length then
    .error (limitError .annotationLimit)
  else .ok ()

/-- One round of the loop over the claims. -/
def checkClaim (position : Nat) (seen : List U) (claim : Claim U) : Except Fault Unit := do
  checkIdentity ids request position seen claim
  checkClaimLimits request claim
  checkCitations ids request claim.evidenceIds
  checkCitations ids request claim.contradictingEvidenceIds
  checkLineage request claim
  checkSupport request claim
  claim.qualifications.forM (checkQualification ids request)
  if claim.subject.isSome && claim.kind ≠ .fact then
    .error (.digestion ⟨.inferenceContractError, some .claimContract, some .subjectOnNonfact⟩)
  else .ok ()

def checkClaims : Nat → List U → List (Claim U) → Except Fault Unit
  | _, _, [] => .ok ()
  | position, seen, claim :: claims => do
    checkClaim ids request position seen claim
    checkClaims (position + 1) (claim.claimId :: seen) claims

/-! ### Coverage -/

/-- Equality of two sets given as lists. -/
def sameSet {α : Type} [DecidableEq α] (l m : List α) : Bool :=
  l.all m.contains && m.all l.contains

def coverageError (reason : ValidationReason) : Fault :=
  .digestion ⟨.coverageFailed, some .coverageValidation, some reason⟩

/-- `linked`. -/
def StageResult.linked : List (U × U) := result.claims.flatMap Claim.links

/-- An analysis cites every piece, and a reduction links every claim of its children. -/
def checkCoverage : Except Fault Unit :=
  if result.outcome = .analyzed && request.stage = .analysis
      && !sameSet result.cited (permitted ids request) then
    .error (coverageError .missingSourceCoverage)
  else if request.stage = .reduction
      && !sameSet result.linked ((links request).map Prod.fst) then
    .error (coverageError .missingChildCoverage)
  else .ok ()

def checkTexts : Except Fault Unit :=
  if (result.openQuestions ++ result.limitations).any fun t =>
      request.profile.maxClaimCharacters < t.length then .error (limitError .textLimit)
  else .ok ()

end

/-- `validate_result` on a decoded result. -/
def acceptResult (ids : Ids U) (a : ExtractionArtifact U) (request : StageRequest U)
    (result : StageResult U) : Except Fault Unit := do
  checkSize ids request result
  checkBinding request result
  checkOutcome request result
  checkCounts request result
  checkPieces a request.sourceData
  checkClaims ids request 0 [] result.claims
  checkCoverage ids request result
  checkTexts request result

/-- `validate_result`. -/
def validateResult (ids : Ids U) (parse : Parser U) (a : ExtractionArtifact U) (raw : Bytes)
    (request : StageRequest U) : Except Fault (StageResult U) := do
  let _ ← checkRequest ids request
  let result ← decodeResult parse raw request.profile.responseByteLimit
  acceptResult ids a request result
  .ok result

/-! ### Inherited annotations -/

/-- The subject of a claim that affirms or denies one. -/
def Claim.proposes (claim : Claim U) (stance : Stance) (subject : Str) : Bool :=
  claim.subject = some subject && !subject.isEmpty && claim.stance = stance

/-- The subjects of `inherited_summary`, in order. -/
def subjectsOf (result : StageResult U) (children : List (Checkpoint U)) : List Str :=
  sortedSet ((children.flatMap fun cp => cp.propositions.map Proposition.subject) ++
    result.claims.filterMap fun c => match c.subject with
      | some s => if !s.isEmpty && (c.stance = .affirmed || c.stance = .denied) then some s else none
      | none => none)

def propositionsOf (result : StageResult U) (children : List (Checkpoint U)) : List Proposition :=
  (subjectsOf result children).map fun s =>
    { subject := s
      affirmed := (children.any fun cp => cp.propositions.any fun p => p.subject = s && p.affirmed)
        || result.claims.any fun c => c.proposes .affirmed s
      denied := (children.any fun cp => cp.propositions.any fun p => p.subject = s && p.denied)
        || result.claims.any fun c => c.proposes .denied s }

/-- `inherited_summary`. -/
def inheritedSummary (result : StageResult U) (request : StageRequest U)
    (children : List (Checkpoint U)) : InheritedSummary × List Proposition :=
  let propositions := propositionsOf result children
  let own := request.sourceData.length
  ({ analyzedPieces := (children.map fun c => c.inherited.analyzedPieces).sum
        + (if result.outcome = .analyzed then own else 0)
     failedPieces := (children.map fun c => c.inherited.failedPieces).sum
        + (if result.outcome = .unavailable then own else 0)
     qualifications := (children.map fun c => c.inherited.qualifications).sum
        + (result.claims.map fun c => c.qualifications.length).sum
     contradictions := propositions.countP fun p => p.affirmed && p.denied
     openQuestions := (children.map fun c => c.inherited.openQuestions).sum
        + result.openQuestions.length }, propositions)

/-! ### The digest -/

structure Coverage (U : Type) where
  eligible : List U
  analyzed : List U
  failed : List U
  skipped : List U
  unsupported : List U
  included : List U
  fraction : ℚ
deriving DecidableEq

structure Contradiction (U : Type) where
  subject : Str
  affirmed : List U
  denied : List U
deriving DecidableEq

structure SectionSummary (U : Type) where
  structuralUnitId : U
  stageId : U
  synthesis : Str
deriving DecidableEq

inductive DigestStatus where
  | complete | partialCoverage | failed
deriving DecidableEq

structure DigestArtifact (U : Type) where
  documentVersionId : U
  extraction : ObjectRef U
  plan : ObjectRef U
  profile : Str
  status : DigestStatus
  executiveSummary : Str
  root : U
  sections : List (SectionSummary U)
  findings : List (Claim U)
  synthesisClaims : List (Claim U)
  qualifications : List (Qualification U)
  contradictions : List (Contradiction U)
  openQuestions : List Str
  coverage : Coverage U
  limitations : List Str
  evidence : List (EvidenceRef U)
  checkpoints : List (ObjectRef U)
deriving DecidableEq

/-- `claims` of `make_digest`. -/
def claimGraph (checkpoints : Dict U (Checkpoint U)) : Dict (U × U) (Claim U) :=
  Dict.ofList (checkpoints.flatMap fun p => p.2.result.claims.map fun c => ((p.1, c.claimId), c))

/-- The walk of `make_digest` over the claim graph; the stack is written with its top first. -/
def walkClaims (claims : Dict (U × U) (Claim U)) :
    Nat → List (U × U) → List (U × U) → Except Fault (List (U × U))
  | _, [], seen => .ok seen
  | 0, _ :: _, _ => .error .diverges
  | rounds + 1, key :: todo, seen =>
    if key ∈ seen then walkClaims claims rounds todo seen
    else match claims.get? key with
      | none => .error (.digestion { category := .evidenceValidationFailed })
      | some claim => walkClaims claims rounds (claim.links.reverse ++ todo) (key :: seen)

/-- The pieces of the chunks that were analyzed, whose claims must be connected to the root. -/
def connectedPieces (a : ExtractionArtifact U) (checkpoints : Dict U (Checkpoint U))
    (seen : List (U × U)) : List (AnalysisChunk U) →
    Except Fault (List (Claim U) × List (SourcePiece U))
  | [] => .ok ([], [])
  | chunk :: chunks =>
    match checkpoints.get? chunk.chunkId with
    | none => .error .exception
    | some cp =>
      if cp.result.outcome = .unavailable then connectedPieces a checkpoints seen chunks
      else if !cp.result.claims.all fun c => seen.contains (chunk.chunkId, c.claimId) then
        .error (.digestion { category := .coverageFailed })
      else do
        chunk.pieces.forM fun piece => (resolve a piece.evidence).map fun _ => ()
        let (findings, pieces) ← connectedPieces a checkpoints seen chunks
        .ok (cp.result.claims ++ findings, chunk.pieces ++ pieces)

/-- The order of pairs. -/
def pairLe (x y : Nat × Nat) : Prop := x.1 < y.1 ∨ (x.1 = y.1 ∧ x.2 ≤ y.2)

instance : DecidableRel pairLe := fun x y => by unfold pairLe; infer_instance

/-- The cursor of `full` over sorted intervals; `none` when there is a gap. -/
def coverCursor : Nat → List (Nat × Nat) → Option Nat
  | cursor, [] => some cursor
  | cursor, (start, stop) :: parts =>
    if cursor < start then none else coverCursor (max cursor stop) parts

/-- `full`: the pieces of the block cover its span. -/
def full (a : ExtractionArtifact U) (pieces : List (SourcePiece U)) (blockId : U) : Bool :=
  match (blockIndex a).get? blockId with
  | none => false
  | some (_, block) =>
    let parts := (pieces.filter fun p => p.evidence.blockId = blockId).map fun p =>
      (p.evidence.span.start, p.evidence.span.stop)
    !parts.isEmpty && coverCursor block.span.start (parts.insertionSort pairLe) == some block.span.stop

/-- The coverage of a digest. -/
def coverageOf (ids : Ids U) (a : ExtractionArtifact U) (plan : Plan U)
    (pieces : List (SourcePiece U)) : Coverage U :=
  let analyzed := plan.eligible.filter (full a pieces)
  let denominator := plan.eligible.length + plan.unsupported.length
  { eligible := plan.eligible, analyzed
    failed := plan.eligible.filter fun key => !analyzed.contains key
    skipped := plan.skipped, unsupported := plan.unsupported, included := analyzed
    fraction := if denominator = 0 then 0 else ids.divide analyzed.length denominator }

/-- `complete`. -/
def isComplete (c : Coverage U) : Bool :=
  c.failed.isEmpty && c.unsupported.isEmpty && c.included.length == c.eligible.length

def statusOf (profile : DigestionProfile) (c : Coverage U) : DigestStatus :=
  if c.fraction < profile.minimumCoverage then .failed
  else if isComplete c then .complete
  else if profile.allowPartial && !c.included.isEmpty && decide (profile.minimumCoverage ≤ c.fraction)
      && c.failed.length ≤ profile.maxFailedUnits then .partialCoverage
  else .failed

/-- The subjects the findings both affirm and deny. -/
def contradictionsOf (findings : List (Claim U)) : List (Contradiction U) :=
  let subjects := sortedSet (findings.filterMap fun c => match c.subject with
    | some s => if !s.isEmpty && (c.stance = .affirmed || c.stance = .denied) then some s else none
    | none => none)
  let side (stance : Stance) (s : Str) := (findings.filter fun c => c.proposes stance s).map Claim.claimId
  (subjects.filter fun s => !(side .affirmed s).isEmpty && !(side .denied s).isEmpty).map fun s =>
    ⟨s, side .affirmed s, side .denied s⟩

/-- The summaries of the sections whose last reducer has claims. -/
def sectionsOf (plan : Plan U) (checkpoints : Dict U (Checkpoint U)) : List (SectionSummary U) :=
  let nodes := Dict.ofList (plan.reducers.map fun n => (n.structuralParent, n.stageId))
  (plan.structureMap.units.filter fun u => u.kind = .section_ || u.kind = .subsection).filterMap fun u =>
    match nodes.get? u.structuralUnitId with
    | none => none
    | some stage =>
      match ((checkpoints.get? stage).map fun cp => cp.result.claims).getD [] with
      | [] => none
      | claim :: _ => some ⟨u.structuralUnitId, stage, claim.text⟩

/-- The stage ids of a plan, in topological order. -/
def Plan.stages (plan : Plan U) : List U :=
  plan.chunks.map AnalysisChunk.chunkId ++ plan.reducers.map ReductionNode.stageId

def incompleteCoverageText : Str :=
  "Incomplete source coverage; this digest is not complete publishable knowledge.".toList

def unavailableContentText : Str :=
  "Content unavailable for unsupported or unextractable source units.".toList

def conflictText : Str := "Conflicting source propositions remain unresolved.".toList

def noFindingsText : Str := "No supported root findings are available.".toList

/-- How many rounds the walk over the claims can take. -/
def walkRounds (claims : Dict (U × U) (Claim U)) (todo : List (U × U)) : Nat :=
  todo.length + (claims.map fun p => p.2.lineage.length).sum

/-- The root of the walk. -/
def rootLinks (plan : Plan U) (root : Checkpoint U) : List (U × U) :=
  root.result.claims.map fun c => (plan.rootId, c.claimId)

/-- `make_digest`. -/
def makeDigest (ids : Ids U) (a : ExtractionArtifact U) (plan : Plan U) (planRef : ObjectRef U)
    (checkpoints : Dict U (Checkpoint U)) (refs : Dict U (ObjectRef U)) :
    Except Fault (DigestArtifact U) :=
  if !sameSet (checkpoints.map Prod.fst) plan.stages || !sameSet (refs.map Prod.fst) plan.stages then
    .error (.digestion { category := .coverageFailed })
  else match checkpoints.get? plan.rootId with
    | none => .error .exception
    | some root => do
      let claims := claimGraph checkpoints
      let todo := rootLinks plan root
      let seen ← walkClaims claims (walkRounds claims todo) todo.reverse []
      let (findings, pieces) ← connectedPieces a checkpoints seen plan.chunks
      let coverage := coverageOf ids a plan pieces
      let contradictions := contradictionsOf findings
      let limitations := checkpoints.flatMap fun p => p.2.result.limitations
      let questions := checkpoints.flatMap fun p => p.2.result.openQuestions
      .ok
        { documentVersionId := plan.structureMap.documentVersionId
          extraction := plan.structureMap.extraction, plan := planRef
          profile := plan.profile.digest ids, status := statusOf plan.profile coverage
          executiveSummary := match root.result.claims with
            | [] => noFindingsText
            | claim :: _ => claim.text
          root := plan.rootId, sections := sectionsOf plan checkpoints, findings
          synthesisClaims := root.result.claims
          qualifications := (claims.filter fun p => seen.contains p.1).flatMap fun p =>
            p.2.qualifications
          contradictions
          openQuestions := sortedSet (questions
            ++ (if plan.unsupported.isEmpty then [] else [unavailableContentText])
            ++ (if contradictions.isEmpty then [] else [conflictText]))
          coverage
          limitations := sortedSet (limitations
            ++ (if isComplete coverage then [] else [incompleteCoverageText]))
          evidence := (Dict.ofList (pieces.map fun p => (p.evidenceId ids, p.evidence))).map Prod.snd
          checkpoints := checkpoints.filterMap fun p => refs.get? p.1 }

end Polymind.Digestion
