import Polymind.Publication.Authority
import Polymind.Publication.Encoding
import Polymind.Publication.Retrieval

/-!
# Planning a publication

`documents/publication/planning.py` and the models of `documents/publication/models.py` with all
their fields.  What requests read of a document and of a record is the parent of their structure.

A dump that is read back is the model it was dumped from, so the second validation of a draft is its
first one.
-/

namespace Polymind.Publication.Planning

open Json Documents Digestion

variable {U : Type}

/-! ### Models -/

/-- `AcceptedDocument`. -/
structure AcceptedDocument (U : Type) extends Publication.AcceptedDocument U where
  jobId : U
  digest : ObjectRef U

/-- A document without its `job_id`. -/
def AcceptedDocument.withoutJob (d : AcceptedDocument U) :
    Publication.AcceptedDocument U × ObjectRef U := (d.toAcceptedDocument, d.digest)

/-- The dump of a document whose `job_id` is popped. -/
def documentPayload (ids : Ids U) (d : Publication.AcceptedDocument U × ObjectRef U) : Json :=
  .record [("scope", d.1.scope.modelDump ids), ("document_id", ids.uuidJson d.1.documentId),
    ("document_version_id", ids.uuidJson d.1.documentVersionId),
    ("extraction_id", ids.uuidJson d.1.extractionId), ("extraction", d.1.extraction.modelDump ids),
    ("digest", d.2.modelDump ids), ("status", .text "COMPLETE")]

inductive Limitation where
  | none | uninterpretedVisual
deriving DecidableEq

def Limitation.text : Limitation → Str
  | .none => "none".toList
  | .uninterpretedVisual => "uninterpreted_visual".toList

/-- `RetrievalRecord`. -/
structure RetrievalRecord (U : Type) extends Publication.RetrievalRecord U where
  sourceKind : Str
  limitation : Limitation

/-- The fields of the dump without `record_id`. -/
def RetrievalRecord.payload (ids : Ids U) (r : RetrievalRecord U) : List (String × Json) :=
  [("document_id", ids.uuidJson r.documentId),
    ("document_version_id", ids.uuidJson r.documentVersionId),
    ("extraction_id", ids.uuidJson r.extractionId), ("material", .text "SOURCE_TEXT"),
    ("classification", .text "ORIGINAL"), ("text", .str r.text),
    ("evidence", r.evidence.modelDump ids), ("structural_path", .arr (r.structuralPath.map .str)),
    ("source_kind", .str r.sourceKind), ("limitation", .str r.limitation.text),
    ("profile", .str r.profile)]

/-- `RetrievalRecord.identity`. -/
def RetrievalRecord.identity (ids : Ids U) (r : RetrievalRecord U) : U :=
  ids.stableId ["retrieval-record/1".toList, ids.fingerprint (.record (r.payload ids))]

def RetrievalRecord.modelDump (ids : Ids U) (r : RetrievalRecord U) : Json :=
  .record (("record_id", ids.uuidJson r.recordId) :: r.payload ids)

section

variable [DecidableEq U] (ids : Ids U)

/-- Field constraints and `RetrievalRecord.valid`. -/
def RetrievalRecord.valid (r : RetrievalRecord U) : Bool :=
  1 ≤ r.text.length && r.text.length ≤ 4096 && r.structuralPath.length ≤ 32
    && r.sourceKind.length ≤ 32 && isDigest r.profile && r.recordId == r.identity ids
    && r.documentVersionId == r.evidence.documentVersionId
    && r.extractionId == r.evidence.extractionId

/-- `record_values`, of a draft with any `record_id`. -/
def recordValues (draft : RetrievalRecord U) : Except PlanningError (RetrievalRecord U) :=
  let record := { draft with recordId := draft.identity ids }
  if record.valid ids then .ok record else .error .validation

end

/-- `PublicationManifest`. -/
structure PublicationManifest (U : Type) where
  generation : U
  scope : Scope U
  base : ActivePublication U
  profile : RetrievalProfile
  documents : List (AcceptedDocument U)
  records : List (RetrievalRecord U)
  removedVersions : List U

def activeDump (ids : Ids U) (base : ActivePublication U) : Json :=
  .record [("generation", .option ids.uuidJson base.generation), ("epoch", .nat base.epoch)]

/-- `PublicationManifest.identity`. -/
def PublicationManifest.identity (ids : Ids U) (m : PublicationManifest U) : U :=
  ids.stableId ["publication/1".toList, ids.fingerprint (.record [
    ("schema_version", .text "publication/1"), ("scope", m.scope.modelDump ids),
    ("base", activeDump ids m.base), ("profile", m.profile.modelDump),
    ("documents", .arr (m.documents.map fun d => documentPayload ids d.withoutJob)),
    ("records", .arr (m.records.map (RetrievalRecord.modelDump ids))),
    ("removed_versions", ids.uuidsJson m.removedVersions), ("policy", .text "COMPLETE_ONLY")])]

section

variable [DecidableEq U] (ids : Ids U)

/-- `PublicationManifest.valid`. -/
def PublicationManifest.valid (m : PublicationManifest U) : Bool :=
  let docs := Dict.ofList (m.documents.map fun d => (d.documentId, d.toAcceptedDocument))
  docs.length == m.documents.length && m.generation == m.identity ids
    && (m.records.map fun r => r.recordId).dedup.length == m.records.length
    && (m.documents.all fun d => decide (d.scope = m.scope) && decide (d.extraction.scope = m.scope)
      && decide (d.digest.scope = m.scope))
    && (m.records.all fun r => match docs.get? r.documentId with
      | none => false
      | some d => decide (r.evidence.scope = m.scope) && r.profile == m.profile.digest ids
        && r.documentVersionId == d.documentVersionId && r.extractionId == d.extractionId)
    && sameSet (docs.map Prod.fst) (m.records.map fun r => r.documentId)

/-- `manifest_values`, of a draft with any `generation`. -/
def manifestValues (draft : PublicationManifest U) : Except PlanningError (PublicationManifest U) :=
  let manifest := { draft with generation := draft.identity ids }
  if manifest.valid ids then .ok manifest else .error .validation

/-! ### Records -/

/-- `owners`. -/
def owners (plan : Plan U) : Dict U (List Str) :=
  Dict.ofList (plan.structureMap.units.flatMap fun u => u.blockIds.map fun bid => (bid, u.path))

/-- The span of a slice of a block, rebased to the unit. -/
def sliceSpan (artifact : ExtractionArtifact U) (unit : TextUnit U) (block : Block U)
    (slice : RetrievalEncoder.Slice) : Span :=
  let start := slice.start + block.span.start
  let line := ((lineIndex artifact).get? unit.sourceId).map fun lines =>
    1 + Text.bisectLeft lines start
  ⟨start, slice.stop + block.span.start, line, line.map fun l => l + innerNewlines slice.text⟩

variable (document : Publication.AcceptedDocument U) (artifact : ExtractionArtifact U) (plan : Plan U)
  (encoder : RetrievalEncoder)

/-- The body of the inner loop of `records`. -/
def sliceRecord (unit : TextUnit U) (block : Block U) (slice : RetrievalEncoder.Slice) :
    Except PlanningError (RetrievalRecord U) :=
  let span := sliceSpan artifact unit block slice
  let evidence : EvidenceRef U := ⟨document.scope, document.documentVersionId, document.extractionId,
    unit.sourceId, block.blockId, span⟩
  if !span.valid then .error .validation
  else match resolve artifact evidence with
    | .error fault => .error (.digestion fault)
    | .ok text =>
      if text ≠ slice.text then .error .provenanceInvalid
      else recordValues ids
        { recordId := document.documentId, documentId := document.documentId
          documentVersionId := document.documentVersionId, extractionId := document.extractionId
          text := slice.text, evidence, structuralPath := ((owners plan).get? block.blockId).getD []
          sourceKind := block.kind.name, profile := encoder.profile.digest ids
          limitation :=
            if block.kind = .table ∨ block.kind = .figure then .uninterpretedVisual else .none }

/-- The records of one block; what `split` raises is raised after the slices it yields. -/
def blockRecords (unit : TextUnit U) (block : Block U) :
    Except PlanningError (List (RetrievalRecord U)) := do
  let yielded := encoder.split block.sourceText
  let rows ← yielded.1.mapM (sliceRecord ids document artifact plan encoder unit block)
  yielded.2
  return rows

/-- The included blocks, in reading order. -/
def includedBlocks (artifact : ExtractionArtifact U) (digest : DigestArtifact U) :
    List (TextUnit U × Block U) :=
  (inventory artifact).filter fun p => p.2.blockId ∈ digest.coverage.included

/-- `records`. -/
def records (digest : DigestArtifact U) : Except PlanningError (List (RetrievalRecord U)) := do
  let rows ← (includedBlocks artifact digest).mapM fun p =>
    blockRecords ids document artifact plan encoder p.1 p.2
  return rows.flatten

end

/-! ### Accepted documents -/

/-- What `accepted` reads of a job and of its step `digest`. -/
structure DigestionJob (U : Type) where
  /-- `job.state == 'COMPLETED'`. -/
  completed : Bool
  cancelRequested : Bool
  documentVersionId : U
  maxArtifactBytes : Nat
  /-- `manifest` of the step, if it is there and succeeded. -/
  manifest : Option (List (ObjectRef U))

/-- The ledger and the objects of a scope.  `none` is an exception; the bytes of an object are those
of its reference, whoever reads them. -/
structure Library (U : Type) where
  job : U → Option (DigestionJob U)
  digest : ObjectRef U → Option (DigestArtifact U)
  plan : ObjectRef U → Option (Plan U)
  coverage : ObjectRef U → Option (Coverage U)
  artifact : ObjectRef U → Option (ExtractionArtifact U)
  /-- `store.inspect`. -/
  inspect : ObjectRef U → Nat → Option Unit
  /-- The digest that `DigestionHandler` writes when the step of the job is run again. -/
  rebuilt : U → Option (DigestArtifact U)

/-- What a byte limit lets through. -/
def within {α : Type} (limit : Nat) (read : ObjectRef U → Option α) (ref : ObjectRef U) : Option α :=
  if ref.byteSize ≤ limit then read ref else none

variable [DecidableEq U] (ids : Ids U)

/-- `normalized`. -/
def normalized (digest : DigestArtifact U) : DigestArtifact U :=
  { digest with
    checkpoints := digest.checkpoints.insertionSort fun a b =>
      keyLe (canonical (a.modelDump ids)) (canonical (b.modelDump ids)) = true
    qualifications := digest.qualifications.insertionSort fun a b =>
      keyLe (canonical (a.modelDump ids)) (canonical (b.modelDump ids)) = true }

/-- `load_digest`: the digest and the manifest it was read from. -/
def loadDigest (library : Library U) (job : DigestionJob U) :
    Option (DigestArtifact U × ObjectRef U × ObjectRef U) :=
  match job.manifest with
  | some [ref, coverageRef] => do
    let digest ← within job.maxArtifactBytes library.digest ref
    if digest.status = .failed || digest.documentVersionId ≠ job.documentVersionId then none
    else some (digest, ref, coverageRef)
  | _ => none

/-- A document that was accepted, with what its records are made of. -/
structure Accepted (U : Type) where
  document : AcceptedDocument U
  artifact : ExtractionArtifact U
  digest : DigestArtifact U
  plan : Plan U

/-- `LIMIT`. -/
def limit : Nat := 32000000

/-- The body of `accepted`. -/
def accept (library : Library U) (scope : Scope U) (jobId : U) : Option (Accepted U) := do
  let job ← library.job jobId
  if !job.completed || job.cancelRequested then none
  else do
    let (digest, ref, coverageRef) ← loadDigest library job
    if digest.status ≠ .complete || limit < job.maxArtifactBytes then none
    else do
      let plan ← within job.maxArtifactBytes library.plan digest.plan
      let rebuilt ← library.rebuilt jobId
      let coverage ← within job.maxArtifactBytes library.coverage coverageRef
      if normalized ids rebuilt ≠ normalized ids digest || coverage ≠ digest.coverage then none
      else do
        let artifact ← within job.maxArtifactBytes library.artifact digest.extraction
        library.inspect artifact.document.source artifact.maxSourceBytes
        return ⟨⟨⟨scope, artifact.document.documentId, artifact.document.documentVersionId,
          artifact.extractionId, digest.extraction⟩, jobId, ref⟩, artifact, digest, plan⟩

/-- `accepted`: every exception becomes `publication_invalid_input`. -/
def accepted (library : Library U) (scope : Scope U) (jobId : U) : Except PlanningError (Accepted U) :=
  match accept ids library scope jobId with
  | some a => .ok a
  | none => .error .invalidInput

/-! ### The plan -/

/-- `sorted(values, key=str)`. -/
def sortedByStr (values : List U) : List U :=
  values.insertionSort fun a b => keyLe (ids.uuidStr a) (ids.uuidStr b) = true

/-- The body of the loop of `plan_publication`: a document and its rows. -/
def planJob (library : Library U) (scope : Scope U) (encoder : RetrievalEncoder) (key : U) :
    Except PlanningError (AcceptedDocument U × List (RetrievalRecord U)) := do
  let a ← accepted ids library scope key
  let rows ← records ids a.document.toAcceptedDocument a.artifact a.plan encoder a.digest
  return (a.document, rows)

/-- `removed`. -/
def removedVersions (previous : Option (PublicationManifest U)) (docs : List (AcceptedDocument U)) :
    List U :=
  match previous with
  | none => []
  | some previous => sortedByStr ids (((previous.documents.map fun d => d.documentVersionId).dedup).filter
      fun v => v ∉ docs.map fun d => d.documentVersionId)

/-- `plan_publication`. -/
def planPublication (library : Library U) (scope : Scope U) (jobIds : List U)
    (base : ActivePublication U) (encoder : RetrievalEncoder)
    (previous : Option (PublicationManifest U)) : Except PlanningError (PublicationManifest U) := do
  let planned ← (sortedByStr ids jobIds.dedup).mapM (planJob ids library scope encoder)
  let docs := (planned.map Prod.fst).insertionSort fun a b =>
    keyLe (ids.uuidStr a.documentId) (ids.uuidStr b.documentId) = true
  let rows := (planned.flatMap Prod.snd).insertionSort fun a b =>
    keyLe (ids.uuidStr a.documentId) (ids.uuidStr b.documentId) = true
  -- any `generation` will do in the draft
  manifestValues ids ⟨scope.owner, scope, base, encoder.profile, docs, rows,
    removedVersions ids previous docs⟩

end Polymind.Publication.Planning
