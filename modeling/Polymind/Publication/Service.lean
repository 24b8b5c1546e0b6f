import Polymind.Publication.Planning
import Polymind.Publication.Loading
import Polymind.Jobs.Models
import Polymind.Lib.Processes

/-!
# The publication service

`PublicationReader` and `PublicationService` of `documents/publication/service.py`, as processes over
the publication authority, the object store and the vector store.  Any number of them may run at once,
next to other writers of the vector store, and each may be abandoned at any point.

An `Effect` is what one process does at once; `answers` says what it may answer and what it leaves
behind.  Every effect may raise, and one that writes may have written all the same.  What jobs, the
settings and the embedding model answer is arbitrary.

Of the object store only the publication manifests are kept, under the keys of their references.  The
embedding of a row is left out: nothing here reads it back.
-/

namespace Polymind.Publication

deriving instance DecidableEq for RetrievalRecord, AcceptedDocument, RetrievalProfile

namespace Planning

deriving instance DecidableEq for RetrievalRecord, AcceptedDocument

/-- The dump of a document. -/
def AcceptedDocument.modelDump {U : Type} (ids : Ids U) (d : AcceptedDocument U) : Json :=
  .record [("scope", d.scope.modelDump ids), ("job_id", ids.uuidJson d.jobId),
    ("document_id", ids.uuidJson d.documentId), ("document_version_id", ids.uuidJson d.documentVersionId),
    ("extraction_id", ids.uuidJson d.extractionId), ("extraction", d.extraction.modelDump ids),
    ("digest", d.digest.modelDump ids), ("status", .text "COMPLETE")]

/-- The dump of a manifest. -/
def PublicationManifest.modelDump {U : Type} (ids : Ids U) (m : PublicationManifest U) : Json :=
  .record [("schema_version", .text "publication/1"), ("generation", ids.uuidJson m.generation),
    ("scope", m.scope.modelDump ids), ("base", activeDump ids m.base), ("profile", m.profile.modelDump),
    ("documents", .arr (m.documents.map (AcceptedDocument.modelDump ids))),
    ("records", .arr (m.records.map (RetrievalRecord.modelDump ids))),
    ("removed_versions", ids.uuidsJson m.removedVersions), ("policy", .text "COMPLETE_ONLY")]

/-- The manifest as requests read it. -/
def PublicationManifest.requested {U : Type} (m : PublicationManifest U) : Publication.PublicationManifest U :=
  ⟨m.generation, m.scope, m.documents.map AcceptedDocument.toAcceptedDocument,
    m.records.map RetrievalRecord.toRetrievalRecord⟩

end Planning

namespace Service

open Json Documents Digestion Planning Process

variable {U : Type}

/-! ### Failures -/

/-- The categories of a `PublicationError` that the service raises. -/
inductive ErrorCategory where
  | invalidInput | validationFailed | writeFailure | staleCandidate | unavailable | incompatible
  | provenanceInvalid | retrievalScopeInvalid | embeddingLimit
deriving DecidableEq

/-- An exception: a `PublicationError`, a `SecurityError` or any other. -/
inductive Fault where
  | publication (category : ErrorCategory)
  | security
  | other
deriving DecidableEq

def Fault.ofRaised : Raised → Fault
  | .invalidInput => .publication .invalidInput
  | .staleCandidate => .publication .staleCandidate
  | .unavailable => .publication .unavailable
  | .overflow => .other

def Fault.ofPlanning : PlanningError → Fault
  | .embeddingLimit => .publication .embeddingLimit
  | .provenanceInvalid => .publication .provenanceInvalid
  | .invalidInput => .publication .invalidInput
  | .digestion _ => .other
  | .validation => .other

/-- `except PublicationError: raise`, and any other exception as `publication_validation_failed`. -/
def Fault.sanitized : Fault → Fault
  | .publication category => .publication category
  | .security => .publication .validationFailed
  | .other => .publication .validationFailed

/-! ### The vector store -/

/-- A value of the metadata; booleans are the numbers they equal. -/
inductive Scalar where
  | str (s : Str)
  | number (x : ℚ)
deriving DecidableEq

/-- A row without its embedding. -/
structure VectorDocument where
  document : Str
  metadata : Dict Str Scalar
deriving DecidableEq

/-- `physical_id`. -/
def physicalId (ids : Ids U) (generation recordId : U) : Str :=
  ids.uuidStr (ids.stableId ["publication-vector/1".toList, ids.uuidStr generation, ids.uuidStr recordId])

/-- The row that `prepare` writes for a record. -/
def vectorRow (ids : Ids U) (m : Planning.PublicationManifest U) (r : Planning.RetrievalRecord U) :
    VectorDocument :=
  ⟨r.text, (vectorMetadata ids m.requested r.toRetrievalRecord).map fun p => (p.1, .str p.2)⟩

/-- What `_where` selects. -/
def VectorDocument.matches (filter : Option VectorFilter) (row : VectorDocument) : Bool :=
  match filter with
  | none => true
  | some f => row.metadata.get? "generation".toList == some (.str f.generation)
      && (f.documentIds.isEmpty
        || f.documentIds.any fun d => row.metadata.get? "document_id".toList == some (.str d))

/-- `==` of dictionaries. -/
def sameDict {K V : Type} [DecidableEq K] (same : V → V → Bool) (d e : Dict K V) : Bool :=
  d.length == e.length && d.all fun p => (e.get? p.1).any (same p.2)

def VectorDocument.same (a b : VectorDocument) : Bool :=
  a.document == b.document && sameDict (· == ·) a.metadata b.metadata

/-- `wanted`. -/
def wanted (ids : Ids U) (m : Planning.PublicationManifest U)
    (records : List (Planning.RetrievalRecord U)) : Dict (Option Scalar) VectorDocument :=
  Dict.ofList (records.map fun r => (some (.str (ids.uuidStr r.recordId)), vectorRow ids m r))

/-- `actual`; a row without a `record_id` has the key `None`. -/
def actual (rows : List VectorDocument) : Dict (Option Scalar) VectorDocument :=
  Dict.ofList (rows.map fun row => (row.metadata.get? "record_id".toList, row))

/-- `len(inventory) == len(wanted) and actual == wanted`. -/
def inventoryMatches (ids : Ids U) (m : Planning.PublicationManifest U)
    (records : List (Planning.RetrievalRecord U)) (rows : List VectorDocument) : Bool :=
  rows.length == (wanted ids m records).length
    && sameDict VectorDocument.same (actual rows) (wanted ids m records)

/-! ### Effects -/

inductive Effect (U : Type) where
  /-- `_manage(authorization)`: the settings, the authority for principals and the scope. -/
  | manage
  /-- `checkpoint(point)`, which the caller passes. -/
  | checkpoint (point : String)
  | active
  | candidate (generation : U)
  | inventory
  | register (manifest : Planning.PublicationManifest U) (ref : ObjectRef U)
  | mark (generation : U) (state : CandidateState) (error : Option Str)
  | activate (generation : U) (expected : ActivePublication U) (operation : Operation)
  /-- `decode(self.objects.read(...), PublicationManifest, LIMIT)`. -/
  | read (ref : ObjectRef U)
  /-- `self.objects.put(...)` of the encoded manifest. -/
  | put (manifest : Planning.PublicationManifest U)
  | accepted (jobId : U)
  /-- `self.encoder.embed(text)`. -/
  | embed (text : Str)
  | upsert (id : Str) (row : VectorDocument)
  | listDocuments (filter : Option VectorFilter)
  /-- `BM25Okapi(corpus)`, if there is something to rank. -/
  | index (manifest : Planning.PublicationManifest U)

/-- What an effect answers. -/
def Effect.Answer : Effect U → Type
  | .manage => Unit
  | .checkpoint _ => Unit
  | .active => ActivePublication U
  | .candidate _ => ObjectRef U × CandidateState × ActivePublication U
  | .inventory => List (U × CandidateState)
  | .register _ _ => Unit
  | .mark _ _ _ => Unit
  | .activate _ _ _ => ActivePublication U
  | .read _ => Planning.PublicationManifest U
  | .put _ => ObjectRef U
  | .accepted _ => Accepted U
  | .embed _ => Unit
  | .upsert _ _ => Unit
  | .listDocuments _ => List VectorDocument
  | .index _ => Unit

/-- A method of the service on its way. -/
abbrev Method (U α : Type) := Process (Effect U) Effect.Answer Fault α

def Method.lift {α : Type} (result : Except PlanningError α) : Method U α :=
  .done (result.mapError Fault.ofPlanning)

/-! The methods of the collaborators. -/

def manage : Method U Unit := perform Effect.manage

def checkpoint (point : String) : Method U Unit := perform (Effect.checkpoint point)

def active : Method U (ActivePublication U) := perform Effect.active

def candidate (generation : U) : Method U (ObjectRef U × CandidateState × ActivePublication U) :=
  perform (Effect.candidate generation)

def known : Method U (List (U × CandidateState)) := perform Effect.inventory

def register (m : Planning.PublicationManifest U) (ref : ObjectRef U) : Method U Unit :=
  perform (Effect.register m ref)

def mark (generation : U) (state : CandidateState) (error : Option Str) : Method U Unit :=
  perform (Effect.mark generation state error)

def activation (generation : U) (expected : ActivePublication U) (operation : Operation) :
    Method U (ActivePublication U) := perform (Effect.activate generation expected operation)

def readManifest (ref : ObjectRef U) : Method U (Planning.PublicationManifest U) :=
  perform (Effect.read ref)

def putManifest (m : Planning.PublicationManifest U) : Method U (ObjectRef U) := perform (Effect.put m)

def acceptedJob (jobId : U) : Method U (Accepted U) := perform (Effect.accepted jobId)

def embed (text : Str) : Method U Unit := perform (Effect.embed text)

def upsert (id : Str) (row : VectorDocument) : Method U Unit := perform (Effect.upsert id row)

def listDocuments (filter : Option VectorFilter) : Method U (List VectorDocument) :=
  perform (Effect.listDocuments filter)

def buildIndex (m : Planning.PublicationManifest U) : Method U Unit := perform (Effect.index m)

/-- `try: ... except PublicationError: raise except Exception: ...`. -/
def sanitize {α : Type} (p : Method U α) : Method U α := tryCatch p fun fault => throw fault.sanitized

/-! ### Reading -/

variable [DecidableEq U] (ids : Ids U) (encoder : RetrievalEncoder) (scope : Scope U)

/-- `manifest`. -/
def manifest (generation : U) (compatible : Bool) :
    Method U (Planning.PublicationManifest U) := sanitize do
  let (ref, _, base) ← candidate generation
  let m ← readManifest ref
  if m.base ≠ base || m.generation ≠ generation || m.scope ≠ scope
      || compatible && decide (m.profile ≠ encoder.profile) then
    throw (.publication .incompatible)
  else return m

/-- The body of the loop of `validate` over the documents: the records expected of one. -/
def expectedRecords (d : Planning.AcceptedDocument U) :
    Method U (List (Planning.RetrievalRecord U)) := do
  let a ← acceptedJob d.jobId
  if a.document ≠ d then throw (.publication .provenanceInvalid)
  else Method.lift (records ids d.toAcceptedDocument a.artifact a.plan encoder a.digest)

/-- `{r.record_id: r for r in ...}`. -/
def byRecordId (records : List (Planning.RetrievalRecord U)) : Dict U (Planning.RetrievalRecord U) :=
  Dict.ofList (records.map fun r => (r.recordId, r))

/-- `pinned_manifest or self.manifest(generation)`. -/
def pinnedOrRead (generation : U) : Option (Planning.PublicationManifest U) →
    Method U (Planning.PublicationManifest U)
  | some m => return m
  | none => manifest encoder scope generation true

/-- `validate`; `documentIds` is the tuple of `document_ids`. -/
def validate (generation : U) (sparse : Bool) (documentIds : Option (List U))
    (pinned : Option (Planning.PublicationManifest U)) :
    Method U (Planning.PublicationManifest U) := sanitize do
  let m ← pinnedOrRead encoder scope generation pinned
  if m.generation ≠ generation || m.scope ≠ scope then throw (.publication .provenanceInvalid)
  else do
    let known := m.documents.map fun d => d.documentId
    let selected := documentIds.getD known
    if !selected.all known.contains then throw (.publication .retrievalScopeInvalid)
    else do
      let selectedRecords := m.records.filter fun r => selected.contains r.documentId
      let expected ← mapEach (expectedRecords ids encoder)
        (m.documents.filter fun d => selected.contains d.documentId)
      if !sameDict (· == ·) (byRecordId expected.flatten) (byRecordId selectedRecords) then
        throw (.publication .provenanceInvalid)
      else do
        let rows ← listDocuments
          (some ⟨ids.uuidStr generation, (documentIds.getD []).map ids.uuidStr⟩)
        if !inventoryMatches ids m selectedRecords rows then throw (.publication .validationFailed)
        else do
          (if sparse then buildIndex m else return ())
          return m

/-! ### Planning -/

/-- The body of the loop of `plan_publication`. -/
def plannedJob (jobId : U) :
    Method U (Planning.AcceptedDocument U × List (Planning.RetrievalRecord U)) := do
  let a ← acceptedJob jobId
  let rows ← Method.lift (records ids a.document.toAcceptedDocument a.artifact a.plan encoder a.digest)
  return (a.document, rows)

/-- `plan_publication`, with the answers about the jobs as they come. -/
def planned (jobIds : List U) (base : ActivePublication U)
    (previous : Option (Planning.PublicationManifest U)) : Method U (Planning.PublicationManifest U) := do
  let planned ← mapEach (plannedJob ids encoder) (sortedByStr ids jobIds.dedup)
  let docs := (planned.map Prod.fst).insertionSort fun a b =>
    keyLe (ids.uuidStr a.documentId) (ids.uuidStr b.documentId) = true
  let rows := (planned.flatMap Prod.snd).insertionSort fun a b =>
    keyLe (ids.uuidStr a.documentId) (ids.uuidStr b.documentId) = true
  Method.lift (manifestValues ids ⟨scope.owner, scope, base, encoder.profile, docs, rows,
    removedVersions ids previous docs⟩)

/-- The candidate republishes what is published already. -/
def republishes (candidate previous : Planning.PublicationManifest U) : Bool :=
  candidate.records == previous.records && decide (candidate.profile = previous.profile)
    && candidate.documents.map (fun d => d.digest) == previous.documents.map (fun d => d.digest)

/-- The manifest of the active publication, if there is one. -/
def previousManifest (base : ActivePublication U) : Method U (Option (Planning.PublicationManifest U)) :=
  match base.generation with
  | none => return none
  | some generation => return some (← manifest encoder scope generation false)

/-- `plan`. -/
def plan (jobIds : List U) : Method U (Planning.PublicationManifest U) := do
  manage
  let base ← active
  let previous ← previousManifest encoder scope base
  let candidate ← planned ids encoder scope jobIds base previous
  match previous.filter (republishes candidate) with
  | some previous => do
    let _ ← validate ids encoder scope previous.generation false none none
    return previous
  | none => do
    let inventory ← known
    if inventory.any fun k => k.1 = candidate.generation then
      manifest encoder scope candidate.generation true
    else do
      let ref ← putManifest candidate
      register candidate ref
      return candidate

/-! ### Preparing and activating -/

/-- One round of the loop of `prepare`. -/
def writeRecord (generation : U) (m : Planning.PublicationManifest U) (r : Planning.RetrievalRecord U) :
    Method U PUnit := do
  manage
  embed r.text
  upsert (physicalId ids generation r.recordId) (vectorRow ids m r)
  checkpoint "after_write"

/-- The body of the `try` of `prepare`. -/
def writeAll (generation : U) (m : Planning.PublicationManifest U) :
    Method U (Planning.PublicationManifest U) := do
  checkpoint "before_writes"
  forEach (writeRecord ids generation m) m.records
  checkpoint "after_writes"
  let _ ← validate ids encoder scope generation true none none
  checkpoint "after_validation"
  mark generation .ready none
  return m

/-- `prepare`. -/
def prepare (generation : U) : Method U (Planning.PublicationManifest U) := do
  manage
  let m ← manifest encoder scope generation true
  let (_, state, base) ← candidate generation
  if state = .accepted then validate ids encoder scope generation false none none
  else do
    let active ← active
    if active ≠ base then do
      mark generation .stale none
      throw (.publication .staleCandidate)
    else
      tryCatch (writeAll ids encoder scope generation m) fun _ => do
        mark generation .failed (some "publication_write_failure".toList)
        throw (.publication .writeFailure)

/-- What `activate` and `rollback` do once they know the publication they expect. -/
def switch (generation : U) (expected : ActivePublication U) (operation : Operation) :
    Method U (ActivePublication U) := do
  checkpoint "before_activation"
  manage
  let result ← activation generation expected operation
  checkpoint "after_activation"
  return result

/-- `activate`. -/
def activate (generation : U) : Method U (ActivePublication U) := do
  manage
  let _ ← validate ids encoder scope generation true none none
  let (_, _, base) ← candidate generation
  switch generation base .forward

/-- `rollback`. -/
def rollback (generation : U) (expected : ActivePublication U) : Method U (ActivePublication U) := do
  manage
  let _ ← validate ids encoder scope generation true none none
  switch generation expected .rollback

/-- `revoke`. -/
def revoke (documentIds : List U) : Method U (ActivePublication U) := do
  manage
  let active ← active
  match active.generation with
  | none => throw (.publication .retrievalScopeInvalid)
  | some generation => do
    let current ← manifest encoder scope generation true
    if documentIds.isEmpty || !documentIds.all (current.documents.map fun d => d.documentId).contains then
      throw (.publication .retrievalScopeInvalid)
    else do
      let kept := current.documents.filter fun d => !documentIds.contains d.documentId
      let candidate ← plan ids encoder scope (kept.map fun d => d.jobId)
      let _ ← prepare ids encoder scope candidate.generation
      activate ids encoder scope candidate.generation

/-- A key that `sorted` can compare with others: `None` does not compare with a string, and a generation
is never a number. -/
def orphanText : Option Scalar → Except Fault Str
  | some (.str text) => .ok text
  | some (.number _) => .error .other
  | none => .error .other

/-- `sorted(...)` of the generations without a candidate. -/
def sortedOrphans (orphans : List (Option Scalar)) : Except Fault (List (Option Scalar)) :=
  if orphans.length ≤ 1 then .ok orphans
  else do
    let texts ← orphans.mapM orphanText
    return (texts.insertionSort fun a b => keyLe a b = true).map fun text => some (.str text)

/-- `reconcile`: the generations in the vector store that are not known, and the known ones that are
not active. -/
def reconcile : Method U (List (Option Scalar) × List Str) := do
  manage
  let inventory ← known
  let rows ← listDocuments none
  let active ← active
  let _ ← active.generation.mapM fun generation => validate ids encoder scope generation false none none
  let physical := (rows.map fun row => row.metadata.get? "generation".toList).dedup
  let orphans ← .done (sortedOrphans
    (physical.filter fun g => !inventory.any fun k => g == some (Scalar.str (ids.uuidStr k.1))))
  return (orphans, (inventory.filter fun k => active.generation ≠ some k.1).map fun k => ids.uuidStr k.1)

/-! ### The worker's step -/

/-- `publication_step` of `documents/publication/workflow.py`. -/
def publicationStep (m : Planning.PublicationManifest U) : Jobs.StepSpec :=
  ⟨"publication/".toList ++ ids.uuidStr m.generation, .normalizing, "publication/1".toList,
    ids.fingerprint (m.modelDump ids), []⟩

/-- `PublicationHandler`, with the scope of the job and the specification of its step. -/
def handler (generation : U) (jobScope : Scope U) (step : Jobs.StepSpec) : Method U (ObjectRef U) := do
  let m ← manifest encoder scope generation true
  if jobScope ≠ m.scope || step ≠ publicationStep ids m then throw (.publication .invalidInput)
  else do
    let _ ← prepare ids encoder scope generation
    putManifest m

/-! ### The shared state -/

/-- The database of the authority, the manifests in the object store and the rows of the vector store. -/
structure World (U : Type) where
  authority : Authority U
  objects : Dict U (ObjectRef U × Planning.PublicationManifest U)
  vectors : Dict Str VectorDocument

/-- The reference that `put` gives to a manifest. -/
def manifestRef (m : Planning.PublicationManifest U) : ObjectRef U :=
  let objectId := ids.stableId ["publication-manifest/1".toList, ids.uuidStr m.generation]
  let data := canonical (m.modelDump ids)
  ⟨scope, .artifact, objectId,
    ids.stableId [scope.identity ids, ObjectKind.artifact.text, ids.uuidStr objectId],
    ids.sha256 data, data.length⟩

/-- A call of the authority: it is one transaction, whose answer may be lost. -/
def transacts {α : Type} (c : Authority.Call U) (w : World U) (r : Except Fault α)
    (expected : Option (ActivePublication U) → α → Prop) (w' : World U) : Prop :=
  match r with
  | .ok a => ∃ answer, (w.authority.step c).1 = .ok answer ∧ expected answer a
      ∧ w' = { w with authority := w.authority.next c }
  | .error _ => w' = w ∨ w' = { w with authority := w.authority.next c }

/-- What an effect may answer, and the state it leaves. -/
def answers : (e : Effect U) → World U → Except Fault e.Answer → World U → Prop
  | .manage, w, _, w' => w' = w
  | .checkpoint _, w, _, w' => w' = w
  | .accepted _, w, _, w' => w' = w
  | .embed _, w, _, w' => w' = w
  | .index _, w, _, w' => w' = w
  | .active, w, r, w' => w' = w ∧ ∀ a, r = .ok a → a = w.authority.active
  | .candidate generation, w, r, w' => w' = w ∧ ∀ a, r = .ok a →
      ∃ row, w.authority.candidate? generation = some row ∧ a = (row.manifest, row.state, row.base)
  | .inventory, w, r, w' => w' = w ∧ ∀ a, r = .ok a →
      a = w.authority.candidates.map fun row => (row.generation, row.state)
  | .register m ref, w, r, w' =>
      transacts (.register ⟨m.generation, m.base⟩ ref) w r (fun _ _ => True) w'
  | .mark generation state error, w, r, w' =>
      transacts (.mark generation state error) w r (fun _ _ => True) w'
  | .activate generation expected operation, w, r, w' =>
      transacts (.activate generation expected operation) w r (fun answer a => answer = some a) w'
  | .read ref, w, r, w' => w' = w ∧ ∀ m, r = .ok m → w.objects.get? ref.key = some (ref, m)
  | .put m, w, r, w' =>
      -- an object is written once; a key that is taken is compared
      (w' = w ∨ w.objects.get? (manifestRef ids scope m).key = none ∧ w' = { w with
        objects := w.objects.set (manifestRef ids scope m).key (manifestRef ids scope m, m) })
      ∧ ∀ ref, r = .ok ref → ref = manifestRef ids scope m
        ∧ ∃ stored, w'.objects.get? ref.key = some (ref, stored)
  | .upsert id row, w, r, w' =>
      w' = { w with vectors := w.vectors.set id row } ∨ w' = w ∧ ∃ e, r = .error e
  | .listDocuments filter, w, r, w' => w' = w ∧ ∀ rows, r = .ok rows →
      rows.Perm ((w.vectors.map Prod.snd).filter (VectorDocument.matches filter))

/-- Other writers of the vector store: their rows carry no generation, and none of their ids is one of
a publication. -/
def foreign (w w' : World U) : Prop :=
  ∃ id row, (∀ generation recordId, id ≠ physicalId ids generation recordId)
    ∧ row.metadata.get? "generation".toList = none ∧ w' = { w with vectors := w.vectors.set id row }

/-- A method whose result is forgotten. -/
def forget {α : Type} (p : Method U α) : Method U PUnit := do
  let _ ← p
  return ⟨⟩

/-- The methods a caller may start. -/
inductive Starts : Method U PUnit → Prop
  | validate (generation sparse documentIds pinned) :
    Starts (forget (validate ids encoder scope generation sparse documentIds pinned))
  | plan (jobIds) : Starts (forget (plan ids encoder scope jobIds))
  | prepare (generation) : Starts (forget (prepare ids encoder scope generation))
  | activate (generation) : Starts (forget (activate ids encoder scope generation))
  | rollback (generation expected) : Starts (forget (rollback ids encoder scope generation expected))
  | revoke (documentIds) : Starts (forget (revoke ids encoder scope documentIds))
  | reconcile : Starts (forget (reconcile ids encoder scope))
  | handler (generation jobScope step) : Starts (forget (handler ids encoder scope generation jobScope step))

/-- The state of a new authority, before any manifest. -/
def World.initial (vectors : Dict Str VectorDocument) : World U := ⟨.empty, [], vectors⟩

end Service

end Polymind.Publication
