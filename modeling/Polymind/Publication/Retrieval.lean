import Polymind.Digestion.Validation

/-!
# Pinned retrieval and citations

`PublicationReplica` of `documents/publication/retrieval.py` and `fuse_rankings` of
`rag/hybrid_retriever.py`.  What comes from outside is a `Value`: plain data of which the checks ask
whether it is a dictionary, what its members are, and whether it is a given string.  `Environment`
holds the answers of everything that is called, each an arbitrary value or exception.

Floats are any type with the operations that ranking uses; no law of them is assumed.
-/

namespace Polymind.Publication

open Json Documents Digestion

/-- The categories of a `PublicationError` that a request raises. -/
inductive Category where
  | generationMismatch | provenanceInvalid | citationInvalid | retrievalScopeInvalid | analysisLimit
deriving DecidableEq

/-- An exception: a `PublicationError`, a `SecurityError` or any other. -/
inductive Failure where
  | publication (category : Category)
  | security
  | other
deriving DecidableEq

/-- The operations on floats that ranking uses. -/
class Floats (F : Type) extends Zero F, One F, Add F, Sub F, Neg F, Div F, NatCast F, Max F, LT F,
    BEq F where
  decidableLT : DecidableLT F

instance instDecidableLTOfFloats {F : Type} [Floats F] : DecidableLT F := Floats.decidableLT

/-! ### Values -/

/-- Plain data from outside.  Booleans are the numbers they equal, and keys of a dictionary that are
no strings are left out: they are never looked up. -/
inductive Value (F : Type) where
  | none
  | number (x : F)
  | str (s : Str)
  | list (items : List (Value F))
  | dict (entries : List (Str × Value F))

/-- A hit, as a dictionary. -/
abbrev Item (F : Type) := Dict Str (Value F)

namespace Value

variable {F : Type}

/-- `value == s`. -/
def isStr : Value F → Str → Bool
  | .str t, s => t == s
  | _, _ => false

/-- `value == metadata`, for a dictionary of strings. -/
def isMetadata (metadata : Dict Str Str) : Value F → Bool
  | .dict entries => entries.length == metadata.length &&
      metadata.all fun m => (Dict.get? entries m.1).any fun v => v.isStr m.2
  | _ => false

/-- The elements that `len` counts and a loop sees. -/
def elements : Value F → Except Failure (List (Value F))
  | .list items => .ok items
  | .str s => .ok (s.map fun c => .str [c])
  | .dict entries => .ok (entries.map fun e => .str e.1)
  | _ => .error .other

/-- What has the method `get`. -/
def asDict : Value F → Except Failure (Item F)
  | .dict entries => .ok entries
  | _ => .error .other

/-- What may be a member of a set. -/
def hashable : Value F → Bool
  | .list _ | .dict _ => false
  | _ => true

variable [Floats F]

/-- `==` on what may be a member of a set. -/
def same : Value F → Value F → Bool
  | .none, .none => true
  | .number x, .number y => x == y
  | .str s, .str t => s == t
  | _, _ => false

/-- `bool(value)`. -/
def truthy : Value F → Bool
  | .none => false
  | .number x => !(x == 0)
  | .str s => !s.isEmpty
  | .list items => !items.isEmpty
  | .dict entries => !entries.isEmpty

end Value

/-- `item.get(key)`. -/
def Item.get {F : Type} (item : Item F) (key : String) : Value F :=
  (Dict.get? item key.toList).getD .none

/-! ### The manifest -/

/-- The fields of a `RetrievalRecord` that requests read. -/
structure RetrievalRecord (U : Type) where
  recordId : U
  documentId : U
  documentVersionId : U
  extractionId : U
  text : Str
  evidence : EvidenceRef U
  structuralPath : List Str
  profile : Str

/-- The fields of an `AcceptedDocument` that requests read. -/
structure AcceptedDocument (U : Type) where
  scope : Scope U
  documentId : U
  documentVersionId : U
  extractionId : U
  extraction : ObjectRef U

structure PublicationManifest (U : Type) where
  generation : U
  scope : Scope U
  documents : List (AcceptedDocument U)
  records : List (RetrievalRecord U)

section Metadata

variable {U F : Type} (ids : Ids U) (manifest : PublicationManifest U)

/-- `vector_metadata`. -/
def vectorMetadata (record : RetrievalRecord U) : Dict Str Str :=
  [("generation".toList, ids.uuidStr manifest.generation),
    ("record_id".toList, ids.uuidStr record.recordId),
    ("document_id".toList, ids.uuidStr record.documentId),
    ("version".toList, ids.uuidStr record.documentVersionId),
    ("material".toList, "SOURCE_TEXT".toList), ("classification".toList, "ORIGINAL".toList),
    ("profile".toList, record.profile), ("source".toList, ids.uuidStr record.documentId),
    ("chunk_id".toList, ids.uuidStr record.recordId)]

/-- `by_id`. -/
def byId : Dict Str (RetrievalRecord U) :=
  Dict.ofList (manifest.records.map fun r => (ids.uuidStr r.recordId, r))

/-- `by_id.get(key)`, for a key that is no string too; the callers see to one that is not hashable. -/
def recordOf : Value F → Option (RetrievalRecord U)
  | .str s => (byId ids manifest).get? s
  | _ => none

/-- `{**vector_metadata(manifest, record), 'text': record.text, 'score': score}`. -/
def recordItem (record : RetrievalRecord U) (score : F) : Item F :=
  (vectorMetadata ids manifest record).map (fun m => (m.1, .str m.2))
    ++ [("text".toList, .str record.text), ("score".toList, .number score)]

end Metadata

/-! ### Fusing two rankings -/

section Fusion

variable {F : Type} [Floats F]

/-- `record_identity`. -/
inductive Identity (F : Type) where
  | publication (id : Value F)
  | legacy (source chunk : Value F)

def recordIdentity (item : Item F) : Identity F :=
  if (item.get "record_id").truthy then .publication (item.get "record_id")
  else .legacy (item.get "source") (item.get "chunk_id")

namespace Identity

def hashable : Identity F → Bool
  | .publication id => id.hashable
  | .legacy source chunk => source.hashable && chunk.hashable

def same : Identity F → Identity F → Bool
  | .publication a, .publication b => a.same b
  | .legacy a b, .legacy c d => a.same c && b.same d
  | _, _ => false

end Identity

/-- An entry of `fused`; its `rrf_score` is written into the item at the end. -/
structure Fused (F : Type) where
  key : Identity F
  item : Item F
  score : F

def Fused.result (entry : Fused F) : Item F := Dict.set entry.item "rrf_score".toList (.number entry.score)

/-- The state of the loops of `fuse_rankings`. -/
structure Fusion (F : Type) where
  fused : List (Fused F)
  seen : List (Identity F)

/-- The body of the inner loop, for the item at a rank counted from 0. -/
def fuseItem (rrfK : Nat) (state : Fusion F) (item : Item F) (rank : Nat) :
    Except Failure (Fusion F) :=
  let key := recordIdentity item
  if !key.hashable then .error .other
  else if state.seen.any key.same then .ok state
  else
    let fused := if state.fused.any fun e => e.key.same key then state.fused
      else state.fused ++ [⟨key, item, 0⟩]
    .ok { fused := fused.map fun e =>
            if e.key.same key then { e with score := e.score + 1 / (rrfK + (rank + 1) : Nat) } else e
          seen := state.seen ++ [key] }

/-- The inner loop. -/
def fuseRanking (rrfK : Nat) (fused : List (Fused F)) (ranking : List (Item F)) :
    Except Failure (List (Fused F)) := do
  let state ← ranking.zipIdx.foldlM (fun state p => fuseItem rrfK state p.1 p.2) ⟨fused, []⟩
  return state.fused

/-- The order of the keys `(-score, text)`. -/
def rankLe (a b : F × Str) : Bool := if -a.1 == -b.1 then keyLe a.2 b.2 else decide (-a.1 < -b.1)

/-- `fuse_rankings`; `text` is `str(record_identity(item))`. -/
def fuseRankings (text : Identity F → Str) (dense sparse : List (Item F)) :
    Except Failure (List (Item F)) := do
  let fused ← fuseRanking 60 [] dense
  let fused ← fuseRanking 60 fused sparse
  return (fused.insertionSort fun a b => rankLe (a.score, text a.key) (b.score, text b.key) = true).map
    Fused.result

end Fusion

/-! ### The request and what surrounds it -/

variable {U F : Type}

/-- `get_scores(tokenize(query))` of a BM25 index. -/
abbrev Scorer (F : Type) := Str → Except Failure (List F)

structure VectorFilter where
  generation : Str
  documentIds : List Str

structure VectorMatch (F : Type) where
  document : Value F
  metadata : Value F
  distance : Value F

/-- The part of an authorization that pinned requests compare: the documents and their scopes. -/
structure Authorization (U : Type) where
  documents : List (U × Scope U)

/-- `replica.snapshot`. -/
structure Snapshot (U F : Type) where
  manifest : PublicationManifest U
  index : Option (Scorer F)

/-- Where a document's records stand in the manifest, and an index over them alone. -/
abbrev Isolated (F : Type) := List Nat × Option (Scorer F)

structure PinnedRequest (U F : Type) where
  snapshot : Snapshot U F
  documentIds : List U
  authorization : Option (Authorization U)
  sparseIndexes : Dict U (Isolated F)

structure PublicationReplica (U F : Type) where
  expectedVersion : Str
  snapshot : Option (Snapshot U F)
  sparseIndexes : Dict U (Isolated F)

/-- Where a request calls `validate_pin` and `pin`. -/
inductive Site where
  | pin | retrieve | citations | annotations | answer
deriving DecidableEq

/-- The answers of everything a request calls, at each place where it calls it. -/
structure Environment (U F : Type) where
  /-- `settings.authentication_mode == 'oidc_jwt'`. -/
  oidc : Bool
  /-- `reader.authority.active().generation`. -/
  active : Except Failure (Option U)
  /-- `reader.validate`. -/
  validate : Site → Except Failure Unit
  /-- `SecurityAuthority.revalidate`. -/
  revalidate : Site → Except Failure Unit
  /-- `vectors.similarity_search(encoder.embed(query), top_k, scope=scope)`. -/
  similaritySearch : Str → Nat → VectorFilter → Except Failure (List (VectorMatch F))
  reranker : Str → List (Item F) → Nat → Except Failure (Value F)
  /-- `str(record_identity(item))`. -/
  identityText : Identity F → Str
  /-- `deserialize(objects.read(scope, ref))`. -/
  readArtifact : Scope U → ObjectRef U → Except Failure (ExtractionArtifact U)
  /-- `objects.inspect`. -/
  inspect : Scope U → ObjectRef U → Nat → Except Failure Unit
  /-- The list that `annotations` makes of the digests. -/
  annotations : PinnedRequest U F → Except Failure Json

def provenanceInvalid : Failure := .publication .provenanceInvalid

section Replica

variable [DecidableEq U] (ids : Ids U) (env : Environment U F)

/-- `set(a) == set(b)`. -/
def sameSet (a b : List U) : Bool := a.all b.contains && b.all a.contains

/-- The comparison of an authorization with the documents of a request. -/
def covers (manifest : PublicationManifest U) (documentIds : List U) (auth : Authorization U) : Bool :=
  sameSet documentIds (auth.documents.map Prod.fst)
    && auth.documents.all fun d => d.2 == manifest.scope

/-- What `pin` asks of the caller, or of the whole generation where there is none. -/
def checkPin (manifest : PublicationManifest U) (documentIds : Option (List U)) :
    Option (Authorization U) → Except Failure Unit
  | none => env.validate .pin
  | some auth => do
    env.revalidate .pin
    if (documentIds.getD []).isEmpty || !covers manifest (documentIds.getD []) auth then
      .error .security
    else .ok ()

/-- `pin`. -/
def PublicationReplica.pin (replica : PublicationReplica U F) (documentIds : Option (List U))
    (authorization : Option (Authorization U)) : Except Failure (PinnedRequest U F) := do
  let active ← env.active
  match replica.snapshot, active with
  | some snapshot, some generation =>
    if ids.uuidStr generation ≠ replica.expectedVersion || snapshot.manifest.generation ≠ generation then
      .error (.publication .generationMismatch)
    else do
      checkPin env snapshot.manifest documentIds authorization
      let available := snapshot.manifest.documents.map AcceptedDocument.documentId
      let selected := (documentIds.getD available).dedup
      if documentIds.isSome && (selected.isEmpty || !selected.all available.contains) then
        .error (.publication .retrievalScopeInvalid)
      else .ok ⟨snapshot,
        selected.insertionSort fun a b => keyLe (ids.uuidStr a) (ids.uuidStr b) = true,
        authorization, replica.sparseIndexes⟩
  | _, _ => .error (.publication .generationMismatch)

/-- `validate_pin`. -/
def validatePin (site : Site) (pin : PinnedRequest U F) : Except Failure Unit :=
  match pin.authorization with
  | none => if env.oidc then .error .security else env.validate site
  | some auth => do
    env.revalidate site
    if !covers pin.snapshot.manifest pin.documentIds auth then .error .security
    else env.validate site

variable [Floats F]

/-! ### Retrieval -/

/-- The loop over the matches: every match is the vector of a selected record. -/
def denseHits (pin : PinnedRequest U F) : List (VectorMatch F) → Except Failure (List (Item F))
  | [] => .ok []
  | m :: rest => do
    let metadata ← m.metadata.asDict
    if !(metadata.get "record_id").hashable then .error .other
    else match recordOf ids pin.snapshot.manifest (metadata.get "record_id") with
    | none => .error provenanceInvalid
    | some record =>
      if record.documentId ∉ pin.documentIds || !m.document.isStr record.text
          || !m.metadata.isMetadata (vectorMetadata ids pin.snapshot.manifest record) then
        .error provenanceInvalid
      else match m.distance with
        | .number distance => do
          let hits ← denseHits pin rest
          if distance < 1 then
            return Dict.set (Dict.set metadata "text".toList m.document) "score".toList
              (.number (max 0 (1 - distance))) :: hits
          else return hits
        | _ => .error .other

/-- `manifest.records[i]` for every entry of a ranking. -/
def recordsAt (manifest : PublicationManifest U) (ranked : List (Nat × F)) :
    Except Failure (List (RetrievalRecord U × F)) :=
  ranked.mapM fun p => match manifest.records[p.1]? with
    | some record => .ok (record, p.2)
    | none => .error .other

/-- `sorted(ranked, key=lambda item: (-score, str(record_id)))`. -/
def sortRanked (ranked : List (RetrievalRecord U × F)) : List (RetrievalRecord U × F) :=
  ranked.insertionSort fun a b =>
    rankLe (a.2, ids.uuidStr a.1.recordId) (b.2, ids.uuidStr b.1.recordId) = true

/-- The positive scores of a document's own index, at the positions of its records. -/
def isolatedScores (query : Str) (isolated : Isolated F) : Except Failure (List (Nat × F)) :=
  match isolated.2 with
  | none => .ok []
  | some scorer => do
    let scores ← scorer query
    (scores.zipIdx.filter fun p => 0 < p.1).mapM fun p => match isolated.1[p.2]? with
      | some i => .ok (i, p.1)
      | none => .error .other

/-- The scores of the selected documents, each under its own index. -/
def authorizedScores (query : Str) (pin : PinnedRequest U F) : Except Failure (List (Nat × F)) :=
  pin.documentIds.foldlM (fun ranked doc => match pin.sparseIndexes.get? doc with
    | none => .error .other
    | some isolated => do return ranked ++ (← isolatedScores query isolated)) []

/-- The sparse hits: under the indexes of the documents, or under the index of the whole corpus. -/
def sparseHits (query : Str) (pin : PinnedRequest U F) (topK : Nat) :
    Except Failure (List (Item F)) := do
  let manifest := pin.snapshot.manifest
  let item := fun (p : RetrievalRecord U × F) => recordItem ids manifest p.1 p.2
  if pin.authorization.isSome then
    let ranked ← authorizedScores query pin
    let ranked ← recordsAt manifest ranked
    return ((sortRanked ids ranked).take topK).map item
  else match pin.snapshot.index with
    | none => return []
    | some scorer => do
      let scores ← scorer query
      let selected := manifest.records.zipIdx.filter fun p => decide (p.1.documentId ∈ pin.documentIds)
      let ranked ← selected.mapM fun p => match scores[p.2]? with
        | some score => .ok (p.1, score)
        | none => .error .other
      return (((sortRanked ids ranked).take topK).filter fun p => 0 < p.2).map item

/-- Reranking may change score and order only, never authority. -/
def vouched (pin : PinnedRequest U F) (item : Item F) : Bool :=
  match recordOf ids pin.snapshot.manifest (item.get "record_id") with
  | none => false
  | some record => decide (record.documentId ∈ pin.documentIds)
      && (item.get "text").isStr record.text
      && (vectorMetadata ids pin.snapshot.manifest record).all fun m =>
        ((Dict.get? item m.1).getD .none).isStr m.2

/-- The checks on what the reranker returned for `fused`. -/
def checkRanked (pin : PinnedRequest U F) (fused : List (Item F)) (topK : Nat) (result : Value F) :
    Except Failure (List (Item F)) := do
  let elements ← result.elements
  if topK < elements.length then .error provenanceInvalid
  else do
    let items ← elements.mapM Value.asDict
    let keys := items.map fun item => item.get "record_id"
    let permitted := fused.map fun item => item.get "record_id"
    if !keys.all Value.hashable then .error .other
    else if ¬keys.Pairwise (fun a b => a.same b = false)
        || !keys.all (fun key => permitted.any fun p => p.same key) then .error provenanceInvalid
    else if !items.all (vouched ids pin) then .error provenanceInvalid
    else .ok items

/-- `retrieve`. -/
def retrieve (query : Str) (pin : PinnedRequest U F) (topK : Nat) : Except Failure (List (Item F)) :=
  if pin.documentIds.isEmpty then .ok []
  else if topK < 1 ∨ 32 < topK then .error (.publication .retrievalScopeInvalid)
  else do
    validatePin env .retrieve pin
    let scope := ⟨ids.uuidStr pin.snapshot.manifest.generation, pin.documentIds.map ids.uuidStr⟩
    let matched ← env.similaritySearch query topK scope
    let dense ← denseHits ids pin matched
    let sparse ← sparseHits ids query pin topK
    let fused ← fuseRankings env.identityText dense sparse
    if fused.isEmpty then .ok []
    else do
      let result ← env.reranker query fused topK
      checkRanked ids pin fused topK result

/-! ### Citations -/

structure Citation (U : Type) where
  citationId : Str
  generation : U
  recordId : U
  documentId : U
  documentVersionId : U
  extractionId : U
  displaySource : Str
  physicalPage : Option Nat
  span : Span
  structuralPath : List Str
  excerpt : Str
deriving DecidableEq

def Citation.modelDump (c : Citation U) : Json :=
  .record [("citation_id", .str c.citationId), ("generation", ids.uuidJson c.generation),
    ("record_id", ids.uuidJson c.recordId), ("document_id", ids.uuidJson c.documentId),
    ("document_version_id", ids.uuidJson c.documentVersionId),
    ("extraction_id", ids.uuidJson c.extractionId), ("display_source", .str c.displaySource),
    ("physical_page", .option .nat c.physicalPage), ("span", c.span.modelDump),
    ("structural_path", .arr (c.structuralPath.map .str)), ("excerpt", .str c.excerpt),
    ("provenance", .text "validated"), ("semantic_support", .text "not_evaluated")]

/-- The state of the loop of `citations`: the artifacts indexed so far, and the citations. -/
structure Cited (U : Type) where
  indexes : Dict U (ExtractionArtifact U)
  citations : List (Citation U)

/-- The artifact of a document, read and checked at its first citation. -/
def loadIndex (indexes : Dict U (ExtractionArtifact U)) (d : AcceptedDocument U) :
    Except Failure (Dict U (ExtractionArtifact U)) :=
  if indexes.has d.documentId then .ok indexes
  else do
    let artifact ← env.readArtifact d.scope d.extraction
    if artifact.extractionId ≠ d.extractionId || artifact.document.documentId ≠ d.documentId then
      .error provenanceInvalid
    else do
      env.inspect d.scope artifact.document.source artifact.maxSourceBytes
      return indexes.set d.documentId artifact

/-- `f'C{n}'`. -/
def citationLabel (n : Nat) : Str := 'C' :: natText n

/-- The citation of a record, from its document and the artifact; the model bounds two of its
fields. -/
def cite (manifest : PublicationManifest U) (record : RetrievalRecord U) (d : AcceptedDocument U)
    (artifact : ExtractionArtifact U) (count : Nat) : Except Failure (Citation U) :=
  match resolve artifact record.evidence, (blockIndex artifact).get? record.evidence.blockId with
  | .ok excerpt, some (unit, _) =>
    if excerpt ≠ record.text then .error provenanceInvalid
    else if 512 < artifact.document.displayFilename.length || 4096 < excerpt.length then .error .other
    else .ok ⟨citationLabel (count + 1), manifest.generation, record.recordId, d.documentId,
      d.documentVersionId, d.extractionId, artifact.document.displayFilename, unit.physicalPage,
      record.evidence.span, record.structuralPath, excerpt⟩
  | _, _ => .error .other

/-- The body of the loop of `citations`. -/
def citeItem (pin : PinnedRequest U F) (state : Cited U) (item : Item F) :
    Except Failure (Cited U) := do
  let manifest := pin.snapshot.manifest
  let docs := Dict.ofList (manifest.documents.map fun d => (d.documentId, d))
  match recordOf ids manifest (item.get "record_id") with
  | none => .error provenanceInvalid
  | some record =>
    if record.documentId ∉ pin.documentIds
        || !(item.get "generation").isStr (ids.uuidStr manifest.generation)
        || !(item.get "text").isStr record.text then .error provenanceInvalid
    else match docs.get? record.documentId with
      | none => .error .other
      | some d => do
        let indexes ← loadIndex env state.indexes d
        match indexes.get? d.documentId with
        | none => .error .other
        | some artifact => do
          let citation ← cite manifest record d artifact state.citations.length
          return ⟨indexes, state.citations ++ [citation]⟩

/-- `citations`: inside the loop every exception becomes a `PublicationError`. -/
def citations (pin : PinnedRequest U F) (results : List (Item F)) :
    Except Failure (List (Citation U)) := do
  validatePin env .citations pin
  match results.foldlM (citeItem ids env pin) ⟨[], []⟩ with
  | .ok state => .ok state.citations
  | .error (.publication category) => .error (.publication category)
  | .error _ => .error provenanceInvalid

end Replica

end Polymind.Publication
