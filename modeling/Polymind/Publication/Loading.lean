import Polymind.Publication.Authority
import Polymind.Publication.Retrieval

/-!
# Loading a replica

`PublicationReplica.load` of `documents/publication/retrieval.py` and `tokenize` of `rag/bm25.py`.

`Bm25` holds what comes from outside the repository: `str.lower`, the word characters of `re`, and
`BM25Okapi`, an arbitrary function of the token lists it is given, then of the tokens of the query.
-/

namespace Polymind.Publication

open Documents Digestion

structure Bm25 (F : Type) where
  /-- `str.lower`. -/
  lower : Str → Str
  /-- The characters of `\w`, between which `\b` never matches. -/
  isWord : Char → Bool
  /-- `BM25Okapi(tokens).get_scores(query)`; building the index may raise too. -/
  build : List (List Str) → Except Failure (List Str → Except Failure (List F))

/-- `STOPWORDS`. -/
def stopwords : List Str :=
  ["a", "an", "the", "is", "are", "was", "were", "what", "who", "when", "where", "why", "how", "of",
    "to", "for", "in", "on", "at", "and", "or", "with", "about"].map String.toList

variable {U F : Type}

/-- `tokenize`.  A match of `\b[a-zA-Z0-9]+\b` is a maximal run of word characters that are all
letters and digits of ASCII. -/
def Bm25.tokenize (bm25 : Bm25 F) (text : Str) : List Str :=
  ((bm25.lower text).splitOnP fun c => !bm25.isWord c).filter fun token =>
    !token.isEmpty && token.all Char.isAlphanum && !stopwords.contains token

/-- `BM25Okapi(tokens) if any(tokens) else None`, as what it makes of a query. -/
def Bm25.index (bm25 : Bm25 F) (tokens : List (List Str)) : Except Failure (Option (Scorer F)) :=
  if tokens.any fun t => !t.isEmpty then do
    let scores ← bm25.build tokens
    return some fun query => scores (bm25.tokenize query)
  else return none

/-- The answers of everything `load` calls. -/
structure Startup (U : Type) where
  /-- `reader.authority.active()`, before and after. -/
  active : Except Failure (ActivePublication U)
  activeAfter : Except Failure (ActivePublication U)
  /-- `reader.validate`. -/
  validate : Option U → Except Failure (PublicationManifest U)

variable [DecidableEq U] (ids : Ids U) (bm25 : Bm25 F)

/-- `str(active.generation)`. -/
def generationText : Option U → Str
  | none => "None".toList
  | some generation => ids.uuidStr generation

/-- Where the records of a document stand in the manifest. -/
def positions (manifest : PublicationManifest U) (doc : U) : List Nat :=
  (manifest.records.zipIdx.filter fun p => p.1.documentId = doc).map Prod.snd

/-- The entry of `isolated` for a document. -/
def isolate (manifest : PublicationManifest U) (doc : U) : Except Failure (Isolated F) := do
  let corpus := manifest.records.map fun r => bm25.tokenize r.text
  let tokens := (positions manifest doc).map fun i => corpus[i]?.getD []
  return (positions manifest doc, ← bm25.index tokens)

/-- `load`. -/
def PublicationReplica.load (startup : Startup U) (replica : PublicationReplica U F) :
    Except Failure (PublicationReplica U F) := do
  let active ← startup.active
  if generationText ids active.generation ≠ replica.expectedVersion then
    .error (.publication .generationMismatch)
  else do
    let manifest ← startup.validate active.generation
    let index ← bm25.index (manifest.records.map fun r => bm25.tokenize r.text)
    let isolated ← manifest.documents.mapM fun d => do
      return (d.documentId, ← isolate bm25 manifest d.documentId)
    let after ← startup.activeAfter
    if after ≠ active then .error (.publication .generationMismatch)
    else return { replica with
      snapshot := some ⟨manifest, index⟩, sparseIndexes := Dict.ofList isolated }

end Polymind.Publication
