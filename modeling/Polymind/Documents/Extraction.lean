import Polymind.Documents.Models
import Polymind.Documents.Storage

/-!
# Extraction

`documents/extraction.py` with `documents/policy.py`: verified bytes become an artifact.  A stream
holds its bytes and does not fail.  The parser of pages is arbitrary; what the store answers to a
`put` is arbitrary too, but for the reference it returns (`PutArgs.ref`).

Timestamps are given and aware.
-/

namespace Polymind.Documents

open Json Storage

variable {U : Type}

/-! ### Requests -/

/-- `ExtractionSettings`. -/
structure ExtractionSettings where
  maxSourceBytes : Nat
  maxPages : Nat
  maxCharacters : Nat
  maxBlocks : Nat
  maxArtifactBytes : Nat
  maxSourceBytes_pos : 0 < maxSourceBytes
  maxPages_pos : 0 < maxPages
  maxCharacters_pos : 0 < maxCharacters
  maxBlocks_pos : 0 < maxBlocks
  maxArtifactBytes_pos : 0 < maxArtifactBytes

structure ParsedPage where
  ordinal : Nat
  text : Str := []
  label : Option Str := none
  width : Option ℚ := none
  height : Option ℚ := none
  rotation : Option Int := none
  hasImages : Option Bool := none
  hasGraphics : Option Bool := none
  failed : Bool := false

/-- `ParserRunner`. -/
structure ParserRunner where
  version : Str
  parse : Bytes → ExtractionSettings → Except Thrown (List ParsedPage)

/-- The arguments of `extract`, but for the stream, the store and the runner. -/
structure ExtractArgs (U : Type) where
  scope : Scope U
  documentId : U
  displayFilename : Str
  declaredMime : Str
  limits : ExtractionSettings
  createdAt : Aware
  extractedAt : Aware
  expectedSha256 : Option Str
  structureRequired : Bool

/-! ### The policy -/

/-- `decide` of `documents/policy.py`. -/
def Policy.decide (sourceId : U) (o : Observations) : Decision U :=
  let decision (outcome : DecisionOutcome) (nextTier : NextTier) (reason : DecisionReason) : Decision U :=
    ⟨sourceId, o, outcome, nextTier, reason⟩
  if o.parserFailed then decision .failed .none .parserFailure
  else if !o.hasNativeText && o.hasImages == some true then
    decision .ocrRequired .ocr .imageWithoutText
  else if 0 < o.replacementRatio || (o.hasNativeText && o.printableRatio < 1) then
    decision .manualReview .none .unusableText
  else if o.hasNativeText && o.structureRequired then
    decision .layoutRequired .layout .structureRequested
  else if o.hasNativeText then decision .nativeAccepted .native .nativeText
  else if o.hasGraphics ≠ some false then decision .manualReview .none .unresolvedGraphics
  else decision .nativeAccepted .native .blank

/-! ### Bytes -/

/-- The loop of `_bounded_read`: `data` is read, `rest` is left in the stream. -/
def boundedReadFrom (limit : Nat) (data rest : Bytes) : Except Category Bytes :=
  let chunk := rest.take (min 65536 (limit - data.length + 1))
  if _h : rest = [] then .ok data
  else if limit < (data ++ chunk).length then .error .sourceTooLarge
  else boundedReadFrom limit (data ++ chunk) (rest.drop chunk.length)
termination_by rest.length
decreasing_by
  have hpos : 0 < rest.length := List.length_pos_of_ne_nil _h
  simp only [List.length_drop, List.length_take]
  omega

/-- `_bounded_read`. -/
def boundedRead (stream : Bytes) (limit : Nat) : Except Category Bytes := boundedReadFrom limit [] stream

/-- The parts of `PurePosixPath(path)`, and the last of them. -/
def pathName (path : Str) : Str :=
  ((path.splitOn '/').filter fun part => part ≠ [] && part ≠ ['.']).getLastD []

/-- `PurePosixPath(path).suffix`. -/
def pathSuffix (path : Str) : Str :=
  let name := pathName path
  match Text.rfind '.' name 0 name.length with
  | some i => if 0 < i && i < name.length - 1 then name.drop i else []
  | none => []

/-- `.get(suffix)`.  No other character than those of ASCII becomes one of these by `lower`. -/
def extensionMime (suffix : Str) : Option Mime :=
  if suffix.map Char.toLower = ".pdf".toList then some .applicationPdf
  else if suffix.map Char.toLower = ".txt".toList then some .textPlain
  else none

/-- `b"%PDF-"`. -/
def pdfMagic : Bytes := [37, 80, 68, 70, 45]

/-- `_format`. -/
def format (data : Bytes) (filename declaredMime : Str) : Except Category Mime :=
  if data = [] then .error .invalidDocument
  else
    let detected : Mime := if pdfMagic.isPrefixOf data then .applicationPdf else .textPlain
    let suffix := pathSuffix (filename.map fun c => if c = '\\' then '/' else c)
    if declaredMime ≠ detected.text || (suffix ≠ [] && extensionMime suffix ≠ some detected) then
      .error .unsupportedFormat
    else .ok detected

/-- `data.decode("utf-8", errors="strict")`. -/
def decodeUtf8 (data : Bytes) : Option Str := (String.fromUTF8? ⟨data.toArray⟩).map String.toList

/-- `text.encode("utf-8")`. -/
def encodeUtf8 (text : Str) : Bytes := (String.ofList text).toUTF8.data.toList

/-! ### Units -/

/-- What `_unit` raises: the limit, or the `ValidationError` of a model. -/
inductive UnitError where
  | limit | validation
deriving DecidableEq

/-- `pieces`: the LF-delimited lines of a plain text, or the one block of a page. -/
def pieces (plainText : Bool) (text : Str) : List Str :=
  if plainText then
    let parts := text.splitOn '\n'
    parts.zipIdx.map fun p => p.1 ++ if p.2 < parts.length - 1 then ['\n'] else []
  else if text = [] then [] else [text]

section

variable (ids : Ids U) (extractionId sourceId : U) (maxBlocks : Nat) (plainText : Bool)

/-- The block at an index and an offset. -/
def blockAt (index offset : Nat) (piece : Str) : Block U :=
  let line := if plainText then some (index + 1) else none
  { blockId := ids.stableId [ids.uuidStr extractionId, ids.uuidStr sourceId, natText index]
    sourceId, kind := .text, readingOrder := index, sourceText := piece
    span := ⟨offset, offset + piece.length, line, line⟩
    normalizedText := none, geometry := none, parentId := none, childIds := [], visual := none }

/-- `text.count("\n") + (not text.endswith("\n"))`. -/
def lineCount (text : Str) : Nat :=
  text.count '\n' + if text.getLast? = some '\n' then 0 else 1

/-- The body of the loop of `_unit`, on the blocks so far and the offset. -/
def addPiece (state : List (Block U) × Nat) (piece : Str) : Except UnitError (List (Block U) × Nat) :=
  if piece = [] then .ok state
  else if maxBlocks ≤ state.1.length then .error .limit
  else .ok (state.1 ++ [blockAt ids extractionId sourceId plainText state.1.length state.2 piece],
    state.2 + piece.length)

end

/-- The observations of `_unit`. -/
def observe (ids : Ids U) (page : ParsedPage) (structureRequired : Bool) (blockCount : Nat) :
    Observations :=
  { characterCount := page.text.length, hasNativeText := Text.hasText page.text
    printableRatio := if page.text.isEmpty then 1 else
      ids.divide (page.text.countP fun c => ids.isPrintable c || c == '\r' || c == '\n' || c == '\t')
        page.text.length
    replacementRatio := if page.text.isEmpty then 0 else
      ids.divide (page.text.count '\ufffd') page.text.length
    hasImages := page.hasImages, hasGraphics := page.hasGraphics, parserFailed := page.failed
    structureRequired, blockCount }

/-- The status of `_unit`. -/
def statusOf (page : ParsedPage) : UnitStatus :=
  if page.failed then .failed
  else if Text.hasText page.text then .nativeText
  else if page.hasImages = some true then .imageOnly
  else if page.hasGraphics ≠ some false then .unresolved
  else .blank

/-- `source_id` of `_unit`. -/
def sourceIdOf (ids : Ids U) (versionId : U) (plainText : Bool) (page : ParsedPage) : U :=
  ids.stableId [ids.uuidStr versionId,
    if plainText then "text".toList else "page:".toList ++ natText page.ordinal]

section

variable (ids : Ids U) (versionId extractionId : U) (parserVersion : Str)
  (structureRequired plainText : Bool) (page : ParsedPage)

/-- The `TextUnit` that `_unit` constructs. -/
def textUnit (blocks : List (Block U)) : TextUnit U :=
  let sourceId := sourceIdOf ids versionId plainText page
  { sourceId, documentVersionId := versionId
    physicalPage := if plainText then none else some page.ordinal
    printedLabel := page.label, width := page.width, height := page.height, rotation := page.rotation
    status := statusOf page, method := .native, parserVersion, text := page.text, blocks
    decision := Policy.decide sourceId (observe ids page structureRequired blocks.length)
    ocrEngine := none, ocrModelVersion := none, ocrConfidence := none }

/-- `_unit`. -/
def unitOf [DecidableEq U] (maxBlocks : Nat) : Except UnitError (TextUnit U) :=
  if plainText && maxBlocks < lineCount page.text then .error .limit
  else do
    let (blocks, _) ← (pieces plainText page.text).foldlM
      (addPiece ids extractionId (sourceIdOf ids versionId plainText page) maxBlocks plainText) ([], 0)
    let unit := textUnit ids versionId parserVersion structureRequired plainText page blocks
    if unit.fieldsValid ids then .ok unit else .error .validation

end

/-! ### `extract` -/

variable [DecidableEq U] (env : StoreEnv U) (args : ExtractArgs U)

/-- The text of a plain document, with the checks on it. -/
def plainPages (limits : ExtractionSettings) (data : Bytes) : Except Category (List ParsedPage) :=
  match decodeUtf8 data with
  | none => .error .invalidDocument
  | some text =>
    if !Text.hasText text || text.any fun c => c.toNat < 32 && c ∉ ['\r', '\n', '\t'] then
      .error .invalidDocument
    else if limits.maxCharacters < text.length then .error .extractionLimitExceeded
    else .ok [{ ordinal := 1, text, hasImages := some false, hasGraphics := some false }]

/-- The pages of the parser, with the checks on them. -/
def parsedPages (runner : ParserRunner) (limits : ExtractionSettings) (data : Bytes) :
    Except Raised (List ParsedPage) :=
  match runner.parse data limits with
  | .error (.documentError category) => .error (.documentError category)
  | .error .exception => .error (.documentError .extractionFailed)
  | .error .baseException => .error .baseException
  | .ok pages =>
    if pages = [] then .error (.documentError .invalidDocument)
    else if limits.maxPages < pages.length then .error (.documentError .pageLimitExceeded)
    else if pages.map ParsedPage.ordinal ≠ List.range' 1 pages.length then
      .error (.documentError .extractionFailed)
    else .ok pages

/-- A `DocumentError` that is raised. -/
def raiseCategory {α : Type} : Except Category α → Except Raised α
  | .ok a => .ok a
  | .error category => .error (.documentError category)

/-- `pages` and `parser_version`. -/
def readPages (runner : ParserRunner) (limits : ExtractionSettings) (data : Bytes) :
    Mime → Except Raised (List ParsedPage × Str)
  | .textPlain => do
    let pages ← raiseCategory (plainPages limits data)
    return (pages, "utf8-strict/1".toList)
  | .applicationPdf => do
    let pages ← parsedPages runner limits data
    return (pages, runner.version)

/-- `version_id`. -/
def versionIdOf (data : Bytes) : U :=
  env.stableId [args.scope.identity env.toIds, env.uuidStr args.documentId, env.hexdigest data]

/-- `extraction_identity`, where there is no artifact yet. -/
def extractionIdOf (data : Bytes) (parserVersion : Str) : U :=
  env.stableId [args.scope.identity env.toIds, env.uuidStr (versionIdOf env args data),
    "extraction/1".toList, "native/1".toList, "identity/1".toList, "native-policy/1".toList,
    parserVersion, args.extractedAt.utcIso, natText args.limits.maxSourceBytes,
    natText args.limits.maxPages, natText args.limits.maxCharacters, natText args.limits.maxBlocks,
    boolText args.structureRequired]

/-- What `extract` has made when it publishes the source. -/
structure Extracted (U : Type) where
  data : Bytes
  detected : Mime
  parserVersion : Str
  pages : List ParsedPage
  units : List (TextUnit U)

/-- `units`. -/
def unitsOf (data : Bytes) (detected : Mime) (parserVersion : Str) (pages : List ParsedPage) :
    Except UnitError (List (TextUnit U)) :=
  pages.mapM fun page => unitOf env.toIds (versionIdOf env args data)
    (extractionIdOf env args data parserVersion) parserVersion args.structureRequired
    (detected = .textPlain) page args.limits.maxBlocks

/-- `extract`, up to the first `store.put`. -/
def extracted (runner : ParserRunner) (stream : Bytes) : Except Raised (Extracted U) :=
  if 512 < args.displayFilename.length then .error (.documentError .invalidDocument)
  else do
    let data ← raiseCategory (boundedRead stream args.limits.maxSourceBytes)
    if args.expectedSha256.any fun expected => expected ≠ env.hexdigest data then
      .error (.documentError .integrityError)
    else do
      let detected ← raiseCategory (format data args.displayFilename args.declaredMime)
      let (pages, parserVersion) ← readPages runner args.limits data detected
      if args.limits.maxCharacters < (pages.map fun page => page.text.length).sum then
        .error (.documentError .extractionLimitExceeded)
      else
        match unitsOf env args data detected parserVersion pages with
        | .error .limit => .error (.documentError .extractionLimitExceeded)
        | .error .validation => .error (.documentError .extractionFailed)
        | .ok units =>
          if args.limits.maxBlocks < (units.map fun unit => unit.blocks.length).sum then
            .error (.documentError .extractionLimitExceeded)
          else .ok ⟨data, detected, parserVersion, pages, units⟩

/-- The `put` of the source. -/
def sourceArgs (data : Bytes) : PutArgs U :=
  ⟨args.scope, .source, versionIdOf env args data, args.limits.maxSourceBytes, some (env.hexdigest data)⟩

/-- The artifact that is constructed. -/
def artifactOf (e : Extracted U) : ExtractionArtifact U :=
  { document :=
      { documentId := args.documentId, documentVersionId := versionIdOf env args e.data
        scope := args.scope, source := (sourceArgs env args e.data).ref env e.data
        displayFilename := args.displayFilename, declaredMime := args.declaredMime
        detectedMime := e.detected
        pageCount := if e.detected = .applicationPdf then some e.pages.length else none
        language := none, languageConfidence := none, createdAt := args.createdAt }
    extractionId := extractionIdOf env args e.data e.parserVersion, parserVersion := e.parserVersion
    extractedAt := args.extractedAt, maxSourceBytes := args.limits.maxSourceBytes
    maxPages := args.limits.maxPages, maxCharacters := args.limits.maxCharacters
    maxBlocks := args.limits.maxBlocks, structureRequired := args.structureRequired, units := e.units }

/-- `extract`; `put` is what the store does. -/
def extract (runner : ParserRunner) (put : PutArgs U → Bytes → Except Raised Unit) (stream : Bytes) :
    Except Raised (ExtractionArtifact U × ObjectRef U) := do
  let e ← extracted env args runner stream
  put (sourceArgs env args e.data) e.data
  let artifact := artifactOf env args e
  if !artifact.valid env.toIds then .error (.documentError .extractionFailed)
  else
    let encoded := encodeUtf8 (serialize env.toIds artifact)
    if args.limits.maxArtifactBytes < encoded.length then
      .error (.documentError .extractionLimitExceeded)
    else do
      let target : PutArgs U := ⟨args.scope, .artifact, artifact.extractionId,
        args.limits.maxArtifactBytes, some (env.hexdigest encoded)⟩
      put target encoded
      return (artifact, target.ref env encoded)

end Polymind.Documents
