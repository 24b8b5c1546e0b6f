import Polymind.Documents.Ids
import Polymind.Lib.Text

/-!
# Extraction artifacts

The immutable models of `documents/models.py`: spans, blocks, text units, documents and the
extraction artifact with `validate_graph`, and the bytes `documents/serialization.py` writes for it.
Offsets are half-open intervals of code points.  Each `valid` is `model_validate`: the constraints
of the fields and the model's own validator.
-/

namespace Polymind.Documents

open Json

variable {U : Type}

/-- An aware datetime, by the two texts the code takes of it: the JSON one and
`astimezone(timezone.utc).isoformat()`. -/
structure Aware where
  json : Str
  utcIso : Str
deriving DecidableEq

def floatJson (ids : Ids U) (x : ℚ) : Json := .float (ids.floatRepr x)

/-! ### Documents -/

structure Document (U : Type) where
  documentId : U
  documentVersionId : U
  scope : Scope U
  source : ObjectRef U
  displayFilename : Str
  declaredMime : Str
  detectedMime : Mime
  pageCount : Option Nat
  language : Option Str
  languageConfidence : Option ℚ
  createdAt : Aware
deriving DecidableEq

/-- A fraction between 0 and 1. -/
def isRatio (x : ℚ) : Bool := 0 ≤ x && x ≤ 1

/-- Field constraints and `Document.lineage`. -/
def Document.valid [DecidableEq U] (ids : Ids U) (d : Document U) : Bool :=
  let expected := ids.stableId [d.scope.identity ids, ids.uuidStr d.documentId, d.source.sha256]
  d.source.valid ids && d.displayFilename.length ≤ 512 && d.pageCount.all (1 ≤ ·)
    && d.languageConfidence.all isRatio
    && d.source.scope == d.scope && d.source.kind == .source
    && d.documentVersionId == expected && d.source.objectId == expected
    && decide (d.detectedMime = .applicationPdf) == d.pageCount.isSome

def Document.modelDump (ids : Ids U) (d : Document U) : Json :=
  .record [("schema_version", .text "document/1"), ("document_id", ids.uuidJson d.documentId),
    ("document_version_id", ids.uuidJson d.documentVersionId), ("scope", d.scope.modelDump ids),
    ("source", d.source.modelDump ids), ("display_filename", .str d.displayFilename),
    ("declared_mime", .str d.declaredMime), ("detected_mime", .str d.detectedMime.text),
    ("page_count", .option .nat d.pageCount), ("language", .option .str d.language),
    ("language_confidence", .option (floatJson ids) d.languageConfidence),
    ("created_at", .str d.createdAt.json)]

/-! ### Blocks -/

structure Span where
  start : Nat
  stop : Nat
  lineStart : Option Nat
  lineEnd : Option Nat
deriving DecidableEq

/-- Field constraints and `Span.ordered`. -/
def Span.valid (s : Span) : Bool :=
  s.start ≤ s.stop && s.lineStart.all (1 ≤ ·) && s.lineEnd.all (1 ≤ ·)
    && s.lineStart.isNone == s.lineEnd.isNone
    && match s.lineStart, s.lineEnd with
      | some a, some b => a ≤ b
      | _, _ => true

def Span.modelDump (s : Span) : Json :=
  .record [("start", .nat s.start), ("end", .nat s.stop), ("line_start", .option .nat s.lineStart),
    ("line_end", .option .nat s.lineEnd)]

inductive GeometryUnits where
  | points | pixels | relative
deriving DecidableEq

inductive GeometryOrigin where
  | topLeft | bottomLeft
deriving DecidableEq

structure Geometry where
  coordinates : List ℚ
  units : GeometryUnits
  origin : GeometryOrigin
deriving DecidableEq

def Geometry.modelDump (ids : Ids U) (g : Geometry) : Json :=
  .record [("coordinates", .arr (g.coordinates.map (floatJson ids))),
    ("units", .text (match g.units with
      | .points => "points" | .pixels => "pixels" | .relative => "relative")),
    ("origin", .text (match g.origin with
      | .topLeft => "top_left" | .bottomLeft => "bottom_left"))]

inductive VisualState where
  | unparsed | unsupported | parsed
deriving DecidableEq

structure Visual (U : Type) where
  state : VisualState
  caption : Option Str
  cells : Option (List (List Str))
  image : Option (ObjectRef U)
deriving DecidableEq

def cellsJson (cells : Option (List (List Str))) : Json :=
  .option (fun rows => .arr (rows.map fun row => .arr (row.map .str))) cells

def Visual.modelDump (ids : Ids U) (v : Visual U) : Json :=
  .record [("state", .text (match v.state with
      | .unparsed => "unparsed" | .unsupported => "unsupported" | .parsed => "parsed")),
    ("caption", .option .str v.caption), ("cells", cellsJson v.cells),
    ("image", .option (ObjectRef.modelDump ids) v.image)]

inductive BlockKind where
  | text | paragraph | heading | table | figure | caption | unknown
deriving DecidableEq

def BlockKind.name : BlockKind → Str
  | .text => "text".toList
  | .paragraph => "paragraph".toList
  | .heading => "heading".toList
  | .table => "table".toList
  | .figure => "figure".toList
  | .caption => "caption".toList
  | .unknown => "unknown".toList

structure Block (U : Type) where
  blockId : U
  sourceId : U
  kind : BlockKind
  readingOrder : Nat
  sourceText : Str
  span : Span
  normalizedText : Option Str
  geometry : Option Geometry
  parentId : Option U
  childIds : List U
  visual : Option (Visual U)
deriving DecidableEq

def Block.fieldsValid [DecidableEq U] (ids : Ids U) (b : Block U) : Bool :=
  b.span.valid && b.visual.all fun v => v.image.all (ObjectRef.valid ids)

def Block.modelDump (ids : Ids U) (b : Block U) : Json :=
  .record [("block_id", ids.uuidJson b.blockId), ("source_id", ids.uuidJson b.sourceId),
    ("kind", .str b.kind.name), ("reading_order", .nat b.readingOrder),
    ("source_text", .str b.sourceText), ("span", b.span.modelDump),
    ("normalized_text", .option .str b.normalizedText),
    ("geometry", .option (Geometry.modelDump ids) b.geometry),
    ("parent_id", .option ids.uuidJson b.parentId), ("child_ids", ids.uuidsJson b.childIds),
    ("visual", .option (Visual.modelDump ids) b.visual)]

/-! ### Text units -/

structure Observations where
  characterCount : Nat
  printableRatio : ℚ
  replacementRatio : ℚ
  hasNativeText : Bool
  hasImages : Option Bool
  hasGraphics : Option Bool
  parserFailed : Bool
  structureRequired : Bool
  blockCount : Nat
deriving DecidableEq

def Observations.modelDump (ids : Ids U) (o : Observations) : Json :=
  .record [("character_count", .nat o.characterCount),
    ("printable_ratio", floatJson ids o.printableRatio),
    ("replacement_ratio", floatJson ids o.replacementRatio), ("has_native_text", .bool o.hasNativeText),
    ("has_images", .option .bool o.hasImages), ("has_graphics", .option .bool o.hasGraphics),
    ("parser_failed", .bool o.parserFailed), ("structure_required", .bool o.structureRequired),
    ("block_count", .nat o.blockCount)]

inductive DecisionOutcome where
  | nativeAccepted | layoutRequired | ocrRequired | unsupported | failed | manualReview
deriving DecidableEq

def DecisionOutcome.text : DecisionOutcome → Str
  | .nativeAccepted => "native_accepted".toList
  | .layoutRequired => "layout_required".toList
  | .ocrRequired => "ocr_required".toList
  | .unsupported => "unsupported".toList
  | .failed => "failed".toList
  | .manualReview => "manual_review".toList

inductive NextTier where
  | native | layout | ocr | none
deriving DecidableEq

def NextTier.text : NextTier → Str
  | .native => "native".toList
  | .layout => "layout".toList
  | .ocr => "ocr".toList
  | .none => "none".toList

inductive DecisionReason where
  | nativeText | blank | imageWithoutText | structureRequested | unusableText | parserFailure
  | unresolvedGraphics
deriving DecidableEq

def DecisionReason.text : DecisionReason → Str
  | .nativeText => "native_text".toList
  | .blank => "blank".toList
  | .imageWithoutText => "image_without_text".toList
  | .structureRequested => "structure_requested".toList
  | .unusableText => "unusable_text".toList
  | .parserFailure => "parser_failure".toList
  | .unresolvedGraphics => "unresolved_graphics".toList

structure Decision (U : Type) where
  sourceId : U
  observations : Observations
  outcome : DecisionOutcome
  nextTier : NextTier
  reason : DecisionReason
deriving DecidableEq

def Decision.modelDump (ids : Ids U) (d : Decision U) : Json :=
  .record [("source_id", ids.uuidJson d.sourceId), ("policy_version", .text "native-policy/1"),
    ("observations", d.observations.modelDump ids), ("outcome", .str d.outcome.text),
    ("next_tier", .str d.nextTier.text), ("reason", .str d.reason.text)]

inductive UnitStatus where
  | nativeText | blank | imageOnly | unresolved | failed
deriving DecidableEq

def UnitStatus.text : UnitStatus → Str
  | .nativeText => "native_text".toList
  | .blank => "blank".toList
  | .imageOnly => "image_only".toList
  | .unresolved => "unresolved".toList
  | .failed => "failed".toList

inductive ExtractionMethod where
  | native | ocr | layout
deriving DecidableEq

def ExtractionMethod.text : ExtractionMethod → Str
  | .native => "native".toList
  | .ocr => "ocr".toList
  | .layout => "layout".toList

structure TextUnit (U : Type) where
  sourceId : U
  documentVersionId : U
  physicalPage : Option Nat
  printedLabel : Option Str
  width : Option ℚ
  height : Option ℚ
  rotation : Option Int
  status : UnitStatus
  method : ExtractionMethod
  parserVersion : Str
  text : Str
  blocks : List (Block U)
  decision : Decision U
  ocrEngine : Option Str
  ocrModelVersion : Option Str
  ocrConfidence : Option ℚ
deriving DecidableEq

def TextUnit.fieldsValid [DecidableEq U] (ids : Ids U) (u : TextUnit U) : Bool :=
  u.physicalPage.all (1 ≤ ·) && u.width.all (0 < ·) && u.height.all (0 < ·)
    && u.ocrConfidence.all isRatio && isRatio u.decision.observations.printableRatio
    && isRatio u.decision.observations.replacementRatio && u.blocks.all (Block.fieldsValid ids)

def TextUnit.modelDump (ids : Ids U) (u : TextUnit U) : Json :=
  .record [("source_id", ids.uuidJson u.sourceId),
    ("document_version_id", ids.uuidJson u.documentVersionId),
    ("physical_page", .option .nat u.physicalPage), ("printed_label", .option .str u.printedLabel),
    ("width", .option (floatJson ids) u.width), ("height", .option (floatJson ids) u.height),
    ("rotation", .option .int u.rotation), ("status", .str u.status.text),
    ("method", .str u.method.text), ("parser_version", .str u.parserVersion), ("text", .str u.text),
    ("blocks", .arr (u.blocks.map (Block.modelDump ids))), ("decision", u.decision.modelDump ids),
    ("ocr_engine", .option .str u.ocrEngine), ("ocr_model_version", .option .str u.ocrModelVersion),
    ("ocr_confidence", .option (floatJson ids) u.ocrConfidence)]

/-! ### The artifact -/

structure ExtractionArtifact (U : Type) where
  document : Document U
  extractionId : U
  parserVersion : Str
  extractedAt : Aware
  maxSourceBytes : Nat
  maxPages : Nat
  maxCharacters : Nat
  maxBlocks : Nat
  structureRequired : Bool
  units : List (TextUnit U)
deriving DecidableEq

def ExtractionArtifact.modelDump (ids : Ids U) (a : ExtractionArtifact U) : Json :=
  .record [("schema_version", .text "extraction/1"), ("document", a.document.modelDump ids),
    ("extraction_id", ids.uuidJson a.extractionId), ("extraction_profile", .text "native/1"),
    ("normalization_profile", .text "identity/1"), ("parser_version", .str a.parserVersion),
    ("extracted_at", .str a.extractedAt.json), ("max_source_bytes", .nat a.maxSourceBytes),
    ("max_pages", .nat a.maxPages), ("max_characters", .nat a.maxCharacters),
    ("max_blocks", .nat a.maxBlocks), ("structure_required", .bool a.structureRequired),
    ("units", .arr (a.units.map (TextUnit.modelDump ids)))]

/-- `str(n)`. -/
def natText (n : Nat) : Str := Nat.toDigits 10 n

/-- `str(flag)`. -/
def boolText (b : Bool) : Str := if b then "True".toList else "False".toList

/-- `extraction_identity`. -/
def extractionIdentity (ids : Ids U) (a : ExtractionArtifact U) : U :=
  ids.stableId [a.document.scope.identity ids, ids.uuidStr a.document.documentVersionId,
    "extraction/1".toList, "native/1".toList, "identity/1".toList, "native-policy/1".toList,
    a.parserVersion, a.extractedAt.utcIso, natText a.maxSourceBytes, natText a.maxPages,
    natText a.maxCharacters, natText a.maxBlocks, boolText a.structureRequired]

/-- The source id `validate_graph` expects of a unit. -/
def expectedSource (ids : Ids U) (a : ExtractionArtifact U) (u : TextUnit U) : U :=
  ids.stableId [ids.uuidStr a.document.documentVersionId,
    match u.physicalPage with
    | none => "text".toList
    | some page => "page:".toList ++ natText page]

/-- `text.rstrip("\n").count("\n")`. -/
def innerNewlines (text : Str) : Nat := (Text.rstripNewlines text).count '\n'

section

variable [DecidableEq U] (ids : Ids U) (a : ExtractionArtifact U)

/-- The checks `validate_graph` makes on one block; `covered` and `line` are its running offset and
line number. -/
def blockChecks (u : TextUnit U) (index covered line : Nat) (b : Block U) : Bool :=
  b.blockId == ids.stableId [ids.uuidStr a.extractionId, ids.uuidStr u.sourceId, natText index]
    && b.sourceId == u.sourceId && b.readingOrder == index && b.span.start == covered
    && b.span.stop ≤ u.text.length && Text.slice u.text b.span.start b.span.stop == b.sourceText
    && b.normalizedText.all (· == b.sourceText)
    && b.parentId.all (u.blocks.map Block.blockId).contains
    && b.childIds.all (u.blocks.map Block.blockId).contains
    && (if a.document.pageCount.isNone then
          b.span.lineStart == some line && b.span.lineEnd == some (line + innerNewlines b.sourceText)
        else b.span.lineStart.isNone)
    && b.visual.all fun v => v.image.all fun image => image.scope == a.document.scope

/-- The loop of `validate_graph` over the blocks of a unit, with its last check. -/
def blocksCover (u : TextUnit U) : Nat → Nat → Nat → List (Block U) → Bool
  | _, covered, _, [] => covered == u.text.length
  | index, covered, line, b :: blocks =>
    blockChecks ids a u index covered line b
      && blocksCover u (index + 1) b.span.stop (line + b.sourceText.count '\n') blocks

/-- The checks `validate_graph` makes on one unit, those on its id apart. -/
def unitChecks (u : TextUnit U) : Bool :=
  let observations := u.decision.observations
  let printable := u.text.countP fun c => ids.isPrintable c || c == '\r' || c == '\n' || c == '\t'
  u.documentVersionId == a.document.documentVersionId && u.decision.sourceId == u.sourceId
    && u.parserVersion == a.parserVersion && u.sourceId == expectedSource ids a u
    && observations.characterCount == u.text.length
    && observations.blockCount == u.blocks.length && observations.hasNativeText == Text.hasText u.text
    && observations.structureRequired == a.structureRequired
    && observations.parserFailed == decide (u.status = .failed)
    && (u.physicalPage.isSome || (u.printedLabel.isNone && u.width.isNone && u.height.isNone
        && u.rotation.isNone))
    && observations.printableRatio ==
        (if u.text.isEmpty then 1 else ids.divide printable u.text.length)
    && observations.replacementRatio ==
        (if u.text.isEmpty then 0 else ids.divide (u.text.count '\ufffd') u.text.length)
    && decide (u.blocks.map Block.blockId).Nodup
    && blocksCover ids a u 0 0 1 u.blocks

/-- `validate_graph`. -/
def validateGraph : Bool :=
  a.extractionId == extractionIdentity ids a
    && a.document.source.byteSize ≤ a.maxSourceBytes && a.document.pageCount.getD 0 ≤ a.maxPages
    && a.units.map TextUnit.physicalPage == (match a.document.pageCount with
      | none => [none]
      | some n => (List.range n).map fun i => some (i + 1))
    && decide (a.units.map TextUnit.sourceId).Nodup && a.units.all (unitChecks ids a)
    && (a.units.map fun u => u.text.length).sum ≤ a.maxCharacters
    && (a.units.map fun u => u.blocks.length).sum ≤ a.maxBlocks

/-- `ExtractionArtifact.model_validate`. -/
def ExtractionArtifact.valid : Bool :=
  a.document.valid ids && 0 < a.maxSourceBytes && 0 < a.maxPages && 0 < a.maxCharacters
    && 0 < a.maxBlocks && a.units.all (TextUnit.fieldsValid ids) && validateGraph ids a

end

/-- The text `serialize` writes; it is stored in UTF-8. -/
def serialize (ids : Ids U) (a : ExtractionArtifact U) : Str := dumps false (a.modelDump ids)

/-- `len(text.encode('utf-8'))`. -/
def utf8Length (text : Str) : Nat := (text.map fun c => c.utf8Size).sum

/-! ### Evidence -/

structure EvidenceRef (U : Type) where
  scope : Scope U
  documentVersionId : U
  extractionId : U
  sourceId : U
  blockId : U
  span : Span
deriving DecidableEq

def EvidenceRef.modelDump (ids : Ids U) (e : EvidenceRef U) : Json :=
  .record [("scope", e.scope.modelDump ids), ("document_version_id", ids.uuidJson e.documentVersionId),
    ("extraction_id", ids.uuidJson e.extractionId), ("source_id", ids.uuidJson e.sourceId),
    ("block_id", ids.uuidJson e.blockId), ("span", e.span.modelDump)]

end Polymind.Documents
