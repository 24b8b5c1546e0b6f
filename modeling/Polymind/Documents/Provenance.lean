import Polymind.Documents.Models

/-!
# Resolving a reference by a scan

`documents/provenance.py`: a reference resolves against one artifact, under the scope of the caller,
by a scan over the units and their blocks.  A `break` leaves the blocks of one unit; the scan goes on
with the units after it.
-/

namespace Polymind.Documents

variable {U : Type} [DecidableEq U]

/-- The categories of `DocumentError` that `resolve` raises. -/
inductive ReferenceError where
  | scopeMismatch | invalidReference
deriving DecidableEq

/-- The span of the reference lies in the span of the block. -/
def Span.contains (outer inner : Span) : Bool :=
  outer.start ≤ inner.start && inner.start ≤ inner.stop && inner.stop ≤ outer.stop

namespace Provenance

variable (ref : EvidenceRef U)

/-- The body of the loop over the blocks, at the block of the reference: the text it returns, `none`
for a `break`. -/
def readBlock (unit : TextUnit U) (block : Block U) : Option Str :=
  if !block.span.contains ref.span then none
  else if unit.physicalPage.isNone then
    let text := Text.slice unit.text ref.span.start ref.span.stop
    let start := 1 + (unit.text.take ref.span.start).count '\n'
    let stop := start + innerNewlines text
    if (ref.span.lineStart, ref.span.lineEnd) ≠ (some start, some stop) then none
    else some (Text.slice unit.text ref.span.start ref.span.stop)
  else if ref.span.lineStart.isSome then none
  else some (Text.slice unit.text ref.span.start ref.span.stop)

/-- The loop over the blocks of a unit. -/
def scanBlocks (unit : TextUnit U) : List (Block U) → Option Str
  | [] => none
  | block :: blocks =>
    if block.blockId = ref.blockId then readBlock ref unit block else scanBlocks unit blocks

/-- The loop over the units. -/
def scanUnits : List (TextUnit U) → Option Str
  | [] => none
  | unit :: units =>
    if unit.sourceId ≠ ref.sourceId then scanUnits units
    else match scanBlocks ref unit unit.blocks with
      | some text => some text
      | none => scanUnits units

/-- `resolve`. -/
def resolve (artifact : ExtractionArtifact U) (scope : Scope U) : Except ReferenceError Str :=
  if scope ≠ artifact.document.scope || scope ≠ ref.scope then .error .scopeMismatch
  else if ref.documentVersionId ≠ artifact.document.documentVersionId
      || ref.extractionId ≠ artifact.extractionId then .error .invalidReference
  else match scanUnits ref artifact.units with
    | some text => .ok text
    | none => .error .invalidReference

end Provenance

end Polymind.Documents
