import Polymind.Digestion.Models

/-!
# Request sizes

The size formulas of `documents/digestion/sizing.py` and `check_request` of
`documents/digestion/planning.py`.  In managed mode a request is measured by what it contributes to
an outer JSON envelope, where the text of each value is escaped once more.
-/

namespace Polymind.Digestion

open Json

variable {U : Type}

/-- `CHILD_WRAPPER_BYTES`. -/
def childWrapperBytes : Nat := 1024

/-- `escaped_size`: the length of a JSON text inside a JSON string. -/
def escapedSize (value : Json) : Nat := (canonical (.str (canonical value))).length - 2

/-- `sorted({...})` on texts. -/
def sortedSet (texts : List Str) : List Str := texts.dedup.insertionSort (fun a b => keyLe a b = true)

/-- The evidence a result cites in its claims. -/
def StageResult.cited (r : StageResult U) : List U :=
  r.claims.flatMap fun c => c.evidenceIds ++ c.contradictingEvidenceIds

/-- `result_contribution`. -/
def resultContribution (ids : Ids U) (r : StageResult U) : Nat :=
  let links := r.claims.map fun c =>
    Json.record [("stage_id", ids.uuidJson r.stageId), ("claim_id", ids.uuidJson c.claimId)]
  let evidence := sortedSet (r.cited.map ids.uuidStr)
  escapedSize (r.modelDump ids) + escapedSize (.arr links) + escapedSize (.arr (evidence.map .str)) + 8

/-- `child_contribution`. -/
def childContribution (ids : Ids U) (c : ChildInput U) : Nat :=
  resultContribution ids c.result + escapedSize (c.modelDump ids) - escapedSize (c.result.modelDump ids)

/-- `reduction_size`. -/
def reductionSize (budget : ManagedInputBudget) (path : List Str) (children : Nat) : Nat :=
  budget.baseBytes + escapedSize (.arr (path.map .str)) - escapedSize (.arr [])
    + children * budget.childBytes

/-- `analysis_size`. -/
def analysisSize (ids : Ids U) (budget : ManagedInputBudget) (r : StageRequest U) : Nat :=
  let pieces := r.sourceData.map fun p =>
    Json.record [("evidence_id", ids.uuidJson (p.evidenceId ids)), ("text", .str p.text),
      ("kind", .str p.kind.name), ("cells", Documents.cellsJson p.cells),
      ("limitation", .str p.limitation.text)]
  let evidence := sortedSet (r.sourceData.map fun p => ids.uuidStr (p.evidenceId ids))
  reductionSize budget r.structuralPath 0 + escapedSize (.arr pieces)
    + escapedSize (.arr (evidence.map .str))

/-- `request_size`. -/
def requestSize (ids : Ids U) (r : StageRequest U) : Nat :=
  (r.encode ids).length + r.profile.templateTokens

/-- The size of a request inside the managed envelope. -/
def renderedSize (ids : Ids U) (budget : ManagedInputBudget) (r : StageRequest U) : Nat :=
  match r.stage with
  | .analysis => analysisSize ids budget r
  | .reduction => reductionSize budget r.structuralPath r.children.length

/-- The size `check_request` charges: the larger of the two in managed mode. -/
def chargedSize (ids : Ids U) (r : StageRequest U) : Except Fault Nat :=
  match r.profile.managedInputBudget with
  | none => .ok (requestSize ids r)
  | some budget =>
    let rendered := renderedSize ids budget r
    if r.children.any (fun c => budget.childBytes < childContribution ids c)
        || budget.inputBytes < rendered then .error limitExceeded
    else .ok (max (requestSize ids r) rendered)

/-- `check_request`. -/
def checkRequest (ids : Ids U) (r : StageRequest U) : Except Fault Nat := do
  let size ← chargedSize ids r
  if r.profile.contextTokens < size + r.profile.reservedOutputTokens then .error limitExceeded
  else .ok size

end Polymind.Digestion
