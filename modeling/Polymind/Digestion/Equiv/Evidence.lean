import Polymind.Digestion.Models
import Polymind.Lib.JsonInjective

/-!
# Evidence ids

An evidence id is made from the canonical JSON of a reference, and determines the block and the end
of the span that the reference is to (`evidence_of_id`).
-/

namespace Polymind.Digestion

open Json Documents

variable {U : Type} {ids : Ids U}

theorem floatFree_scope (scope : Scope U) : floatFree (scope.modelDump ids) = true := rfl

theorem floatFree_option_nat (n : Option Nat) : floatFree (.option .nat n) = true := by
  cases n <;> rfl

theorem floatFree_span (s : Span) : floatFree s.modelDump = true := by
  simp only [Span.modelDump, record, List.map, floatFree, floatFreeFields, floatFree_option_nat, nat,
    Bool.and_self]

theorem floatFree_evidence (e : EvidenceRef U) : floatFree (e.modelDump ids) = true := by
  simp only [EvidenceRef.modelDump, record, List.map, floatFree, floatFreeFields, floatFree_scope,
    floatFree_span, Ids.uuidJson, Bool.and_self]

/-- The end of a span, from its canonical text. -/
theorem span_stop_of_canonical {s t : Span} (h : canonical s.modelDump = canonical t.modelDump) :
    s.stop = t.stop := by
  have hkeys : ∀ s : Span, (["start".toList, "end".toList, "line_start".toList, "line_end".toList]
      : List Str) = ([("start", .nat s.start), ("end", .nat s.stop),
        ("line_start", .option .nat s.lineStart), ("line_end", .option .nat s.lineEnd)].map
          fun f : String × Json => (f.1.toList, f.2)).map Prod.fst := by
    intro
    simp only [List.map_cons, List.map_nil]
  have hvalues := canonical_obj_injective ((hkeys s).symm.trans (hkeys t)) (hkeys s ▸ by decide)
    (hkeys s ▸ plain_of_all (by decide)) (floatFree_span s) (floatFree_span t) h
  simp only [List.map_cons, List.cons.injEq] at hvalues
  exact toDigits_injective hvalues.2.1

/-- The block and the end of the span of a reference, from its canonical text. -/
theorem evidence_of_canonical (hc : ids.CollisionFree) {e f : EvidenceRef U}
    (h : canonical (e.modelDump ids) = canonical (f.modelDump ids)) :
    e.blockId = f.blockId ∧ e.span.stop = f.span.stop := by
  have hkeys : ∀ e : EvidenceRef U, (["scope".toList, "document_version_id".toList,
      "extraction_id".toList, "source_id".toList, "block_id".toList, "span".toList] : List Str)
      = ([("scope", e.scope.modelDump ids), ("document_version_id", ids.uuidJson e.documentVersionId),
        ("extraction_id", ids.uuidJson e.extractionId), ("source_id", ids.uuidJson e.sourceId),
        ("block_id", ids.uuidJson e.blockId), ("span", e.span.modelDump)].map
          fun f : String × Json => (f.1.toList, f.2)).map Prod.fst := by
    intro
    simp only [List.map_cons, List.map_nil]
  have hvalues := canonical_obj_injective ((hkeys e).symm.trans (hkeys f)) (hkeys e ▸ by decide)
    (hkeys e ▸ plain_of_all (by decide)) (floatFree_evidence e) (floatFree_evidence f) h
  simp only [List.map_cons, List.cons.injEq] at hvalues
  obtain ⟨-, -, -, -, hblock, hspan, -⟩ := hvalues
  refine ⟨hc.uuidStr_injective ?_, span_stop_of_canonical hspan⟩
  exact canonical_str_injective hblock

/-- An evidence id determines the block and the end of the span it is an id of. -/
theorem evidence_of_id [DecidableEq U] (hc : ids.CollisionFree) {p q : SourcePiece U}
    (h : p.evidenceId ids = q.evidenceId ids) :
    p.evidence.blockId = q.evidence.blockId ∧ p.evidence.span.stop = q.evidence.span.stop := by
  have hparts := hc.stableId_injective h
  simp only [List.cons.injEq, true_and, and_true] at hparts
  exact evidence_of_canonical hc (hc.sha256_injective hparts)

end Polymind.Digestion
