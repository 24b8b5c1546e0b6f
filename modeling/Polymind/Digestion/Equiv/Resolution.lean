import Polymind.Documents.Provenance
import Polymind.Digestion.Equiv.Coverage

/-!
# Two ways to resolve a reference

`EvidenceIndex.resolve` finds the block of a reference in a dictionary of all blocks and its line by
bisection; `provenance.resolve` scans the units and counts line breaks.  Both resolve exactly the
references that point at a text (`PointsAt`), and to that text.

* `resolve_eq_ok`, `scan_eq_ok`: what each of them accepts;
* `resolve_agrees`: they are one function.
-/

namespace Polymind.Digestion

open Json Documents

variable {U : Type} [DecidableEq U] {ids : Ids U} {a : ExtractionArtifact U} {ref : EvidenceRef U}
  {unit : TextUnit U} {block : Block U} {text : Str}

/-! ### What a reference points at -/

/-- The reference is to a part of a block of the artifact, with the lines of that part, and `text` is
the part. -/
structure PointsAt (a : ExtractionArtifact U) (ref : EvidenceRef U) (unit : TextUnit U)
    (block : Block U) (text : Str) : Prop where
  scope : ref.scope = a.document.scope
  version : ref.documentVersionId = a.document.documentVersionId
  extraction : ref.extractionId = a.extractionId
  unit_mem : unit ∈ a.units
  block_mem : block ∈ unit.blocks
  sourceId : unit.sourceId = ref.sourceId
  blockId : block.blockId = ref.blockId
  inside : block.span.contains ref.span = true
  lineStart : ref.span.lineStart = lineAt a unit ref.span.start
  lineEnd : ref.span.lineEnd
    = (lineAt a unit ref.span.start).map fun line => line + innerNewlines text
  text : text = Text.slice unit.text ref.span.start ref.span.stop

omit [DecidableEq U] in
theorem Span.contains_iff {outer inner : Span} : outer.contains inner = true ↔
    outer.start ≤ inner.start ∧ inner.start ≤ inner.stop ∧ inner.stop ≤ outer.stop := by
  simp [Span.contains, and_assoc]

/-- The part starts in the text of its unit. -/
theorem start_le_length (hvalid : a.valid ids = true) (hunit : unit ∈ a.units)
    (hblock : block ∈ unit.blocks) (h : block.span.contains ref.span = true) :
    ref.span.start ≤ unit.text.length := by
  obtain ⟨index, -, hfacts⟩ := inventory_facts hvalid (p := (unit, block))
    (mem_inventory.mpr ⟨hunit, hblock⟩)
  obtain ⟨-, hle, hhi⟩ := Span.contains_iff.mp h
  exact hle.trans (hhi.trans hfacts.inside)

/-! ### The index -/

/-- What the dictionary finds is a block of the artifact, under its id. -/
theorem mem_of_blockIndex {key : U} {p : TextUnit U × Block U}
    (h : (blockIndex a).get? key = some p) : p ∈ inventory a ∧ p.2.blockId = key := by
  obtain ⟨q, hq, heq⟩ := List.mem_map.mp (Dict.mem_of_get?_ofList h)
  obtain ⟨rfl, rfl⟩ := Prod.mk.inj heq
  exact ⟨hq, rfl⟩

/-- The block that `EvidenceIndex.resolve` found, and the checks it passed. -/
structure Found (a : ExtractionArtifact U) (ref : EvidenceRef U) (unit : TextUnit U)
    (block : Block U) (text : Str) : Prop where
  indexed : (blockIndex a).get? ref.blockId = some (unit, block)
  scope : ref.scope = a.document.scope
  version : ref.documentVersionId = a.document.documentVersionId
  extraction : ref.extractionId = a.extractionId
  sourceId : unit.sourceId = ref.sourceId
  inside : block.span.contains ref.span = true
  lines : (ref.span.lineStart, ref.span.lineEnd) = expectedLines a unit ref.span.start text
  text : text = Text.slice unit.text ref.span.start ref.span.stop

/-- What `EvidenceIndex.resolve` returns is the slice of a text unit, on any artifact. -/
theorem resolve_found (h : resolve a ref = .ok text) : ∃ unit block, Found a ref unit block text := by
  unfold resolve at h
  split at h
  · cases h
  · rename_i unit block hget
    rw [ite_error_eq_ok, ite_error_eq_ok] at h
    obtain ⟨hscope, hspan, h⟩ := h
    dsimp only at h
    rw [ite_error_eq_ok] at h
    obtain ⟨hlines, h⟩ := h
    simp only [ne_eq, Bool.or_eq_true, decide_eq_true_eq, not_or, not_not] at hscope
    simp only [ne_eq, Bool.or_eq_true, decide_eq_true_eq, not_or, not_not, Bool.not_eq_true',
      Bool.not_eq_false] at hspan
    obtain rfl : _ = text := Except.ok.inj h
    exact ⟨unit, block, hget, hscope.1.1, hscope.1.2, hscope.2, hspan.1, hspan.2, not_not.mp hlines,
      rfl⟩

/-- `EvidenceIndex.resolve` accepts what points at a text. -/
theorem resolve_eq_ok (hc : ids.CollisionFree) (hvalid : a.valid ids = true) :
    resolve a ref = .ok text ↔ ∃ unit block, PointsAt a ref unit block text := by
  constructor
  · intro h
    obtain ⟨unit, block, hfound⟩ := resolve_found h
    obtain ⟨hmem, hid⟩ := mem_of_blockIndex hfound.indexed
    obtain ⟨hunit, hblock⟩ := mem_inventory.mp hmem
    have hlines := hfound.lines
    rw [expectedLines_eq hvalid hunit (start_le_length hvalid hunit hblock hfound.inside),
      Prod.mk.injEq] at hlines
    exact ⟨unit, block, hfound.scope, hfound.version, hfound.extraction, hunit, hblock,
      hfound.sourceId, hid, hfound.inside, hlines.1, hlines.2, hfound.text⟩
  · rintro ⟨unit, block, h⟩
    have hget : (blockIndex a).get? ref.blockId = some (unit, block) := by
      rw [← h.blockId]
      exact blockIndex_get? hc hvalid (p := (unit, block)) (mem_inventory.mpr ⟨h.unit_mem, h.block_mem⟩)
    obtain ⟨hlo, hle, hhi⟩ := Span.contains_iff.mp h.inside
    have hlines := expectedLines_eq hvalid h.unit_mem
      (start_le_length hvalid h.unit_mem h.block_mem h.inside)
      (Text.slice unit.text ref.span.start ref.span.stop)
    have hstop := h.lineEnd
    rw [h.text] at hstop
    simp only [resolve, hget, hlines, h.scope, h.version, h.extraction, h.sourceId, hlo, hle, hhi,
      h.lineStart, hstop, h.text, ne_eq, not_true_eq_false, decide_false, decide_true, Bool.or_self,
      Bool.and_self, Bool.not_true, Bool.false_eq_true, if_false]

/-! ### The scan -/

open Provenance in
/-- Among blocks with distinct ids, the loop reads the one block of the reference. -/
theorem scanBlocks_eq_some {blocks : List (Block U)} (hnd : (blocks.map Block.blockId).Nodup) :
    scanBlocks ref unit blocks = some text ↔
      ∃ block ∈ blocks, block.blockId = ref.blockId ∧ readBlock ref unit block = some text := by
  induction blocks with
  | nil => simp [scanBlocks]
  | cons block blocks ih =>
    rw [List.map_cons, List.nodup_cons] at hnd
    rw [scanBlocks]
    split
    · rename_i hid
      constructor
      · exact fun h => ⟨block, List.mem_cons_self .., hid, h⟩
      · rintro ⟨other, hmem, hother, h⟩
        rcases List.mem_cons.mp hmem with rfl | hmem
        · exact h
        · exact absurd (List.mem_map.mpr ⟨other, hmem, hother.trans hid.symm⟩) hnd.1
    · rename_i hid
      rw [ih hnd.2]
      simp only [List.mem_cons, exists_eq_or_imp, hid, false_and, false_or]

open Provenance in
/-- Among units with distinct ids, the loop scans the blocks of the one unit of the reference. -/
theorem scanUnits_eq_some {units : List (TextUnit U)}
    (hnd : (units.map TextUnit.sourceId).Nodup) :
    scanUnits ref units = some text ↔ ∃ unit ∈ units, unit.sourceId = ref.sourceId ∧
      scanBlocks ref unit unit.blocks = some text := by
  induction units with
  | nil => simp [scanUnits]
  | cons unit units ih =>
    rw [List.map_cons, List.nodup_cons] at hnd
    rw [scanUnits]
    split
    · rename_i hid
      rw [ih hnd.2]
      simp only [List.mem_cons, exists_eq_or_imp, hid, false_and, false_or]
    · rename_i hid
      rw [not_not] at hid
      -- no unit after this one has the source id
      have hrest : scanUnits ref units ≠ some text := by
        rw [ne_eq, ih hnd.2]
        rintro ⟨other, hmem, hother, -⟩
        exact hnd.1 (List.mem_map.mpr ⟨other, hmem, hother.trans hid.symm⟩)
      split
      · rename_i found hfound
        simp only [List.mem_cons, exists_eq_or_imp, hid, hfound, true_and]
        constructor
        · exact fun h => Or.inl h
        · rintro (h | ⟨other, hmem, hother, -⟩)
          · exact h
          · exact absurd (List.mem_map.mpr ⟨other, hmem, hother.trans hid.symm⟩) hnd.1
      · rename_i hnone
        rw [ih hnd.2]
        simp only [List.mem_cons, exists_eq_or_imp, hid, hnone, reduceCtorEq, and_false, false_or]

open Provenance in
/-- The checks on a block are those of `PointsAt`: a page has no lines, and a span that has no first
line has no last one. -/
theorem readBlock_eq_some (hvalid : a.valid ids = true) (hspan : ref.span.valid = true)
    (hunit : unit ∈ a.units) :
    readBlock ref unit block = some text ↔ block.span.contains ref.span = true
      ∧ text = Text.slice unit.text ref.span.start ref.span.stop
      ∧ ref.span.lineStart = lineAt a unit ref.span.start
      ∧ ref.span.lineEnd
        = (lineAt a unit ref.span.start).map fun line => line + innerNewlines text := by
  unfold readBlock
  by_cases hinside : block.span.contains ref.span = true
  · rw [if_neg (by simp [hinside]), physicalPage_isNone hvalid hunit, lineAt]
    by_cases hpages : a.document.pageCount.isNone = true
    · simp only [hpages, if_true, Option.map_some]
      constructor
      · intro h
        split at h
        · cases h
        · rename_i hlines
          obtain rfl := Option.some.inj h
          rw [not_not, Prod.mk.injEq] at hlines
          exact ⟨hinside, rfl, hlines.1, hlines.2⟩
      · rintro ⟨-, rfl, hstart, hstop⟩
        rw [if_neg (by simp [hstart, hstop])]
    · simp only [hpages, Bool.false_eq_true, if_false, Option.map_none]
      constructor
      · intro h
        split at h
        · cases h
        · rename_i hstart
          have hnone : ref.span.lineStart = none := by simpa using hstart
          simp only [Span.valid, Bool.and_eq_true, beq_iff_eq] at hspan
          have hboth := hspan.1.2
          rw [hnone] at hboth
          exact ⟨hinside, (Option.some.inj h).symm, hnone, Option.isNone_iff_eq_none.mp hboth.symm⟩
      · rintro ⟨-, rfl, hstart, -⟩
        rw [hstart, if_neg (by simp)]
  · rw [if_pos (by simpa using hinside)]
    simp [hinside]

/-- `provenance.resolve` accepts what points at a text. -/
theorem scan_eq_ok (hvalid : a.valid ids = true) (hspan : ref.span.valid = true) :
    Provenance.resolve ref a a.document.scope = .ok text ↔ ∃ unit block, PointsAt a ref unit block text := by
  have hscan : Provenance.scanUnits ref a.units = some text ↔ ∃ unit ∈ a.units, unit.sourceId = ref.sourceId ∧
      ∃ block ∈ unit.blocks, block.blockId = ref.blockId ∧
        Provenance.readBlock ref unit block = some text := by
    rw [scanUnits_eq_some (sourceIds_nodup hvalid)]
    refine exists_congr fun unit => and_congr_right fun hunit => and_congr_right fun _ => ?_
    exact scanBlocks_eq_some (unit_blockIds_nodup hvalid hunit)
  unfold Provenance.resolve
  rw [ite_error_eq_ok, ite_error_eq_ok]
  constructor
  · rintro ⟨hscope, hversion, h⟩
    simp only [ne_eq, not_true_eq_false, decide_false, Bool.false_or, Bool.or_eq_true,
      decide_eq_true_eq, not_or, not_not] at hscope hversion
    split at h
    · rename_i found hfound
      obtain rfl := Except.ok.inj h
      obtain ⟨unit, hunit, hsource, block, hblock, hid, hread⟩ := hscan.mp hfound
      obtain ⟨hinside, htext, hstart, hstop⟩ := (readBlock_eq_some hvalid hspan hunit).mp hread
      exact ⟨unit, block, hscope.symm, hversion.1, hversion.2, hunit, hblock, hsource, hid, hinside,
        hstart, hstop, htext⟩
    · cases h
  · rintro ⟨unit, block, h⟩
    refine ⟨by simp [h.scope], by simp [h.version, h.extraction], ?_⟩
    rw [hscan.mpr ⟨unit, h.unit_mem, h.sourceId, block, h.block_mem, h.blockId,
      (readBlock_eq_some hvalid hspan h.unit_mem).mpr ⟨h.inside, h.text, h.lineStart, h.lineEnd⟩⟩]

/-- **The two ways to resolve are one function.**  On a valid artifact, a reference under the scope of
the artifact resolves to a text by the index exactly if it does by the scan, and to the same one. -/
theorem resolve_agrees (hc : ids.CollisionFree) (hvalid : a.valid ids = true) (ref : EvidenceRef U)
    (hspan : ref.span.valid = true) (scope : Scope U) (hscope : scope = a.document.scope) :
    (∃ text, resolve a ref = .ok text ∧ Provenance.resolve ref a scope = .ok text) ∨
      (∃ fault, resolve a ref = .error fault) ∧
        ∃ error, Provenance.resolve ref a scope = .error error := by
  subst hscope
  cases hindex : resolve a ref with
  | ok text =>
    refine Or.inl ⟨text, rfl, ?_⟩
    exact (scan_eq_ok hvalid hspan).mpr ((resolve_eq_ok hc hvalid).mp hindex)
  | error fault =>
    refine Or.inr ⟨⟨fault, rfl⟩, ?_⟩
    cases hscan : Provenance.resolve ref a a.document.scope with
    | ok text =>
      have hpoints := (scan_eq_ok hvalid hspan).mp hscan
      rw [(resolve_eq_ok hc hvalid).mpr hpoints] at hindex
      cases hindex
    | error error => exact ⟨error, rfl⟩

/-- The reference to the sample's block with its line numbers off by one. -/
def shiftedRef : EvidenceRef Nat :=
  { samplePiece.evidence with span := ⟨0, 6, some 2, some 2⟩ }

/-- Both find no text at the shifted reference. -/
theorem resolve_agrees_sample :
    (∃ fault, resolve sampleArtifact shiftedRef = .error fault) ∧
      ∃ error, Provenance.resolve shiftedRef sampleArtifact sampleScope = .error error := by
  have hvalid : sampleArtifact.valid (sampleIds keep legacyProfile) = true := sample_valid smallCut_keep
  have hagrees := resolve_agrees (tableIds_collisionFree _ _) hvalid shiftedRef (by decide)
    sampleScope rfl
  refine hagrees.resolve_left ?_
  rintro ⟨text, hindex, -⟩
  have herror : (resolve sampleArtifact shiftedRef).toOption = none := by decide
  rw [hindex] at herror
  cases herror

end Polymind.Digestion
