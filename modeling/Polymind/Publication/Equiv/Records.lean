import Polymind.Publication.Planning
import Polymind.Digestion.Equiv.Resolution

/-!
# Records partition the included blocks

`split` cuts a text into slices that the encoder accepts (`split_cases`), whatever the tokenizer
counts; rebased to the unit, a slice of a block is the slice of the unit at its span, so that its
evidence resolves to it or to nothing at all (`resolve_slice`).
-/

namespace Polymind.Publication.Planning

open Json Documents Digestion RetrievalEncoder

/-! ### Splitting -/

section Split

variable {encoder : RetrievalEncoder} {text : Str}

/-- Slices of a text that follow each other, from an offset to the end: none is empty, and each is
within the limits of the encoder. -/
inductive Covers (encoder : RetrievalEncoder) (text : Str) : Nat → List Slice → Prop
  | done {start : Nat} (ended : text.length ≤ start) : Covers encoder text start []
  | cut {start stop : Nat} {slices : List Slice} (nonempty : start < stop)
      (inside : stop ≤ text.length) (characters : stop ≤ start + encoder.profile.maxCharacters)
      (tokens : encoder.count (Text.slice text start stop) ≤ encoder.profile.maxTokens)
      (rest : Covers encoder text stop slices) :
      Covers encoder text start (⟨start, stop, Text.slice text start stop⟩ :: slices)

/-- A slice that is yielded, also before an error. -/
structure Cut (encoder : RetrievalEncoder) (text : Str) (slice : Slice) : Prop where
  nonempty : slice.start < slice.stop
  inside : slice.stop ≤ text.length
  characters : slice.stop ≤ slice.start + encoder.profile.maxCharacters
  tokens : encoder.count slice.text ≤ encoder.profile.maxTokens
  text : slice.text = Text.slice text slice.start slice.stop

/-- Either the limit is raised, or the slices cover what is left. -/
theorem splitFrom_cases (start : Nat) :
    (∀ slice ∈ (encoder.splitFrom text start).1, Cut encoder text slice) ∧
      ((encoder.splitFrom text start).2 = .error .embeddingLimit ∨
        (encoder.splitFrom text start).2 = .ok () ∧
          Covers encoder text start (encoder.splitFrom text start).1) := by
  fun_induction splitFrom encoder text start with
  | case1 start hlt e hstop =>
    rw [shrink_error hstop]
    exact ⟨fun _ h => absurd h List.not_mem_nil, Or.inl rfl⟩
  | case2 start hlt stop hstop rest ih =>
    obtain ⟨hlo, hhi, htokens⟩ := shrink_ok (encoder.lt_reach hlt) hstop
    have hinside : stop ≤ text.length := hhi.trans (Nat.min_le_left _ _)
    have hcharacters : stop ≤ start + encoder.profile.maxCharacters := hhi.trans (Nat.min_le_right _ _)
    constructor
    · rw [List.forall_mem_cons]
      exact ⟨⟨hlo, hinside, hcharacters, htokens, rfl⟩, ih.1⟩
    · rcases ih.2 with herror | ⟨hok, hcovers⟩
      · exact Or.inl herror
      · exact Or.inr ⟨hok, .cut hlo hinside hcharacters htokens hcovers⟩
  | case3 start hlt => exact ⟨fun _ h => absurd h List.not_mem_nil, Or.inr ⟨rfl, .done (by omega)⟩⟩

theorem split_covers (h : (encoder.split text).2 = .ok ()) :
    Covers encoder text 0 (encoder.split text).1 := by
  rcases (@splitFrom_cases encoder text 0).2 with herror | ⟨-, hcovers⟩
  · cases herror.symm.trans h
  · exact hcovers

theorem Covers.flatMap_text {start : Nat} {slices : List Slice} (h : Covers encoder text start slices) :
    slices.flatMap Slice.text = text.drop start := by
  induction h with
  | done ended => exact (List.drop_eq_nil_of_le ended).symm
  | @cut start stop slices nonempty inside characters tokens rest ih =>
    have hjoin := Text.slice_append text nonempty.le inside
    have hwhole (n : Nat) : Text.slice text n text.length = text.drop n := by
      rw [Text.slice, List.take_length]
    rw [hwhole, hwhole] at hjoin
    rw [List.flatMap_cons, ih, hjoin]

/-- Where the slices end. -/
theorem Covers.stops_nodup {start : Nat} {slices : List Slice} (h : Covers encoder text start slices) :
    (slices.map Slice.stop).Nodup ∧ ∀ s ∈ slices, start < s.stop := by
  induction h with
  | done ended => exact ⟨List.nodup_nil, fun _ h => absurd h List.not_mem_nil⟩
  | cut nonempty inside characters tokens rest ih =>
    constructor
    · rw [List.map_cons, List.nodup_cons]
      refine ⟨fun hmem => ?_, ih.1⟩
      obtain ⟨s, hs, hstop⟩ := List.mem_map.mp hmem
      have hlt := ih.2 s hs
      rw [hstop] at hlt
      exact Nat.lt_irrefl _ hlt
    · rw [List.forall_mem_cons]
      exact ⟨nonempty, fun s hs => nonempty.trans (ih.2 s hs)⟩

end Split

/-! ### Identities -/

variable {U : Type} {ids : Ids U}

theorem floatFreeItems_strs (texts : List Str) : floatFreeItems (texts.map .str) = true := by
  induction texts with
  | nil => rfl
  | cons t texts ih =>
    show (true && floatFreeItems (texts.map .str)) = true
    rw [ih]
    rfl

/-- The identity of a record determines the block and the end of its evidence. -/
theorem evidence_of_identity (hc : ids.CollisionFree) {r s : RetrievalRecord U}
    (h : r.identity ids = s.identity ids) :
    r.evidence.blockId = s.evidence.blockId ∧ r.evidence.span.stop = s.evidence.span.stop := by
  have hparts := hc.stableId_injective h
  simp only [List.cons.injEq, true_and, and_true] at hparts
  have htext : canonical (.record (r.payload ids)) = canonical (.record (s.payload ids)) :=
    hc.sha256_injective hparts
  have hkeys : ∀ r : RetrievalRecord U, (["document_id".toList, "document_version_id".toList,
      "extraction_id".toList, "material".toList, "classification".toList, "text".toList,
      "evidence".toList, "structural_path".toList, "source_kind".toList, "limitation".toList,
      "profile".toList] : List Str)
      = ((r.payload ids).map fun f : String × Json => (f.1.toList, f.2)).map Prod.fst := by
    intro
    simp only [RetrievalRecord.payload, List.map_cons, List.map_nil]
  have hfree : ∀ r : RetrievalRecord U, floatFree (.record (r.payload ids)) = true := by
    intro r
    simp only [RetrievalRecord.payload, record, List.map, floatFree, floatFreeFields, floatFreeItems_strs,
      floatFree_evidence, Ids.uuidJson, text, Bool.and_self]
  have hvalues := canonical_obj_injective ((hkeys r).symm.trans (hkeys s)) (hkeys r ▸ by decide)
    (hkeys r ▸ plain_of_all (by decide)) (hfree r) (hfree s) htext
  simp only [RetrievalRecord.payload, List.map_cons, List.cons.injEq] at hvalues
  obtain ⟨-, -, -, -, -, -, hevidence, -⟩ := hvalues
  exact evidence_of_canonical hc hevidence

/-! ### One slice -/

variable [DecidableEq U] {document : Publication.AcceptedDocument U} {artifact : ExtractionArtifact U}
  {plan : Plan U} {encoder : RetrievalEncoder} {unit : TextUnit U} {block : Block U} {slice : Slice}

/-- The record of a slice of a block. -/
structure RecordOf (ids : Ids U) (artifact : ExtractionArtifact U) (block : Block U) (slice : Slice)
    (r : RetrievalRecord U) : Prop where
  text : r.text = slice.text
  blockId : r.evidence.blockId = block.blockId
  stop : r.evidence.span.stop = slice.stop + block.span.start
  identity : r.recordId = r.identity ids
  resolved : resolve artifact r.evidence = .ok r.text

/-- A draft becomes a record under its identity. -/
theorem recordValues_ok {draft r : RetrievalRecord U} (h : recordValues ids draft = .ok r) :
    r = { draft with recordId := draft.identity ids } := by
  unfold recordValues at h
  dsimp only at h
  split at h
  · exact (Except.ok.inj h).symm
  · cases h

theorem recordValues_error {draft : RetrievalRecord U} {e : PlanningError}
    (h : recordValues ids draft = .error e) : e = .validation := by
  unfold recordValues at h
  dsimp only at h
  split at h
  · cases h
  · exact (Except.error.inj h).symm

theorem sliceRecord_ok {r : RetrievalRecord U}
    (h : sliceRecord ids document artifact plan encoder unit block slice = .ok r) :
    RecordOf ids artifact block slice r := by
  unfold sliceRecord at h
  dsimp only at h
  rw [ite_error_eq_ok] at h
  obtain ⟨-, h⟩ := h
  split at h
  · cases h
  · rename_i text hresolve
    rw [ite_error_eq_ok, not_not] at h
    obtain ⟨rfl, h⟩ := h
    obtain rfl := recordValues_ok h
    exact ⟨rfl, rfl, rfl, rfl, hresolve⟩

/-- A slice of a block is the slice of the unit at the rebased offsets. -/
theorem slice_rebased (hvalid : artifact.valid ids = true) (hp : (unit, block) ∈ inventory artifact)
    (hcut : Cut encoder block.sourceText slice) :
    slice.text = Text.slice unit.text (slice.start + block.span.start) (slice.stop + block.span.start) ∧
      slice.stop + block.span.start ≤ block.span.stop := by
  obtain ⟨index, -, hfacts⟩ := inventory_facts hvalid hp
  have hordered : block.span.start ≤ block.span.stop := hfacts.ordered
  have hlength : block.sourceText.length = block.span.stop - block.span.start := by
    rw [← hfacts.text, Text.length_slice_of_le hfacts.inside]
  have hinside := hcut.inside
  rw [hlength] at hinside
  constructor
  · rw [hcut.text, ← hfacts.text, Text.slice_slice _ hordered hinside]
  · omega

/-- The evidence of a slice resolves to its text, or to nothing. -/
theorem resolve_slice (hc : ids.CollisionFree) (hvalid : artifact.valid ids = true)
    (hp : (unit, block) ∈ inventory artifact) (hcut : Cut encoder block.sourceText slice)
    {e : EvidenceRef U} (hblock : e.blockId = block.blockId)
    (hspan : e.span = sliceSpan artifact unit block slice) {text : Str}
    (h : resolve artifact e = .ok text) : text = slice.text := by
  obtain ⟨unit', block', hfound⟩ := resolve_found h
  have hget := hfound.indexed
  rw [hblock, blockIndex_get? hc hvalid (p := (unit, block)) hp] at hget
  obtain ⟨rfl, rfl⟩ := Prod.mk.inj (Option.some.inj hget)
  rw [hfound.text, hspan, (slice_rebased hvalid hp hcut).1]
  rfl

theorem sliceRecord_ne_provenanceInvalid (hc : ids.CollisionFree) (hvalid : artifact.valid ids = true)
    (hp : (unit, block) ∈ inventory artifact) (hcut : Cut encoder block.sourceText slice) :
    sliceRecord ids document artifact plan encoder unit block slice ≠ .error .provenanceInvalid := by
  unfold sliceRecord
  dsimp only
  split
  · intro h
    cases h
  · split
    · intro h
      cases h
    · rename_i text hresolve
      rw [if_neg (not_not.mpr (resolve_slice hc hvalid hp hcut rfl rfl hresolve))]
      intro h
      cases recordValues_error h

/-- The document was accepted for the artifact. -/
structure Accepts (document : Publication.AcceptedDocument U) (artifact : ExtractionArtifact U) :
    Prop where
  scope : document.scope = artifact.document.scope
  version : document.documentVersionId = artifact.document.documentVersionId
  extraction : document.extractionId = artifact.extractionId

/-- The lines that the loop computes are those the index expects. -/
theorem sliceSpan_lines (artifact : ExtractionArtifact U) (unit : TextUnit U) (block : Block U)
    (slice : Slice) :
    ((sliceSpan artifact unit block slice).lineStart, (sliceSpan artifact unit block slice).lineEnd)
      = expectedLines artifact unit (slice.start + block.span.start) slice.text := by
  unfold sliceSpan expectedLines
  cases (lineIndex artifact).get? unit.sourceId <;> rfl

/-- The evidence of a slice resolves to its text. -/
theorem resolve_slice_ok (hc : ids.CollisionFree) (hvalid : artifact.valid ids = true)
    (haccepts : Accepts document artifact) (hp : (unit, block) ∈ inventory artifact)
    (hcut : Cut encoder block.sourceText slice) :
    resolve artifact ⟨document.scope, document.documentVersionId, document.extractionId,
      unit.sourceId, block.blockId, sliceSpan artifact unit block slice⟩ = .ok slice.text := by
  obtain ⟨htext, hstop⟩ := slice_rebased hvalid hp hcut
  have hordered := hcut.nonempty
  have hlines := sliceSpan_lines artifact unit block slice
  have hget : (blockIndex artifact).get? block.blockId = some (unit, block) := blockIndex_get? hc hvalid hp
  have hstart : (sliceSpan artifact unit block slice).start = slice.start + block.span.start := rfl
  have hend : (sliceSpan artifact unit block slice).stop = slice.stop + block.span.start := rfl
  unfold resolve
  dsimp only
  rw [hget]
  dsimp only
  rw [if_neg (by simp [haccepts.scope, haccepts.version, haccepts.extraction]), hstart, hend,
    if_neg (by simp; omega), ← htext, if_neg (not_not.mpr hlines)]

/-- The lines of a slice are numbered from 1, in order. -/
theorem sliceSpan_valid (hcut : Cut encoder block.sourceText slice) :
    (sliceSpan artifact unit block slice).valid = true := by
  have hordered := hcut.nonempty
  unfold sliceSpan Span.valid
  dsimp only
  cases (lineIndex artifact).get? unit.sourceId with
  | none =>
    simp
    omega
  | some lines =>
    simp
    omega

theorem sliceRecord_error (hc : ids.CollisionFree) (hvalid : artifact.valid ids = true)
    (haccepts : Accepts document artifact) (hp : (unit, block) ∈ inventory artifact)
    (hcut : Cut encoder block.sourceText slice) {e : PlanningError}
    (h : sliceRecord ids document artifact plan encoder unit block slice = .error e) :
    e = .validation := by
  unfold sliceRecord at h
  dsimp only at h
  rw [sliceSpan_valid hcut, resolve_slice_ok hc hvalid haccepts hp hcut, if_neg (by decide)] at h
  dsimp only at h
  rw [if_neg (not_not.mpr rfl)] at h
  exact recordValues_error h

/-! ### The records of a block and of a document -/

/-- The block and the end of the evidence of a record. -/
def recordTag (r : RetrievalRecord U) : U × Nat := (r.evidence.blockId, r.evidence.span.stop)

/-- The records of a block: its text, cut into pieces that end at different places. -/
structure BlockRecords (ids : Ids U) (artifact : ExtractionArtifact U) (block : Block U)
    (rows : List (RetrievalRecord U)) : Prop where
  text : rows.flatMap (fun r => r.text) = block.sourceText
  blockId : ∀ r ∈ rows, r.evidence.blockId = block.blockId
  tags : (rows.map recordTag).Nodup
  identity : ∀ r ∈ rows, r.recordId = r.identity ids
  resolved : ∀ r ∈ rows, resolve artifact r.evidence = .ok r.text

theorem blockRecords_ok {rows : List (RetrievalRecord U)}
    (h : blockRecords ids document artifact plan encoder unit block = .ok rows) :
    BlockRecords ids artifact block rows := by
  unfold blockRecords at h
  dsimp only at h
  rw [bind_eq_ok] at h
  obtain ⟨rows, hrows, h⟩ := h
  rw [bind_eq_ok] at h
  obtain ⟨⟨⟩, hended, h⟩ := h
  obtain rfl := Except.ok.inj h
  have hcovers : Covers encoder block.sourceText 0 (encoder.split block.sourceText).1 :=
    split_covers hended
  have hforall : List.Forall₂ (RecordOf ids artifact block) (encoder.split block.sourceText).1 rows :=
    (mapM_eq_ok.mp hrows).imp fun _ _ h => sliceRecord_ok h
  have hmem : ∀ r ∈ rows, ∃ slice, RecordOf ids artifact block slice r := by
    intro r hr
    obtain ⟨slice, -, hslice⟩ := mem_of_forall₂ hforall hr
    exact ⟨slice, hslice⟩
  refine ⟨?_, fun r hr => ?_, ?_, fun r hr => ?_, fun r hr => ?_⟩
  · have htexts : (encoder.split block.sourceText).1.map Slice.text = rows.map fun r => r.text :=
      map_eq_of_forall₂ hforall fun _ _ h => h.text.symm
    rw [List.flatMap_def, ← htexts, ← List.flatMap_def, hcovers.flatMap_text, List.drop_zero]
  · obtain ⟨slice, hslice⟩ := hmem r hr
    exact hslice.blockId
  · have hstops : (encoder.split block.sourceText).1.map (fun s => s.stop + block.span.start)
        = rows.map fun r => r.evidence.span.stop :=
      map_eq_of_forall₂ hforall fun _ _ h => h.stop.symm
    have hnodup := hcovers.stops_nodup.1.map (f := (· + block.span.start)) fun _ _ h =>
      Nat.add_right_cancel h
    rw [List.map_map] at hnodup
    apply List.Nodup.of_map Prod.snd
    rw [List.map_map]
    exact hstops ▸ hnodup
  · obtain ⟨slice, hslice⟩ := hmem r hr
    exact hslice.identity
  · obtain ⟨slice, hslice⟩ := hmem r hr
    exact hslice.resolved

/-- The loops over the units and their blocks. -/
theorem blocks_ok {blocks : List (TextUnit U × Block U)} {rows : List (List (RetrievalRecord U))}
    (hnd : (blocks.map fun p => p.2.blockId).Nodup)
    (h : List.Forall₂ (fun p rows => BlockRecords ids artifact p.2 rows) blocks rows) :
    rows.flatten.flatMap (fun r => r.text) = blocks.flatMap (fun p => p.2.sourceText) ∧
      (rows.flatten.map recordTag).Nodup ∧
      ∀ r ∈ rows.flatten, r.evidence.blockId ∈ blocks.map (fun p => p.2.blockId) ∧
        r.recordId = r.identity ids ∧ resolve artifact r.evidence = .ok r.text := by
  induction h with
  | nil => exact ⟨rfl, List.nodup_nil, fun _ h => absurd h List.not_mem_nil⟩
  | @cons p first blocks rows hfirst hrest ih =>
    rw [List.map_cons, List.nodup_cons] at hnd
    obtain ⟨htext, htags, hall⟩ := ih hnd.2
    rw [List.flatten_cons]
    refine ⟨?_, ?_, ?_⟩
    · rw [List.flatMap_append, List.flatMap_cons, hfirst.text, htext]
    · rw [List.map_append, List.nodup_append]
      refine ⟨hfirst.tags, htags, ?_⟩
      rintro x hx y hy rfl
      obtain ⟨q, hq, rfl⟩ := List.mem_map.mp hx
      obtain ⟨r, hr, hrq⟩ := List.mem_map.mp hy
      -- the two records would be of one block
      have hblock : r.evidence.blockId = q.evidence.blockId := congrArg Prod.fst hrq
      rw [hfirst.blockId q hq] at hblock
      exact hnd.1 (hblock ▸ (hall r hr).1)
    · intro r hr
      rcases List.mem_append.mp hr with hr | hr
      · rw [hfirst.blockId r hr]
        exact ⟨List.mem_cons_self .., hfirst.identity r hr, hfirst.resolved r hr⟩
      · obtain ⟨hblock, hidentity, hresolved⟩ := hall r hr
        exact ⟨List.mem_cons_of_mem _ hblock, hidentity, hresolved⟩

/-- What is raised by the loops is raised for a slice of an included block, or is the limit. -/
theorem records_error {digest : DigestArtifact U} {e : PlanningError}
    (h : records ids document artifact plan encoder digest = .error e) :
    e = .embeddingLimit ∨ ∃ p ∈ inventory artifact, ∃ slice,
      Cut encoder p.2.sourceText slice ∧
      sliceRecord ids document artifact plan encoder p.1 p.2 slice = .error e := by
  by_contra hnone
  rw [not_or] at hnone
  revert h
  unfold records
  apply bind_ne_error
  · apply mapM_ne_error
    intro p hp
    have hmem : p ∈ inventory artifact := List.mem_of_mem_filter hp
    unfold blockRecords
    apply bind_ne_error
    · apply mapM_ne_error
      intro slice hslice herror
      have hcut := (@splitFrom_cases encoder p.2.sourceText 0).1 slice hslice
      exact hnone.2 ⟨p, hmem, slice, hcut, herror⟩
    · intro rows _
      apply bind_ne_error
      · rcases (@splitFrom_cases encoder p.2.sourceText 0).2 with hlimit | ⟨hended, -⟩
        · intro herror
          exact hnone.1 (Except.error.inj (herror.symm.trans hlimit))
        · intro herror
          cases herror.symm.trans hended
      · nofun
  · nofun

/-! ### A text within the limits -/

/-- A text within the limits is one slice. -/
theorem split_whole {text : Str} (hne : text ≠ []) (hlength : text.length ≤ encoder.profile.maxCharacters)
    (hcount : encoder.count text ≤ encoder.profile.maxTokens) :
    encoder.split text = ([⟨0, text.length, text⟩], .ok ()) := by
  have hpos : 0 < text.length := List.length_pos_of_ne_nil hne
  have hreach : encoder.reach text 0 = text.length := by
    rw [RetrievalEncoder.reach, Nat.zero_add, Nat.min_eq_left hlength]
  have hslice : Text.slice text 0 text.length = text := by
    rw [Text.slice, List.take_length, List.drop_zero]
  have hshrink : encoder.shrink text 0 text.length = .ok text.length := by
    rw [shrink, hslice, if_pos hcount]
  have hrest : encoder.splitFrom text text.length = ([], .ok ()) := by
    rw [splitFrom, dif_neg (Nat.lt_irrefl _)]
  rw [RetrievalEncoder.split, splitFrom, dif_pos hpos]
  split
  · rename_i e herror
    rw [hreach, hshrink] at herror
    cases herror
  · rename_i stop hstop
    rw [hreach, hshrink] at hstop
    obtain rfl := Except.ok.inj hstop
    rw [hrest, hslice]

/-- A draft within the bounds of the fields becomes a record. -/
theorem recordValues_eq_ok {draft : RetrievalRecord U}
    (htext : 1 ≤ draft.text.length ∧ draft.text.length ≤ 4096)
    (hpath : draft.structuralPath.length ≤ 32) (hkind : draft.sourceKind.length ≤ 32)
    (hprofile : isDigest draft.profile = true)
    (hversion : draft.documentVersionId = draft.evidence.documentVersionId)
    (hextraction : draft.extractionId = draft.evidence.extractionId) :
    recordValues ids draft = .ok { draft with recordId := draft.identity ids } := by
  unfold recordValues
  dsimp only
  rw [if_pos]
  simp only [RetrievalRecord.valid, Bool.and_eq_true, decide_eq_true_eq, beq_iff_eq]
  exact ⟨⟨⟨⟨⟨⟨⟨htext.1, htext.2⟩, hpath⟩, hkind⟩, hprofile⟩, rfl⟩, hversion⟩, hextraction⟩

/-- **Records partition the included blocks.**  `split` yields slices that follow each other, within
the limits and together the text, or raises the limit, whatever the tokenizer counts.  When `records`
returns, the texts of the records in order are the texts of the included blocks in reading order,
their ids are distinct, and the evidence of each resolves to its text.  It raises no
`provenance_invalid`; for the document of the artifact, every slice resolves. -/
theorem records_partition (hc : ids.CollisionFree) :
    (∀ (encoder : RetrievalEncoder) (text : Str), (encoder.split text).2 = .error .embeddingLimit ∨
      (encoder.split text).2 = .ok () ∧ Covers encoder text 0 (encoder.split text).1 ∧
        (encoder.split text).1.flatMap Slice.text = text) ∧
    ∀ (document : Publication.AcceptedDocument U) (artifact : ExtractionArtifact U)
      (digest : DigestArtifact U) (plan : Plan U) (encoder : RetrievalEncoder),
      artifact.valid ids = true →
      (∀ rows, records ids document artifact plan encoder digest = .ok rows →
        rows.flatMap (fun r => r.text)
            = (includedBlocks artifact digest).flatMap (fun p => p.2.sourceText) ∧
          (rows.map fun r => r.recordId).Nodup ∧
          ∀ r ∈ rows, resolve artifact r.evidence = .ok r.text) ∧
      records ids document artifact plan encoder digest ≠ .error .provenanceInvalid ∧
      (Accepts document artifact → ∀ e, records ids document artifact plan encoder digest = .error e →
        e = .embeddingLimit ∨ e = .validation) := by
  constructor
  · intro encoder text
    rcases (@splitFrom_cases encoder text 0).2 with herror | ⟨hended, hcovers⟩
    · exact Or.inl herror
    · refine Or.inr ⟨hended, hcovers, ?_⟩
      exact hcovers.flatMap_text
  · intro document artifact digest plan encoder hvalid
    refine ⟨fun rows h => ?_, fun h => ?_, fun haccepts e h => ?_⟩
    · unfold records at h
      rw [bind_eq_ok] at h
      obtain ⟨rows, hrows, h⟩ := h
      obtain rfl := Except.ok.inj h
      have hnd : ((includedBlocks artifact digest).map fun p => p.2.blockId).Nodup :=
        (inventory_nodup hc hvalid).sublist (List.filter_sublist.map _)
      obtain ⟨htext, htags, hall⟩ := blocks_ok hnd
        ((mapM_eq_ok.mp hrows).imp fun _ _ h => blockRecords_ok h)
      refine ⟨htext, ?_, fun r hr => (hall r hr).2.2⟩
      -- one id, one block and one end
      rw [List.nodup_iff_pairwise_ne, List.pairwise_map] at htags ⊢
      refine htags.imp_of_mem fun {r s} hr hs hne heq => hne ?_
      rw [(hall r hr).2.1, (hall s hs).2.1] at heq
      obtain ⟨hblock, hstop⟩ := evidence_of_identity hc heq
      exact Prod.ext hblock hstop
    · rcases records_error h with hlimit | ⟨p, hp, slice, hcut, herror⟩
      · cases hlimit
      · exact sliceRecord_ne_provenanceInvalid hc hvalid hp hcut herror
    · rcases records_error h with hlimit | ⟨p, hp, slice, hcut, herror⟩
      · exact Or.inl hlimit
      · exact Or.inr (sliceRecord_error hc hvalid haccepts hp hcut herror)

/-! ### The records of one block -/

section Sample

/-- The profile with its defaults, but for the names. -/
def sampleRetrieval : RetrievalProfile :=
  ⟨"source-retrieval/1".toList, "m".toList, "r".toList, 384, 240, 4096, by decide, by decide, by decide⟩

/-- An encoder that counts characters. -/
def sampleEncoder : RetrievalEncoder := ⟨sampleRetrieval, List.length⟩

/-- Identities under which the sample is valid, and the profile has a digest. -/
def retrievalIds : Ids Nat := tableIds keep (sampleTable []) [canonical sampleRetrieval.modelDump]

def retrievedDocument : Publication.AcceptedDocument Nat :=
  ⟨sampleScope, sampleDocument.documentId, sampleDocument.documentVersionId,
    sampleArtifact.extractionId, sampleDocument.source⟩

/-- A digest that includes the one block. -/
def includingDigest : DigestArtifact Nat :=
  { documentVersionId := 0, extraction := sampleDocument.source, plan := sampleDocument.source
    profile := [], status := .complete, executiveSummary := [], root := 10, sections := []
    findings := [], synthesisClaims := [], qualifications := [], contradictions := []
    openQuestions := [], coverage := ⟨[4], [4], [], [], [], [4], 1⟩, limitations := []
    evidence := [], checkpoints := [] }

theorem sample_split : sampleEncoder.split sampleText = ([⟨0, 6, sampleText⟩], .ok ()) :=
  split_whole (List.cons_ne_nil _ _) (by decide) (by decide)

theorem sample_records : ∃ rows, records retrievalIds retrievedDocument sampleArtifact
    (legacyPlan keep) sampleEncoder includingDigest = .ok rows := by
  have hvalid : sampleArtifact.valid retrievalIds = true := table_valid smallCut_keep
  have hmem : (sampleUnit, sampleBlock) ∈ inventory sampleArtifact := List.mem_cons_self ..
  have hcut : Cut sampleEncoder sampleBlock.sourceText ⟨0, 6, sampleText⟩ :=
    ⟨by decide, by decide, by decide, by decide, rfl⟩
  have haccepts : Accepts retrievedDocument sampleArtifact := ⟨rfl, rfl, rfl⟩
  have hdigest : isDigest (sampleEncoder.profile.digest retrievalIds) = true := by
    have hfirst : sampleEncoder.profile.digest retrievalIds = digestDigits 0 := sha256_tableIds rfl
    rw [hfirst]
    exact isDigest_digestDigits (by omega)
  obtain ⟨row, hrow⟩ : ∃ row, sliceRecord retrievalIds retrievedDocument sampleArtifact
      (legacyPlan keep) sampleEncoder sampleUnit sampleBlock ⟨0, 6, sampleText⟩ = .ok row := by
    unfold sliceRecord
    dsimp only
    rw [sliceSpan_valid hcut, resolve_slice_ok (tableIds_collisionFree _ _) hvalid haccepts hmem hcut,
      if_neg (by decide)]
    dsimp only
    rw [if_neg (not_not.mpr rfl)]
    have hpath : ((owners (legacyPlan keep)).get? sampleBlock.blockId).getD [] = [] := rfl
    refine ⟨_, recordValues_eq_ok ?_ ?_ ?_ ?_ ?_ ?_⟩
    · show 1 ≤ sampleText.length ∧ sampleText.length ≤ 4096
      decide
    · show (((owners (legacyPlan keep)).get? sampleBlock.blockId).getD []).length ≤ 32
      rw [hpath]
      exact Nat.zero_le _
    · show BlockKind.paragraph.name.length ≤ 32
      decide
    · dsimp only
      exact hdigest
    · rfl
    · rfl
  have hblock : blockRecords retrievalIds retrievedDocument sampleArtifact (legacyPlan keep)
      sampleEncoder sampleUnit sampleBlock = .ok [row] := by
    unfold blockRecords
    rw [show sampleBlock.sourceText = sampleText from rfl, sample_split]
    refine bind_eq_ok.mpr ⟨[row], mapM_eq_ok.mpr (.cons hrow .nil), ?_⟩
    rfl
  have hincluded : includedBlocks sampleArtifact includingDigest = [(sampleUnit, sampleBlock)] := rfl
  unfold records
  rw [hincluded]
  exact ⟨_, bind_eq_ok.mpr ⟨[[row]], mapM_eq_ok.mpr (.cons hblock .nil), rfl⟩⟩

/-- The sample's records have the text of its one block. -/
theorem records_partition_sample : ∃ rows, records retrievalIds retrievedDocument sampleArtifact
    (legacyPlan keep) sampleEncoder includingDigest = .ok rows ∧
      rows.flatMap (fun r => r.text) = sampleText ∧ (rows.map fun r => r.recordId).Nodup := by
  obtain ⟨rows, hrows⟩ := sample_records
  have hvalid : sampleArtifact.valid retrievalIds = true := table_valid smallCut_keep
  obtain ⟨hreturned, -, -⟩ := (records_partition (tableIds_collisionFree _ _)).2 retrievedDocument
    sampleArtifact includingDigest (legacyPlan keep) sampleEncoder hvalid
  obtain ⟨htext, hnodup, -⟩ := hreturned rows hrows
  exact ⟨rows, hrows, htext, hnodup⟩

end Sample

end Polymind.Publication.Planning
