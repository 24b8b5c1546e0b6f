import Polymind.Documents.Equiv.Assumptions
import Polymind.Documents.Extraction
import Polymind.Digestion.Equiv.Resolution
import Polymind.Lib.Lines

/-!
# What is extracted is valid

The loop of `_unit` lays the pieces of a text out one after the other (`layout`): the block at an
index has the number of the pieces before it for its number, and their length for its offset.
`validate_graph` counts both as it goes, and lines by their LF; on the lines of a text
(`Text.Lines`) the counts are the same.

* `extracted_valid`: every artifact that is constructed is valid;
* `unitOf_ne_validation`: no unit fails its own validation, if its page has a size.
-/

namespace Polymind.Documents

open Json Storage Digestion

variable {U : Type} {ids : Ids U} {extractionId sourceId : U} {plainText : Bool}

/-! ### Blocks -/

section

variable (ids extractionId sourceId plainText)

/-- Blocks of pieces that follow each other, from an index and an offset. -/
def layout : Nat → Nat → List Str → List (Block U)
  | _, _, [] => []
  | index, offset, piece :: pieces =>
    blockAt ids extractionId sourceId plainText index offset piece
      :: layout (index + 1) (offset + piece.length) pieces

end

/-- The loop appends the pieces that are not empty. -/
theorem addPieces_ok {maxBlocks : Nat} {pieces : List Str} {state state' : List (Block U) × Nat}
    (h : pieces.foldlM (addPiece ids extractionId sourceId maxBlocks plainText) state = .ok state') :
    state'.1 = state.1 ++ layout ids extractionId sourceId plainText state.1.length state.2
      (pieces.filter fun piece => piece ≠ []) := by
  induction pieces generalizing state with
  | nil =>
    obtain rfl := Except.ok.inj h
    exact (List.append_nil _).symm
  | cons piece pieces ih =>
    rw [List.foldlM_cons, bind_eq_ok] at h
    obtain ⟨next, hnext, h⟩ := h
    rw [ih h]
    unfold addPiece at hnext
    by_cases hpiece : piece = []
    · rw [if_pos hpiece] at hnext
      obtain rfl := Except.ok.inj hnext
      rw [List.filter_cons_of_neg (by simpa using hpiece)]
    · rw [if_neg hpiece] at hnext
      split at hnext
      · cases hnext
      · obtain rfl := Except.ok.inj hnext
        rw [List.filter_cons_of_pos (by simpa using hpiece), layout, List.append_assoc,
          List.length_append, List.length_singleton]
        rfl

theorem layout_texts (index offset : Nat) (pieces : List Str) :
    (layout ids extractionId sourceId plainText index offset pieces).map Block.sourceText = pieces := by
  induction pieces generalizing index offset with
  | nil => rfl
  | cons piece pieces ih => rw [layout, List.map_cons, ih]; rfl

theorem layout_getElem? (index offset : Nat) (pieces : List Str) (i : Nat) :
    (layout ids extractionId sourceId plainText index offset pieces)[i]?
      = pieces[i]?.map (blockAt ids extractionId sourceId plainText (index + i)
          (offset + (pieces.take i).flatten.length)) := by
  induction pieces generalizing index offset i with
  | nil => rfl
  | cons piece pieces ih =>
    cases i with
    | zero => rfl
    | succ i =>
      rw [layout, List.getElem?_cons_succ, List.getElem?_cons_succ, ih, List.take_succ_cons,
        List.flatten_cons, List.length_append, Nat.add_assoc, Nat.add_assoc, Nat.add_comm 1 i]

/-- A block of a layout is the one at its index. -/
theorem mem_layout {index offset : Nat} {pieces : List Str} {b : Block U}
    (h : b ∈ layout ids extractionId sourceId plainText index offset pieces) :
    ∃ i piece start, piece ∈ pieces ∧ b = blockAt ids extractionId sourceId plainText i start piece := by
  obtain ⟨i, hi⟩ := List.mem_iff_getElem?.mp h
  rw [layout_getElem?, Option.map_eq_some_iff] at hi
  obtain ⟨piece, hpiece, rfl⟩ := hi
  exact ⟨_, piece, _, List.mem_of_getElem? hpiece, rfl⟩

/-- Blocks that stand one after the other between two offsets. -/
def Contiguous : Nat → Nat → List (Block U) → Prop
  | start, stop, [] => start = stop
  | start, stop, b :: blocks =>
    b.span.start = start ∧ start ≤ b.span.stop ∧ Contiguous b.span.stop stop blocks

theorem layout_contiguous (index offset : Nat) (pieces : List Str) :
    Contiguous offset (offset + pieces.flatten.length)
      (layout ids extractionId sourceId plainText index offset pieces) := by
  induction pieces generalizing index offset with
  | nil => exact (Nat.add_zero _).symm
  | cons piece pieces ih =>
    have hrest := ih (index + 1) (offset + piece.length)
    rw [Nat.add_assoc, ← List.length_append, ← List.flatten_cons] at hrest
    exact ⟨rfl, Nat.le_add_right .., hrest⟩

theorem layout_blockIds_nodup (hc : ids.CollisionFree) (index offset : Nat) (pieces : List Str) :
    ((layout ids extractionId sourceId plainText index offset pieces).map Block.blockId).Nodup ∧
      ∀ b ∈ layout ids extractionId sourceId plainText index offset pieces, ∃ i, index ≤ i ∧
        b.blockId = ids.stableId [ids.uuidStr extractionId, ids.uuidStr sourceId, natText i] := by
  induction pieces generalizing index offset with
  | nil => exact ⟨List.nodup_nil, fun _ h => absurd h List.not_mem_nil⟩
  | cons piece pieces ih =>
    obtain ⟨hnodup, hids⟩ := ih (index + 1) (offset + piece.length)
    rw [layout, List.map_cons, List.nodup_cons, List.forall_mem_cons]
    refine ⟨⟨fun hmem => ?_, hnodup⟩, ⟨index, Nat.le_refl _, rfl⟩, fun b hb => ?_⟩
    · obtain ⟨b, hb, hid⟩ := List.mem_map.mp hmem
      obtain ⟨i, hle, hbid⟩ := hids b hb
      rw [hbid] at hid
      have hparts := hc.stableId_injective hid
      simp only [List.cons.injEq, and_true, true_and] at hparts
      have := natText_injective hparts
      omega
    · obtain ⟨i, hle, hbid⟩ := hids b hb
      exact ⟨i, by omega, hbid⟩

/-! ### Pieces -/

/-- The pieces that become blocks. -/
def blockTexts (plainText : Bool) (text : Str) : List Str :=
  (pieces plainText text).filter fun piece => piece ≠ []

/-- The blocks of a plain text are its lines. -/
theorem blockTexts_lines (text : Str) : Text.Lines (blockTexts true text) := by
  have hterminated := Text.map_zipIdx_terminated (text.splitOn '\n') 0
  simp only [Nat.zero_add] at hterminated
  unfold blockTexts pieces
  rw [if_pos rfl, hterminated]
  exact Text.lines_terminated fun _ => Text.not_mem_splitOn

theorem blockTexts_flatten (plainText : Bool) (text : Str) : (blockTexts plainText text).flatten = text := by
  have hfilter (parts : List Str) : (parts.filter fun piece => piece ≠ []).flatten = parts.flatten := by
    induction parts with
    | nil => rfl
    | cons part parts ih =>
      by_cases hpart : part = []
      · rw [List.filter_cons_of_neg (by simpa using hpart), ih, hpart]
        rfl
      · rw [List.filter_cons_of_pos (by simpa using hpart), List.flatten_cons, ih, List.flatten_cons]
  unfold blockTexts
  rw [hfilter]
  unfold pieces
  cases plainText with
  | true =>
    have hterminated := Text.map_zipIdx_terminated (text.splitOn '\n') 0
    simp only [Nat.zero_add] at hterminated
    rw [if_pos rfl, hterminated]
    exact Text.flatten_terminated text
  | false =>
    rw [if_neg (by decide)]
    split
    · rename_i hempty
      exact hempty.symm
    · exact List.flatten_singleton

/-! ### The running counts -/

variable [DecidableEq U] {a : ExtractionArtifact U} {unit : TextUnit U}

/-- The slice of a part in the middle. -/
theorem slice_middle (done piece rest : Str) :
    Text.slice (done ++ (piece ++ rest)) done.length (done.length + piece.length) = piece := by
  unfold Text.slice
  rw [List.take_length_add_append, List.drop_left, List.take_left]

/-- What the loop of `validate_graph` checks of the blocks of a unit, at its running counts.  The line
number is compared for a plain text, while there are lines. -/
theorem layout_cover (hextraction : a.extractionId = extractionId) (hsource : unit.sourceId = sourceId)
    (hplain : a.document.pageCount.isNone = plainText) {pieces : List Str}
    (hlines : plainText = true → Text.Lines pieces) {done : Str} {index line : Nat}
    (htext : unit.text = done ++ pieces.flatten)
    (hline : plainText = true → pieces ≠ [] → line = index + 1) :
    blocksCover ids a unit index done.length line
      (layout ids extractionId sourceId plainText index done.length pieces) = true := by
  induction pieces generalizing done index line with
  | nil =>
    rw [layout, blocksCover, htext, List.flatten_nil, List.append_nil, beq_self_eq_true]
  | cons piece pieces ih =>
    rw [List.flatten_cons] at htext
    have hinside : done.length + piece.length ≤ unit.text.length := by
      rw [htext, List.length_append, List.length_append]
      omega
    have hslice : Text.slice unit.text done.length (done.length + piece.length) = piece := by
      rw [htext, slice_middle]
    have hnumbers : (if a.document.pageCount.isNone then
        (blockAt ids extractionId sourceId plainText index done.length piece).span.lineStart == some line
          && (blockAt ids extractionId sourceId plainText index done.length piece).span.lineEnd
            == some (line + innerNewlines piece)
        else (blockAt ids extractionId sourceId plainText index done.length
          piece).span.lineStart.isNone) = true := by
      rw [hplain]
      cases plainText with
      | true =>
        have hinner : innerNewlines piece = 0 := (hlines rfl).rstrip (List.mem_cons_self ..)
        rw [hinner, hline rfl (List.cons_ne_nil _ _)]
        exact Bool.and_eq_true_iff.mpr ⟨beq_self_eq_true _, beq_self_eq_true _⟩
      | false => rfl
    have hrest : blocksCover ids a unit (index + 1) (done ++ piece).length
        (line + piece.count '\n')
        (layout ids extractionId sourceId plainText (index + 1) (done ++ piece).length pieces) = true := by
      apply ih
      · intro hp
        cases hlines hp with
        | last => exact .nil
        | cons _ hrest => exact hrest
      · rw [htext, List.append_assoc]
      · intro hp hne
        cases hlines hp with
        | last => exact absurd rfl hne
        | cons hone _ => rw [hline hp (List.cons_ne_nil _ _), Text.count_line hone]
    rw [List.length_append] at hrest
    rw [layout, blocksCover, Bool.and_eq_true]
    refine ⟨?_, hrest⟩
    unfold blockChecks
    simp only [Bool.and_eq_true]
    refine ⟨⟨⟨⟨⟨⟨⟨⟨⟨⟨?_, ?_⟩, ?_⟩, ?_⟩, ?_⟩, ?_⟩, rfl⟩, rfl⟩, rfl⟩, hnumbers⟩, rfl⟩
    · rw [hextraction, hsource]
      exact beq_self_eq_true _
    · rw [hsource]
      exact beq_self_eq_true _
    · exact beq_self_eq_true _
    · exact beq_self_eq_true _
    · exact decide_eq_true hinside
    · show (Text.slice unit.text done.length (done.length + piece.length) == piece) = true
      rw [hslice, beq_self_eq_true]

/-! ### Units -/

omit [DecidableEq U] in
/-- A decision is about the observations it was made of. -/
theorem decide_about (sourceId : U) (o : Observations) :
    (Policy.decide sourceId o).sourceId = sourceId ∧ (Policy.decide sourceId o).observations = o := by
  unfold Policy.decide
  dsimp only
  split_ifs <;> exact ⟨rfl, rfl⟩

section

variable (ids extractionId plainText) (versionId : U) (parserVersion : Str) (structureRequired : Bool)
  (page : ParsedPage)

/-- The blocks of a page, laid out. -/
def pageBlocks : List (Block U) :=
  layout ids extractionId (sourceIdOf ids versionId plainText page) plainText 0 0
    (blockTexts plainText page.text)

/-- The unit of a page. -/
def pageUnit : TextUnit U :=
  textUnit ids versionId parserVersion structureRequired plainText page
    (pageBlocks ids extractionId plainText versionId page)

end

variable {versionId : U} {parserVersion : Str} {maxBlocks : Nat} {structureRequired : Bool}
  {page : ParsedPage}

omit [DecidableEq U] in
theorem addPieces_pageBlocks {state : List (Block U) × Nat}
    (h : (pieces plainText page.text).foldlM (addPiece ids extractionId
      (sourceIdOf ids versionId plainText page) maxBlocks plainText) ([], 0) = .ok state) :
    state.1 = pageBlocks ids extractionId plainText versionId page := addPieces_ok h

theorem unitOf_ok (h : unitOf ids versionId extractionId parserVersion structureRequired plainText page
    maxBlocks = .ok unit) :
    unit = pageUnit ids extractionId plainText versionId parserVersion structureRequired page ∧
      unit.fieldsValid ids = true := by
  unfold unitOf at h
  rw [ite_error_eq_ok, bind_eq_ok] at h
  obtain ⟨-, state, hblocks, h⟩ := h
  dsimp only at h
  rw [addPieces_pageBlocks hblocks] at h
  split at h
  · rename_i hvalid
    obtain rfl := Except.ok.inj h
    exact ⟨rfl, hvalid⟩
  · cases h

omit [DecidableEq U] in
theorem addPieces_ne_validation {pieces : List Str} {state : List (Block U) × Nat} :
    pieces.foldlM (addPiece ids extractionId sourceId maxBlocks plainText) state
      ≠ .error .validation := by
  apply foldlM_ne_error
  intro state piece _
  unfold addPiece
  split_ifs <;> nofun

theorem unitOf_ne_validation (hvalid : (pageUnit ids extractionId plainText versionId parserVersion
    structureRequired page).fieldsValid ids = true) :
    unitOf ids versionId extractionId parserVersion structureRequired plainText page maxBlocks
      ≠ .error .validation := by
  unfold unitOf
  split
  · intro h
    cases h
  · apply bind_ne_error addPieces_ne_validation
    intro state hblocks
    dsimp only
    rw [addPieces_pageBlocks hblocks]
    show (if (pageUnit ids extractionId plainText versionId parserVersion structureRequired
      page).fieldsValid ids = true then _ else _) ≠ _
    rw [if_pos hvalid]
    intro h
    cases h

/-- The artifact is extracted with these parameters. -/
structure ExtractedWith (a : ExtractionArtifact U) (extractionId versionId : U) (parserVersion : Str)
    (structureRequired plainText : Bool) : Prop where
  extraction : a.extractionId = extractionId
  version : a.document.documentVersionId = versionId
  parser : a.parserVersion = parserVersion
  required : a.structureRequired = structureRequired
  plain : a.document.pageCount.isNone = plainText

/-- A plain text has no page. -/
def ParsedPage.Bare (page : ParsedPage) : Prop :=
  page.label = none ∧ page.width = none ∧ page.height = none ∧ page.rotation = none

theorem pageUnit_checks (hc : ids.CollisionFree)
    (ha : ExtractedWith a extractionId versionId parserVersion structureRequired plainText)
    (hbare : plainText = true → page.Bare) :
    unitChecks ids a
      (pageUnit ids extractionId plainText versionId parserVersion structureRequired page) = true := by
  set unit := pageUnit ids extractionId plainText versionId parserVersion structureRequired page with hunit
  have hdecision := decide_about unit.sourceId
    (observe ids page structureRequired unit.blocks.length)
  have hsourceId : unit.sourceId = expectedSource ids a unit := by
    unfold expectedSource
    rw [ha.version]
    cases plainText <;> rfl
  have hnodup : (unit.blocks.map Block.blockId).Nodup := (layout_blockIds_nodup hc 0 0 _).1
  have hcover : blocksCover ids a unit 0 0 1 unit.blocks = true := by
    have hlines : plainText = true → Text.Lines (blockTexts plainText page.text) := by
      rintro rfl
      exact blockTexts_lines _
    have htext : unit.text = [] ++ (blockTexts plainText page.text).flatten :=
      (blockTexts_flatten _ _).symm
    exact layout_cover ha.extraction rfl ha.plain hlines htext fun _ _ => rfl
  have hmeta : (unit.physicalPage.isSome || (unit.printedLabel.isNone && unit.width.isNone
      && unit.height.isNone && unit.rotation.isNone)) = true := by
    cases plainText with
    | false => rfl
    | true =>
      obtain ⟨hlabel, hwidth, hheight, hrotation⟩ := hbare rfl
      show (false || (page.label.isNone && page.width.isNone && page.height.isNone
        && page.rotation.isNone)) = true
      rw [hlabel, hwidth, hheight, hrotation]
      rfl
  have hfailed : page.failed = decide (unit.status = .failed) := by
    show page.failed = decide (statusOf page = .failed)
    unfold statusOf
    split_ifs with hf <;> simp [hf]
  have hobservations : unit.decision.observations
      = observe ids page structureRequired unit.blocks.length := hdecision.2
  have habout : unit.decision.sourceId = unit.sourceId := hdecision.1
  unfold unitChecks
  dsimp only
  have htext : unit.text = page.text := rfl
  have hversion : unit.documentVersionId = versionId := rfl
  have hparser : unit.parserVersion = parserVersion := rfl
  rw [hobservations, habout, hcover, hmeta, decide_eq_true hnodup, ← hsourceId, ← hfailed, ha.version,
    ha.parser, ha.required, htext, hversion, hparser]
  simp only [observe, beq_self_eq_true, Bool.and_true]

/-- The division of a count of characters by the length of their text is a fraction. -/
def DividesToRatio (ids : Ids U) : Prop := ∀ m n, m ≤ n → 0 < n → isRatio (ids.divide m n) = true

/-- A page with the metadata of a page: it has a number, and its size is positive. -/
def ParsedPage.Sized (page : ParsedPage) : Prop :=
  1 ≤ page.ordinal ∧ (∀ w, page.width = some w → 0 < w) ∧ ∀ h, page.height = some h → 0 < h

theorem pageUnit_fieldsValid (hratio : DividesToRatio ids) (hsized : page.Sized) :
    (pageUnit ids extractionId plainText versionId parserVersion structureRequired page).fieldsValid ids
      = true := by
  obtain ⟨hordinal, hwidth, hheight⟩ := hsized
  have hobservations := (decide_about (sourceIdOf ids versionId plainText page)
    (observe ids page structureRequired
      (pageBlocks ids extractionId plainText versionId page).length)).2
  have hone : isRatio 1 = true := by decide
  have hzero : isRatio 0 = true := by decide
  have hpos (h : ¬page.text.isEmpty = true) : 0 < page.text.length :=
    List.length_pos_of_ne_nil (by simpa using h)
  unfold TextUnit.fieldsValid
  simp only [Bool.and_eq_true]
  refine ⟨⟨⟨⟨⟨⟨?_, ?_⟩, ?_⟩, rfl⟩, ?_⟩, ?_⟩, ?_⟩
  · show ((if plainText = true then none else some page.ordinal).all (1 ≤ ·)) = true
    cases plainText with
    | true => rfl
    | false => exact decide_eq_true hordinal
  · show page.width.all (0 < ·) = true
    cases hw : page.width with
    | none => rfl
    | some w => exact decide_eq_true (hwidth w hw)
  · show page.height.all (0 < ·) = true
    cases hh : page.height with
    | none => rfl
    | some h => exact decide_eq_true (hheight h hh)
  · show isRatio (Policy.decide _ _).observations.printableRatio = true
    rw [hobservations]
    unfold observe
    dsimp only
    split
    · exact hone
    · rename_i hne
      exact hratio _ _ List.countP_le_length (hpos hne)
  · show isRatio (Policy.decide _ _).observations.replacementRatio = true
    rw [hobservations]
    unfold observe
    dsimp only
    split
    · exact hzero
    · rename_i hne
      exact hratio _ _ List.count_le_length (hpos hne)
  · rw [List.all_eq_true]
    intro b hb
    obtain ⟨i, piece, start, -, rfl⟩ := mem_layout hb
    unfold Block.fieldsValid Span.valid blockAt
    cases plainText <;> simp

/-! ### What reaches the store -/

theorem boundedReadFrom_ok {limit : Nat} {before rest data : Storage.Bytes} (hbefore : before.length ≤ limit)
    (h : boundedReadFrom limit before rest = .ok data) : data = before ++ rest ∧ data.length ≤ limit := by
  fun_induction boundedReadFrom limit before rest with
  | case1 before =>
    obtain rfl := Except.ok.inj h
    rw [List.append_nil]
    exact ⟨rfl, hbefore⟩
  | case2 => cases h
  | case3 before rest chunk hne hfits ih =>
    obtain ⟨hdata, hlength⟩ := ih (by omega) h
    have hchunk : chunk ++ rest.drop chunk.length = rest :=
      List.prefix_iff_eq_append.mp (List.take_prefix _ _)
    rw [List.append_assoc, hchunk] at hdata
    exact ⟨hdata, hlength⟩

theorem boundedRead_ok {stream data : Storage.Bytes} {limit : Nat} (h : boundedRead stream limit = .ok data) :
    data = stream ∧ data.length ≤ limit := boundedReadFrom_ok (Nat.zero_le _) h

/-- The pages of a document: one bare page with the text that the bytes decode to, or the pages of
the parser, numbered from 1. -/
def PagesOf (limits : ExtractionSettings) (data : Storage.Bytes) : Mime → List ParsedPage → Prop
  | .textPlain, pages => ∃ text, decodeUtf8 data = some text ∧
    pages = [{ ordinal := 1, text, hasImages := some false, hasGraphics := some false }]
  | .applicationPdf, pages => pages ≠ [] ∧ pages.length ≤ limits.maxPages ∧
    pages.map ParsedPage.ordinal = List.range' 1 pages.length

theorem raiseCategory_ok {α : Type} {x : Except Category α} {y : α} (h : raiseCategory x = .ok y) :
    x = .ok y := by
  cases x with
  | ok a =>
    obtain rfl := Except.ok.inj h
    rfl
  | error category => cases h

theorem plainPages_ok {limits : ExtractionSettings} {data : Storage.Bytes} {pages : List ParsedPage}
    (h : plainPages limits data = .ok pages) : PagesOf limits data .textPlain pages := by
  unfold plainPages at h
  split at h
  · cases h
  · rename_i text hdecode
    rw [ite_error_eq_ok, ite_error_eq_ok] at h
    obtain ⟨-, -, h⟩ := h
    exact ⟨text, hdecode, (Except.ok.inj h).symm⟩

theorem parsedPages_ok {runner : ParserRunner} {limits : ExtractionSettings} {data : Storage.Bytes}
    {pages : List ParsedPage} (h : parsedPages runner limits data = .ok pages) :
    PagesOf limits data .applicationPdf pages := by
  unfold parsedPages at h
  split at h
  · cases h
  · cases h
  · cases h
  · rw [ite_error_eq_ok, ite_error_eq_ok, ite_error_eq_ok] at h
    obtain ⟨hne, hlength, hordinals, h⟩ := h
    obtain rfl := Except.ok.inj h
    exact ⟨hne, Nat.le_of_not_lt hlength, not_not.mp hordinals⟩

theorem readPages_ok {runner : ParserRunner} {limits : ExtractionSettings} {data : Storage.Bytes}
    {detected : Mime} {pages : List ParsedPage} {parserVersion : Str}
    (h : readPages runner limits data detected = .ok (pages, parserVersion)) :
    PagesOf limits data detected pages := by
  cases detected with
  | textPlain =>
    unfold readPages at h
    rw [bind_eq_ok] at h
    obtain ⟨read, hread, h⟩ := h
    obtain ⟨rfl, -⟩ := Prod.mk.inj (Except.ok.inj h)
    exact plainPages_ok (raiseCategory_ok hread)
  | applicationPdf =>
    unfold readPages at h
    rw [bind_eq_ok] at h
    obtain ⟨read, hread, h⟩ := h
    obtain ⟨rfl, -⟩ := Prod.mk.inj (Except.ok.inj h)
    exact parsedPages_ok hread

variable {env : StoreEnv U} {args : ExtractArgs U} {runner : ParserRunner} {stream : Storage.Bytes}
  {e : Extracted U}

/-- The unit of a page of what was extracted. -/
def Extracted.unitFor (env : StoreEnv U) (args : ExtractArgs U) (e : Extracted U) (page : ParsedPage) :
    TextUnit U :=
  pageUnit env.toIds (extractionIdOf env args e.data e.parserVersion) (e.detected = .textPlain)
    (versionIdOf env args e.data) e.parserVersion args.structureRequired page

/-- What is known of what reaches the store. -/
structure Ready (env : StoreEnv U) (args : ExtractArgs U) (stream : Storage.Bytes) (e : Extracted U) :
    Prop where
  filename : args.displayFilename.length ≤ 512
  data : e.data = stream
  size : e.data.length ≤ args.limits.maxSourceBytes
  pages : PagesOf args.limits e.data e.detected e.pages
  characters : (e.pages.map fun page => page.text.length).sum ≤ args.limits.maxCharacters
  units : e.units = e.pages.map (e.unitFor env args)
  fieldsValid : ∀ unit ∈ e.units, unit.fieldsValid env.toIds = true
  blocks : (e.units.map fun unit => unit.blocks.length).sum ≤ args.limits.maxBlocks

theorem extracted_ok (h : extracted env args runner stream = .ok e) : Ready env args stream e := by
  unfold extracted at h
  rw [ite_error_eq_ok, bind_eq_ok] at h
  obtain ⟨hfilename, data, hdata, h⟩ := h
  obtain ⟨rfl, hsize⟩ := boundedRead_ok (raiseCategory_ok hdata)
  rw [ite_error_eq_ok, bind_eq_ok] at h
  obtain ⟨-, detected, -, h⟩ := h
  rw [bind_eq_ok] at h
  obtain ⟨⟨pages, parserVersion⟩, hpages, h⟩ := h
  dsimp only at h
  rw [ite_error_eq_ok] at h
  obtain ⟨hcharacters, h⟩ := h
  split at h
  · cases h
  · cases h
  · rename_i units hunits
    rw [ite_error_eq_ok] at h
    obtain ⟨hblocks, h⟩ := h
    obtain rfl := Except.ok.inj h
    have hforall := mapM_eq_ok.mp hunits
    refine ⟨Nat.le_of_not_lt hfilename, rfl, hsize, readPages_ok hpages, Nat.le_of_not_lt hcharacters,
      ?_, ?_, Nat.le_of_not_lt hblocks⟩
    · have hmap := map_eq_of_forall₂ (g := id) hforall fun page unit hok => (unitOf_ok hok).1.symm
      rw [List.map_id] at hmap
      exact hmap.symm
    · intro unit hunit
      obtain ⟨page, -, hok⟩ := mem_of_forall₂ hforall hunit
      exact (unitOf_ok hok).2

/-! ### The artifact -/

omit [DecidableEq U] in
theorem artifactOf_with (env : StoreEnv U) (args : ExtractArgs U) (e : Extracted U) :
    ExtractedWith (artifactOf env args e) (extractionIdOf env args e.data e.parserVersion)
      (versionIdOf env args e.data) e.parserVersion args.structureRequired
      (decide (e.detected = .textPlain)) := by
  refine ⟨rfl, rfl, rfl, rfl, ?_⟩
  unfold artifactOf
  cases e.detected <;> rfl

/-- The page of a plain text is bare. -/
theorem PagesOf.bare {limits : ExtractionSettings} {data : Storage.Bytes} {pages : List ParsedPage}
    (h : PagesOf limits data .textPlain pages) : ∀ page ∈ pages, page.Bare := by
  obtain ⟨text, -, rfl⟩ := h
  intro page hpage
  obtain rfl := List.mem_singleton.mp hpage
  exact ⟨rfl, rfl, rfl, rfl⟩

/-- The inventory of pages that `validate_graph` expects. -/
theorem Ready.physicalPages (h : Ready env args stream e) :
    e.units.map TextUnit.physicalPage = match (artifactOf env args e).document.pageCount with
      | none => [none]
      | some n => (List.range n).map fun i => some (i + 1) := by
  have hunits : e.units.map TextUnit.physicalPage
      = e.pages.map fun page => if e.detected = .textPlain then none else some page.ordinal := by
    rw [h.units, List.map_map]
    refine List.map_congr_left fun page _ => ?_
    show (if decide (e.detected = .textPlain) = true then none else some page.ordinal) = _
    simp only [decide_eq_true_eq]
  have hpages := h.pages
  rw [hunits]
  unfold artifactOf
  cases hdetected : e.detected with
  | textPlain =>
    rw [hdetected] at hpages
    obtain ⟨text, -, hpages⟩ := hpages
    rw [hpages]
    rfl
  | applicationPdf =>
    rw [hdetected] at hpages
    obtain ⟨-, -, hordinals⟩ := hpages
    show (e.pages.map fun page => some page.ordinal) = (List.range e.pages.length).map fun i => some (i + 1)
    have hsome := congrArg (List.map some) hordinals
    rw [List.map_map, List.range'_eq_map_range, List.map_map] at hsome
    rw [show (fun page : ParsedPage => some page.ordinal) = some ∘ ParsedPage.ordinal from rfl, hsome]
    refine List.map_congr_left fun i _ => ?_
    rw [Function.comp_apply, Nat.add_comm]

/-- No two pages have one source id. -/
theorem Ready.sourceIds_nodup (hc : env.toIds.CollisionFree) (h : Ready env args stream e) :
    (e.units.map TextUnit.sourceId).Nodup := by
  have hunits : e.units.map TextUnit.sourceId = e.pages.map
      (sourceIdOf env.toIds (versionIdOf env args e.data) (decide (e.detected = .textPlain))) := by
    rw [h.units, List.map_map]
    rfl
  have hpages := h.pages
  rw [hunits]
  cases hdetected : e.detected with
  | textPlain =>
    rw [hdetected] at hpages
    obtain ⟨text, -, hpages⟩ := hpages
    rw [hpages]
    exact List.nodup_singleton _
  | applicationPdf =>
    rw [hdetected] at hpages
    obtain ⟨-, -, hordinals⟩ := hpages
    have hnodup : (e.pages.map ParsedPage.ordinal).Nodup := hordinals ▸ List.nodup_range'
    rw [List.nodup_iff_pairwise_ne, List.pairwise_map] at hnodup ⊢
    refine hnodup.imp fun {p q} hne heq => hne ?_
    have hparts := hc.stableId_injective heq
    simp only [List.cons.injEq, and_true, true_and] at hparts
    exact natText_injective (List.append_cancel_left hparts)

theorem document_valid (hdigest : ∀ data, isDigest (env.hexdigest data) = true)
    (h : Ready env args stream e) : (artifactOf env args e).document.valid env.toIds = true := by
  have hkey : (PutArgs.ref env (sourceArgs env args e.data) e.data).valid env.toIds = true := by
    unfold ObjectRef.valid
    rw [Bool.and_eq_true]
    exact ⟨hdigest _, beq_self_eq_true _⟩
  have hpages := h.pages
  have hcount : ((artifactOf env args e).document.pageCount.all (1 ≤ ·)) = true ∧
      (decide ((artifactOf env args e).document.detectedMime = .applicationPdf)
        == (artifactOf env args e).document.pageCount.isSome) = true := by
    unfold artifactOf
    dsimp only
    cases hdetected : e.detected with
    | textPlain => exact ⟨rfl, rfl⟩
    | applicationPdf =>
      rw [hdetected] at hpages
      exact ⟨decide_eq_true (List.length_pos_of_ne_nil hpages.1), rfl⟩
  unfold Document.valid
  simp only [Bool.and_eq_true]
  refine ⟨⟨⟨⟨⟨⟨⟨⟨hkey, decide_eq_true h.filename⟩, hcount.1⟩, rfl⟩, ?_⟩, ?_⟩, ?_⟩, ?_⟩, hcount.2⟩
  all_goals exact beq_self_eq_true _

/-- The artifact is valid. -/
theorem artifactOf_valid (hc : env.toIds.CollisionFree)
    (hdigest : ∀ data, isDigest (env.hexdigest data) = true) (h : Ready env args stream e) :
    (artifactOf env args e).valid env.toIds = true := by
  have hpages := h.pages
  have hcount : (artifactOf env args e).document.pageCount.getD 0 ≤ args.limits.maxPages := by
    unfold artifactOf
    cases hdetected : e.detected with
    | textPlain => exact Nat.zero_le _
    | applicationPdf =>
      rw [hdetected] at hpages
      exact hpages.2.1
  have hchecks : e.units.all (unitChecks env.toIds (artifactOf env args e)) = true := by
    rw [h.units, List.all_eq_true]
    intro unit hunit
    obtain ⟨page, hpage, rfl⟩ := List.mem_map.mp hunit
    refine pageUnit_checks hc (artifactOf_with env args e) fun hplain => ?_
    rw [of_decide_eq_true hplain] at hpages
    exact hpages.bare page hpage
  have hcharacters : (e.units.map fun u => u.text.length).sum ≤ args.limits.maxCharacters := by
    rw [h.units, List.map_map]
    exact h.characters
  unfold ExtractionArtifact.valid validateGraph
  simp only [Bool.and_eq_true]
  refine ⟨⟨⟨⟨⟨⟨document_valid hdigest h, ?_⟩, ?_⟩, ?_⟩, ?_⟩, ?_⟩, ⟨⟨⟨⟨⟨⟨⟨?_, ?_⟩, ?_⟩, ?_⟩, ?_⟩, ?_⟩, ?_⟩, ?_⟩⟩
  · exact decide_eq_true args.limits.maxSourceBytes_pos
  · exact decide_eq_true args.limits.maxPages_pos
  · exact decide_eq_true args.limits.maxCharacters_pos
  · exact decide_eq_true args.limits.maxBlocks_pos
  · exact List.all_eq_true.mpr h.fieldsValid
  · exact beq_self_eq_true _
  · exact decide_eq_true h.size
  · exact decide_eq_true hcount
  · exact beq_iff_eq.mpr h.physicalPages
  · exact decide_eq_true (h.sourceIds_nodup hc)
  · exact hchecks
  · exact decide_eq_true hcharacters
  · exact decide_eq_true h.blocks

/-! ### The blocks of a unit -/

omit [DecidableEq U] in
theorem pageUnit_texts :
    (pageUnit ids extractionId plainText versionId parserVersion structureRequired page).blocks.flatMap
      Block.sourceText = page.text := by
  show (pageBlocks ids extractionId plainText versionId page).flatMap Block.sourceText = page.text
  unfold pageBlocks
  rw [List.flatMap_def, layout_texts, blockTexts_flatten]

omit [DecidableEq U] in
theorem pageUnit_contiguous : Contiguous 0 page.text.length
    (pageUnit ids extractionId plainText versionId parserVersion structureRequired page).blocks := by
  have h : Contiguous 0 (0 + (blockTexts plainText page.text).flatten.length)
      (pageBlocks ids extractionId plainText versionId page) := layout_contiguous 0 0 _
  rw [blockTexts_flatten, Nat.zero_add] at h
  exact h

/-- A block of a plain text is a line, with its number. -/
structure LineBlock (text : Str) (i : Nat) (b : Block U) : Prop where
  line : Text.LineAt text i b.span.start b.span.stop
  lineStart : b.span.lineStart = some (i + 1)
  lineEnd : b.span.lineEnd = some (i + 1)

omit [DecidableEq U] in
theorem pageUnit_lines {i : Nat} {b : Block U}
    (h : (pageUnit ids extractionId true versionId parserVersion structureRequired page).blocks[i]?
      = some b) : LineBlock page.text i b := by
  have hi : (layout ids extractionId (sourceIdOf ids versionId true page) true 0 0
      (blockTexts true page.text))[i]? = some b := h
  rw [layout_getElem?, Option.map_eq_some_iff] at hi
  obtain ⟨line, hline, rfl⟩ := hi
  have hat := @Text.Lines.lineAt _ (blockTexts_lines page.text) [] (Or.inl rfl) i line hline
  rw [List.nil_append, blockTexts_flatten, List.count_nil, Nat.zero_add, List.length_nil] at hat
  rw [Nat.zero_add]
  exact ⟨hat, rfl, rfl⟩

/-- The reference to a whole block. -/
def blockRef (a : ExtractionArtifact U) (unit : TextUnit U) (b : Block U) : EvidenceRef U :=
  ⟨a.document.scope, a.document.documentVersionId, a.extractionId, unit.sourceId, b.blockId, b.span⟩

/-- A block of one line, or of a page, resolves to its text. -/
theorem resolve_block (hvalid : a.valid ids = true) (hunit : unit ∈ a.units) {b : Block U}
    (hb : b ∈ unit.blocks) (hline : b.span.lineEnd = b.span.lineStart)
    (hinner : a.document.pageCount.isNone = true → innerNewlines b.sourceText = 0) :
    Provenance.resolve (blockRef a unit b) a a.document.scope = .ok b.sourceText := by
  obtain ⟨index, -, hfacts⟩ := inventory_facts hvalid (p := (unit, b)) (mem_inventory.mpr ⟨hunit, hb⟩)
  have hspan : b.span.valid = true := (valid_unit hvalid hunit).2 b hb
  have hinside : b.span.contains b.span = true :=
    Span.contains_iff.mpr ⟨Nat.le_refl _, hfacts.ordered, Nat.le_refl _⟩
  refine (@scan_eq_ok _ _ _ _ (blockRef a unit b) _ hvalid hspan).mpr ⟨unit, b, rfl, rfl, rfl, hunit, hb, rfl,
    rfl, hinside, hfacts.line, ?_, hfacts.text.symm⟩
  show b.span.lineEnd = (lineAt a unit b.span.start).map fun line => line + innerNewlines b.sourceText
  rw [hline, hfacts.line]
  unfold lineAt
  split
  · rename_i hnone
    rw [hinner hnone]
    rfl
  · rfl

/-- The units of an artifact, and their blocks. -/
theorem Ready.blocks_resolve (hc : env.toIds.CollisionFree)
    (hdigest : ∀ data, isDigest (env.hexdigest data) = true) (h : Ready env args stream e) :
    ∀ unit ∈ (artifactOf env args e).units,
      unit.blocks.flatMap Block.sourceText = unit.text ∧
      Contiguous 0 unit.text.length unit.blocks ∧
      ∀ b ∈ unit.blocks, Provenance.resolve (blockRef (artifactOf env args e) unit b)
        (artifactOf env args e) args.scope = .ok b.sourceText := by
  have hvalid := artifactOf_valid hc hdigest h
  have hplain := (artifactOf_with env args e).plain
  intro unit hunit
  have hmem : unit ∈ e.units := hunit
  rw [h.units] at hmem
  obtain ⟨page, -, rfl⟩ := List.mem_map.mp hmem
  refine ⟨pageUnit_texts, pageUnit_contiguous, fun b hb => resolve_block hvalid hunit hb ?_ fun hnone => ?_⟩
  · obtain ⟨i, piece, start, -, rfl⟩ := mem_layout hb
    rfl
  · rw [hplain] at hnone
    obtain ⟨i, piece, start, hpiece, rfl⟩ := mem_layout hb
    rw [hnone] at hpiece
    exact (blockTexts_lines _).rstrip hpiece

/-- **What is extracted is valid.**  Whatever the bytes and whatever the parser makes of them, the
artifact that is constructed passes `validate_graph`: after the pages are read, `extract` fails for a
limit or in the store only.  The blocks of a unit are its text, cut without gaps, and the reference to
each resolves to its text; in a plain text, the block with the number `i` is the line with the number
`i`, from 0, and carries `i + 1`.  No unit fails its validation, if its page has a number and a size. -/
theorem extraction_valid (hc : env.toIds.CollisionFree)
    (hdigest : ∀ data, isDigest (env.hexdigest data) = true) (hratio : DividesToRatio env.toIds) :
    (∀ (args : ExtractArgs U) (runner : ParserRunner) (stream : Storage.Bytes) (e : Extracted U),
      extracted env args runner stream = .ok e →
      (artifactOf env args e).valid env.toIds = true ∧
      (∀ put : PutArgs U → Storage.Bytes → Except Raised Unit,
        (∀ target data, put target data ≠ .error (.documentError .extractionFailed)) →
        extract env args runner put stream ≠ .error (.documentError .extractionFailed)) ∧
      (∀ unit ∈ (artifactOf env args e).units,
        unit.blocks.flatMap Block.sourceText = unit.text ∧
        Contiguous 0 unit.text.length unit.blocks ∧
        ∀ b ∈ unit.blocks, Provenance.resolve (blockRef (artifactOf env args e) unit b)
          (artifactOf env args e) args.scope = .ok b.sourceText) ∧
      (e.detected = .textPlain → ∃ text unit, decodeUtf8 stream = some text ∧
        (artifactOf env args e).units = [unit] ∧ unit.text = text ∧
        ∀ i b, unit.blocks[i]? = some b → LineBlock text i b)) ∧
    ∀ (versionId extractionId : U) (parserVersion : Str) (structureRequired plainText : Bool)
      (page : ParsedPage) (maxBlocks : Nat), page.Sized →
      unitOf env.toIds versionId extractionId parserVersion structureRequired plainText page maxBlocks
        ≠ .error .validation := by
  constructor
  · intro args runner stream e hextracted
    have h := extracted_ok hextracted
    have hvalid := artifactOf_valid hc hdigest h
    refine ⟨hvalid, fun put hput => ?_, h.blocks_resolve hc hdigest, fun hplain => ?_⟩
    · unfold extract
      rw [hextracted]
      show (put (sourceArgs env args e.data) e.data >>= _) ≠ _
      apply bind_ne_error (hput _ _)
      intro _ _
      dsimp only
      rw [hvalid, if_neg (by decide)]
      split
      · nofun
      · exact bind_ne_error (hput _ _) nofun
    · have hpages := h.pages
      have hunits := h.units
      rw [hplain, h.data] at hpages
      obtain ⟨text, hdecode, hpages⟩ := hpages
      rw [hpages, List.map_singleton] at hunits
      refine ⟨text, _, hdecode, hunits, rfl, fun i b hb => ?_⟩
      unfold Extracted.unitFor at hb
      rw [decide_eq_true hplain] at hb
      exact pageUnit_lines hb
  · intro versionId extractionId parserVersion structureRequired plainText page maxBlocks hsized
    exact unitOf_ne_validation (pageUnit_fieldsValid hratio hsized)

/-! ### A text of three lines -/

section Sample

def extractionEnv : StoreEnv Nat := { tableIds keep [] [] with hexdigest := fun _ => List.replicate 64 '0' }

def extractionArgs : ExtractArgs Nat :=
  { scope := ⟨100, 101⟩, documentId := 102, displayFilename := "a.txt".toList
    declaredMime := "text/plain".toList
    limits := ⟨100, 1, 100, 10, 10000, by decide, by decide, by decide, by decide, by decide⟩
    createdAt := ⟨[], []⟩, extractedAt := ⟨[], []⟩, expectedSha256 := none, structureRequired := false }

/-- A plain text needs no parser. -/
def noRunner : ParserRunner := ⟨[], fun _ _ => .error .exception⟩

/-- A blank line between two others, and no LF at the end. -/
def threeLines : Storage.Bytes := [97, 10, 10, 98]

theorem extractionEnv_ratio : DividesToRatio extractionEnv.toIds := by
  intro m n hle hpos
  show isRatio ((m : ℚ) / n) = true
  have hn : (0 : ℚ) < n := Nat.cast_pos.mpr hpos
  unfold isRatio
  rw [Bool.and_eq_true, decide_eq_true_eq, decide_eq_true_eq, div_le_one hn]
  exact ⟨div_nonneg (Nat.cast_nonneg m) hn.le, Nat.cast_le.mpr hle⟩

theorem threeLines_extracted :
    ∃ e, extracted extractionEnv extractionArgs noRunner threeLines = .ok e ∧ e.detected = .textPlain := by
  have hok : (extracted extractionEnv extractionArgs noRunner threeLines).toOption.any
      (fun e => decide (e.detected = .textPlain)) = true := by decide +kernel
  cases he : extracted extractionEnv extractionArgs noRunner threeLines with
  | error e =>
    rw [he] at hok
    cases hok
  | ok e =>
    rw [he] at hok
    exact ⟨e, rfl, of_decide_eq_true hok⟩

/-- The three lines are the blocks of a valid artifact. -/
theorem extraction_valid_sample : ∃ e unit,
    extracted extractionEnv extractionArgs noRunner threeLines = .ok e ∧
      (artifactOf extractionEnv extractionArgs e).valid extractionEnv.toIds = true ∧
      (artifactOf extractionEnv extractionArgs e).units = [unit] ∧ unit.text = ['a', '\n', '\n', 'b'] ∧
      ∀ i b, unit.blocks[i]? = some b → LineBlock ['a', '\n', '\n', 'b'] i b := by
  obtain ⟨e, he, hplain⟩ := threeLines_extracted
  have hdigest : ∀ data, isDigest (extractionEnv.hexdigest data) = true := by
    intro _
    show isDigest (List.replicate 64 '0') = true
    decide
  have hc : extractionEnv.toIds.CollisionFree := tableIds_collisionFree _ _
  obtain ⟨hvalid, -, -, hlines⟩ :=
    (extraction_valid hc hdigest extractionEnv_ratio).1 extractionArgs noRunner threeLines e he
  obtain ⟨text, unit, hdecode, hunits, htext, hblocks⟩ := hlines hplain
  have hdecoded : decodeUtf8 threeLines = some ['a', '\n', '\n', 'b'] := by decide
  obtain rfl := Option.some.inj (hdecode.symm.trans hdecoded)
  exact ⟨e, unit, he, hvalid, hunits, htext, hblocks⟩

end Sample

end Polymind.Documents
