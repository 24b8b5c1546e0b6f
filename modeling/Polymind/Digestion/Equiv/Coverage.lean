import Polymind.Digestion.Equiv.Chunking
import Polymind.Digestion.Equiv.OneBlock
import Polymind.Digestion.Equiv.Evidence
import Polymind.Digestion.Validation

/-!
# Chunking loses and duplicates nothing

From the shape of the pieces (`Tiles`, `Cuts`) to what they say about the source: their texts are
those of the eligible blocks, their spans partition the blocks, and `EvidenceIndex.resolve` finds
each of them.

* `Tiles.resolve`: a piece resolves to its text, line numbers included;
* `chunkIds_nodup`: no two chunks share an id;
* `chunks_cover`: the plan inventories, cuts and packs everything once.
-/

namespace Polymind.Digestion

open Json Documents

variable {U : Type} [DecidableEq U] {ids : Ids U} {a : ExtractionArtifact U}
  {profile : DigestionProfile} {unit : TextUnit U} {block : Block U}

/-! ### The pieces of one block -/

omit [DecidableEq U] in
theorem Tiles.text {start : Nat} {pieces : List (SourcePiece U)} (h : Tiles a unit block start pieces) :
    pieces.flatMap SourcePiece.text = Text.slice unit.text start block.span.stop := by
  induction h with
  | last ordered => simp [pieceAt]
  | cons nonempty inside rest ih =>
    rw [List.flatMap_cons, ih]
    exact Text.slice_append _ nonempty.le inside.le

omit [DecidableEq U] in
theorem Tiles.blockId {start : Nat} {pieces : List (SourcePiece U)}
    (h : Tiles a unit block start pieces) : ∀ p ∈ pieces, p.evidence.blockId = block.blockId := by
  induction h with
  | last ordered => simp [pieceAt]
  | cons nonempty inside rest ih =>
    intro p hp
    rcases List.mem_cons.mp hp with rfl | hp
    · rfl
    · exact ih p hp

/-- Where the pieces of a block end. -/
def stops (pieces : List (SourcePiece U)) : List Nat := pieces.map fun p => p.evidence.span.stop

omit [DecidableEq U] in
theorem Tiles.lt_stops {start : Nat} {pieces : List (SourcePiece U)}
    (h : Tiles a unit block start pieces) (hlt : start < block.span.stop) :
    ∀ n ∈ stops pieces, start < n := by
  induction h with
  | last ordered =>
    intro n hn
    obtain rfl : n = block.span.stop := by simpa [stops, pieceAt] using hn
    exact hlt
  | cons nonempty inside rest ih =>
    intro n hn
    rcases List.mem_cons.mp hn with rfl | hn
    · exact nonempty
    · exact nonempty.trans (ih inside n hn)

omit [DecidableEq U] in
/-- No two pieces of a block end at one place. -/
theorem Tiles.stops_nodup {start : Nat} {pieces : List (SourcePiece U)}
    (h : Tiles a unit block start pieces) : (stops pieces).Nodup := by
  induction h with
  | last ordered => simp [stops]
  | cons nonempty inside rest ih =>
    refine List.nodup_cons.mpr ⟨fun hmem => ?_, ih⟩
    exact absurd (rest.lt_stops inside _ hmem) (Nat.lt_irrefl _)

/-- Spans that follow each other from a start to a stop, none of them empty unless it is alone. -/
inductive Contiguous : Nat → Nat → List (Nat × Nat) → Prop
  | single {start stop : Nat} (ordered : start ≤ stop) : Contiguous start stop [(start, stop)]
  | cons {start mid stop : Nat} {spans : List (Nat × Nat)} (nonempty : start < mid)
      (inside : mid < stop) (rest : Contiguous mid stop spans) :
      Contiguous start stop ((start, mid) :: spans)

/-- The offsets of some pieces. -/
def offsets (pieces : List (SourcePiece U)) : List (Nat × Nat) :=
  pieces.map fun p => (p.evidence.span.start, p.evidence.span.stop)

omit [DecidableEq U] in
theorem Tiles.contiguous {start : Nat} {pieces : List (SourcePiece U)}
    (h : Tiles a unit block start pieces) : Contiguous start block.span.stop (offsets pieces) := by
  induction h with
  | last ordered => exact .single ordered
  | cons nonempty inside rest ih => exact .cons nonempty inside ih

/-! ### Resolution -/

theorem blockIndex_get? (hc : ids.CollisionFree) (hvalid : a.valid ids = true)
    {p : TextUnit U × Block U} (hp : p ∈ inventory a) : (blockIndex a).get? p.2.blockId = some p := by
  have hkeys : (((inventory a).map fun p => (p.2.blockId, p)).map Prod.fst).Nodup := by
    rw [List.map_map]
    exact inventory_nodup hc hvalid
  rw [blockIndex, Dict.ofList_eq_self hkeys]
  exact Dict.get?_of_mem hkeys (List.mem_map_of_mem hp)

/-- The lines `EvidenceIndex.resolve` expects are the ones planning carries along. -/
theorem expectedLines_eq (hvalid : a.valid ids = true) (hunit : unit ∈ a.units) {start : Nat}
    (hstart : start ≤ unit.text.length) (text : Str) :
    expectedLines a unit start text
      = (lineAt a unit start, (lineAt a unit start).map fun line => line + innerNewlines text) := by
  have hsources : ((a.units.filter fun u => u.physicalPage.isNone).map TextUnit.sourceId).Nodup :=
    (sourceIds_nodup hvalid).sublist (List.filter_sublist.map _)
  have hkeys : (((a.units.filter fun u => u.physicalPage.isNone).map fun u =>
      (u.sourceId, Text.newlines u.text)).map Prod.fst).Nodup := by
    rw [List.map_map]
    exact hsources
  have hpage := physicalPage_isNone hvalid hunit
  unfold expectedLines lineIndex lineAt
  rw [Dict.ofList_eq_self hkeys]
  by_cases hnone : a.document.pageCount.isNone
  · have hget := Dict.get?_of_mem hkeys
      (List.mem_map_of_mem (List.mem_filter.mpr ⟨hunit, hpage.trans hnone⟩))
    rw [hget, if_pos hnone]
    dsimp only
    rw [Text.bisectLeft_newlines hstart]
    rfl
  · rw [if_neg hnone, Dict.get?_eq_none.mpr]
    · rfl
    · -- no unit of a document with pages has lines
      rw [List.map_map]
      intro hmem
      obtain ⟨u, hu, -⟩ := List.mem_map.mp hmem
      have := List.mem_filter.mp hu
      rw [physicalPage_isNone hvalid this.1] at this
      exact hnone this.2

/-- A part of a block resolves to its text. -/
theorem resolve_pieceAt (hc : ids.CollisionFree) (hvalid : a.valid ids = true)
    (hp : (unit, block) ∈ inventory a) {start stop : Nat} (hlo : block.span.start ≤ start)
    (hle : start ≤ stop) (hhi : stop ≤ block.span.stop) :
    resolve a (pieceAt a unit block start stop (lineAt a unit start)).evidence
      = .ok (pieceAt a unit block start stop (lineAt a unit start)).text := by
  obtain ⟨index, -, hfacts⟩ := inventory_facts hvalid hp
  have hstart : start ≤ unit.text.length := hle.trans (hhi.trans hfacts.inside)
  have hlines := expectedLines_eq hvalid (mem_inventory.mp hp).1 hstart
    (Text.slice unit.text start stop)
  have hget : (blockIndex a).get? block.blockId = some (unit, block) := blockIndex_get? hc hvalid hp
  simp only [resolve, pieceAt, hget, hlines, hlo, hle, hhi, ne_eq, not_true_eq_false, decide_false,
    decide_true, Bool.or_self, Bool.and_self, Bool.not_true, Bool.false_eq_true, if_false]

theorem Tiles.resolve (hc : ids.CollisionFree) (hvalid : a.valid ids = true)
    (hp : (unit, block) ∈ inventory a) {start : Nat} {pieces : List (SourcePiece U)}
    (h : Tiles a unit block start pieces) (hlo : block.span.start ≤ start) :
    ∀ p ∈ pieces, resolve a p.evidence = .ok p.text := by
  induction h with
  | last ordered =>
    intro p hmem
    rw [List.mem_singleton.mp hmem]
    exact resolve_pieceAt hc hvalid hp hlo ordered (Nat.le_refl _)
  | cons nonempty inside rest ih =>
    intro p hmem
    rcases List.mem_cons.mp hmem with rfl | hmem
    · exact resolve_pieceAt hc hvalid hp hlo nonempty.le inside.le
    · exact ih (hlo.trans nonempty.le) p hmem

/-! ### The pieces of all blocks -/

omit [DecidableEq U] in
theorem Cuts.of_cons {key : U} {keys : List U} {pieces : List (SourcePiece U)}
    (h : Cuts a (key :: keys) pieces) :
    (key ∉ idsOf a .eligible ∧ Cuts a keys pieces) ∨
      (key ∈ idsOf a .eligible ∧ ∃ p first more, p ∈ inventory a ∧ p.2.blockId = key
        ∧ Tiles a p.1 p.2 p.2.span.start first ∧ Cuts a keys more ∧ pieces = first ++ more) := by
  generalize hl : key :: keys = l at h
  cases h with
  | nil => cases hl
  | skip ineligible rest =>
    obtain ⟨rfl, rfl⟩ := List.cons.inj hl
    exact .inl ⟨ineligible, rest⟩
  | cut mem eligible tiles rest =>
    obtain ⟨rfl, rfl⟩ := List.cons.inj hl
    exact .inr ⟨eligible, _, _, _, mem, rfl, tiles, rest, rfl⟩

/-- The eligible blocks, in canonical order. -/
def eligibleBlocks (a : ExtractionArtifact U) : List (TextUnit U × Block U) :=
  (inventory a).filter fun p => p.2.blockId ∈ idsOf a .eligible

omit [DecidableEq U] in
theorem Cuts.blockId_mem {keys : List U} {pieces : List (SourcePiece U)} (h : Cuts a keys pieces) :
    ∀ p ∈ pieces, p.evidence.blockId ∈ keys ∧ p.evidence.blockId ∈ idsOf a .eligible := by
  induction h with
  | nil => simp
  | skip ineligible rest ih =>
    exact fun p hp => ⟨List.mem_cons_of_mem _ (ih p hp).1, (ih p hp).2⟩
  | cut mem eligible tiles rest ih =>
    intro p hp
    rcases List.mem_append.mp hp with hp | hp
    · rw [tiles.blockId p hp]
      exact ⟨List.mem_cons_self .., eligible⟩
    · exact ⟨List.mem_cons_of_mem _ (ih p hp).1, (ih p hp).2⟩

theorem Cuts.resolve (hc : ids.CollisionFree) (hvalid : a.valid ids = true) {keys : List U}
    {pieces : List (SourcePiece U)} (h : Cuts a keys pieces) :
    ∀ p ∈ pieces, resolve a p.evidence = .ok p.text := by
  induction h with
  | nil => simp
  | skip ineligible rest ih => exact ih
  | cut mem eligible tiles rest ih =>
    intro p hp
    rcases List.mem_append.mp hp with hp | hp
    · exact tiles.resolve hc hvalid mem (Nat.le_refl _) p hp
    · exact ih p hp

/-- The block and the end of a piece. -/
def pieceTag (p : SourcePiece U) : U × Nat := (p.evidence.blockId, p.evidence.span.stop)

omit [DecidableEq U] in
/-- No two pieces belong to one block and end at one place. -/
theorem Cuts.tags_nodup {keys : List U} (hkeys : keys.Nodup) {pieces : List (SourcePiece U)}
    (h : Cuts a keys pieces) : (pieces.map pieceTag).Nodup := by
  induction h with
  | nil => simp
  | skip ineligible rest ih => exact ih (List.nodup_cons.mp hkeys).2
  | @cut p keys pieces more mem eligible tiles rest ih =>
    obtain ⟨hkey, hkeys⟩ := List.nodup_cons.mp hkeys
    rw [List.map_append, List.nodup_append]
    refine ⟨?_, ih hkeys, ?_⟩
    · -- within a block the ends differ
      have hstops := tiles.stops_nodup
      rw [stops] at hstops
      exact List.Nodup.of_map Prod.snd (by rwa [List.map_map])
    · rintro x hx y hy rfl
      obtain ⟨q, hq, rfl⟩ := List.mem_map.mp hx
      obtain ⟨r, hr, hrq⟩ := List.mem_map.mp hy
      have hblock : r.evidence.blockId = q.evidence.blockId := congrArg Prod.fst hrq
      rw [tiles.blockId q hq] at hblock
      exact hkey (hblock ▸ (rest.blockId_mem r hr).1)

section

variable (hnd : ((inventory a).map fun p => p.2.blockId).Nodup)

include hnd

/-- The texts of the pieces are the texts of the eligible blocks. -/
theorem Cuts.text (hvalid : a.valid ids = true) :
    ∀ {blocks : List (TextUnit U × Block U)} {pieces : List (SourcePiece U)}, blocks ⊆ inventory a →
      Cuts a (blocks.map fun p => p.2.blockId) pieces →
      pieces.flatMap SourcePiece.text
        = (blocks.filter fun p => p.2.blockId ∈ idsOf a .eligible).flatMap fun p => p.2.sourceText := by
  intro blocks
  induction blocks with
  | nil =>
    intro pieces _ h
    cases h
    rfl
  | cons q blocks ih =>
    intro pieces hsub h
    have hq := hsub (List.mem_cons_self ..)
    have hrest : blocks ⊆ inventory a := fun x hx => hsub (List.mem_cons_of_mem q hx)
    rcases Cuts.of_cons h with ⟨hineligible, h⟩ | ⟨heligible, p, first, more, hp, hid, htiles, hmore, rfl⟩
    · rw [ih hrest h, List.filter_cons_of_neg (by simpa using hineligible)]
    · obtain rfl : p = q := List.inj_on_of_nodup_map hnd hp hq hid
      obtain ⟨index, -, hfacts⟩ := inventory_facts hvalid hp
      rw [List.flatMap_append, ih hrest hmore, List.filter_cons_of_pos (by simpa using heligible),
        List.flatMap_cons, htiles.text, hfacts.text]

/-- The pieces of one eligible block, taken from all pieces, tile it. -/
theorem Cuts.tiles :
    ∀ {blocks : List (TextUnit U × Block U)} {pieces : List (SourcePiece U)}, blocks ⊆ inventory a →
      (blocks.map fun p => p.2.blockId).Nodup → Cuts a (blocks.map fun p => p.2.blockId) pieces →
      ∀ p ∈ blocks, p.2.blockId ∈ idsOf a .eligible →
        Tiles a p.1 p.2 p.2.span.start
          (pieces.filter fun piece => piece.evidence.blockId = p.2.blockId) := by
  intro blocks
  induction blocks with
  | nil =>
    intro pieces _ _ _ p hp
    cases hp
  | cons q blocks ih =>
    intro pieces hsub hkeys h p hp heligible
    have hq := hsub (List.mem_cons_self ..)
    have hrest : blocks ⊆ inventory a := fun x hx => hsub (List.mem_cons_of_mem q hx)
    rw [List.map_cons, List.nodup_cons] at hkeys
    rcases Cuts.of_cons h with ⟨hineligible, h⟩ | ⟨-, r, first, more, hr, hid, htiles, hmore, rfl⟩
    · rcases List.mem_cons.mp hp with rfl | hp
      · exact absurd heligible hineligible
      · exact ih hrest hkeys.2 h p hp heligible
    · obtain rfl : r = q := List.inj_on_of_nodup_map hnd hr hq hid
      rw [List.filter_append]
      rcases List.mem_cons.mp hp with rfl | hp
      · -- all of the first pieces and none of the others
        have hall : (first.filter fun piece => piece.evidence.blockId = p.2.blockId) = first := by
          rw [List.filter_eq_self]
          exact fun piece hpiece => by simpa using htiles.blockId piece hpiece
        have hnone : (more.filter fun piece => piece.evidence.blockId = p.2.blockId) = [] := by
          rw [List.filter_eq_nil_iff]
          intro piece hpiece hblock
          rw [decide_eq_true_eq] at hblock
          exact hkeys.1 (hblock ▸ (hmore.blockId_mem piece hpiece).1)
        rw [hall, hnone, List.append_nil]
        exact htiles
      · have hnone : (first.filter fun piece => piece.evidence.blockId = p.2.blockId) = [] := by
          rw [List.filter_eq_nil_iff]
          intro piece hpiece hblock
          rw [decide_eq_true_eq, htiles.blockId piece hpiece] at hblock
          exact hkeys.1 (hblock ▸ List.mem_map_of_mem hp)
        rw [hnone, List.nil_append]
        exact ih hrest hkeys.2 hmore p hp heligible

end

/-! ### Chunk ids -/

/-- The pieces of a chunk determine its id and are determined by it, up to their block and end. -/
theorem chunkKey_tags (hc : ids.CollisionFree) {u v : U} {l m : List (SourcePiece U)}
    (h : chunkKey ids a profile u l = chunkKey ids a profile v m) :
    l.map pieceTag = m.map pieceTag := by
  have hparts := hc.stableId_injective h
  simp only [List.cons_append, List.nil_append, List.cons.injEq, true_and] at hparts
  have hids : l.map (SourcePiece.evidenceId ids) = m.map (SourcePiece.evidenceId ids) := by
    refine List.map_injective_iff.mpr hc.uuidStr_injective ?_
    simpa [List.map_map, Function.comp_def] using hparts.2
  clear h hparts
  induction l generalizing m with
  | nil =>
    cases m with
    | nil => rfl
    | cons q m => simp at hids
  | cons p l ih =>
    cases m with
    | nil => simp at hids
    | cons q m =>
      rw [List.map_cons, List.map_cons, List.cons.injEq] at hids
      obtain ⟨hblock, hstop⟩ := evidence_of_id hc hids.1
      rw [List.map_cons, List.map_cons, ih hids.2, pieceTag, pieceTag, hblock, hstop]

theorem chunkIds_nodup (hc : ids.CollisionFree) {units : List (StructuralUnit U)}
    {chunks : List (AnalysisChunk U)}
    (hsettled : ∀ i c, chunks[i]? = some c → Settled ids a profile units i c)
    (htags : ((chunks.flatMap AnalysisChunk.pieces).map pieceTag).Nodup) :
    (chunks.map AnalysisChunk.chunkId).Nodup := by
  rw [List.map_flatMap, List.nodup_flatMap] at htags
  rw [List.nodup_iff_pairwise_ne, List.pairwise_map]
  refine htags.2.imp_of_mem fun {c d} hcmem hdmem hdisjoint heq => ?_
  have hmade : ∀ c ∈ chunks, ∃ node, Made ids a profile node c := by
    intro c hc
    obtain ⟨i, hi, rfl⟩ := List.getElem_of_mem hc
    obtain ⟨node, -, hnode⟩ := (hsettled i _ (List.getElem?_eq_getElem hi)).made
    exact ⟨node, hnode⟩
  obtain ⟨u, hu⟩ := hmade c hcmem
  obtain ⟨v, hv⟩ := hmade d hdmem
  rw [hu.chunkId, hv.chunkId] at heq
  have hsame := chunkKey_tags hc heq
  obtain ⟨p, hp⟩ := List.exists_mem_of_ne_nil _ hu.pieces_ne_nil
  have htag : pieceTag p ∈ c.pieces.map pieceTag := List.mem_map_of_mem hp
  refine hdisjoint htag ?_
  change pieceTag p ∈ d.pieces.map pieceTag
  exact hsame ▸ htag

/-! ### Plans -/

/-- How `build_plan` came to return a plan. -/
structure Planned (ids : Ids U) (a : ExtractionArtifact U) (profile : DigestionProfile)
    (ref : ObjectRef U) (plan : Plan U) : Prop where
  valid : a.valid ids = true
  profileValid : profile.valid = true
  scope : ref.scope = a.document.scope
  structured : structureOf ids a ref profile = .ok plan.structureMap
  chunked : chunkGroups ids a profile plan.structureMap.units = .ok plan.chunks
  nonempty : plan.chunks ≠ []
  reduced : reduceUnits ids a profile plan.structureMap.units plan.chunks
    = .ok (plan.reducers, plan.rootId)
  profile_eq : plan.profile = profile
  eligible : plan.eligible = idsOf a .eligible
  skipped : plan.skipped = idsOf a .skipped
  unsupported : plan.unsupported = idsOf a .unsupported

theorem buildPlan_ok {ref : ObjectRef U} {plan : Plan U}
    (h : buildPlan ids a profile ref = .ok plan) : Planned ids a profile ref plan := by
  unfold buildPlan at h
  split at h
  · cases h
  rw [bind_eq_ok] at h
  obtain ⟨_, harguments, h⟩ := h
  unfold checkArguments at harguments
  split at harguments
  · cases harguments
  rename_i hvalid
  split at harguments
  · cases harguments
  rename_i href
  simp only [Bool.or_eq_true, Bool.not_eq_true', not_or, Bool.not_eq_false, decide_eq_true_eq,
    not_not] at hvalid href
  unfold build at h
  split at h
  · cases h
  rw [bind_eq_ok] at h
  obtain ⟨structureMap, hstructure, h⟩ := h
  rw [bind_eq_ok] at h
  obtain ⟨chunks, hchunks, h⟩ := h
  split at h
  · cases h
  rename_i hnonempty
  rw [bind_eq_ok] at h
  obtain ⟨⟨reducers, rootId⟩, hreducers, h⟩ := h
  rw [← Except.ok.inj h]
  exact ⟨hvalid.1, hvalid.2, href.1.1.1.1, hstructure, hchunks, by simpa using hnonempty,
    hreducers, rfl, rfl, rfl, rfl⟩

theorem chunkCharacters_pos (h : profile.valid = true) : 0 < profile.chunkCharacters := by
  simp only [DigestionProfile.valid, Bool.and_eq_true, decide_eq_true_eq] at h
  omega

/-- The pieces of a plan, in the order of its chunks. -/
def Plan.pieces (plan : Plan U) : List (SourcePiece U) := plan.chunks.flatMap AnalysisChunk.pieces

section

variable {ref : ObjectRef U} {plan : Plan U}

theorem Planned.cuts (h : Planned ids a profile ref plan) :
    Cuts a ((inventory a).map fun p => p.2.blockId) plan.pieces :=
  (chunkGroups_ok h.valid (chunkCharacters_pos h.profileValid) h.chunked).1

theorem Planned.settled (h : Planned ids a profile ref plan) :
    ∀ i c, plan.chunks[i]? = some c → Settled ids a profile plan.structureMap.units i c :=
  (chunkGroups_ok h.valid (chunkCharacters_pos h.profileValid) h.chunked).2

theorem Planned.chunk (h : Planned ids a profile ref plan) {c : AnalysisChunk U}
    (hc : c ∈ plan.chunks) : ∃ i, Settled ids a profile plan.structureMap.units i c := by
  obtain ⟨i, hi, rfl⟩ := List.getElem_of_mem hc
  exact ⟨i, h.settled i _ (List.getElem?_eq_getElem hi)⟩

theorem Planned.chunkIds_nodup (hc : ids.CollisionFree) (h : Planned ids a profile ref plan) :
    (plan.chunks.map AnalysisChunk.chunkId).Nodup :=
  Digestion.chunkIds_nodup hc h.settled (h.cuts.tags_nodup (inventory_nodup hc h.valid))

theorem Planned.resolve (hc : ids.CollisionFree) (h : Planned ids a profile ref plan)
    {piece : SourcePiece U} (hp : piece ∈ plan.pieces) : resolve a piece.evidence = .ok piece.text :=
  h.cuts.resolve hc h.valid piece hp

/-- The chunks stand in the order of their sequence numbers. -/
theorem Planned.sequences (h : Planned ids a profile ref plan) :
    plan.chunks.map AnalysisChunk.sequence = List.range plan.chunks.length := by
  refine List.ext_getElem (by simp) fun i hi _ => ?_
  rw [List.getElem_map, List.getElem_range]
  exact (h.settled i _ (List.getElem?_eq_getElem (by simpa using hi))).sequence

/-- **Chunking loses and duplicates nothing.**  The three lists of the plan partition the inventory
in canonical order; the pieces of the chunks, in sequence order, have the texts of the eligible
blocks; the pieces of a block have contiguous spans that partition its span; every piece resolves to
its text; and every chunk is within the limits. -/
theorem chunks_cover (hc : ids.CollisionFree) (h : buildPlan ids a profile ref = .ok plan) :
    ((inventoryIds a).Nodup
      ∧ (plan.eligible ++ plan.skipped ++ plan.unsupported).Perm (inventoryIds a)
      ∧ plan.eligible.Sublist (inventoryIds a) ∧ plan.skipped.Sublist (inventoryIds a)
      ∧ plan.unsupported.Sublist (inventoryIds a))
    ∧ (plan.chunks.map AnalysisChunk.sequence = List.range plan.chunks.length
      ∧ plan.pieces.flatMap SourcePiece.text
        = (eligibleBlocks a).flatMap fun p => p.2.sourceText)
    ∧ ((eligibleBlocks a).map fun p => p.2.blockId) = plan.eligible
    ∧ (∀ p ∈ eligibleBlocks a, Contiguous p.2.span.start p.2.span.stop
        (offsets (plan.pieces.filter fun piece => piece.evidence.blockId = p.2.blockId)))
    ∧ (∀ piece ∈ plan.pieces, piece.evidence.blockId ∈ plan.eligible
        ∧ resolve a piece.evidence = .ok piece.text)
    ∧ ∀ c ∈ plan.chunks, characters c.pieces ≤ profile.chunkCharacters
        ∧ ∃ size, checkRequest ids (analysisRequest profile c) = .ok size := by
  have hplan := buildPlan_ok h
  have hnd := inventory_nodup hc hplan.valid
  rw [hplan.eligible, hplan.skipped, hplan.unsupported]
  refine ⟨⟨inventoryIds_nodup hc hplan.valid, idsOf_perm, idsOf_sublist _, idsOf_sublist _,
    idsOf_sublist _⟩, ⟨hplan.sequences, ?_⟩, ?_, ?_, ?_, ?_⟩
  · exact Cuts.text hnd hplan.valid (List.Subset.refl _) hplan.cuts
  · -- both are the eligible part of the inventory
    have hfilter := filter_mem_of_sublist (eligible_sublist hplan.valid) hnd
    rwa [List.filter_map] at hfilter
  · intro p hp
    obtain ⟨hmem, heligible⟩ := List.mem_filter.mp hp
    exact (Cuts.tiles hnd (List.Subset.refl _) hnd hplan.cuts p hmem
      (by simpa using heligible)).contiguous
  · exact fun piece hpiece => ⟨(hplan.cuts.blockId_mem piece hpiece).2, hplan.resolve hc hpiece⟩
  · intro c hc
    obtain ⟨i, hsettled⟩ := hplan.chunk hc
    obtain ⟨node, -, hmade⟩ := hsettled.made
    exact ⟨hsettled.within, _, hmade.estimate⟩

end

/-- The theorem applies to the sample's plan: its one chunk has the text of its one block. -/
theorem chunks_cover_sample : (legacyPlan keep).pieces.flatMap SourcePiece.text = sampleText := by
  have hcover := chunks_cover (tableIds_collisionFree _ _) (buildPlan_legacy smallCut_keep)
  exact hcover.2.1.2

end Polymind.Digestion
