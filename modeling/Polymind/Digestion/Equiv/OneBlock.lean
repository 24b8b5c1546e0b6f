import Polymind.Digestion.Equiv.Structure
import Polymind.Documents.Equiv.Assumptions

/-!
# A document of one block

The smallest plans: a document of one block that is no heading and fits in a chunk is planned as that
chunk, a reducer for the unit of its text and a reducer for the document (`buildPlan_oneBlock`).
-/

namespace Polymind.Digestion

open Json Documents

variable {U : Type} [DecidableEq U] {ids : Ids U} {a : ExtractionArtifact U}
  {profile : DigestionProfile} {ref : ObjectRef U} {unit : TextUnit U} {block : Block U}

/-- A document of one block of plain text. -/
structure OneBlock (a : ExtractionArtifact U) (unit : TextUnit U) (block : Block U) : Prop where
  units : a.units = [unit]
  blocks : unit.blocks = [block]
  kind : block.kind ≠ .heading
  parent : block.parentId = none
  visual : block.visual = none
  eligible : classify unit = .eligible

/-! ### The structural map -/

/-- The unit of the document. -/
def documentUnit (ids : Ids U) (a : ExtractionArtifact U) (profile : DigestionProfile) :
    StructuralUnit U :=
  let root := structureRoot ids a profile
  { rootUnit root with
    childIds := [fallbackNode ids root], sourceIds := a.units.map TextUnit.sourceId
    physicalPages := a.units.filterMap TextUnit.physicalPage }

/-- The unit of the text. -/
def textUnit (ids : Ids U) (a : ExtractionArtifact U) (profile : DigestionProfile)
    (unit : TextUnit U) (block : Block U) : StructuralUnit U :=
  let root := structureRoot ids a profile
  recordBlock unit block { fallbackUnit ids a root with parentId := some root }

omit [DecidableEq U] in
theorem inventory_oneBlock (h : OneBlock a unit block) : inventory a = [(unit, block)] := by
  simp [inventory, h.units, h.blocks]

theorem headings_oneBlock (h : OneBlock a unit block) : headings a = [] := by
  simp [headings, inventory_oneBlock h, Dict.ofList, Dict.set, Dict.has, h.kind]

theorem assemble_oneBlock (h : OneBlock a unit block)
    (hne : fallbackNode ids (structureRoot ids a profile) ≠ structureRoot ids a profile) :
    assemble ids a profile = .ok [documentUnit ids a profile, textUnit ids a profile unit block] := by
  have hlocate : locate ids [] (structureRoot ids a profile)
      ⟨[rootUnit (structureRoot ids a profile)], none⟩ block
      = .ok ⟨[rootUnit (structureRoot ids a profile)], none⟩ := by
    simp [locate, Dict.has, h.parent]
  unfold assemble
  rw [headings_oneBlock h, inventory_oneBlock h]
  simp only [List.foldlM_nil, List.foldlM_cons, placeBlock, hlocate, bind, Except.bind, pure, Except.pure]
  simp [ensureCurrent, addUnit, unitById, fallbackUnit, rootUnit, hne, hne.symm, bind, Except.bind,
    modifyUnit, ensureChild, recordBlock, documentUnit, textUnit]

theorem structureOf_oneBlock (h : OneBlock a unit block)
    (hne : fallbackNode ids (structureRoot ids a profile) ≠ structureRoot ids a profile) :
    structureOf ids a ref profile = .ok ⟨ref, a.document.documentVersionId, profile.digest ids,
      [documentUnit ids a profile, textUnit ids a profile unit block]⟩ :=
  structureOf_eq_ok_iff.mpr ⟨_, assemble_oneBlock h hne, rfl⟩

/-! ### The chunk -/

/-- The piece that is the whole block. -/
def wholePiece (a : ExtractionArtifact U) (unit : TextUnit U) (block : Block U) : SourcePiece U :=
  pieceAt a unit block block.span.start block.span.stop block.span.lineStart

/-- A block that fits in a chunk is packed whole. -/
theorem splitBlock_whole {node : StructuralUnit U} {chunk : AnalysisChunk U}
    (h : OneBlock a unit block) (hfits : block.span.stop ≤ block.span.start + profile.chunkCharacters)
    (hchunk : makeChunk ids a profile node 0 [wholePiece a unit block] = .ok chunk) (rounds : Nat) :
    splitBlock ids a profile node unit block (rounds + 1) block.span.start block.span.lineStart
        ⟨[], [], 0⟩
      = .ok ⟨[], [wholePiece a unit block], (wholePiece a unit block).text.length⟩ := by
  have hstop : firstStop profile unit block block.span.start = block.span.stop := by
    rw [firstStop, Nat.min_eq_left hfits, if_neg (Nat.lt_irrefl _)]
  have hcells : parsedCells block = none := by rw [parsedCells, h.visual]
  have hpiece : ∀ n, fitPiece ids a profile node 0 unit block block.span.start block.span.lineStart
      (n + 1) block.span.stop = .ok (wholePiece a unit block, block.span.stop) := by
    intro n
    rw [fitPiece, hcells]
    rw [wholePiece] at hchunk ⊢
    simp [hchunk]
  have hlength : (wholePiece a unit block).text.length ≤ profile.chunkCharacters := by
    have := Text.length_slice unit.text block.span.start block.span.stop
    show (Text.slice unit.text block.span.start block.span.stop).length ≤ _
    omega
  have hadd : addPiece ids a profile node ⟨[], [], 0⟩ (wholePiece a unit block)
      = .ok ⟨[], [wholePiece a unit block], (wholePiece a unit block).text.length⟩ := by
    simp [addPiece, fits, makeRoom, hlength, bind, Except.bind]
  rw [splitBlock, hstop, List.length_nil, hpiece]
  simp [bind, Except.bind, hadd]

/-- The one chunk. -/
theorem chunkGroups_oneBlock {chunk : AnalysisChunk U} (h : OneBlock a unit block)
    (hfits : block.span.stop ≤ block.span.start + profile.chunkCharacters)
    (hmax : 0 < profile.maxChunks)
    (hchunk : makeChunk ids a profile (textUnit ids a profile unit block) 0 [wholePiece a unit block]
      = .ok chunk) :
    chunkGroups ids a profile [documentUnit ids a profile, textUnit ids a profile unit block]
      = .ok [chunk] := by
  have hids : idsOf a .eligible = [block.blockId] := by
    simp [idsOf, h.units, h.eligible, unitIds, h.blocks]
  have hblocks : (textUnit ids a profile unit block).blockIds = [block.blockId] := rfl
  have howners : ownersOf [documentUnit ids a profile, textUnit ids a profile unit block] a
      = .ok [(textUnit ids a profile unit block, block.blockId)] := by
    simp [ownersOf, inventory_oneBlock h, hblocks, documentUnit, rootUnit, Dict.ofList, Dict.set,
      Dict.has, Dict.get?, pure, Except.pure, bind, Except.bind]
  have hblock : chunkBlock ids a profile (textUnit ids a profile unit block) ⟨[], [], 0⟩ block.blockId
      = .ok ⟨[], [wholePiece a unit block], (wholePiece a unit block).text.length⟩ := by
    rw [chunkBlock, hids, if_neg (by simp), inventory_oneBlock h]
    simp only [List.map_cons, List.map_nil, Dict.ofList, List.foldl_cons, List.foldl_nil, Dict.set,
      Dict.has, List.any_nil, Bool.false_eq_true, if_false, List.nil_append, Dict.get?_cons, if_true]
    exact splitBlock_whole h hfits hchunk _
  have hflush : flush ids a profile (textUnit ids a profile unit block)
      ⟨[], [wholePiece a unit block], (wholePiece a unit block).text.length⟩ = .ok ⟨[chunk], [], 0⟩ := by
    simp [flush, hchunk, bind, Except.bind, Nat.not_le.mpr hmax]
  rw [chunkGroups, howners]
  simp [groupRuns, chunkGroup, hblock, hflush, bind, Except.bind, pure, Except.pure]

/-! ### The reducers -/

/-- The reducer of a unit without headings over one child. -/
def soleReducer (ids : Ids U) (a : ExtractionArtifact U) (profile : DigestionProfile)
    (unitId child : U) (level : Nat) : ReductionNode U :=
  let allow := allowance ids profile (structureRoot ids a profile) []
  { stageId := ids.stableId [ids.uuidStr a.extractionId, profile.digest ids, "reduction".toList,
      ids.uuidStr unitId, ids.uuidStr child]
    structuralParent := unitId, children := [child], level, path := []
    estimatedTokens := allow.overhead + 1 * allow.perChild }

theorem groupsOf_singleton {α : Type} {n : Nat} (hn : 0 < n) (x : α) : groupsOf n [x] = [[x]] := by
  have hrounds : ([x].length + n - 1) / n = 1 := by
    rw [List.length_singleton, Nat.add_comm 1 n, Nat.add_sub_cancel, Nat.div_self hn]
  obtain ⟨m, rfl⟩ : ∃ m, n = m + 1 := ⟨n - 1, by omega⟩
  rw [groupsOf, hrounds]
  simp

/-- One child makes one reducer. -/
theorem reduceGroup_singleton {chunkCount level position : Nat} {node : StructuralUnit U} {child : U}
    {s : Draft U} (hpath : node.path = [])
    (hcapacity : (if profile.managedInputBudget.isSome then 1 else 2)
      ≤ (allowance ids profile (structureRoot ids a profile) []).capacity)
    (hlevel : s.levels.get? child = some level) (hposition : s.positions.get? child = some position)
    (hdepth : level < profile.maxDepth)
    (hsteps : chunkCount + s.reducers.length + 3 ≤ profile.maxSteps) :
    let n := soleReducer ids a profile node.structuralUnitId child (1 + level)
    reduceGroup ids a profile chunkCount (structureRoot ids a profile) node [child] s
      = .ok (some n.stageId, ⟨s.reducers ++ [n], s.levels.set n.stageId (1 + level),
          s.positions.set n.stageId position⟩) := by
  intro n
  have hlevels : lookupAll s.levels [child] = .ok [level] := by
    simp [lookupAll, hlevel, pure, Except.pure, bind, Except.bind]
  have hpositions : lookupAll s.positions [child] = .ok [position] := by
    simp [lookupAll, hposition, pure, Except.pure, bind, Except.bind]
  have hform : formReducer ids a profile chunkCount node
      (allowance ids profile (structureRoot ids a profile) []) (s, []) [child]
      = .ok (⟨s.reducers ++ [n], s.levels.set n.stageId (1 + level),
          s.positions.set n.stageId position⟩, [n.stageId]) := by
    have hroom : 1 + level ≤ profile.maxDepth := by omega
    have hcount : chunkCount + (s.reducers.length + 1) + 2 ≤ profile.maxSteps := by omega
    simp [formReducer, hlevels, hpositions, bind, Except.bind, Nat.not_lt.mpr hroom,
      Nat.not_lt.mpr hcount, n, soleReducer, hpath]
  have hnonempty : 0 < (allowance ids profile (structureRoot ids a profile) []).capacity.toNat := by
    revert hcapacity
    split <;> omega
  have hleast : ¬(allowance ids profile (structureRoot ids a profile) []).capacity
      < if profile.managedInputBudget.isSome then min 2 (([child].length : Nat) : Int) else 2 := by
    revert hcapacity
    split
    · simp
    · intro hcapacity
      exact not_lt.mpr hcapacity
  rw [reduceGroup, if_neg (by simp), hpath]
  dsimp only
  rw [if_neg hleast, List.length_singleton]
  rw [reduceLoop, groupsOf_singleton hnonempty]
  simp [hform, bind, Except.bind, pure, Except.pure, Except.map]

/-- The reducer of the text and the reducer of the document. -/
def textReducer (ids : Ids U) (a : ExtractionArtifact U) (profile : DigestionProfile)
    (chunk : AnalysisChunk U) : ReductionNode U :=
  soleReducer ids a profile (fallbackNode ids (structureRoot ids a profile)) chunk.chunkId 1

def documentReducer (ids : Ids U) (a : ExtractionArtifact U) (profile : DigestionProfile)
    (chunk : AnalysisChunk U) : ReductionNode U :=
  soleReducer ids a profile (structureRoot ids a profile) (textReducer ids a profile chunk).stageId 2

theorem sortByPosition_singleton {positions : Dict U Nat} {x : U} {position : Nat}
    (h : positions.get? x = some position) : sortByPosition positions [x] = .ok [x] := by
  simp [sortByPosition, lookupAll, h, bind, Except.bind, pure, Except.pure]

/-- The two reducers. -/
theorem reduceUnits_oneBlock {chunk : AnalysisChunk U}
    (hne : fallbackNode ids (structureRoot ids a profile) ≠ structureRoot ids a profile)
    (hparent : chunk.structuralParent = fallbackNode ids (structureRoot ids a profile))
    (hcapacity : (if profile.managedInputBudget.isSome then 1 else 2)
      ≤ (allowance ids profile (structureRoot ids a profile) []).capacity)
    (hdepth : 2 ≤ profile.maxDepth) (hsteps : 5 ≤ profile.maxSteps) :
    reduceUnits ids a profile [documentUnit ids a profile, textUnit ids a profile unit block] [chunk]
      = .ok ([textReducer ids a profile chunk, documentReducer ids a profile chunk],
          (documentReducer ids a profile chunk).stageId) := by
  let s₀ : Draft U := ⟨[], [(chunk.chunkId, 0)], [(chunk.chunkId, chunk.sequence)]⟩
  let n₁ := textReducer ids a profile chunk
  let s₁ : Draft U := ⟨[n₁], s₀.levels.set n₁.stageId 1, s₀.positions.set n₁.stageId chunk.sequence⟩
  let n₂ := documentReducer ids a profile chunk
  let s₂ : Draft U := ⟨[n₁, n₂], s₁.levels.set n₂.stageId 2, s₁.positions.set n₂.stageId chunk.sequence⟩
  -- the unit of the text has the chunk below it
  have hfirst : reduceUnit ids a profile [chunk] (structureRoot ids a profile) (s₀, [])
      (textUnit ids a profile unit block)
      = .ok (s₁, [(fallbackNode ids (structureRoot ids a profile), some n₁.stageId)]) := by
    have hlevel : s₀.levels.get? chunk.chunkId = some 0 := (Dict.get?_cons ..).trans (if_pos rfl)
    have hposition : s₀.positions.get? chunk.chunkId = some chunk.sequence :=
      (Dict.get?_cons ..).trans (if_pos rfl)
    have hgroup : reduceGroup ids a profile 1 (structureRoot ids a profile)
        (textUnit ids a profile unit block) [chunk.chunkId] s₀ = .ok (some n₁.stageId, s₁) :=
      reduceGroup_singleton rfl hcapacity hlevel hposition (by omega)
        (show 1 + 0 + 3 ≤ profile.maxSteps by omega)
    have hid : (textUnit ids a profile unit block).structuralUnitId
      = fallbackNode ids (structureRoot ids a profile) := rfl
    have hchildren : (textUnit ids a profile unit block).childIds = [] := rfl
    simp [reduceUnit, hid, hchildren, hparent, sortByPosition_singleton hposition, hgroup, bind,
      Except.bind, Dict.set, Dict.has]
  -- the document has the reducer of the text below it
  have hsecond : reduceUnit ids a profile [chunk] (structureRoot ids a profile)
      (s₁, [(fallbackNode ids (structureRoot ids a profile), some n₁.stageId)])
      (documentUnit ids a profile)
      = .ok (s₂, [(fallbackNode ids (structureRoot ids a profile), some n₁.stageId),
          (structureRoot ids a profile, some n₂.stageId)]) := by
    have hlevel : s₁.levels.get? n₁.stageId = some 1 := by
      rw [Dict.get?_set, if_pos rfl]
    have hposition : s₁.positions.get? n₁.stageId = some chunk.sequence := by
      rw [Dict.get?_set, if_pos rfl]
    have hgroup : reduceGroup ids a profile 1 (structureRoot ids a profile)
        (documentUnit ids a profile) [n₁.stageId] s₁ = .ok (some n₂.stageId, s₂) :=
      reduceGroup_singleton rfl hcapacity hlevel hposition (by omega)
        (show 1 + 1 + 3 ≤ profile.maxSteps by omega)
    have hid : (documentUnit ids a profile).structuralUnitId = structureRoot ids a profile := rfl
    have hchildren : (documentUnit ids a profile).childIds
      = [fallbackNode ids (structureRoot ids a profile)] := rfl
    simp [reduceUnit, hid, hchildren, hparent, hne, Dict.get?_cons, sortByPosition_singleton hposition,
      hgroup, bind, Except.bind, Dict.set, Dict.has]
  have hid : (documentUnit ids a profile).structuralUnitId = structureRoot ids a profile := rfl
  have hstart : (⟨[], Dict.ofList ([chunk].map fun c => (c.chunkId, 0)),
      Dict.ofList ([chunk].map fun c => (c.chunkId, c.sequence))⟩ : Draft U) = s₀ := rfl
  rw [reduceUnits]
  dsimp only
  rw [hstart, hid, show [documentUnit ids a profile, textUnit ids a profile unit block].reverse
    = [textUnit ids a profile unit block, documentUnit ids a profile] from rfl]
  simp [hfirst, hsecond, bind, Except.bind, pure, Except.pure, Dict.get?_cons, hne, s₂, n₁, n₂]

/-! ### The plan -/

/-- The plan of a document of one block. -/
def oneBlockPlan (ids : Ids U) (a : ExtractionArtifact U) (profile : DigestionProfile)
    (ref : ObjectRef U) (unit : TextUnit U) (block : Block U) (chunk : AnalysisChunk U) : Plan U :=
  { profile
    structureMap := ⟨ref, a.document.documentVersionId, profile.digest ids,
      [documentUnit ids a profile, textUnit ids a profile unit block]⟩
    chunks := [chunk]
    reducers := [textReducer ids a profile chunk, documentReducer ids a profile chunk]
    rootId := (documentReducer ids a profile chunk).stageId
    eligible := [block.blockId], skipped := [], unsupported := [] }

/-- The limits that leave room for one chunk and two reducers over one child each. -/
structure Roomy (ids : Ids U) (a : ExtractionArtifact U) (profile : DigestionProfile) : Prop where
  valid : profile.valid = true
  maxDepth : 2 ≤ profile.maxDepth
  maxSteps : 5 ≤ profile.maxSteps
  capacity : (if profile.managedInputBudget.isSome then 1 else 2)
    ≤ (allowance ids profile (structureRoot ids a profile) []).capacity

omit [DecidableEq U] in
theorem Roomy.limits (h : Roomy ids a profile) : 0 < profile.maxSourceUnits ∧ 0 < profile.maxChunks := by
  have hvalid := h.valid
  simp only [DigestionProfile.valid, Bool.and_eq_true, decide_eq_true_eq] at hvalid
  tauto

theorem structuralParent_of_makeChunk {node : StructuralUnit U} {sequence : Nat}
    {pieces : List (SourcePiece U)} {chunk : AnalysisChunk U}
    (h : makeChunk ids a profile node sequence pieces = .ok chunk) :
    chunk.structuralParent = node.structuralUnitId := by
  unfold makeChunk at h
  dsimp only at h
  obtain ⟨request, -, h⟩ := bind_eq_ok.mp h
  obtain ⟨estimate, -, h⟩ := bind_eq_ok.mp h
  rw [← Except.ok.inj h]

/-- What `build` makes of a document of one block. -/
theorem build_oneBlock {chunk : AnalysisChunk U} (h : OneBlock a unit block)
    (hroom : Roomy ids a profile)
    (hne : fallbackNode ids (structureRoot ids a profile) ≠ structureRoot ids a profile)
    (hfits : block.span.stop ≤ block.span.start + profile.chunkCharacters)
    (hchunk : makeChunk ids a profile (textUnit ids a profile unit block) 0 [wholePiece a unit block]
      = .ok chunk) :
    build ids a profile ref = .ok (oneBlockPlan ids a profile ref unit block chunk) := by
  have hcount : (inventory a).length + a.units.countP (fun u => u.blocks.isEmpty) = 1 := by
    simp [inventory_oneBlock h, h.units, h.blocks]
  have hids : ∀ c, idsOf a c = if c = .eligible then [block.blockId] else [] := by
    intro c
    cases c <;> simp [idsOf, h.units, h.eligible, unitIds, h.blocks]
  have hchunks := chunkGroups_oneBlock h hfits hroom.limits.2 hchunk
  have hparent : chunk.structuralParent = fallbackNode ids (structureRoot ids a profile) :=
    structuralParent_of_makeChunk hchunk
  have hreducers : reduceUnits ids a profile
      [documentUnit ids a profile, textUnit ids a profile unit block] [chunk] = .ok _ :=
    reduceUnits_oneBlock hne hparent hroom.capacity hroom.maxDepth hroom.maxSteps
  unfold build
  rw [hcount, if_neg (Nat.not_lt.mpr hroom.limits.1), structureOf_oneBlock h hne]
  dsimp only [bind, Except.bind]
  rw [hchunks]
  dsimp only [List.isEmpty_cons, Bool.false_eq_true, if_false]
  rw [if_neg Bool.false_ne_true, hreducers]
  rw [hids, hids, hids]
  rfl

/-- A reference to the stored bytes of an artifact. -/
structure Refers (ids : Ids U) (a : ExtractionArtifact U) (ref : ObjectRef U) : Prop where
  scope : ref.scope = a.document.scope
  kind : ref.kind = .artifact
  objectId : ref.objectId = a.extractionId
  sha256 : ref.sha256 = ids.sha256 (serialize ids a)
  byteSize : ref.byteSize = utf8Length (serialize ids a)

theorem Refers.checkArguments (h : Refers ids a ref) (hvalid : a.valid ids = true)
    (hprofile : profile.valid = true) : checkArguments ids a profile ref = .ok () := by
  unfold Digestion.checkArguments
  rw [hvalid, hprofile, h.scope, h.kind, h.objectId, h.sha256, h.byteSize]
  generalize serialize ids a = text
  simp only [Bool.not_true, Bool.or_self, Bool.false_eq_true, if_false, ne_eq, not_true_eq_false,
    decide_false]

/-- A document of one block that fits in a chunk has a plan. -/
theorem buildPlan_oneBlock {chunk : AnalysisChunk U} (h : OneBlock a unit block)
    (hvalid : a.valid ids = true) (hroom : Roomy ids a profile) (href : Refers ids a ref)
    (hne : fallbackNode ids (structureRoot ids a profile) ≠ structureRoot ids a profile)
    (hfits : block.span.stop ≤ block.span.start + profile.chunkCharacters)
    (hchunk : makeChunk ids a profile (textUnit ids a profile unit block) 0 [wholePiece a unit block]
      = .ok chunk) :
    buildPlan ids a profile ref = .ok (oneBlockPlan ids a profile ref unit block chunk) := by
  have hbuild : build ids a profile ref = .ok _ := build_oneBlock h hroom hne hfits hchunk
  unfold buildPlan
  rw [href.checkArguments hvalid hroom.valid]
  dsimp only [bind, Except.bind]
  rw [hbuild]

/-! ### A sample -/

/-- The scope of the sample as text. -/
def scopeText : Str := uuidText 100 ++ ':' :: uuidText 101

/-- The texts of the sample's identities; the digest of its profile is the first one, and that of its
piece of evidence is given. -/
def sampleTable (evidence : Str) : List (List Str) :=
  [[scopeText, uuidText 102, digestDigits 0], [scopeText, "source".toList, uuidText 0],
    [scopeText, uuidText 0, "extraction/1".toList, "native/1".toList, "identity/1".toList,
      "native-policy/1".toList, "1".toList, "2026-01-01T00:00:00+00:00".toList, natText 100, natText 1,
      natText 100, natText 10, boolText false],
    [uuidText 0, "text".toList], [uuidText 2, uuidText 3, natText 0],
    [uuidText 2, digestDigits 0, "structure-root".toList], [uuidText 5, "fallback".toList],
    ["source-evidence/1".toList, evidence],
    [uuidText 2, digestDigits 0, "chunk".toList, uuidText 6, uuidText 7],
    [uuidText 2, digestDigits 0, "reduction".toList, uuidText 6, uuidText 8],
    [uuidText 2, digestDigits 0, "reduction".toList, uuidText 5, uuidText 9],
    [uuidText 8, natText 0], [uuidText 8, natText 1], [uuidText 9, natText 0], [uuidText 9, natText 1],
    [uuidText 10, natText 0], [uuidText 10, natText 1]]

theorem sampleTable_nodup (evidence : Str) : (sampleTable evidence).Nodup := by
  have huuid := fun m n => uuidText_injective.eq_iff (a := m) (b := n)
  have hscope : ∀ n, uuidText n ≠ scopeText := fun n =>
    uuidText_ne n (List.mem_append_right _ (List.mem_cons_self ..) : ':' ∈ scopeText) (by decide) (by decide)
  have hevidence : ∀ n, uuidText n ≠ "source-evidence/1".toList := fun n =>
    uuidText_ne n (by simp : 's' ∈ "source-evidence/1".toList) (by decide) (by decide)
  have hsource : ∀ n, uuidText n ≠ "source".toList := fun n =>
    uuidText_ne n (by simp : 's' ∈ "source".toList) (by decide) (by decide)
  have hboth : scopeText ≠ "source-evidence/1".toList := by
    intro h
    have hmem : ':' ∈ "source-evidence/1".toList :=
      h ▸ List.mem_append_right _ (List.mem_cons_self ..)
    revert hmem
    simp
  have hnat : natText 0 ≠ natText 1 := by decide
  simp only [sampleTable, List.nodup_cons, List.mem_cons, List.cons.injEq, huuid,
    (hscope _).symm, hevidence, (hevidence _).symm, hboth, hsource, uuidText_ne_digestDigits]
  simp [hnat]

/-- A cut that leaves small numbers as they are. -/
structure SmallCut (cut : Nat → Nat → Nat) : Prop where
  le : ∀ m n, cut m n ≤ n
  eq : ∀ m n, n < 1000 → 1000 ≤ m → cut m n = n

theorem smallCut_keep : SmallCut keep := ⟨fun _ _ => Nat.le_refl _, fun _ _ _ _ => rfl⟩

theorem smallCut_wrap : SmallCut wrap :=
  ⟨fun m n => Nat.mod_le n m, fun _ _ hn hm => Nat.mod_eq_of_lt (hn.trans_le hm)⟩

section

attribute [local irreducible] digestDigits uuidText

variable (cut : Nat → Nat → Nat) (profile : DigestionProfile)

def sampleScope : Scope Nat := ⟨100, 101⟩

def sampleDocument : Document Nat :=
  { documentId := 102, documentVersionId := 0, scope := sampleScope
    source := ⟨sampleScope, .source, 0, 1, digestDigits 0, 6⟩
    displayFilename := "a.txt".toList, declaredMime := "text/plain".toList
    detectedMime := .textPlain, pageCount := none, language := none, languageConfidence := none
    createdAt := ⟨"2026-01-01T00:00:00Z".toList, "2026-01-01T00:00:00+00:00".toList⟩ }

def sampleText : Str := "Alpha.".toList

def sampleBlock : Block Nat :=
  ⟨4, 3, .paragraph, 0, sampleText, ⟨0, 6, some 1, some 1⟩, none, none, none, [], none⟩

def sampleUnit : TextUnit Nat :=
  { sourceId := 3, documentVersionId := 0, physicalPage := none, printedLabel := none, width := none
    height := none, rotation := none, status := .nativeText, method := .native
    parserVersion := "1".toList, text := sampleText, blocks := [sampleBlock]
    decision := ⟨3, ⟨6, 1, 0, true, none, none, false, false, 1⟩, .nativeAccepted, .none, .nativeText⟩
    ocrEngine := none, ocrModelVersion := none, ocrConfidence := none }

def sampleArtifact : ExtractionArtifact Nat :=
  { document := sampleDocument, extractionId := 2, parserVersion := "1".toList
    extractedAt := sampleDocument.createdAt, maxSourceBytes := 100, maxPages := 1
    maxCharacters := 100, maxBlocks := 10, structureRequired := false, units := [sampleUnit] }

def samplePiece : SourcePiece Nat := wholePiece sampleArtifact sampleUnit sampleBlock

/-- The request of the sample's chunk. -/
def sampleRequest (profile : DigestionProfile) : StageRequest Nat :=
  { stageId := 8, stage := .analysis, profile, structuralPath := [], sourceData := [samplePiece] }

/-- The digests with the profile's first. -/
def sampleDigests : List Str := [canonical (profile.modelDump (tableIds cut [] []))]

/-- Identities under which the sample is planned with small ones. -/
def sampleIds : Ids Nat :=
  let bare := tableIds cut [] (sampleDigests cut profile)
  tableIds cut (sampleTable (bare.fingerprint (samplePiece.evidence.modelDump bare)))
    (sampleDigests cut profile)

section Table

variable {cut} {evidence : Str} {digests : List Str} (hcut : SmallCut cut)

include hcut

theorem table_uuidStr {n : Nat} (h : n < 1000) :
    (tableIds cut (sampleTable evidence) digests).uuidStr n = uuidText n :=
  congrArg uuidText (hcut.eq _ _ h (by omega))

omit hcut in
/-- An identity of the table is its position. -/
theorem table_stableId {parts : List Str} {k : Nat} (hk : (sampleTable evidence)[k]? = some parts) :
    (tableIds cut (sampleTable evidence) digests).stableId parts = k :=
  stableId_tableIds (sampleTable_nodup _) hk

theorem table_identity :
    sampleScope.identity (tableIds cut (sampleTable evidence) digests) = scopeText := by
  rw [Scope.identity, table_uuidStr hcut (by decide), table_uuidStr hcut (by decide)]
  rfl

theorem table_valid :
    sampleArtifact.valid (tableIds cut (sampleTable evidence) digests) = true := by
  set ids := tableIds cut (sampleTable evidence) digests
  have hdigest : isDigest (digestDigits 0) = true := isDigest_digestDigits (by omega)
  have hversion : ids.stableId
      [sampleScope.identity ids, ids.uuidStr 102, digestDigits 0]
      = 0 := by
    rw [table_identity hcut, table_uuidStr hcut (by decide)]
    exact table_stableId rfl
  have hkey : ids.stableId
      [sampleScope.identity ids, "source".toList, ids.uuidStr 0]
      = 1 := by
    rw [table_identity hcut, table_uuidStr hcut (by decide)]
    exact table_stableId rfl
  have hextraction : extractionIdentity ids sampleArtifact = 2 := by
    unfold extractionIdentity
    rw [show sampleArtifact.document.scope = sampleScope from rfl, table_identity hcut,
      table_uuidStr hcut (by decide)]
    exact table_stableId rfl
  have hsource : expectedSource ids sampleArtifact sampleUnit = 3 := by
    unfold expectedSource
    rw [table_uuidStr hcut (by decide)]
    exact table_stableId rfl
  have hblock : ids.stableId
      [ids.uuidStr 2, ids.uuidStr 3, natText 0] = 4 := by
    rw [table_uuidStr hcut (by decide), table_uuidStr hcut (by decide)]
    exact table_stableId rfl
  have hobject : sampleDocument.source.valid ids = true := by
    rw [ObjectRef.valid, Bool.and_eq_true]
    refine ⟨hdigest, ?_⟩
    rw [beq_iff_eq]
    exact hkey.symm
  have hdocument : sampleDocument.valid ids = true := by
    unfold Document.valid
    dsimp only
    rw [hobject, show ids.stableId [sampleDocument.scope.identity
      ids, ids.uuidStr sampleDocument.documentId,
      sampleDocument.source.sha256] = 0 from hversion]
    rfl
  have hblocks : blocksCover ids sampleArtifact sampleUnit 0 0 1 sampleUnit.blocks
      = true := by
    rw [show sampleUnit.blocks = [sampleBlock] from rfl, blocksCover, blocksCover, blockChecks,
      show ids.stableId [ids.uuidStr sampleArtifact.extractionId,
        ids.uuidStr sampleUnit.sourceId, natText 0] = 4 from hblock]
    rfl
  have hprintable : ids.divide (sampleUnit.text.countP fun c =>
      ids.isPrintable c || c == '\r' || c == '\n' || c == '\t')
      sampleUnit.text.length = 1 := by
    show ((6 : ℕ) : ℚ) / ((6 : ℕ) : ℚ) = 1
    norm_num
  have hreplaced : ids.divide (sampleUnit.text.count '\ufffd')
      sampleUnit.text.length = 0 := by
    show ((0 : ℕ) : ℚ) / ((6 : ℕ) : ℚ) = 0
    norm_num
  have hunit : unitChecks ids sampleArtifact sampleUnit = true := by
    unfold unitChecks
    dsimp only
    rw [hsource, hblocks, hprintable, hreplaced]
    rfl
  have hgraph : validateGraph ids sampleArtifact = true := by
    unfold validateGraph
    rw [hextraction, show sampleArtifact.units = [sampleUnit] from rfl, List.all_cons, hunit]
    rfl
  unfold ExtractionArtifact.valid
  rw [show sampleArtifact.document = sampleDocument from rfl, hdocument, hgraph]
  rfl

end Table

variable {cut profile} (hcut : SmallCut cut)

include hcut

theorem sample_uuidStr {n : Nat} (h : n < 1000) : (sampleIds cut profile).uuidStr n = uuidText n :=
  table_uuidStr hcut h

theorem sample_digest : profile.digest (sampleIds cut profile) = digestDigits 0 :=
  sha256_tableIds (hcut.eq _ _ (by omega) (by omega))

omit hcut in
/-- An identity of the sample is its position. -/
theorem sample_stableId {parts : List Str} {k : Nat} (hk : (sampleTable
    ((sampleIds cut profile).fingerprint (samplePiece.evidence.modelDump (sampleIds cut profile))))[k]?
      = some parts) : (sampleIds cut profile).stableId parts = k :=
  table_stableId hk

theorem sample_valid : sampleArtifact.valid (sampleIds cut profile) = true := table_valid hcut

omit hcut in
theorem sample_oneBlock : OneBlock sampleArtifact sampleUnit sampleBlock where
  units := rfl
  blocks := rfl
  kind := by decide
  parent := rfl
  visual := rfl
  eligible := by decide

theorem sample_root : structureRoot (sampleIds cut profile) sampleArtifact profile = 5 := by
  rw [structureRoot, sample_digest hcut, sample_uuidStr hcut (by decide)]
  exact sample_stableId rfl

theorem sample_fallback : fallbackNode (sampleIds cut profile) 5 = 6 := by
  rw [fallbackNode, sample_uuidStr hcut (by decide)]
  exact sample_stableId rfl

omit hcut in
theorem sample_evidenceId : samplePiece.evidenceId (sampleIds cut profile) = 7 :=
  sample_stableId rfl

end

/-- A profile with the given limits. -/
def sampleProfile (response : Option Nat) (budget : Option ManagedInputBudget) (context : Nat) :
    DigestionProfile :=
  { version := "1".toList, structureProfile := "s/1".toList, chunkingProfile := "c/1".toList
    inferenceProfile := "i/1".toList, inferenceConfig := digestDigits 0, reducerProfile := "r/1".toList
    promptProfile := "p/1".toList, contextTokens := context, reservedOutputTokens := 1000
    templateTokens := 0, chunkCharacters := 100, maxFanIn := 4, maxResultCharacters := 100000
    maxResponseBytes := response, managedInputBudget := budget, maxClaims := 8
    maxClaimCharacters := 64, maxAnnotations := 4, maxSourceUnits := 10, maxChunks := 10
    maxSteps := 10, maxArtifactBytes := 10 ^ 60, maxDepth := 4, allowPartial := false
    minimumCoverage := 0, maxFailedUnits := 0 }


section

attribute [local irreducible] digestDigits uuidText

variable (cut : Nat → Nat → Nat) (profile : DigestionProfile) (estimate : Nat)

def sampleRef : ObjectRef Nat :=
  { scope := sampleScope, kind := .artifact, objectId := 2, key := 103
    sha256 := (sampleIds cut profile).sha256 (serialize (sampleIds cut profile) sampleArtifact)
    byteSize := utf8Length (serialize (sampleIds cut profile) sampleArtifact) }

def sampleChunk : AnalysisChunk Nat := ⟨8, 0, 6, [], 0, digestDigits 0, [samplePiece], estimate⟩

def sampleReducer (stageId unitId child level : Nat) : ReductionNode Nat :=
  let allow := allowance (sampleIds cut profile) profile 5 []
  ⟨stageId, unitId, [child], level, [], allow.overhead + 1 * allow.perChild⟩

def samplePlan : Plan Nat :=
  { profile
    structureMap := ⟨sampleRef cut profile, 0, digestDigits 0,
      [{ rootUnit 5 with childIds := [6], sourceIds := [3] },
        { rootUnit 6 with
          kind := .fallback, source := .canonicalText, confidence := .fallback, parentId := some 5
          blockIds := [4], sourceIds := [3] }]⟩
    chunks := [sampleChunk estimate]
    reducers := [sampleReducer cut profile 9 6 8 1, sampleReducer cut profile 10 5 9 2]
    rootId := 10, eligible := [4], skipped := [], unsupported := [] }

variable {cut profile estimate} (hcut : SmallCut cut)

include hcut

theorem sample_makeChunk (hsize : checkRequest (sampleIds cut profile) (sampleRequest profile)
      = .ok estimate) :
    makeChunk (sampleIds cut profile) sampleArtifact profile
      (textUnit (sampleIds cut profile) sampleArtifact profile sampleUnit sampleBlock) 0 [samplePiece]
      = .ok (sampleChunk estimate) := by
  have hnode : (textUnit (sampleIds cut profile) sampleArtifact profile sampleUnit
      sampleBlock).structuralUnitId = 6 := by
    show fallbackNode (sampleIds cut profile)
      (structureRoot (sampleIds cut profile) sampleArtifact profile) = 6
    rw [sample_root hcut, sample_fallback hcut]
  have hkey : (sampleIds cut profile).stableId [(sampleIds cut profile).uuidStr 2,
      profile.digest (sampleIds cut profile), "chunk".toList, (sampleIds cut profile).uuidStr 6,
      (sampleIds cut profile).uuidStr 7] = 8 := by
    rw [sample_digest hcut, sample_uuidStr hcut (by decide), sample_uuidStr hcut (by decide),
      sample_uuidStr hcut (by decide)]
    exact sample_stableId rfl
  unfold makeChunk
  rw [hnode, List.map_singleton, sample_evidenceId]
  dsimp only [List.cons_append, List.nil_append]
  rw [show sampleArtifact.extractionId = 2 from rfl, hkey]
  have hmake : StageRequest.make (sampleIds cut profile) (sampleRequest profile)
      = .ok (sampleRequest profile) := by
    rw [StageRequest.make, if_pos]
    simp [StageRequest.valid, sampleRequest]
  rw [show (textUnit (sampleIds cut profile) sampleArtifact profile sampleUnit sampleBlock).path = []
    from rfl, ← sampleRequest, hmake]
  dsimp only [bind, Except.bind]
  rw [hsize, sample_digest hcut]
  rfl

theorem sample_reducer {stageId unitId child level : Nat}
    (hkey : (sampleIds cut profile).stableId [uuidText 2, digestDigits 0, "reduction".toList,
      (sampleIds cut profile).uuidStr unitId, (sampleIds cut profile).uuidStr child] = stageId) :
    soleReducer (sampleIds cut profile) sampleArtifact profile unitId child level
      = sampleReducer cut profile stageId unitId child level := by
  unfold soleReducer sampleReducer
  rw [sample_root hcut, sample_digest hcut, show sampleArtifact.extractionId = 2 from rfl,
    sample_uuidStr hcut (by decide), hkey]

theorem sample_textReducer :
    textReducer (sampleIds cut profile) sampleArtifact profile (sampleChunk estimate)
      = sampleReducer cut profile 9 6 8 1 := by
  unfold textReducer
  rw [sample_root hcut, sample_fallback hcut]
  show soleReducer (sampleIds cut profile) sampleArtifact profile 6 8 1 = _
  refine sample_reducer hcut ?_
  rw [sample_uuidStr hcut (by decide), sample_uuidStr hcut (by decide)]
  exact sample_stableId rfl

theorem sample_documentReducer :
    documentReducer (sampleIds cut profile) sampleArtifact profile (sampleChunk estimate)
      = sampleReducer cut profile 10 5 9 2 := by
  unfold documentReducer
  rw [sample_root hcut, sample_textReducer hcut]
  show soleReducer (sampleIds cut profile) sampleArtifact profile 5 9 2 = _
  refine sample_reducer hcut ?_
  rw [sample_uuidStr hcut (by decide), sample_uuidStr hcut (by decide)]
  exact sample_stableId rfl

omit hcut in
theorem sample_refers : Refers (sampleIds cut profile) sampleArtifact (sampleRef cut profile) where
  scope := rfl
  kind := rfl
  objectId := rfl
  sha256 := rfl
  byteSize := rfl

theorem sample_plan : oneBlockPlan (sampleIds cut profile) sampleArtifact profile (sampleRef cut profile)
    sampleUnit sampleBlock (sampleChunk estimate) = samplePlan cut profile estimate := by
  unfold oneBlockPlan samplePlan
  rw [sample_textReducer hcut, sample_documentReducer hcut, documentUnit, textUnit, fallbackUnit,
    sample_digest hcut]
  dsimp only
  rw [sample_root hcut, sample_fallback hcut]
  rfl

/-- The plan of the sample. -/
theorem sample_buildPlan (hroom : Roomy (sampleIds cut profile) sampleArtifact profile)
    (hfits : 6 ≤ profile.chunkCharacters) (hsize : checkRequest (sampleIds cut profile) (sampleRequest profile)
      = .ok estimate) :
    buildPlan (sampleIds cut profile) sampleArtifact profile (sampleRef cut profile)
      = .ok (samplePlan cut profile estimate) := by
  have hne : fallbackNode (sampleIds cut profile) (structureRoot (sampleIds cut profile)
      sampleArtifact profile) ≠ structureRoot (sampleIds cut profile) sampleArtifact profile := by
    rw [sample_root hcut, sample_fallback hcut]
    decide
  have hspan : sampleBlock.span.stop ≤ sampleBlock.span.start + profile.chunkCharacters :=
    hfits.trans (Nat.le_add_left ..)
  have hbuild := buildPlan_oneBlock sample_oneBlock (sample_valid hcut) hroom sample_refers hne
    hspan (sample_makeChunk hcut hsize)
  rw [hbuild, sample_plan hcut]

end

/-! ### The sample's sizes -/

section

attribute [local irreducible] digestDigits uuidText

def legacyProfile : DigestionProfile := sampleProfile (some 959) none (10 ^ 60)

def managedProfile : DigestionProfile :=
  sampleProfile none (some ⟨10 ^ 9, 10 ^ 6, 10 ^ 7⟩) (1000 + 10 ^ 7 + 5 * 10 ^ 5)

variable {ids : Ids Nat} {profile : DigestionProfile}

theorem bulk_legacyProfile (hfloat : (ids.floatRepr 0).length = 3) :
    bulk (legacyProfile.modelDump ids) ≤ 10000 := by
  have hdigest := length_digestDigits (n := 0) (by omega)
  simp [DigestionProfile.modelDump, legacyProfile, sampleProfile, Json.record, bulk, bulkFields,
    Json.text, Json.nat, floatJson, hdigest, hfloat]
  decide

theorem bulk_managedProfile (hfloat : (ids.floatRepr 0).length = 3) :
    bulk (managedProfile.modelDump ids) ≤ 10000 := by
  have hdigest := length_digestDigits (n := 0) (by omega)
  simp [DigestionProfile.modelDump, managedProfile, sampleProfile, Json.record, bulk, bulkFields,
    Json.text, Json.nat, floatJson, hdigest, hfloat, ManagedInputBudget.modelDump]
  decide

theorem bulk_emptyRequest (hwidth : ∀ n < 1000, (ids.uuidStr n).length = 36)
    (hprofile : bulk (profile.modelDump ids) ≤ 10000) :
    bulk ((emptyRequest 5 profile []).modelDump ids) ≤ 15000 := by
  have h := hwidth 5 (by decide)
  unfold StageRequest.modelDump emptyRequest
  dsimp only
  generalize profile.modelDump ids = dump at hprofile
  simp [Json.record, bulk, bulkFields, bulkItems, Json.text, Ids.uuidJson]
  have hkind : StageKind.reduction.text.length = 9 := rfl
  omega

theorem bulk_sampleRequest (hwidth : ∀ n < 1000, (ids.uuidStr n).length = 36)
    (hprofile : bulk (profile.modelDump ids) ≤ 10000) :
    bulk ((sampleRequest profile).modelDump ids) ≤ 30000 := by
  have hpiece : samplePiece = ⟨⟨sampleScope, 0, 2, 3, 4, ⟨0, 6, some 1, some 1⟩⟩, sampleText,
    .paragraph, none, .none⟩ := rfl
  have h100 := hwidth 100 (by decide)
  have h101 := hwidth 101 (by decide)
  have h0 := hwidth 0 (by decide)
  have h2 := hwidth 2 (by decide)
  have h3 := hwidth 3 (by decide)
  have h4 := hwidth 4 (by decide)
  have h8 := hwidth 8 (by decide)
  unfold StageRequest.modelDump sampleRequest
  dsimp only
  generalize profile.modelDump ids = dump at hprofile
  simp [Json.record, bulk, bulkFields, bulkItems, Json.text, Ids.uuidJson, SourcePiece.modelDump,
    EvidenceRef.modelDump, Scope.modelDump, hpiece, Span.modelDump, sampleScope, sampleText,
    Json.option, cellsJson, Json.nat]
  have hkind : StageKind.analysis.text.length = 8 := rfl
  have hblock : BlockKind.paragraph.name.length = 9 := rfl
  have hlimitation : Limitation.none.text.length = 4 := rfl
  have hone : Nat.log2 1 = 0 := by decide
  have hsix : Nat.log2 6 = 2 := by decide
  omega

/-- Escaping a text once more. -/
theorem escapedSize_le_bulk (v : Json) : escapedSize v ≤ 12 * bulk v := by
  have hquote := length_quote_le true (canonical v)
  have hbulk := length_canonical_le_bulk v
  have hsize : escapedSize v = (quote true (canonical v)).length - 2 := rfl
  omega

theorem sample_width {cut : Nat → Nat → Nat} (hcut : SmallCut cut) :
    ∀ n < 1000, ((sampleIds cut profile).uuidStr n).length = 36 := by
  intro n hn
  rw [sample_uuidStr hcut hn]
  exact length_uuidText (by omega)

theorem sample_overhead (hwidth : ∀ n < 1000, (ids.uuidStr n).length = 36)
    (hprofile : bulk (profile.modelDump ids) ≤ 10000) (htemplate : profile.templateTokens = 0) :
    legacyOverhead ids profile 5 [] ≤ 40000 := by
  have hbulk := bulk_emptyRequest hwidth hprofile
  have hlength := length_canonical_le_bulk ((emptyRequest 5 profile []).modelDump ids)
  have hsize : requestSize ids (emptyRequest 5 profile [])
      = (canonical ((emptyRequest 5 profile []).modelDump ids)).length + profile.templateTokens := rfl
  have hencode : ((emptyRequest 5 profile []).encode ids).length
      = (canonical ((emptyRequest 5 profile []).modelDump ids)).length := rfl
  unfold legacyOverhead
  omega

theorem sampleProfile_valid {response : Option Nat} {budget : Option ManagedInputBudget} {context : Nat}
    (hresponse : (response.all fun n => 0 < n && n ≤ 4000000) = true)
    (hbudget : budget.all ManagedInputBudget.valid = true) (hcontext : 1000 < context) :
    (sampleProfile response budget context).valid = true := by
  have hdigest : isDigest (digestDigits 0) = true := isDigest_digestDigits (by omega)
  have hpositive : decide (0 < context) = true := decide_eq_true (by omega)
  have hroom : decide (1000 + 0 < context) = true := decide_eq_true (by omega)
  unfold DigestionProfile.valid sampleProfile
  dsimp only
  rw [hdigest, hresponse, hbudget, hpositive, hroom]
  rfl

theorem legacy_roomy {cut : Nat → Nat → Nat} (hcut : SmallCut cut) :
    Roomy (sampleIds cut legacyProfile) sampleArtifact legacyProfile where
  valid := sampleProfile_valid (by decide) rfl (by decide)
  maxDepth := by decide
  maxSteps := by decide
  capacity := by
    have hover : legacyOverhead (sampleIds cut legacyProfile) legacyProfile 5 [] ≤ 40000 :=
      sample_overhead (sample_width hcut) (bulk_legacyProfile rfl) rfl
    rw [sample_root hcut]
    have hcapacity : (allowance (sampleIds cut legacyProfile) legacyProfile 5 []).capacity
        = min ((4 : Nat) : Int) ((((10 ^ 60 : Nat) : Int) - (1000 : Nat)
          - (legacyOverhead (sampleIds cut legacyProfile) legacyProfile 5 [] : Nat))
            / ((100000 + 1024 : Nat) : Int)) := rfl
    rw [hcapacity, show legacyProfile.managedInputBudget.isSome = false from rfl, if_neg Bool.false_ne_true]
    omega

theorem managed_roomy {cut : Nat → Nat → Nat} (hcut : SmallCut cut) :
    Roomy (sampleIds cut managedProfile) sampleArtifact managedProfile where
  valid := sampleProfile_valid rfl (by decide) (by decide)
  maxDepth := by decide
  maxSteps := by decide
  capacity := by
    have hover : legacyOverhead (sampleIds cut managedProfile) managedProfile 5 [] ≤ 40000 :=
      sample_overhead (sample_width hcut) (bulk_managedProfile rfl) rfl
    have hrendered : reductionSize ⟨10 ^ 9, 10 ^ 6, 10 ^ 7⟩ [] 0 = 10 ^ 6 := by
      show 10 ^ 6 + escapedSize (.arr []) - escapedSize (.arr []) + 0 * 10 ^ 7 = 10 ^ 6
      omega
    rw [sample_root hcut]
    have hcapacity : (allowance (sampleIds cut managedProfile) managedProfile 5 []).capacity
        = min (min ((4 : Nat) : Int) ((((1000 + 10 ^ 7 + 5 * 10 ^ 5 : Nat) : Int) - (1000 : Nat)
            - (legacyOverhead (sampleIds cut managedProfile) managedProfile 5 [] : Nat))
              / ((10 ^ 7 : Nat) : Int)))
          ((((10 ^ 9 : Nat) : Int) - (reductionSize ⟨10 ^ 9, 10 ^ 6, 10 ^ 7⟩ [] 0 : Nat))
            / ((10 ^ 7 : Nat) : Int)) := rfl
    rw [hcapacity, show managedProfile.managedInputBudget.isSome = true from rfl, if_pos rfl, hrendered]
    omega

theorem legacy_request {cut : Nat → Nat → Nat} (hcut : SmallCut cut) :
    checkRequest (sampleIds cut legacyProfile) (sampleRequest legacyProfile)
      = .ok (requestSize (sampleIds cut legacyProfile) (sampleRequest legacyProfile)) := by
  have hbulk : bulk ((sampleRequest legacyProfile).modelDump (sampleIds cut legacyProfile)) ≤ 30000 :=
    bulk_sampleRequest (sample_width hcut) (bulk_legacyProfile rfl)
  have hlength := length_canonical_le_bulk
    ((sampleRequest legacyProfile).modelDump (sampleIds cut legacyProfile))
  have hsize : requestSize (sampleIds cut legacyProfile) (sampleRequest legacyProfile)
      = (canonical ((sampleRequest legacyProfile).modelDump (sampleIds cut legacyProfile))).length + 0 := rfl
  have hcharged : chargedSize (sampleIds cut legacyProfile) (sampleRequest legacyProfile)
    = .ok (requestSize (sampleIds cut legacyProfile) (sampleRequest legacyProfile)) := rfl
  have hcontext : (sampleRequest legacyProfile).profile.contextTokens = 10 ^ 60 := rfl
  have hreserved : (sampleRequest legacyProfile).profile.reservedOutputTokens = 1000 := rfl
  unfold checkRequest
  rw [hcharged, hcontext, hreserved]
  dsimp only [bind, Except.bind]
  rw [if_neg]
  omega

/-- What the managed envelope adds for the sample's chunk. -/
theorem sample_analysisSize (hwidth : ∀ n < 1000, (ids.uuidStr n).length = 36)
    (hevidence : samplePiece.evidenceId ids = 7) :
    analysisSize ids ⟨10 ^ 9, 10 ^ 6, 10 ^ 7⟩ (sampleRequest profile) ≤ 10 ^ 6 + 100000 := by
  have hwide := hwidth 7 (by decide)
  have hrendered : reductionSize ⟨10 ^ 9, 10 ^ 6, 10 ^ 7⟩ [] 0 = 10 ^ 6 := by
    show 10 ^ 6 + escapedSize (.arr []) - escapedSize (.arr []) + 0 * 10 ^ 7 = 10 ^ 6
    omega
  have hset : sortedSet [ids.uuidStr 7] = [ids.uuidStr 7] := rfl
  have hpieces := escapedSize_le_bulk (.arr [.record [("evidence_id", ids.uuidJson 7),
    ("text", .str samplePiece.text), ("kind", .str samplePiece.kind.name),
    ("cells", Documents.cellsJson samplePiece.cells), ("limitation", .str samplePiece.limitation.text)]])
  have hids := escapedSize_le_bulk (.arr [.str (ids.uuidStr 7)])
  have hbulk : bulk (.arr [.record [("evidence_id", ids.uuidJson 7),
      ("text", .str samplePiece.text), ("kind", .str samplePiece.kind.name),
      ("cells", Documents.cellsJson samplePiece.cells),
      ("limitation", .str samplePiece.limitation.text)]]) ≤ 2000 := by
    have htext : samplePiece.text.length = 6 := rfl
    have hkind : samplePiece.kind.name.length = 9 := rfl
    have hlimitation : samplePiece.limitation.text.length = 4 := rfl
    rw [show Documents.cellsJson samplePiece.cells = .null from rfl]
    simp [Json.record, bulk, bulkFields, bulkItems, Ids.uuidJson]
    omega
  have hsecond : bulk (.arr [.str (ids.uuidStr 7)]) ≤ 1000 := by
    simp [bulk, bulkItems]
    omega
  unfold analysisSize sampleRequest
  dsimp only
  rw [List.map_singleton, List.map_singleton, hevidence, hset, List.map_singleton, hrendered]
  omega

theorem managed_request {cut : Nat → Nat → Nat} (hcut : SmallCut cut) :
    checkRequest (sampleIds cut managedProfile) (sampleRequest managedProfile)
      = .ok (max (requestSize (sampleIds cut managedProfile) (sampleRequest managedProfile))
          (analysisSize (sampleIds cut managedProfile) ⟨10 ^ 9, 10 ^ 6, 10 ^ 7⟩
            (sampleRequest managedProfile))) := by
  have hbulk : bulk ((sampleRequest managedProfile).modelDump (sampleIds cut managedProfile)) ≤ 30000 :=
    bulk_sampleRequest (sample_width hcut) (bulk_managedProfile rfl)
  have hlength := length_canonical_le_bulk
    ((sampleRequest managedProfile).modelDump (sampleIds cut managedProfile))
  have hsize : requestSize (sampleIds cut managedProfile) (sampleRequest managedProfile)
      = (canonical ((sampleRequest managedProfile).modelDump
          (sampleIds cut managedProfile))).length + 0 := rfl
  have hanalysis : analysisSize (sampleIds cut managedProfile) ⟨10 ^ 9, 10 ^ 6, 10 ^ 7⟩
      (sampleRequest managedProfile) ≤ 10 ^ 6 + 100000 :=
    sample_analysisSize (sample_width hcut) sample_evidenceId
  have hcharged : chargedSize (sampleIds cut managedProfile) (sampleRequest managedProfile)
      = .ok (max (requestSize (sampleIds cut managedProfile) (sampleRequest managedProfile))
          (analysisSize (sampleIds cut managedProfile) ⟨10 ^ 9, 10 ^ 6, 10 ^ 7⟩
            (sampleRequest managedProfile))) := by
    unfold chargedSize
    rw [show (sampleRequest managedProfile).profile.managedInputBudget
      = some ⟨10 ^ 9, 10 ^ 6, 10 ^ 7⟩ from rfl]
    dsimp only
    rw [show renderedSize (sampleIds cut managedProfile) ⟨10 ^ 9, 10 ^ 6, 10 ^ 7⟩
      (sampleRequest managedProfile) = analysisSize (sampleIds cut managedProfile)
        ⟨10 ^ 9, 10 ^ 6, 10 ^ 7⟩ (sampleRequest managedProfile) from rfl,
      show (sampleRequest managedProfile).children = [] from rfl, List.any_nil, Bool.false_or,
      decide_eq_false (by omega), if_neg Bool.false_ne_true]
  have hcontext : (sampleRequest managedProfile).profile.contextTokens = 1000 + 10 ^ 7 + 5 * 10 ^ 5 := rfl
  have hreserved : (sampleRequest managedProfile).profile.reservedOutputTokens = 1000 := rfl
  unfold checkRequest
  rw [hcharged, hcontext, hreserved]
  dsimp only [bind, Except.bind]
  rw [if_neg]
  omega

/-- The sample planned without a managed budget. -/
def legacyPlan (cut : Nat → Nat → Nat) : Plan Nat :=
  samplePlan cut legacyProfile
    (requestSize (sampleIds cut legacyProfile) (sampleRequest legacyProfile))

/-- The sample planned with a managed budget. -/
def managedPlan (cut : Nat → Nat → Nat) : Plan Nat :=
  samplePlan cut managedProfile
    (max (requestSize (sampleIds cut managedProfile) (sampleRequest managedProfile))
      (analysisSize (sampleIds cut managedProfile) ⟨10 ^ 9, 10 ^ 6, 10 ^ 7⟩
        (sampleRequest managedProfile)))

theorem buildPlan_legacy {cut : Nat → Nat → Nat} (hcut : SmallCut cut) :
    buildPlan (sampleIds cut legacyProfile) sampleArtifact legacyProfile (sampleRef cut legacyProfile)
      = .ok (legacyPlan cut) :=
  sample_buildPlan hcut (legacy_roomy hcut) (by decide) (legacy_request hcut)

theorem buildPlan_managed {cut : Nat → Nat → Nat} (hcut : SmallCut cut) :
    buildPlan (sampleIds cut managedProfile) sampleArtifact managedProfile
        (sampleRef cut managedProfile)
      = .ok (managedPlan cut) :=
  sample_buildPlan hcut (managed_roomy hcut) (by decide) (managed_request hcut)

end

end Polymind.Digestion
