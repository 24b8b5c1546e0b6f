import Polymind.Digestion.Sizing
import Polymind.Lib.Dict

/-!
# Deterministic planning

`documents/digestion/planning.py`: the structural map (`assemble`), the chunking loop
(`chunkGroups`), the bottom-up reduction (`reduceUnits`) and `buildPlan`.  A loop of the source that
is not over a list takes a number of rounds and ends with `.diverges` when they are used up; the
bounds given here are never used up, which is part of what is proved about the loops.
-/

namespace Polymind.Digestion

open Json Documents

variable {U : Type} [DecidableEq U]

/-! ### The structural map -/

/-- `[(u, b) for u in artifact.units for b in u.blocks]`. -/
def inventory (a : ExtractionArtifact U) : List (TextUnit U × Block U) :=
  a.units.flatMap fun u => u.blocks.map fun b => (u, b)

/-- `blocks`, restricted to the headings. -/
def headings (a : ExtractionArtifact U) : Dict U (Block U) :=
  (Dict.ofList ((inventory a).map fun p => (p.2.blockId, p.2))).filter fun p => p.2.kind = .heading

/-- The walk from a heading to its ancestors; `room` is how many more of them `max_depth` allows. -/
def climb (heads : Dict U (Block U)) : Nat → List U → Option U → Except Fault Unit
  | _, _, none => .ok ()
  | 0, _, some _ => .error planningFailed
  | room + 1, seen, some parent =>
    if parent ∈ seen then .error planningFailed
    else match heads.get? parent with
      | none => .error .exception
      | some block => climb heads room (parent :: seen) block.parentId

/-- The check of one heading's parents. -/
def checkHeading (heads : Dict U (Block U)) (maxDepth : Nat) (p : U × Block U) : Except Fault Unit :=
  match p.2.parentId with
  | none => .ok ()
  | some parent =>
    if heads.has parent then climb heads maxDepth [p.1] (some parent) else .error planningFailed

/-- `root_id`. -/
def structureRoot (ids : Ids U) (a : ExtractionArtifact U) (profile : DigestionProfile) : U :=
  ids.stableId [ids.uuidStr a.extractionId, profile.digest ids, "structure-root".toList]

/-- `heading_nodes[key]`. -/
def headingNode (ids : Ids U) (root key : U) : U := ids.stableId [ids.uuidStr root, ids.uuidStr key]

/-- `fallback`. -/
def fallbackNode (ids : Ids U) (root : U) : U := ids.stableId [ids.uuidStr root, "fallback".toList]

/-- `nodes[root_id]` at the start. -/
def rootUnit (root : U) : StructuralUnit U :=
  { structuralUnitId := root, parentId := none, childIds := [], order := 0, kind := .document
    heading := none, path := [], source := .root, confidence := .sourceDeclared, blockIds := []
    sourceIds := [], physicalPages := [] }

/-- The nodes in insertion order, and `current`. -/
structure Layout (U : Type) where
  nodes : List (StructuralUnit U)
  current : Option U

/-- `nodes[key]` is rewritten. -/
def modifyUnit (key : U) (f : StructuralUnit U → StructuralUnit U)
    (nodes : List (StructuralUnit U)) : List (StructuralUnit U) :=
  nodes.map fun n => if n.structuralUnitId = key then f n else n

/-- `add(key, parent, ...)`; `unit` carries the keyword arguments. -/
def addUnit (nodes : List (StructuralUnit U)) (parent : U) (unit : StructuralUnit U) :
    Except Fault (List (StructuralUnit U)) :=
  if (unitById nodes unit.structuralUnitId).isSome then .ok nodes
  else match unitById nodes parent with
    | none => .error .exception
    | some p => .ok (modifyUnit parent
        (fun n => { n with childIds := n.childIds ++ [unit.structuralUnitId] }) nodes
          ++ [{ unit with parentId := some parent, order := p.childIds.length }])

/-- The unit of a heading. -/
def sectionUnit (key : U) (nested : Bool) (heading : Str) (parentPath : List Str) :
    StructuralUnit U :=
  { rootUnit key with
    kind := if nested then .subsection else .section_, heading := some heading
    path := parentPath ++ [heading], source := .canonicalHeading, confidence := .sourceDeclared }

/-- The unit of text that belongs to no heading. -/
def fallbackUnit (ids : Ids U) (a : ExtractionArtifact U) (root : U) : StructuralUnit U :=
  { rootUnit (fallbackNode ids root) with
    kind := .fallback
    source := if a.document.pageCount.isSome then .canonicalPage else .canonicalText
    confidence := .fallback }

/-- A heading opens its unit under the unit of its parent, which must be there already. -/
def openSection (ids : Ids U) (heads : Dict U (Block U)) (root : U) (s : Layout U)
    (block : Block U) : Except Fault (Layout U) :=
  let parentKey := (heads.get? block.blockId).bind Block.parentId
  let parent := match parentKey with
    | some key => headingNode ids root key
    | none => root
  match unitById s.nodes parent with
  | none => .error planningFailed
  | some p => do
    let current := headingNode ids root block.blockId
    let nodes ← addUnit s.nodes parent (sectionUnit current parentKey.isSome block.sourceText p.path)
    .ok ⟨nodes, some current⟩

/-- The first part of one round: `current` is set to the unit the block belongs to. -/
def locate (ids : Ids U) (heads : Dict U (Block U)) (root : U) (s : Layout U) (block : Block U) :
    Except Fault (Layout U) :=
  if heads.has block.blockId then openSection ids heads root s block
  else
    match block.parentId with
    | some parent =>
      if heads.has parent then
        if (unitById s.nodes (headingNode ids root parent)).isSome then
          .ok { s with current := some (headingNode ids root parent) }
        else .error planningFailed
      else .ok s
    | none => .ok s

/-- `current` is the fallback unit if no unit is open. -/
def ensureCurrent (ids : Ids U) (a : ExtractionArtifact U) (root : U) (s : Layout U) :
    Except Fault (U × List (StructuralUnit U)) :=
  match s.current with
  | some current => .ok (current, s.nodes)
  | none => do
    let nodes ← addUnit s.nodes root (fallbackUnit ids a root)
    .ok (fallbackNode ids root, nodes)

/-- `values.append(value)` unless it is the last one already. -/
def appendNew {α : Type} [DecidableEq α] (values : List α) (value : α) : List α :=
  if values.getLast? = some value then values else values ++ [value]

/-- The block is recorded in its unit. -/
def recordBlock (unit : TextUnit U) (block : Block U) (n : StructuralUnit U) : StructuralUnit U :=
  { n with
    blockIds := n.blockIds ++ [block.blockId], sourceIds := appendNew n.sourceIds unit.sourceId
    physicalPages := match unit.physicalPage with
      | some page => appendNew n.physicalPages page
      | none => n.physicalPages }

/-- One round of the loop over the blocks. -/
def placeBlock (ids : Ids U) (a : ExtractionArtifact U) (heads : Dict U (Block U)) (root : U)
    (s : Layout U) (p : TextUnit U × Block U) : Except Fault (Layout U) := do
  let s ← locate ids heads root s p.2
  let (current, nodes) ← ensureCurrent ids a root s
  .ok ⟨modifyUnit current (recordBlock p.1 p.2) nodes, some current⟩

/-- An empty document still has a unit below its root. -/
def ensureChild (ids : Ids U) (a : ExtractionArtifact U) (root : U)
    (nodes : List (StructuralUnit U)) : Except Fault (List (StructuralUnit U)) :=
  match unitById nodes root with
  | none => .error .exception
  | some r => if r.childIds.isEmpty then addUnit nodes root (fallbackUnit ids a root) else .ok nodes

/-- The units `_structure` assembles. -/
def assemble (ids : Ids U) (a : ExtractionArtifact U) (profile : DigestionProfile) :
    Except Fault (List (StructuralUnit U)) := do
  let root := structureRoot ids a profile
  let heads := headings a
  let _ ← heads.foldlM (fun _ p => checkHeading heads profile.maxDepth p) ()
  let s ← (inventory a).foldlM (placeBlock ids a heads root) ⟨[rootUnit root], none⟩
  let nodes ← ensureChild ids a root s.nodes
  .ok (modifyUnit root (fun n => { n with
    sourceIds := a.units.map TextUnit.sourceId
    physicalPages := a.units.filterMap TextUnit.physicalPage }) nodes)

/-- `_structure`: the units, checked by `StructuralMap.tree`. -/
def structureOf (ids : Ids U) (a : ExtractionArtifact U) (ref : ObjectRef U)
    (profile : DigestionProfile) : Except Fault (StructuralMap U) := do
  let units ← assemble ids a profile
  if structuralTree units then
    .ok ⟨ref, a.document.documentVersionId, profile.digest ids, units⟩
  else .error .exception

/-! ### Eligibility -/

inductive UnitClass where
  | eligible | skipped | unsupported
deriving DecidableEq

def classify (u : TextUnit U) : UnitClass :=
  if u.status = .failed || u.decision.outcome ≠ .nativeAccepted then .unsupported
  else if Text.hasText u.text then .eligible
  else .skipped

/-- `[b.block_id for b in unit.blocks] or [unit.source_id]`. -/
def unitIds (u : TextUnit U) : List U :=
  if u.blocks.isEmpty then [u.sourceId] else u.blocks.map Block.blockId

/-- One of the lists `eligible`, `skipped`, `unsupported`. -/
def idsOf (a : ExtractionArtifact U) (c : UnitClass) : List U :=
  a.units.flatMap fun u => if classify u = c then unitIds u else []

/-! ### Chunks -/

/-- The chunks so far, and the pieces that wait to be packed with their number of characters. -/
structure Packing (U : Type) where
  chunks : List (AnalysisChunk U)
  pending : List (SourcePiece U)
  characters : Nat

section

variable (ids : Ids U) (a : ExtractionArtifact U) (profile : DigestionProfile)

/-- `make_chunk` for the chunk with the given sequence number. -/
def makeChunk (node : StructuralUnit U) (sequence : Nat) (pieces : List (SourcePiece U)) :
    Except Fault (AnalysisChunk U) := do
  let key := ids.stableId ([ids.uuidStr a.extractionId, profile.digest ids, "chunk".toList,
    ids.uuidStr node.structuralUnitId] ++ pieces.map fun p => ids.uuidStr (p.evidenceId ids))
  let request ← StageRequest.make ids
    { stageId := key, stage := .analysis, profile, structuralPath := node.path, sourceData := pieces }
  let estimate ← checkRequest ids request
  .ok { chunkId := key, documentVersionId := a.document.documentVersionId
        structuralParent := node.structuralUnitId, path := node.path, sequence
        profile := profile.digest ids, pieces, estimatedTokens := estimate }

/-- `append`: the pending pieces become a chunk. -/
def flush (node : StructuralUnit U) (s : Packing U) : Except Fault (Packing U) :=
  if s.pending.isEmpty then .ok { s with characters := 0 }
  else if profile.maxChunks ≤ s.chunks.length then .error limitExceeded
  else do
    let chunk ← makeChunk ids a profile node s.chunks.length s.pending
    .ok ⟨s.chunks ++ [chunk], [], 0⟩

/-- `visual.cells if visual and visual.state == 'parsed' else None`. -/
def parsedCells (block : Block U) : Option (List (List Str)) :=
  match block.visual with
  | some visual => if visual.state = .parsed then visual.cells else none
  | none => none

/-- The piece of a block between two offsets. -/
def pieceAt (unit : TextUnit U) (block : Block U) (start stop : Nat) (lineStart : Option Nat) :
    SourcePiece U :=
  let text := Text.slice unit.text start stop
  { evidence :=
      { scope := a.document.scope, documentVersionId := a.document.documentVersionId
        extractionId := a.extractionId, sourceId := unit.sourceId, blockId := block.blockId
        span := ⟨start, stop, lineStart, lineStart.map fun line => line + innerNewlines text⟩ }
    text, kind := block.kind, cells := parsedCells block
    limitation :=
      if (block.kind = .table || block.kind = .figure) && (parsedCells block).isNone then
        .visualUninterpreted
      else if start ≠ block.span.start || stop ≠ block.span.stop then .hardSplit
      else .none }

/-- The inner loop: the end of the piece is halved until the piece alone fits in a request. -/
def fitPiece (node : StructuralUnit U) (sequence : Nat) (unit : TextUnit U) (block : Block U)
    (start : Nat) (lineStart : Option Nat) : Nat → Nat → Except Fault (SourcePiece U × Nat)
  | 0, _ => .error .diverges
  | rounds + 1, stop =>
    let whole := (parsedCells block).isSome
    if whole && (start ≠ block.span.start || stop ≠ block.span.stop) then .error limitExceeded
    else
      let piece := pieceAt a unit block start stop lineStart
      match makeChunk ids a profile node sequence [piece] with
      | .ok _ => .ok (piece, stop)
      | .error (.digestion e) =>
        if whole || stop - start ≤ 1 then .error (.digestion e)
        else fitPiece node sequence unit block start lineStart rounds (start + (stop - start) / 2)
      | .error e => .error e

/-- The first end that is tried: the chunk limit, or the last line break before it. -/
def firstStop (unit : TextUnit U) (block : Block U) (start : Nat) : Nat :=
  let stop := min block.span.stop (start + profile.chunkCharacters)
  if stop < block.span.stop then
    match Text.rfind '\n' unit.text start stop with
    | some boundary => boundary + 1
    | none => stop
  else stop

/-- Whether a piece can join the pending ones. -/
def fits (node : StructuralUnit U) (s : Packing U) (piece : SourcePiece U) : Except Fault Bool :=
  if s.characters + piece.text.length ≤ profile.chunkCharacters then
    if s.pending.isEmpty then .ok true
    else match makeChunk ids a profile node s.chunks.length (s.pending ++ [piece]) with
      | .ok _ => .ok true
      | .error (.digestion _) => .ok false
      | .error e => .error e
  else .ok false

/-- The pending pieces are flushed if another one does not fit. -/
def makeRoom (node : StructuralUnit U) (fit : Bool) (s : Packing U) : Except Fault (Packing U) :=
  if !s.pending.isEmpty && !fit then flush ids a profile node s else .ok s

/-- A piece is packed. -/
def addPiece (node : StructuralUnit U) (s : Packing U) (piece : SourcePiece U) :
    Except Fault (Packing U) := do
  let fit ← fits ids a profile node s piece
  let s ← makeRoom ids a profile node fit s
  .ok ⟨s.chunks, s.pending ++ [piece], s.characters + piece.text.length⟩

/-- The loop over the pieces of one block. -/
def splitBlock (node : StructuralUnit U) (unit : TextUnit U) (block : Block U) :
    Nat → Nat → Option Nat → Packing U → Except Fault (Packing U)
  | 0, _, _, _ => .error .diverges
  | rounds + 1, start, lineStart, s => do
    let stop := firstStop profile unit block start
    let (piece, stop) ← fitPiece ids a profile node s.chunks.length unit block start lineStart
      (stop - start + 1) stop
    let s ← addPiece ids a profile node s piece
    if stop < block.span.stop then
      splitBlock node unit block rounds stop (lineStart.map (· + piece.text.count '\n')) s
    else .ok s

/-- One block of a group: skipped if it is not eligible, split into pieces otherwise. -/
def chunkBlock (node : StructuralUnit U) (s : Packing U) (blockId : U) : Except Fault (Packing U) :=
  if blockId ∉ idsOf a .eligible then .ok s
  else match (Dict.ofList ((inventory a).map fun p => (p.2.blockId, p))).get? blockId with
    | none => .error .exception
    | some (unit, block) => splitBlock ids a profile node unit block
        (block.span.stop - block.span.start + 1) block.span.start block.span.lineStart s

/-- One group of consecutive blocks of a unit. -/
def chunkGroup (chunks : List (AnalysisChunk U)) (group : StructuralUnit U × List U) :
    Except Fault (List (AnalysisChunk U)) := do
  let s ← group.2.foldlM (chunkBlock ids a profile group.1) ⟨chunks, [], 0⟩
  let s ← flush ids a profile group.1 s
  .ok s.chunks

end

/-- Consecutive blocks with one owner form a group. -/
def groupRuns : List (StructuralUnit U × U) → List (StructuralUnit U × List U)
  | [] => []
  | (owner, key) :: rest =>
    match groupRuns rest with
    | [] => [(owner, [key])]
    | (next, keys) :: groups =>
      if next.structuralUnitId = owner.structuralUnitId then (owner, key :: keys) :: groups
      else (owner, [key]) :: (next, keys) :: groups

/-- `owners[key]` for each block. -/
def ownersOf (units : List (StructuralUnit U)) (a : ExtractionArtifact U) :
    Except Fault (List (StructuralUnit U × U)) :=
  let owners := Dict.ofList (units.flatMap fun n => n.blockIds.map fun key => (key, n))
  (inventory a).mapM fun p => match owners.get? p.2.blockId with
    | some owner => .ok (owner, p.2.blockId)
    | none => .error .exception

/-- The chunks of the plan. -/
def chunkGroups (ids : Ids U) (a : ExtractionArtifact U) (profile : DigestionProfile)
    (units : List (StructuralUnit U)) : Except Fault (List (AnalysisChunk U)) := do
  let owned ← ownersOf units a
  (groupRuns owned).foldlM (chunkGroup ids a profile) []

/-! ### Reducers -/

/-- The reducers so far, with `levels` and `positions`. -/
structure Draft (U : Type) where
  reducers : List (ReductionNode U)
  levels : Dict U Nat
  positions : Dict U Nat

/-- How many children a reducer of a unit may have, and what it is charged for. -/
structure Allowance where
  capacity : Int
  overhead : Nat
  perChild : Nat

/-- The request that `overhead` is measured on. -/
def emptyRequest (root : U) (profile : DigestionProfile) (path : List Str) : StageRequest U :=
  { stageId := root, stage := .reduction, profile, structuralPath := path }

/-- The first `overhead` of `reduce_group`. -/
def legacyOverhead (ids : Ids U) (profile : DigestionProfile) (root : U) (path : List Str) : Nat :=
  requestSize ids (emptyRequest root profile []) + ((emptyRequest root profile path).encode ids).length
    + 512

/-- `capacity`, `overhead` and the charge for a child, as `reduce_group` computes them. -/
def allowance (ids : Ids U) (profile : DigestionProfile) (root : U) (path : List Str) : Allowance :=
  let overhead := legacyOverhead ids profile root path
  let available : Int := (profile.contextTokens : Int) - profile.reservedOutputTokens - overhead
  match profile.managedInputBudget with
  | none =>
    let perChild := profile.maxResultCharacters + 1024
    ⟨min profile.maxFanIn (available / perChild), overhead, perChild⟩
  | some budget =>
    let rendered := reductionSize budget path 0
    ⟨min (min profile.maxFanIn (available / budget.childBytes))
        (((budget.inputBytes : Int) - rendered) / budget.childBytes), rendered, budget.childBytes⟩

/-- `[current[offset:offset+capacity] for offset in range(0, len(current), capacity)]`. -/
def groupsOf {α : Type} (n : Nat) (l : List α) : List (List α) :=
  (List.range ((l.length + n - 1) / n)).map fun i => (l.drop (i * n)).take n

/-- `d[k]` for each `k`. -/
def lookupAll (d : Dict U Nat) (keys : List U) : Except Fault (List Nat) :=
  keys.mapM fun k => match d.get? k with
    | some n => .ok n
    | none => .error .exception

section

variable (ids : Ids U) (a : ExtractionArtifact U) (profile : DigestionProfile)

/-- One reducer; `following` collects the keys of the round. -/
def formReducer (chunkCount : Nat) (node : StructuralUnit U) (allow : Allowance)
    (s : Draft U × List U) (group : List U) : Except Fault (Draft U × List U) := do
  let levels ← lookupAll s.1.levels group
  let level := 1 + levels.foldl max 0
  if profile.maxDepth < level then .error limitExceeded
  else
    let key := ids.stableId ([ids.uuidStr a.extractionId, profile.digest ids, "reduction".toList,
      ids.uuidStr node.structuralUnitId] ++ group.map ids.uuidStr)
    let positions ← lookupAll s.1.positions group
    let reducers := s.1.reducers ++ [⟨key, node.structuralUnitId, group, level, node.path,
      allow.overhead + group.length * allow.perChild⟩]
    if profile.maxSteps < chunkCount + reducers.length + 2 then .error limitExceeded
    else .ok (⟨reducers, s.1.levels.set key level, s.1.positions.set key (positions.min?.getD 0)⟩,
      s.2 ++ [key])

/-- The `while True` of `reduce_group`. -/
def reduceLoop (chunkCount : Nat) (node : StructuralUnit U) (allow : Allowance) :
    Nat → List U → Draft U → Except Fault (U × Draft U)
  | 0, _, _ => .error .diverges
  | rounds + 1, current, s => do
    let (s, following) ← (groupsOf allow.capacity.toNat current).foldlM
      (formReducer ids a profile chunkCount node allow) (s, [])
    match following with
    | [key] => .ok (key, s)
    | _ => reduceLoop chunkCount node allow rounds following s

/-- `reduce_group`. -/
def reduceGroup (chunkCount : Nat) (root : U) (node : StructuralUnit U) (children : List U)
    (s : Draft U) : Except Fault (Option U × Draft U) :=
  if children.isEmpty then .ok (none, s)
  else
    let allow := allowance ids profile root node.path
    let least : Int := if profile.managedInputBudget.isSome then min 2 children.length else 2
    if allow.capacity < least then .error limitExceeded
    else (reduceLoop ids a profile chunkCount node allow children.length children s).map
      fun r => (some r.1, r.2)

/-- `sorted(children, key=positions.__getitem__)`. -/
def sortByPosition (positions : Dict U Nat) (children : List U) : Except Fault (List U) := do
  let _ ← lookupAll positions children
  .ok (children.insertionSort fun x y => (positions.get? x).getD 0 ≤ (positions.get? y).getD 0)

/-- One round of the loop over the reversed units. -/
def reduceUnit (chunks : List (AnalysisChunk U)) (root : U) (s : Draft U × Dict U (Option U))
    (node : StructuralUnit U) : Except Fault (Draft U × Dict U (Option U)) := do
  let own := (chunks.filter fun c => c.structuralParent = node.structuralUnitId).map
    AnalysisChunk.chunkId
  let children := own ++ node.childIds.filterMap fun k => (s.2.get? k).join
  let children ← sortByPosition s.1.positions children
  let (output, draft) ← reduceGroup ids a profile chunks.length root node children s.1
  .ok (draft, s.2.set node.structuralUnitId output)

/-- The reducers of the plan, and the root among them. -/
def reduceUnits (units : List (StructuralUnit U)) (chunks : List (AnalysisChunk U)) :
    Except Fault (List (ReductionNode U) × U) :=
  match units with
  | [] => .error .exception
  | root :: _ => do
    let start : Draft U := ⟨[], Dict.ofList (chunks.map fun c => (c.chunkId, 0)),
      Dict.ofList (chunks.map fun c => (c.chunkId, c.sequence))⟩
    let (draft, outputs) ← units.reverse.foldlM
      (reduceUnit ids a profile chunks root.structuralUnitId) (start, [])
    match (outputs.get? root.structuralUnitId).join with
    | some rootId => .ok (draft.reducers, rootId)
    | none => .error .exception

/-! ### Plans -/

/-- `_build`. -/
def build (ref : ObjectRef U) : Except Fault (Plan U) :=
  if profile.maxSourceUnits < (inventory a).length + a.units.countP fun u => u.blocks.isEmpty then
    .error limitExceeded
  else do
    let structureMap ← structureOf ids a ref profile
    let chunks ← chunkGroups ids a profile structureMap.units
    if chunks.isEmpty then .error (.digestion { category := .coverageFailed })
    else do
      let (reducers, rootId) ← reduceUnits ids a profile structureMap.units chunks
      .ok { profile, structureMap, chunks, reducers, rootId, eligible := idsOf a .eligible
            skipped := idsOf a .skipped, unsupported := idsOf a .unsupported }

/-- The checks `build_plan` makes on its arguments. -/
def checkArguments (ref : ObjectRef U) : Except Fault Unit :=
  if !a.valid ids || !profile.valid then .error .exception
  else if ref.scope ≠ a.document.scope || ref.kind ≠ .artifact || ref.objectId ≠ a.extractionId
      || ref.sha256 ≠ ids.sha256 (serialize ids a) || ref.byteSize ≠ utf8Length (serialize ids a) then
    .error (.digestion { category := .evidenceValidationFailed })
  else .ok ()

/-- `build_plan`: an exception other than a `DigestionError` is a planning failure. -/
def buildPlan (ref : ObjectRef U) : Except Fault (Plan U) :=
  match (do let _ ← checkArguments ids a profile ref; build ids a profile ref) with
  | .error .exception => .error planningFailed
  | result => result

end

end Polymind.Digestion
