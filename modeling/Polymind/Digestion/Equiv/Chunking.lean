import Polymind.Digestion.Equiv.Inventory
import Polymind.Digestion.Equiv.Structure

/-!
# The chunking loop

What the loop of `_build` does to the text of the eligible blocks.  `Tiles` says how the pieces of
one block lie in it, `Packed` what is known of the chunks made so far and of the pieces that wait.

* `fitPiece_ok`: a piece found by halving starts where it should and is not empty unless it must be;
* `splitBlock_ok`: the pieces of a block tile it and are packed in order;
* `chunkGroups_ok`: over all groups, the pieces of the chunks are those of the eligible blocks.
-/

namespace Polymind.Digestion

open Json Documents

variable {U : Type} [DecidableEq U] {ids : Ids U} {a : ExtractionArtifact U}
  {profile : DigestionProfile}

/-! ### Chunks -/

/-- The id of a chunk. -/
def chunkKey (ids : Ids U) (a : ExtractionArtifact U) (profile : DigestionProfile) (unit : U)
    (pieces : List (SourcePiece U)) : U :=
  ids.stableId ([ids.uuidStr a.extractionId, profile.digest ids, "chunk".toList, ids.uuidStr unit]
    ++ pieces.map fun p => ids.uuidStr (p.evidenceId ids))

/-- The request a chunk is measured by. -/
def analysisRequest (profile : DigestionProfile) (c : AnalysisChunk U) : StageRequest U :=
  { stageId := c.chunkId, stage := .analysis, profile, structuralPath := c.path
    sourceData := c.pieces }

/-- What `make_chunk` guarantees of a chunk. -/
structure Made (ids : Ids U) (a : ExtractionArtifact U) (profile : DigestionProfile)
    (node : StructuralUnit U) (c : AnalysisChunk U) : Prop where
  chunkId : c.chunkId = chunkKey ids a profile node.structuralUnitId c.pieces
  parent : c.structuralParent = node.structuralUnitId
  path : c.path = node.path
  valid : (analysisRequest profile c).valid ids = true
  estimate : checkRequest ids (analysisRequest profile c) = .ok c.estimatedTokens

theorem makeChunk_ok {node : StructuralUnit U} {sequence : Nat} {pieces : List (SourcePiece U)}
    {c : AnalysisChunk U} (h : makeChunk ids a profile node sequence pieces = .ok c) :
    Made ids a profile node c ∧ c.sequence = sequence ∧ c.pieces = pieces := by
  unfold makeChunk at h
  dsimp only at h
  rw [bind_eq_ok] at h
  obtain ⟨request, hrequest, h⟩ := h
  rw [bind_eq_ok] at h
  obtain ⟨estimate, hestimate, h⟩ := h
  unfold StageRequest.make at hrequest
  split at hrequest
  · rename_i hvalid
    rw [← Except.ok.inj hrequest] at hestimate
    rw [← Except.ok.inj h]
    exact ⟨⟨rfl, rfl, rfl, hvalid, hestimate⟩, rfl, rfl⟩
  · cases hrequest

theorem Made.pieces_ne_nil {node : StructuralUnit U} {c : AnalysisChunk U}
    (h : Made ids a profile node c) : c.pieces ≠ [] := by
  have hvalid := h.valid
  simp only [StageRequest.valid, analysisRequest, Bool.and_eq_true, Bool.not_eq_true',
    List.isEmpty_eq_false_iff] at hvalid
  exact hvalid.1.1

/-! ### Packing -/

/-- The number of characters in some pieces. -/
def characters (pieces : List (SourcePiece U)) : Nat := (pieces.map fun p => p.text.length).sum

omit [DecidableEq U] in
theorem characters_append (l m : List (SourcePiece U)) :
    characters (l ++ m) = characters l + characters m := by
  simp [characters]

/-- The pieces in chunks and those that wait, in order. -/
def Packing.pieces (s : Packing U) : List (SourcePiece U) :=
  s.chunks.flatMap AnalysisChunk.pieces ++ s.pending

/-- What is known of a chunk of the plan at its position. -/
structure Settled (ids : Ids U) (a : ExtractionArtifact U) (profile : DigestionProfile)
    (units : List (StructuralUnit U)) (i : Nat) (c : AnalysisChunk U) : Prop where
  sequence : c.sequence = i
  made : ∃ node ∈ units, Made ids a profile node c
  within : characters c.pieces ≤ profile.chunkCharacters

/-- What the packing keeps. -/
structure Packed (ids : Ids U) (a : ExtractionArtifact U) (profile : DigestionProfile)
    (units : List (StructuralUnit U)) (s : Packing U) : Prop where
  settled : ∀ i c, s.chunks[i]? = some c → Settled ids a profile units i c
  counted : s.characters = characters s.pending
  within : s.characters ≤ profile.chunkCharacters

variable {units : List (StructuralUnit U)} {node : StructuralUnit U} {s t : Packing U}

theorem Packed.flush (h : Packed ids a profile units s) (hnode : node ∈ units)
    (ht : flush ids a profile node s = .ok t) :
    Packed ids a profile units t ∧ t.pending = [] ∧ t.characters = 0 ∧ t.pieces = s.pieces := by
  unfold Digestion.flush at ht
  split at ht
  · rename_i hempty
    rw [List.isEmpty_iff] at hempty
    rw [← Except.ok.inj ht]
    exact ⟨⟨h.settled, by simp [hempty, characters], Nat.zero_le _⟩, hempty, rfl, rfl⟩
  split at ht
  · cases ht
  rw [bind_eq_ok] at ht
  obtain ⟨c, hc, ht⟩ := ht
  obtain ⟨hmade, hsequence, hpieces⟩ := makeChunk_ok hc
  rw [← Except.ok.inj ht]
  refine ⟨⟨?_, rfl, Nat.zero_le _⟩, rfl, rfl, ?_⟩
  · intro i d hd
    rcases Nat.lt_trichotomy i s.chunks.length with hlt | heq | hgt
    · exact h.settled i d (by rwa [List.getElem?_append_left hlt] at hd)
    · -- the chunk just made
      rw [List.getElem?_append_right (by omega), heq, Nat.sub_self] at hd
      obtain rfl : c = d := by simpa using hd
      refine ⟨hsequence.trans heq.symm, ⟨node, hnode, hmade⟩, ?_⟩
      rw [hpieces, ← h.counted]
      exact h.within
    · rw [List.getElem?_eq_none (by simp; omega)] at hd
      cases hd
  · simp [Packing.pieces, hpieces]

theorem fits_true {piece : SourcePiece U} (h : fits ids a profile node s piece = .ok true) :
    s.characters + piece.text.length ≤ profile.chunkCharacters := by
  unfold fits at h
  split at h
  · assumption
  · cases h

theorem Packed.makeRoom (h : Packed ids a profile units s) (hnode : node ∈ units) {fit : Bool}
    (ht : makeRoom ids a profile node fit s = .ok t) :
    Packed ids a profile units t ∧ t.pieces = s.pieces
      ∧ (t.characters = 0 ∨ (fit = true ∧ t.characters = s.characters)) := by
  unfold Digestion.makeRoom at ht
  split at ht
  · obtain ⟨hpacked, -, hzero, hpieces⟩ := h.flush hnode ht
    exact ⟨hpacked, hpieces, .inl hzero⟩
  · rename_i hkeep
    rw [← Except.ok.inj ht]
    refine ⟨h, rfl, ?_⟩
    simp only [Bool.and_eq_true, Bool.not_eq_true', not_and, Bool.not_eq_false,
      List.isEmpty_eq_false_iff] at hkeep
    by_cases hpending : s.pending = []
    · rw [h.counted, hpending]
      exact .inl rfl
    · exact .inr ⟨hkeep hpending, rfl⟩

/-- A piece no longer than a chunk is packed. -/
theorem Packed.addPiece (h : Packed ids a profile units s) (hnode : node ∈ units)
    {piece : SourcePiece U} (hlen : piece.text.length ≤ profile.chunkCharacters)
    (ht : addPiece ids a profile node s piece = .ok t) :
    Packed ids a profile units t ∧ t.pieces = s.pieces ++ [piece] := by
  unfold Digestion.addPiece at ht
  rw [bind_eq_ok] at ht
  obtain ⟨fit, hfit, ht⟩ := ht
  rw [bind_eq_ok] at ht
  obtain ⟨s', hs', ht⟩ := ht
  obtain ⟨hpacked, hpieces, hroom⟩ := h.makeRoom hnode hs'
  rw [← Except.ok.inj ht]
  refine ⟨⟨hpacked.settled, ?_, ?_⟩, ?_⟩
  · rw [characters_append, ← hpacked.counted]
    simp [characters]
  · rcases hroom with hzero | ⟨rfl, hsame⟩
    · simpa [hzero] using hlen
    · simpa [hsame] using fits_true hfit
  · rw [← hpieces]
    simp [Packing.pieces]

/-! ### Pieces of a block -/

/-- The pieces of a block from an offset on: each starts where the one before it ends, on its own
line, and is not empty unless it is the only one. -/
inductive Tiles (a : ExtractionArtifact U) (unit : TextUnit U) (block : Block U) :
    Nat → List (SourcePiece U) → Prop
  | last {start : Nat} (ordered : start ≤ block.span.stop) :
      Tiles a unit block start
        [pieceAt a unit block start block.span.stop (lineAt a unit start)]
  | cons {start stop : Nat} {pieces : List (SourcePiece U)} (nonempty : start < stop)
      (inside : stop < block.span.stop) (rest : Tiles a unit block stop pieces) :
      Tiles a unit block start (pieceAt a unit block start stop (lineAt a unit start) :: pieces)

variable {unit : TextUnit U} {block : Block U}

omit [DecidableEq U] in
/-- The line number carried along counts the line breaks of the piece. -/
theorem lineAt_step {start stop : Nat} (h : start ≤ stop) :
    (lineAt a unit start).map (· + (Text.slice unit.text start stop).count '\n')
      = lineAt a unit stop := by
  unfold lineAt
  split
  · rw [Option.map_some, ← Text.take_append_slice unit.text h, List.count_append, Nat.add_assoc]
  · rfl

omit [DecidableEq U] in
/-- The first end that is tried lies behind the start and within the chunk limit. -/
theorem firstStop_bounds (unit : TextUnit U) {start : Nat} (hstart : start ≤ block.span.stop)
    (hpos : 0 < profile.chunkCharacters) :
    start ≤ firstStop profile unit block start
      ∧ firstStop profile unit block start ≤ block.span.stop
      ∧ firstStop profile unit block start ≤ start + profile.chunkCharacters
      ∧ (start < block.span.stop → start < firstStop profile unit block start) := by
  unfold firstStop
  dsimp only
  split
  · split
    · rename_i boundary hb
      have := Text.rfind_some hb
      omega
    · omega
  · omega

/-- The piece that is found starts at its start, ends no later than the first end, and is empty only
if that one was at the start. -/
theorem fitPiece_ok {sequence start : Nat} {lineStart : Option Nat} {piece : SourcePiece U} :
    ∀ {rounds stop found : Nat},
      fitPiece ids a profile node sequence unit block start lineStart rounds stop = .ok (piece, found) →
      start ≤ stop →
      piece = pieceAt a unit block start found lineStart ∧ start ≤ found ∧ found ≤ stop
        ∧ (start < stop → start < found) := by
  intro rounds
  induction rounds with
  | zero =>
    intro stop found h _
    cases h
  | succ rounds ih =>
    intro stop found h hle
    rw [fitPiece] at h
    dsimp only at h
    split at h
    · cases h
    split at h
    · obtain ⟨rfl, rfl⟩ := Prod.mk.inj (Except.ok.inj h)
      exact ⟨rfl, hle, Nat.le_refl _, id⟩
    · split at h
      · cases h
      · -- the end is halved, and stays behind the start
        rename_i hwide
        simp only [Bool.or_eq_true, decide_eq_true_eq, not_or] at hwide
        obtain ⟨hpiece, hlo, hhi, hlt⟩ := ih h (by omega)
        exact ⟨hpiece, hlo, by omega, fun _ => hlt (by omega)⟩
    · cases h

/-- The pieces of a block are packed in order and tile it. -/
theorem splitBlock_ok (hpos : 0 < profile.chunkCharacters) (hnode : node ∈ units) :
    ∀ {rounds start : Nat} {s : Packing U}, Packed ids a profile units s →
      start ≤ block.span.stop →
      splitBlock ids a profile node unit block rounds start (lineAt a unit start) s = .ok t →
      ∃ pieces, Tiles a unit block start pieces ∧ Packed ids a profile units t
        ∧ t.pieces = s.pieces ++ pieces := by
  intro rounds
  induction rounds with
  | zero =>
    intro start s _ _ h
    cases h
  | succ rounds ih =>
    intro start s hs hstart h
    rw [splitBlock, bind_eq_ok] at h
    obtain ⟨⟨piece, stop⟩, hpiece, h⟩ := h
    rw [bind_eq_ok] at h
    obtain ⟨s', hs', h⟩ := h
    obtain ⟨hlo, hhi, hlimit, hmove⟩ := firstStop_bounds unit hstart hpos
    obtain ⟨rfl, hge, hle, hlt⟩ := fitPiece_ok hpiece hlo
    have hlen : (pieceAt a unit block start stop (lineAt a unit start)).text.length
        ≤ profile.chunkCharacters := by
      change (Text.slice unit.text start stop).length ≤ _
      rw [Text.length_slice]
      omega
    obtain ⟨hpacked, hpieces⟩ := hs.addPiece hnode hlen hs'
    split at h
    · rename_i hinside
      change splitBlock ids a profile node unit block rounds stop
        ((lineAt a unit start).map (· + (Text.slice unit.text start stop).count '\n')) s' = .ok t at h
      rw [lineAt_step hge] at h
      obtain ⟨pieces, htiles, ht, hadded⟩ := ih hpacked (by omega) h
      refine ⟨_, .cons (hlt (hmove (by omega))) hinside htiles, ht, ?_⟩
      rw [hadded, hpieces, List.append_assoc]
      rfl
    · rename_i hend
      have hstop : stop = block.span.stop := by omega
      subst hstop
      rw [← Except.ok.inj h]
      exact ⟨_, .last hstart, hpacked, hpieces⟩

/-! ### All blocks -/

/-- The pieces of some blocks: none for a block that is not eligible. -/
inductive Cuts (a : ExtractionArtifact U) : List U → List (SourcePiece U) → Prop
  | nil : Cuts a [] []
  | skip {key : U} {keys : List U} {pieces : List (SourcePiece U)}
      (ineligible : key ∉ idsOf a .eligible) (rest : Cuts a keys pieces) : Cuts a (key :: keys) pieces
  | cut {p : TextUnit U × Block U} {keys : List U} {pieces more : List (SourcePiece U)}
      (mem : p ∈ inventory a) (eligible : p.2.blockId ∈ idsOf a .eligible)
      (tiles : Tiles a p.1 p.2 p.2.span.start pieces) (rest : Cuts a keys more) :
      Cuts a (p.2.blockId :: keys) (pieces ++ more)

omit [DecidableEq U] in
theorem Cuts.append {keys keys' : List U} {pieces pieces' : List (SourcePiece U)}
    (h : Cuts a keys pieces) (h' : Cuts a keys' pieces') :
    Cuts a (keys ++ keys') (pieces ++ pieces') := by
  induction h with
  | nil => exact h'
  | skip ineligible rest ih => exact .skip ineligible ih
  | cut mem eligible tiles rest ih =>
    rw [List.append_assoc]
    exact .cut mem eligible tiles ih

/-- One block of a group. -/
theorem chunkBlock_ok (hvalid : a.valid ids = true) (hpos : 0 < profile.chunkCharacters)
    (hnode : node ∈ units) (hs : Packed ids a profile units s) {key : U}
    (h : chunkBlock ids a profile node s key = .ok t) :
    ∃ pieces, Cuts a [key] pieces ∧ Packed ids a profile units t ∧ t.pieces = s.pieces ++ pieces := by
  unfold chunkBlock at h
  split at h
  · rename_i hineligible
    rw [← Except.ok.inj h]
    exact ⟨[], .skip hineligible .nil, hs, (List.append_nil _).symm⟩
  · rename_i heligible
    rw [not_not] at heligible
    split at h
    · cases h
    · rename_i unit block hget
      obtain ⟨p, hp, hpair⟩ := List.mem_map.mp (Dict.mem_of_get?_ofList hget)
      obtain ⟨rfl, rfl⟩ := Prod.mk.inj hpair
      obtain ⟨index, -, hfacts⟩ := inventory_facts hvalid hp
      rw [hfacts.line] at h
      obtain ⟨pieces, htiles, ht, hpieces⟩ := splitBlock_ok hpos hnode hs hfacts.ordered h
      refine ⟨pieces, ?_, ht, hpieces⟩
      have := Cuts.cut hp heligible htiles .nil
      rwa [List.append_nil] at this

/-- One group. -/
theorem chunkGroup_ok (hvalid : a.valid ids = true) (hpos : 0 < profile.chunkCharacters)
    {chunks chunks' : List (AnalysisChunk U)} {group : StructuralUnit U × List U}
    (hnode : group.1 ∈ units) (hs : Packed ids a profile units ⟨chunks, [], 0⟩)
    (h : chunkGroup ids a profile chunks group = .ok chunks') :
    ∃ pieces, Cuts a group.2 pieces ∧ Packed ids a profile units ⟨chunks', [], 0⟩
      ∧ chunks'.flatMap AnalysisChunk.pieces = chunks.flatMap AnalysisChunk.pieces ++ pieces := by
  unfold chunkGroup at h
  rw [bind_eq_ok] at h
  obtain ⟨s, hloop, h⟩ := h
  rw [bind_eq_ok] at h
  obtain ⟨t, hflush, h⟩ := h
  have hcuts := foldlM_ok_prefix (fun keys s => ∃ pieces, Cuts a keys pieces
      ∧ Packed ids a profile units s
      ∧ s.pieces = chunks.flatMap AnalysisChunk.pieces ++ pieces) hloop
    ⟨[], .nil, hs, by simp [Packing.pieces]⟩ ?_
  · obtain ⟨pieces, hcuts, hs, hpieces⟩ := hcuts
    obtain ⟨ht, hpending, hzero, hsame⟩ := hs.flush hnode hflush
    rw [← Except.ok.inj h]
    refine ⟨pieces, hcuts, ⟨ht.settled, rfl, Nat.zero_le _⟩, ?_⟩
    rw [← hpieces, ← hsame, Packing.pieces, hpending, List.append_nil]
  · rintro done key s t - ⟨pieces, hcuts, hs, hpieces⟩ hstep
    obtain ⟨more, hmore, ht, hadded⟩ := chunkBlock_ok hvalid hpos hnode hs hstep
    exact ⟨pieces ++ more, hcuts.append hmore, ht, by rw [hadded, hpieces, List.append_assoc]⟩

/-! ### Groups -/

theorem groupRuns_keys (owned : List (StructuralUnit U × U)) :
    (groupRuns owned).flatMap Prod.snd = owned.map Prod.snd := by
  induction owned with
  | nil => rfl
  | cons p owned ih =>
    obtain ⟨owner, key⟩ := p
    rw [groupRuns, List.map_cons, ← ih]
    split
    · simp [*]
    · rename_i next keys groups hgroups
      rw [hgroups]
      split <;> rfl

theorem groupRuns_owner {owned : List (StructuralUnit U × U)} {g : StructuralUnit U × List U}
    (hg : g ∈ groupRuns owned) : ∃ o ∈ owned, g.1 = o.1 := by
  induction owned generalizing g with
  | nil => cases hg
  | cons p owned ih =>
    obtain ⟨owner, key⟩ := p
    have hrest : ∀ g, g ∈ groupRuns owned → ∃ o ∈ (owner, key) :: owned, g.1 = o.1 := by
      intro g hg
      obtain ⟨o, ho, hgo⟩ := ih hg
      exact ⟨o, List.mem_cons_of_mem _ ho, hgo⟩
    have hfirst : ∀ keys : List U, ∃ o ∈ (owner, key) :: owned, (owner, keys).1 = o.1 :=
      fun keys => ⟨(owner, key), List.mem_cons_self .., rfl⟩
    rw [groupRuns] at hg
    split at hg
    · rw [List.mem_singleton] at hg
      exact hg ▸ hfirst _
    · rename_i next keys groups hgroups
      split at hg
      · rcases List.mem_cons.mp hg with rfl | hg
        · exact hfirst _
        · exact hrest g (hgroups ▸ List.mem_cons_of_mem _ hg)
      · rcases List.mem_cons.mp hg with rfl | hg
        · exact hfirst _
        · exact hrest g (hgroups ▸ hg)

theorem ownersOf_ok {owned : List (StructuralUnit U × U)} (h : ownersOf units a = .ok owned) :
    owned.map Prod.snd = (inventory a).map (fun p => p.2.blockId) ∧ ∀ o ∈ owned, o.1 ∈ units := by
  unfold ownersOf at h
  dsimp only at h
  rw [mapM_eq_ok] at h
  generalize inventory a = blocks at h
  induction h with
  | nil => simp
  | @cons p o blocks owned hstep _ ih =>
    split at hstep
    · rename_i owner hget
      rw [← Except.ok.inj hstep]
      refine ⟨by rw [List.map_cons, List.map_cons, ih.1], ?_⟩
      rintro o ho
      rcases List.mem_cons.mp ho with rfl | ho
      · obtain ⟨n, hn, hmem⟩ := List.mem_flatMap.mp (Dict.mem_of_get?_ofList hget)
        obtain ⟨k, -, hk⟩ := List.mem_map.mp hmem
        rw [← (Prod.mk.inj hk).2]
        exact hn
      · exact ih.2 o ho
    · cases hstep

/-- The pieces of the chunks are those of the eligible blocks, in canonical order. -/
theorem chunkGroups_ok (hvalid : a.valid ids = true) (hpos : 0 < profile.chunkCharacters)
    {chunks : List (AnalysisChunk U)} (h : chunkGroups ids a profile units = .ok chunks) :
    Cuts a ((inventory a).map fun p => p.2.blockId) (chunks.flatMap AnalysisChunk.pieces)
      ∧ ∀ i c, chunks[i]? = some c → Settled ids a profile units i c := by
  unfold chunkGroups at h
  rw [bind_eq_ok] at h
  obtain ⟨owned, howned, h⟩ := h
  obtain ⟨hkeys, hunits⟩ := ownersOf_ok howned
  have hloop := foldlM_ok_prefix (fun groups chunks =>
      Cuts a (groups.flatMap Prod.snd) (chunks.flatMap AnalysisChunk.pieces)
        ∧ Packed ids a profile units ⟨chunks, [], 0⟩) h
    ⟨.nil, ⟨by simp, rfl, Nat.zero_le _⟩⟩ ?_
  · rw [groupRuns_keys, hkeys] at hloop
    exact ⟨hloop.1, hloop.2.settled⟩
  · rintro done group chunks chunks' ⟨rest, hrest⟩ ⟨hcuts, hs⟩ hstep
    have hmem : group ∈ groupRuns owned := hrest ▸ List.mem_append_right _ (List.mem_cons_self ..)
    obtain ⟨o, ho, hgo⟩ := groupRuns_owner hmem
    obtain ⟨pieces, hpieces, ht, hadded⟩ :=
      chunkGroup_ok hvalid hpos (hgo ▸ hunits o ho) hs hstep
    refine ⟨?_, ht⟩
    rw [List.flatMap_append, hadded]
    refine hcuts.append ?_
    simpa using hpieces

end Polymind.Digestion
