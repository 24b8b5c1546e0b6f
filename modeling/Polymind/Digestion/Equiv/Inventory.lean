import Polymind.Digestion.Planning
import Polymind.Lib.JsonInjective
import Mathlib.Data.List.Flatten

/-!
# The inventory of a valid artifact

What `validate_graph` guarantees of the blocks that planning reads: their ids are distinct, their
spans lie in the text of their unit, and their line numbers count the line breaks before them.

* `inventory_facts`: the span, the text and the lines of a block;
* `inventory_nodup`, `inventoryIds_nodup`: no two inventoried things share an id;
* `idsOf_perm`: the three lists of the plan partition the inventory.
-/

namespace Polymind.Digestion

open Json Documents

variable {U : Type} [DecidableEq U] {ids : Ids U} {a : ExtractionArtifact U}

theorem natText_injective : Function.Injective natText := fun _ _ h => toDigits_injective h

/-! ### Blocks of a unit -/

/-- The line a text offset is on, for plain text. -/
def lineAt (a : ExtractionArtifact U) (u : TextUnit U) (offset : Nat) : Option Nat :=
  if a.document.pageCount.isNone then some (1 + (u.text.take offset).count '\n') else none

/-- What is known of the block at a position of its unit. -/
structure BlockFacts (ids : Ids U) (a : ExtractionArtifact U) (u : TextUnit U) (index : Nat)
    (b : Block U) : Prop where
  blockId : b.blockId = ids.stableId [ids.uuidStr a.extractionId, ids.uuidStr u.sourceId,
    natText index]
  ordered : b.span.start ≤ b.span.stop
  inside : b.span.stop ≤ u.text.length
  text : Text.slice u.text b.span.start b.span.stop = b.sourceText
  line : b.span.lineStart = lineAt a u b.span.start

/-- The running line number of `validate_graph` counts the line breaks before the running offset. -/
theorem blocksCover_facts {u : TextUnit U} {blocks : List (Block U)} :
    ∀ {index covered line : Nat}, blocksCover ids a u index covered line blocks = true →
      (∀ b ∈ blocks, b.span.valid = true) → covered ≤ u.text.length →
      line = 1 + (u.text.take covered).count '\n' →
      ∀ i b, blocks[i]? = some b → BlockFacts ids a u (index + i) b := by
  induction blocks with
  | nil =>
    intro index covered line _ _ _ _ i b hb
    simp at hb
  | cons block blocks ih =>
    intro index covered line h hvalid hle hline i b hb
    simp only [blocksCover, blockChecks, Bool.and_eq_true, beq_iff_eq, decide_eq_true_eq] at h
    obtain ⟨⟨⟨⟨⟨⟨⟨⟨⟨⟨⟨hid, -⟩, -⟩, hstart⟩, hstop⟩, htext⟩, -⟩, -⟩, -⟩, hlines⟩, -⟩, hrest⟩ := h
    have hspan := hvalid block (List.mem_cons_self ..)
    have hordered : block.span.start ≤ block.span.stop := by
      simp only [Span.valid, Bool.and_eq_true, decide_eq_true_eq] at hspan
      exact hspan.1.1.1.1
    have hfirst : BlockFacts ids a u index block := by
      refine ⟨hid, hordered, hstop, htext, ?_⟩
      rw [lineAt]
      split
      · rename_i hnone
        rw [if_pos hnone, Bool.and_eq_true, beq_iff_eq, beq_iff_eq] at hlines
        rw [hlines.1, hstart, hline]
      · rename_i hsome
        rw [if_neg hsome, Option.isNone_iff_eq_none] at hlines
        exact hlines
    cases i with
    | zero =>
      obtain rfl : block = b := by simpa using hb
      exact hfirst
    | succ i =>
      rw [Nat.add_comm i 1, ← Nat.add_assoc]
      refine ih hrest (fun b hb => hvalid b (List.mem_cons_of_mem _ hb)) hstop ?_ i b (by simpa using hb)
      -- the block's text stands between the two offsets
      rw [← Text.take_append_slice u.text (hstart ▸ hordered), List.count_append, hline, ← hstart, htext]
      omega

/-- A unit without blocks has no text. -/
theorem blocksCover_nil {u : TextUnit U} (h : blocksCover ids a u 0 0 1 [] = true) : u.text = [] := by
  simp only [blocksCover, beq_iff_eq] at h
  exact List.eq_nil_of_length_eq_zero h.symm

/-! ### Units -/

theorem valid_graph (h : a.valid ids = true) : validateGraph ids a = true := by
  simp only [ExtractionArtifact.valid, Bool.and_eq_true] at h
  exact h.2

theorem valid_unit (h : a.valid ids = true) {u : TextUnit U} (hu : u ∈ a.units) :
    unitChecks ids a u = true ∧ ∀ b ∈ u.blocks, b.span.valid = true := by
  have hgraph := valid_graph h
  simp only [validateGraph, Bool.and_eq_true, List.all_eq_true] at hgraph
  simp only [ExtractionArtifact.valid, Bool.and_eq_true, List.all_eq_true] at h
  refine ⟨hgraph.1.1.2 u hu, fun b hb => ?_⟩
  have hfields := h.1.2 u hu
  simp only [TextUnit.fieldsValid, Bool.and_eq_true, List.all_eq_true] at hfields
  have hblock := hfields.2 b hb
  simp only [Block.fieldsValid, Bool.and_eq_true] at hblock
  exact hblock.1

theorem sourceIds_nodup (h : a.valid ids = true) : (a.units.map TextUnit.sourceId).Nodup := by
  have hgraph := valid_graph h
  simp only [validateGraph, Bool.and_eq_true, decide_eq_true_eq] at hgraph
  exact hgraph.1.1.1.2

/-- A unit is a page exactly if the document has pages. -/
theorem physicalPage_isNone (h : a.valid ids = true) {u : TextUnit U} (hu : u ∈ a.units) :
    u.physicalPage.isNone = a.document.pageCount.isNone := by
  have hgraph := valid_graph h
  simp only [validateGraph, Bool.and_eq_true, beq_iff_eq] at hgraph
  have hpages := hgraph.1.1.1.1.2
  have hmem : u.physicalPage ∈ a.units.map TextUnit.physicalPage := List.mem_map_of_mem hu
  rw [hpages] at hmem
  split at hmem
  · rename_i hnone
    rw [List.mem_singleton] at hmem
    rw [hmem, hnone]
  · rename_i n hsome
    obtain ⟨i, -, hi⟩ := List.mem_map.mp hmem
    rw [← hi, hsome]
    rfl

theorem unit_blocksCover (h : a.valid ids = true) {u : TextUnit U} (hu : u ∈ a.units) :
    blocksCover ids a u 0 0 1 u.blocks = true := by
  have hunit := (valid_unit h hu).1
  simp only [unitChecks, Bool.and_eq_true] at hunit
  exact hunit.2

theorem unit_sourceId (h : a.valid ids = true) {u : TextUnit U} (hu : u ∈ a.units) :
    u.sourceId = expectedSource ids a u := by
  have hunit := (valid_unit h hu).1
  simp only [unitChecks, Bool.and_eq_true, beq_iff_eq] at hunit
  exact hunit.1.1.1.1.1.1.1.1.1.1.2

omit [DecidableEq U] in
theorem mem_inventory {p : TextUnit U × Block U} :
    p ∈ inventory a ↔ p.1 ∈ a.units ∧ p.2 ∈ p.1.blocks := by
  obtain ⟨u, b⟩ := p
  simp [inventory]

/-- The span, the text and the lines of a block. -/
theorem inventory_facts (h : a.valid ids = true) {p : TextUnit U × Block U} (hp : p ∈ inventory a) :
    ∃ index, p.1.blocks[index]? = some p.2 ∧ BlockFacts ids a p.1 index p.2 := by
  obtain ⟨hu, hb⟩ := mem_inventory.mp hp
  obtain ⟨i, hi, hget⟩ := List.getElem_of_mem hb
  have hi' : p.1.blocks[i]? = some p.2 := hget ▸ List.getElem?_eq_getElem hi
  refine ⟨i, hi', ?_⟩
  have := blocksCover_facts (unit_blocksCover h hu) (valid_unit h hu).2 (Nat.zero_le _) (by simp) i _ hi'
  rwa [Nat.zero_add] at this

/-! ### Distinct ids -/

/-- Every block, and the source of every unit without blocks, in canonical order. -/
def inventoryIds (a : ExtractionArtifact U) : List U := a.units.flatMap unitIds

/-- The source a block id or a source id was made from. -/
theorem mem_unitIds (h : a.valid ids = true) {u : TextUnit U} (hu : u ∈ a.units) {x : U}
    (hx : x ∈ unitIds u) :
    (x = u.sourceId ∧ ∃ s t, x = ids.stableId [s, t]) ∨
      ∃ s t, x = ids.stableId [s, ids.uuidStr u.sourceId, t] := by
  unfold unitIds at hx
  split at hx
  · rw [List.mem_singleton] at hx
    exact .inl ⟨hx, _, _, hx.trans (unit_sourceId h hu)⟩
  · obtain ⟨b, hb, rfl⟩ := List.mem_map.mp hx
    obtain ⟨index, -, hfacts⟩ := inventory_facts h (p := (u, b)) (mem_inventory.mpr ⟨hu, hb⟩)
    exact .inr ⟨_, _, hfacts.blockId⟩

/-- An id comes from one unit. -/
theorem sourceId_of_mem_unitIds (hc : ids.CollisionFree) (h : a.valid ids = true)
    {u v : TextUnit U} (hu : u ∈ a.units) (hv : v ∈ a.units) {x : U} (hxu : x ∈ unitIds u)
    (hxv : x ∈ unitIds v) : u.sourceId = v.sourceId := by
  rcases mem_unitIds h hu hxu with ⟨hx, s, t, hst⟩ | ⟨s, t, hst⟩ <;>
    rcases mem_unitIds h hv hxv with ⟨hx', s', t', hst'⟩ | ⟨s', t', hst'⟩
  · rw [← hx, ← hx']
  · have := hc.stableId_injective (hst.symm.trans hst')
    simp at this
  · have := hc.stableId_injective (hst.symm.trans hst')
    simp at this
  · have := hc.stableId_injective (hst.symm.trans hst')
    simp only [List.cons.injEq, and_true] at this
    exact hc.uuidStr_injective this.2.1

omit [DecidableEq U] in
theorem unitIds_nodup {u : TextUnit U} (h : (u.blocks.map Block.blockId).Nodup) : (unitIds u).Nodup := by
  unfold unitIds
  split
  · exact List.nodup_singleton _
  · exact h

theorem unit_blockIds_nodup (h : a.valid ids = true) {u : TextUnit U} (hu : u ∈ a.units) :
    (u.blocks.map Block.blockId).Nodup := by
  have hunit := (valid_unit h hu).1
  simp only [unitChecks, Bool.and_eq_true, decide_eq_true_eq] at hunit
  exact hunit.1.2

/-- No two inventoried things share an id. -/
theorem inventoryIds_nodup (hc : ids.CollisionFree) (h : a.valid ids = true) :
    (inventoryIds a).Nodup := by
  rw [inventoryIds, List.nodup_flatMap]
  refine ⟨fun u hu => unitIds_nodup (unit_blockIds_nodup h hu), ?_⟩
  have hsources := sourceIds_nodup h
  rw [List.nodup_iff_pairwise_ne, List.pairwise_map] at hsources
  refine hsources.imp_of_mem fun {u v} hu hv hne => ?_
  intro x hxu hxv
  exact hne (sourceId_of_mem_unitIds hc h hu hv hxu hxv)

omit [DecidableEq U] in
/-- The blocks are part of the inventory, in its order. -/
theorem inventory_sublist :
    ((inventory a).map fun p => p.2.blockId).Sublist (inventoryIds a) := by
  rw [inventory, List.map_flatMap]
  refine List.Sublist.flatMap_right _ fun u _ => ?_
  rw [List.map_map, unitIds]
  split
  · rename_i hempty
    simp [List.isEmpty_iff.mp hempty]
  · exact List.Sublist.refl _

theorem inventory_nodup (hc : ids.CollisionFree) (h : a.valid ids = true) :
    ((inventory a).map fun p => p.2.blockId).Nodup :=
  (inventoryIds_nodup hc h).sublist inventory_sublist

/-! ### Eligibility -/

omit [DecidableEq U] in
theorem idsOf_sublist (c : UnitClass) : (idsOf a c).Sublist (inventoryIds a) := by
  refine List.Sublist.flatMap_right _ fun u _ => ?_
  split
  · exact List.Sublist.refl _
  · exact List.nil_sublist _

omit [DecidableEq U] in
/-- The three lists of a plan partition the inventory. -/
theorem idsOf_perm :
    (idsOf a .eligible ++ idsOf a .skipped ++ idsOf a .unsupported).Perm (inventoryIds a) := by
  unfold idsOf inventoryIds
  induction a.units with
  | nil => exact List.Perm.refl _
  | cons u units ih =>
    simp only [List.flatMap_cons]
    cases hclass : classify u with
    | eligible =>
      simp only [if_true, reduceCtorEq, if_false, List.nil_append, List.append_assoc] at ih ⊢
      exact ih.append_left _
    | skipped =>
      simp only [if_true, reduceCtorEq, if_false, List.nil_append, List.append_assoc] at ih ⊢
      refine List.Perm.trans ?_ (ih.append_left _)
      exact (List.perm_append_comm_assoc _ _ _)
    | unsupported =>
      simp only [if_true, reduceCtorEq, if_false, List.nil_append, List.append_assoc] at ih ⊢
      refine List.Perm.trans ?_ (ih.append_left _)
      refine List.Perm.trans ((List.perm_append_comm_assoc _ _ _).append_left _) ?_
      exact List.perm_append_comm_assoc _ _ _

/-- The eligible ids are ids of blocks: a unit without blocks has no text. -/
theorem eligible_sublist (h : a.valid ids = true) :
    (idsOf a .eligible).Sublist ((inventory a).map fun p => p.2.blockId) := by
  rw [inventory, List.map_flatMap]
  refine List.Sublist.flatMap_right _ fun u hu => ?_
  rw [List.map_map]
  split
  · rename_i hclass
    unfold unitIds
    split
    · rename_i hempty
      have hcover := unit_blocksCover h hu
      rw [List.isEmpty_iff.mp hempty] at hcover
      rw [classify, blocksCover_nil hcover] at hclass
      split at hclass
      · cases hclass
      · simp [Text.hasText] at hclass
    · exact List.Sublist.refl _
  · exact List.nil_sublist _

/-- A part of a list without repetitions is what the list has in common with it. -/
theorem filter_mem_of_sublist {l m : List U} (h : l.Sublist m) (hnd : m.Nodup) :
    m.filter (fun x => x ∈ l) = l := by
  induction h with
  | slnil => rfl
  | @cons l m x hsub ih =>
    obtain ⟨hx, hnd⟩ := List.nodup_cons.mp hnd
    rw [List.filter_cons_of_neg (by simpa using fun hl => hx (hsub.subset hl)), ih hnd]
  | @cons_cons l m x hsub ih =>
    obtain ⟨hx, hnd⟩ := List.nodup_cons.mp hnd
    rw [List.filter_cons_of_pos (by simp)]
    refine congrArg _ (Eq.trans (List.filter_congr fun y hy => ?_) (ih hnd))
    have hne : y ≠ x := fun he => hx (he ▸ hy)
    simp [hne]

end Polymind.Digestion
