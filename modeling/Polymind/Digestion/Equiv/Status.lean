import Polymind.Digestion.Equiv.Lineage
import Mathlib.Data.List.Sort

/-!
# Coverage and status of a digest

`make_digest` does not read off the outcomes of the chunks which blocks were analyzed: it takes the
union of the spans of the pieces that survived.  The pieces of a block follow each other without
overlap (`Contiguous`), none of them empty unless it is alone, so that the union is the whole span
exactly if no piece is missing.

* `coverCursor_sublist`: some of the spans reach the end only if they are all of them;
* `full_iff`: a block is covered exactly if every chunk with one of its pieces was analyzed;
* `status_exact`: the coverage, the status and the lookups of `make_digest`.
-/

namespace Polymind.Digestion

open Json Documents Forest Relation

variable {U : Type} [DecidableEq U] {ids : Ids U} {parse : Parser U} {a : ExtractionArtifact U}
  {profile : DigestionProfile} {ref planRef : ObjectRef U} {plan : Plan U} {o : Outcomes U}

/-! ### Spans -/

theorem Contiguous.ne_nil {start stop : Nat} {spans : List (Nat × Nat)}
    (h : Contiguous start stop spans) : spans ≠ [] := by
  cases h with
  | single => exact List.cons_ne_nil _ _
  | cons => exact List.cons_ne_nil _ _

/-- No span begins before the first. -/
theorem Contiguous.start_le {start stop : Nat} {spans : List (Nat × Nat)}
    (h : Contiguous start stop spans) : ∀ s ∈ spans, start ≤ s.1 := by
  induction h with
  | single ordered =>
    intro s hs
    rw [List.mem_singleton.mp hs]
  | cons nonempty inside rest ih =>
    intro s hs
    rcases List.mem_cons.mp hs with rfl | hs
    · exact Nat.le_refl _
    · exact nonempty.le.trans (ih s hs)

/-- They are in the order in which `full` sorts them. -/
theorem Contiguous.pairwise {start stop : Nat} {spans : List (Nat × Nat)}
    (h : Contiguous start stop spans) : spans.Pairwise pairLe := by
  induction h with
  | single ordered => exact List.pairwise_singleton ..
  | cons nonempty inside rest ih =>
    refine List.pairwise_cons.mpr ⟨fun s hs => ?_, ih⟩
    exact .inl (nonempty.trans_le (rest.start_le s hs))

/-- Some of the spans reach the end only if they are all of them. -/
theorem coverCursor_sublist {start stop : Nat} {spans part : List (Nat × Nat)}
    (h : Contiguous start stop spans) (hsub : part.Sublist spans) :
    (part ≠ [] ∧ coverCursor start part = some stop) ↔ part = spans := by
  induction h generalizing part with
  | @single start stop ordered =>
    rcases List.sublist_singleton.mp hsub with rfl | rfl
    · simp
    · simp [coverCursor, ordered]
  | @cons start mid stop spans nonempty inside rest ih =>
    cases hsub with
    | cons _ hsub =>
      -- the first span is missing, which leaves a gap
      constructor
      · rintro ⟨hne, hcursor⟩
        obtain ⟨s, rest', rfl⟩ := List.exists_cons_of_ne_nil hne
        have hs := rest.start_le s (hsub.subset (List.mem_cons_self ..))
        rw [coverCursor, if_pos (by omega)] at hcursor
        cases hcursor
      · rintro rfl
        have := hsub.length_le
        rw [List.length_cons] at this
        omega
    | cons_cons _ hsub =>
      rename_i more
      rw [coverCursor, if_neg (Nat.lt_irrefl _), Nat.max_eq_right nonempty.le, List.cons.injEq,
        ← ih hsub]
      constructor
      · rintro ⟨-, hcursor⟩
        refine ⟨rfl, ?_, hcursor⟩
        rintro rfl
        -- the first span alone ends before the end
        rw [coverCursor] at hcursor
        have := Option.some.inj hcursor
        omega
      · rintro ⟨-, -, hcursor⟩
        exact ⟨List.cons_ne_nil _ _, hcursor⟩

/-! ### Which pieces survive -/

section

variable {α β : Type} {f : α → List β}

/-- A part of the lists that a condition selects is what is selected of the whole exactly if no list
that is left out has any of it. -/
theorem filter_flatMap_eq_iff (keep : α → Bool) (p : β → Bool) (l : List α) :
    (((l.filter keep).flatMap f).filter p = (l.flatMap f).filter p)
      ↔ ∀ x ∈ l, (∃ y ∈ f x, p y = true) → keep x = true := by
  induction l with
  | nil => simp
  | cons x l ih =>
    rw [List.forall_mem_cons, ← ih, List.flatMap_cons, List.filter_append]
    have hsub : (((l.filter keep).flatMap f).filter p).Sublist ((l.flatMap f).filter p) :=
      (List.filter_sublist.flatMap f).filter p
    by_cases hkeep : keep x = true
    · rw [List.filter_cons_of_pos hkeep, List.flatMap_cons, List.filter_append, List.append_cancel_left_eq]
      exact ⟨fun h => ⟨fun _ => hkeep, h⟩, And.right⟩
    · rw [List.filter_cons_of_neg hkeep]
      constructor
      · intro heq
        have hlen := congrArg List.length heq
        rw [List.length_append] at hlen
        have := hsub.length_le
        have hnil : (f x).filter p = [] := List.length_eq_zero_iff.mp (by omega)
        refine ⟨fun ⟨y, hy, hp⟩ => ?_, ?_⟩
        · exact absurd hp (List.filter_eq_nil_iff.mp hnil y hy)
        · rw [heq, hnil, List.nil_append]
      · rintro ⟨hnone, heq⟩
        have hnil : (f x).filter p = [] :=
          List.filter_eq_nil_iff.mpr fun y hy hp => hkeep (hnone ⟨y, hy, hp⟩)
        rw [heq, hnil, List.nil_append]

end

/-! ### The coverage of a block -/

/-- Sorting some of the spans leaves them as they are. -/
theorem Contiguous.insertionSort_eq {start stop : Nat} {spans part : List (Nat × Nat)}
    (h : Contiguous start stop spans) (hsub : part.Sublist spans) : part.insertionSort pairLe = part :=
  List.Pairwise.insertionSort_eq (h.pairwise.sublist hsub)

/-- An eligible block, and its pieces among those of the plan. -/
theorem Planned.tiles (hc : ids.CollisionFree) (h : Planned ids a profile ref plan) {key : U}
    (hkey : key ∈ plan.eligible) : ∃ p ∈ inventory a, p.2.blockId = key
      ∧ Tiles a p.1 p.2 p.2.span.start (plan.pieces.filter fun piece => piece.evidence.blockId = key) := by
  have hnd := inventory_nodup hc h.valid
  rw [h.eligible] at hkey
  obtain ⟨p, hp, rfl⟩ := List.mem_map.mp ((eligible_sublist h.valid).subset hkey)
  exact ⟨p, hp, rfl, Cuts.tiles hnd (List.Subset.refl _) hnd h.cuts p hp hkey⟩

theorem ne_analyzed (outcome : StageOutcome) : outcome ≠ .unavailable ↔ outcome = .analyzed := by
  cases outcome <;> decide

/-- A block is covered exactly if every chunk with one of its pieces was analyzed. -/
theorem full_iff (hc : ids.CollisionFree) (h : Planned ids a profile ref plan) {key : U}
    (hkey : key ∈ plan.eligible) : full a (o.analyzedPieces plan.chunks) key = true
      ↔ ∀ c ∈ plan.chunks, (∃ piece ∈ c.pieces, piece.evidence.blockId = key) →
        (o.checkpoint c.chunkId).result.outcome = .analyzed := by
  obtain ⟨p, hp, hid, htiles⟩ := h.tiles hc hkey
  have hcontiguous := htiles.contiguous
  -- the pieces that survive are some of those of the block
  have hsub : ((o.analyzedPieces plan.chunks).filter fun piece => piece.evidence.blockId = key).Sublist
      (plan.pieces.filter fun piece => piece.evidence.blockId = key) :=
    (List.filter_sublist.flatMap _).filter _
  have hspans := hsub.map fun piece : SourcePiece U =>
    (piece.evidence.span.start, piece.evidence.span.stop)
  have hget : (blockIndex a).get? key = some p := hid ▸ blockIndex_get? hc h.valid hp
  rw [full, hget]
  dsimp only
  rw [hcontiguous.insertionSort_eq hspans, Bool.and_eq_true, beq_iff_eq, Bool.not_eq_true',
    List.isEmpty_eq_false_iff, coverCursor_sublist hcontiguous hspans]
  have hlengths : (((o.analyzedPieces plan.chunks).filter fun piece => piece.evidence.blockId = key).map
        fun piece : SourcePiece U => (piece.evidence.span.start, piece.evidence.span.stop))
      = offsets (plan.pieces.filter fun piece => piece.evidence.blockId = key)
      ↔ ((o.analyzedPieces plan.chunks).filter fun piece => piece.evidence.blockId = key)
        = plan.pieces.filter fun piece => piece.evidence.blockId = key := by
    constructor
    · intro heq
      have := congrArg List.length heq
      rw [offsets, List.length_map, List.length_map] at this
      exact hsub.eq_of_length this
    · intro heq
      rw [heq]
      rfl
  rw [hlengths, Outcomes.analyzedPieces, Plan.pieces, filter_flatMap_eq_iff]
  simp only [decide_eq_true_eq, ne_analyzed]

/-! ### The status -/

/-- The chunks hold pieces of eligible blocks only, each at least one. -/
theorem Planned.piece_eligible (h : Planned ids a profile ref plan) {c : AnalysisChunk U}
    (hc : c ∈ plan.chunks) : ∃ key ∈ plan.eligible, ∃ piece ∈ c.pieces, piece.evidence.blockId = key := by
  obtain ⟨i, hsettled⟩ := h.chunk hc
  obtain ⟨node, -, hmade⟩ := hsettled.made
  obtain ⟨piece, rest, hpieces⟩ := List.exists_cons_of_ne_nil hmade.pieces_ne_nil
  have hpiece : piece ∈ c.pieces := hpieces ▸ List.mem_cons_self ..
  refine ⟨_, ?_, piece, hpiece, rfl⟩
  rw [h.eligible]
  exact (h.cuts.blockId_mem piece (List.mem_flatMap.mpr ⟨c, hc, hpiece⟩)).2

/-- An eligible block has a piece in some chunk. -/
theorem Planned.chunk_of_eligible (hc : ids.CollisionFree) (h : Planned ids a profile ref plan) {key : U}
    (hkey : key ∈ plan.eligible) :
    ∃ c ∈ plan.chunks, ∃ piece ∈ c.pieces, piece.evidence.blockId = key := by
  obtain ⟨p, -, -, htiles⟩ := h.tiles hc hkey
  have hne : (plan.pieces.filter fun piece => piece.evidence.blockId = key) ≠ [] := by
    intro hnil
    have := htiles.contiguous.ne_nil
    rw [hnil] at this
    exact this rfl
  obtain ⟨piece, hpiece⟩ := List.exists_mem_of_ne_nil _ hne
  obtain ⟨hmem, hblock⟩ := List.mem_filter.mp hpiece
  obtain ⟨c, hcmem, hpiece⟩ := List.mem_flatMap.mp hmem
  exact ⟨c, hcmem, piece, hpiece, by simpa using hblock⟩

section

variable (ids : Ids U) (plan : Plan U) (pieces : List (SourcePiece U))

theorem mem_analyzed {key : U} : key ∈ (coverageOf ids a plan pieces).analyzed
    ↔ key ∈ plan.eligible ∧ full a pieces key = true := List.mem_filter

/-- The blocks that failed are those that are not covered. -/
theorem coverageOf_failed : (coverageOf ids a plan pieces).failed
    = plan.eligible.filter fun key => !full a pieces key := by
  refine List.filter_congr fun key hkey => ?_
  show (!(plan.eligible.filter (full a pieces)).contains key) = !full a pieces key
  congr 1
  rw [Bool.eq_iff_iff, List.contains_iff_mem, List.mem_filter, and_iff_right hkey]

/-- The eligible blocks are those that were analyzed and those that failed. -/
theorem analyzed_failed_perm : ((coverageOf ids a plan pieces).analyzed
    ++ (coverageOf ids a plan pieces).failed).Perm plan.eligible := by
  rw [coverageOf_failed]
  exact List.filter_append_perm (full a pieces) plan.eligible

theorem analyzed_failed_disjoint : ∀ key ∈ (coverageOf ids a plan pieces).analyzed,
    key ∉ (coverageOf ids a plan pieces).failed := by
  intro key hkey hfailed
  rw [coverageOf_failed, List.mem_filter, (mem_analyzed ids plan pieces |>.mp hkey).2] at hfailed
  exact absurd hfailed.2 (by decide)

variable {ids plan pieces}

/-- The fraction, if the division is exact. -/
theorem coverageOf_fraction (hdivide : ∀ m n, ids.divide m n = (m : ℚ) / n) :
    (coverageOf ids a plan pieces).fraction = ((coverageOf ids a plan pieces).included.length : ℚ)
      / ((plan.eligible.length + plan.unsupported.length : Nat) : ℚ) := by
  show (if _ then _ else _) = _
  rw [hdivide]
  by_cases hzero : plan.eligible.length + plan.unsupported.length = 0
  · rw [if_pos hzero, hzero, Nat.cast_zero, div_zero]
  · rw [if_neg hzero]
    rfl

/-- The coverage is complete exactly if nothing is unsupported and every block is covered. -/
theorem isComplete_iff : isComplete (coverageOf ids a plan pieces) = true
    ↔ plan.unsupported = [] ∧ ∀ key ∈ plan.eligible, full a pieces key = true := by
  have hfailed : (coverageOf ids a plan pieces).failed = []
      ↔ ∀ key ∈ plan.eligible, full a pieces key = true := by
    rw [coverageOf_failed, List.filter_eq_nil_iff]
    simp
  rw [isComplete, Bool.and_eq_true, Bool.and_eq_true, List.isEmpty_iff, List.isEmpty_iff, beq_iff_eq,
    hfailed]
  constructor
  · rintro ⟨⟨hall, hnone⟩, -⟩
    exact ⟨hnone, hall⟩
  · rintro ⟨hnone, hall⟩
    refine ⟨⟨hall, hnone⟩, ?_⟩
    show (plan.eligible.filter (full a pieces)).length = plan.eligible.length
    rw [List.filter_eq_self.mpr hall]

/-- A complete coverage has the fraction one. -/
theorem fraction_of_complete (hdivide : ∀ m n, ids.divide m n = (m : ℚ) / n) (hne : plan.eligible ≠ [])
    (h : isComplete (coverageOf ids a plan pieces) = true) :
    (coverageOf ids a plan pieces).fraction = 1 := by
  obtain ⟨hnone, hall⟩ := isComplete_iff.mp h
  have hincluded : (coverageOf ids a plan pieces).included = plan.eligible := List.filter_eq_self.mpr hall
  have hpos : (plan.eligible.length : ℚ) ≠ 0 := by
    exact_mod_cast (List.length_pos_iff.mpr hne).ne'
  rw [coverageOf_fraction hdivide, hincluded, hnone, List.length_nil, Nat.add_zero, div_self hpos]

end

omit [DecidableEq U] in
/-- The status, given that a complete coverage is enough for any profile. -/
theorem statusOf_complete_iff {c : Coverage U}
    (hone : isComplete c = true → profile.minimumCoverage ≤ c.fraction) :
    statusOf profile c = .complete ↔ isComplete c = true := by
  unfold statusOf
  constructor
  · intro h
    by_contra hincomplete
    rw [if_neg hincomplete] at h
    split at h
    · cases h
    · split at h <;> cases h
  · intro hcomplete
    rw [if_neg (not_lt.mpr (hone hcomplete)), if_pos hcomplete]

omit [DecidableEq U] in
theorem statusOf_partial_iff {c : Coverage U}
    (hone : isComplete c = true → profile.minimumCoverage ≤ c.fraction) :
    statusOf profile c = .partialCoverage ↔ statusOf profile c ≠ .complete
      ∧ profile.allowPartial = true ∧ c.included ≠ [] ∧ profile.minimumCoverage ≤ c.fraction
      ∧ c.failed.length ≤ profile.maxFailedUnits := by
  rw [Ne, statusOf_complete_iff hone]
  unfold statusOf
  by_cases hlow : c.fraction < profile.minimumCoverage
  · rw [if_pos hlow]
    constructor
    · intro h
      cases h
    · rintro ⟨-, -, -, hle, -⟩
      exact absurd hlow (not_lt.mpr hle)
  rw [if_neg hlow]
  by_cases hcomplete : isComplete c = true
  · rw [if_pos hcomplete]
    constructor
    · intro h
      cases h
    · rintro ⟨hnot, -⟩
      exact absurd hcomplete hnot
  rw [if_neg hcomplete, ite_eq_left_iff]
  simp only [Bool.and_eq_true, Bool.not_eq_true', List.isEmpty_eq_false_iff, decide_eq_true_eq]
  constructor
  · intro h
    by_contra hnot
    cases h fun hall => hnot ⟨hcomplete, hall.1.1.1, hall.1.1.2, hall.1.2, hall.2⟩
  · rintro ⟨-, hallow, hincluded, hle, hfailed⟩ hnot
    exact absurd ⟨⟨⟨hallow, hincluded⟩, hle⟩, hfailed⟩ hnot

/-- **Coverage status is exact.**  Over a plan and a family of accepted checkpoints, with an exact
fraction: `make_digest` returns a digest; an eligible block, which has a piece in some chunk, is
analyzed exactly if every chunk with one of its pieces was; the eligible blocks are those that were
analyzed and those that failed; the status is `COMPLETE` exactly if nothing is unsupported and no
chunk is unavailable, and `PARTIAL` exactly under the conditions of the profile; and the keys that
`make_digest` looks up are there. -/
theorem status_exact (hc : ids.CollisionFree) (hdivide : ∀ m n, ids.divide m n = (m : ℚ) / n)
    (h : buildPlan ids a profile ref = .ok plan)
    (hall : ∀ k ∈ plan.stages, Validated ids parse a plan o k) {keys more : List U}
    (hkeys : keys.Perm plan.stages) (hmore : more.Perm plan.stages) :
    ∃ digest, makeDigest ids a plan planRef (o.checkpoints keys) (o.refs more) = .ok digest
      ∧ (∀ key ∈ plan.eligible,
        (∃ c ∈ plan.chunks, ∃ piece ∈ c.pieces, piece.evidence.blockId = key)
        ∧ (key ∈ digest.coverage.analyzed ↔ ∀ c ∈ plan.chunks,
          (∃ piece ∈ c.pieces, piece.evidence.blockId = key) →
            (o.checkpoint c.chunkId).result.outcome = .analyzed))
      ∧ ((digest.coverage.analyzed ++ digest.coverage.failed).Perm plan.eligible
        ∧ (∀ key ∈ digest.coverage.analyzed, key ∉ digest.coverage.failed)
        ∧ digest.coverage.included = digest.coverage.analyzed)
      ∧ (digest.status = .complete ↔ plan.unsupported = []
        ∧ ∀ c ∈ plan.chunks, (o.checkpoint c.chunkId).result.outcome ≠ .unavailable)
      ∧ (digest.status = .partialCoverage ↔ digest.status ≠ .complete ∧ profile.allowPartial = true
        ∧ digest.coverage.included ≠ []
        ∧ profile.minimumCoverage ≤ (digest.coverage.included.length : ℚ)
          / ((plan.eligible.length + plan.unsupported.length : Nat) : ℚ)
        ∧ digest.coverage.failed.length ≤ profile.maxFailedUnits)
      ∧ (∀ key ∈ plan.eligible, ((blockIndex a).get? key).isSome = true)
      ∧ (∀ k ∈ plan.stages, ((o.checkpoints keys).get? k).isSome = true)
      ∧ ∀ k ∈ (o.checkpoints keys).map Prod.fst, ((o.refs more).get? k).isSome = true := by
  have hplan := buildPlan_ok h
  have hf := hplan.family hc hall
  obtain ⟨digest, hdigest, -, -, hcoverage, hstatus⟩ := hf.makeDigest_ok hkeys hmore
    (fun c hcmem p hp => hplan.resolve hc (List.mem_flatMap.mpr ⟨c, hcmem, hp⟩)) planRef
  rw [hplan.profile_eq] at hstatus
  have hne : plan.eligible ≠ [] := by
    obtain ⟨c, rest, hchunks⟩ := List.exists_cons_of_ne_nil hplan.nonempty
    obtain ⟨key, hkey, -⟩ := hplan.piece_eligible (hchunks ▸ List.mem_cons_self ..)
    exact List.ne_nil_of_mem hkey
  have hone : isComplete digest.coverage = true → profile.minimumCoverage ≤ digest.coverage.fraction := by
    intro hcomplete
    rw [hcoverage] at hcomplete ⊢
    rw [fraction_of_complete hdivide hne hcomplete]
    have hvalid := hplan.profileValid
    simp only [DigestionProfile.valid, isRatio, Bool.and_eq_true, decide_eq_true_eq] at hvalid
    exact hvalid.1.2.2
  have hincluded : digest.coverage.included = digest.coverage.analyzed := by
    rw [hcoverage]
    rfl
  refine ⟨digest, hdigest, fun key hkey => ⟨hplan.chunk_of_eligible hc hkey, ?_⟩, ⟨?_, ?_, hincluded⟩, ?_, ?_,
    ?_, ?_, ?_⟩
  · rw [hcoverage, mem_analyzed, and_iff_right hkey, full_iff hc hplan hkey]
  · rw [hcoverage]
    exact analyzed_failed_perm ids plan _
  · rw [hcoverage]
    exact analyzed_failed_disjoint ids plan _
  · rw [hstatus, statusOf_complete_iff hone, hcoverage, isComplete_iff]
    refine and_congr_right fun _ => ?_
    constructor
    · -- every chunk holds a piece of some block
      intro hfull c hcmem
      obtain ⟨key, hkey, hpiece⟩ := hplan.piece_eligible hcmem
      rw [ne_analyzed]
      exact (full_iff hc hplan hkey).mp (hfull key hkey) c hcmem hpiece
    · intro havailable key hkey
      rw [full_iff hc hplan hkey]
      exact fun c hcmem _ => (ne_analyzed _).mp (havailable c hcmem)
  · rw [hstatus, statusOf_partial_iff hone, hcoverage, coverageOf_fraction hdivide]
  · intro key hkey
    obtain ⟨p, hp, rfl, -⟩ := hplan.tiles hc hkey
    rw [blockIndex_get? hc hplan.valid hp]
    rfl
  · intro k hk
    rw [Outcomes.checkpoints, Dict.get?_map_of_mem _ (hkeys.symm.subset hk)]
    rfl
  · intro k hk
    have hk : k ∈ keys := by simpa [Outcomes.checkpoints] using hk
    rw [Outcomes.refs, Dict.get?_map_of_mem _ (hmore.symm.subset (hkeys.subset hk))]
    rfl

/-- The theorem applies to the run of the sample, whose one block was analyzed. -/
theorem status_exact_sample : ∃ digest, makeDigest keptIds sampleArtifact keptPlan keptPlanRef
      (keptRun.checkpoints keptPlan.stages) (keptRun.refs keptPlan.stages) = .ok digest
    ∧ (digest.status = .complete ↔ keptPlan.unsupported = []
      ∧ ∀ c ∈ keptPlan.chunks, (keptRun.checkpoint c.chunkId).result.outcome ≠ .unavailable) := by
  obtain ⟨digest, hdigest, -, -, hcomplete, -⟩ := status_exact keptIds_collisionFree
    (fun _ _ => rfl) buildPlan_kept legacy_validated (.refl _) (.refl _)
  exact ⟨digest, hdigest, hcomplete⟩

end Polymind.Digestion
