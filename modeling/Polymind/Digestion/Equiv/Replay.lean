import Polymind.Digestion.Equiv.Acceptance

/-!
# The replay of the digest step

Every stage step of a run has accepted the output of the inference and written a checkpoint.  The
`digest` step reads the checkpoints back and validates each result once more, now on its canonical
encoding.  All that the stage step checked is checked again on the same values and passes; what may
differ is the length of the bytes, which `decode` bounds by `response_byte_limit`.

* `replayStage_performed`: one round of the replay;
* `replay_ok_iff`: the replay returns exactly if no canonical encoding is over that limit.
-/

namespace Polymind.Digestion

open Json Documents Forest

variable {U : Type} [DecidableEq U] {ids : Ids U} {parse : Parser U} {a : ExtractionArtifact U}
  {profile : DigestionProfile} {ref planRef : ObjectRef U} {plan : Plan U} {o : Outcomes U}

/-- The parser reads the canonical encoding of a result it returned as that result. -/
def Parser.RoundTrips (ids : Ids U) (parse : Parser U) : Prop :=
  ∀ raw r, parse raw = .ok r → parse (asciiBytes (r.encode ids)) = .ok r

/-! ### Requests in a replay -/

/-- The request of a stage, whatever else than its dependencies a step is given. -/
structure Reads (ids : Ids U) (plan : Plan U) (o : Outcomes U) (k : U) (request : StageRequest U) :
    Prop where
  profile : request.profile = plan.profile
  made : ∀ keys more, (∀ x ∈ plan.dependencies k, x ∈ keys) →
    (∀ x ∈ plan.dependencies k, x ∈ more) →
    stageRequest ids plan k (o.checkpoints keys) (o.refs more) = StageRequest.make ids request
  children : ∀ keys, (∀ x ∈ plan.dependencies k, x ∈ keys) →
    childCheckpoints (o.checkpoints keys) request = .ok ((plan.dependencies k).map o.checkpoint)

section

variable (hf : Family ids plan o)

include hf

/-- The stages a stage depends on stand before it. -/
theorem Family.dependencies_before {done rest : List U} {k : U}
    (hsplit : plan.stages = done ++ k :: rest) : ∀ x ∈ plan.dependencies k, x ∈ done := by
  have hnd := hf.nodup
  have hk : k ∈ plan.stages := hsplit ▸ List.mem_append_right _ (List.mem_cons_self ..)
  rw [hsplit, List.nodup_middle, List.nodup_cons, List.mem_append, not_or] at hnd
  rcases List.mem_append.mp hk with hchunk | hreducer
  · obtain ⟨c, hc, rfl⟩ := List.mem_map.mp hchunk
    rw [dependencies_chunk hf.nodup hc]
    simp
  · obtain ⟨n, hn, rfl⟩ := List.mem_map.mp hreducer
    rw [dependencies_reducer hf.nodup hn]
    obtain ⟨before, after, hnodes⟩ := List.append_of_mem (mem_nodesOf hn)
    -- the same stage splits the list in one way
    have hsplit' : plan.stages = (plan.chunks.map AnalysisChunk.chunkId ++ keys before)
        ++ n.stageId :: keys after := by
      rw [stages_eq, hnodes, keys, keys, keys, List.map_append, List.map_cons, List.append_assoc]
    rw [hsplit'] at hsplit
    obtain ⟨rfl, -, -⟩ := (List.append_cons_inj_of_notMem hnd.1.1 hnd.1.2).mp hsplit.symm
    exact (hf.builds.children_before before n.stageId n.children after hnodes).2

/-- Every stage has a request of its own. -/
theorem Family.reads : ∀ k ∈ plan.stages, ∃ request, Reads ids plan o k request := by
  refine hf.cases ?_ ?_
  · intro c hc
    refine ⟨chunkRequest plan c.chunkId c, rfl, fun keys more _ _ =>
      stageRequest_chunk hf.nodup hc _ _, fun keys _ => ?_⟩
    rw [dependencies_chunk hf.nodup hc]
    rfl
  · intro n hn
    have hdeps := dependencies_reducer hf.nodup hn
    refine ⟨o.request plan n, rfl, fun keys more hkeys hmore =>
      stageRequest_reducer hf.nodup hn (hdeps ▸ hkeys) (hdeps ▸ hmore), fun keys hkeys => ?_⟩
    rw [hdeps] at hkeys ⊢
    rw [childCheckpoints, Outcomes.request, reducerRequest, mapM_eq_ok, List.forall₂_map_left_iff,
      List.forall₂_map_right_iff, List.forall₂_same]
    intro x hx
    rw [show (o.child x).result.stageId = x from hf.stageId x (hf.child_mem hn x hx),
      Outcomes.checkpoints, Dict.get?_map_of_mem _ (hkeys x hx)]

end

/-! ### The replay -/

omit [DecidableEq U] in
/-- What the replay raises on a result with too long an encoding, and else nothing. -/
theorem decodeResult_encode (hround : Parser.RoundTrips ids parse) {raw : Bytes} {limit : Nat}
    {result : StageResult U} (h : decodeResult parse raw limit = .ok result) :
    decodeResult parse (asciiBytes (result.encode ids)) limit
      = if limit < (result.encode ids).length then .error (limitError .rawResponseLimit)
        else .ok result := by
  unfold decodeResult at h ⊢
  rw [ite_error_eq_ok] at h
  rw [hround raw result h.2, asciiBytes, List.length_map]

/-- A result that was accepted is accepted again from its canonical encoding, if that is not too
long. -/
theorem validateResult_encode (hround : Parser.RoundTrips ids parse) {raw : Bytes}
    {request : StageRequest U} {result : StageResult U}
    (h : validateResult ids parse a raw request = .ok result) :
    validateResult ids parse a (asciiBytes (result.encode ids)) request
      = if request.profile.responseByteLimit < (result.encode ids).length then
          .error (limitError .rawResponseLimit)
        else .ok result := by
  obtain ⟨⟨size, hsize⟩, hdecode, haccept⟩ := validateResult_ok h
  rw [validateResult, hsize]
  simp only [bind, Except.bind, decodeResult_encode hround hdecode]
  by_cases hlong : request.profile.responseByteLimit < (result.encode ids).length
  · rw [if_pos hlong]
  · rw [if_neg hlong]
    simp only [haccept]

/-- One round of the replay, for a stage that was performed: only the length of the encoding is
checked anew. -/
theorem replayStage_performed (hf : Family ids plan o) (hround : Parser.RoundTrips ids parse)
    {done rest keys more : List U} {k : U} (hsplit : plan.stages = done ++ k :: rest)
    (hkeys : keys.Perm plan.stages) (hmore : more.Perm plan.stages)
    (hperformed : Performed ids parse a plan planRef o k) :
    replayStage ids parse a plan planRef (o.checkpoints keys) (o.refs more) (o.checkpoints done) k
      = if plan.profile.responseByteLimit < ((o.checkpoint k).result.encode ids).length then
          .error (limitError .rawResponseLimit)
        else .ok (o.checkpoints (done ++ [k])) := by
  have hk : k ∈ plan.stages := hsplit ▸ List.mem_append_right _ (List.mem_cons_self ..)
  have hbefore := hf.dependencies_before hsplit
  obtain ⟨request, hreads⟩ := hf.reads k hk
  obtain ⟨raw, hperformed⟩ := hperformed
  obtain ⟨request', result, children, hmake, hresult, hchildren, hcp, -, -⟩ :=
    performStage_ok hperformed
  rw [hreads.made _ _ (fun _ hx => hx) (fun _ hx => hx)] at hmake
  obtain ⟨-, rfl⟩ := make_eq_ok.mp hmake
  rw [hreads.children _ fun _ hx => hx] at hchildren
  obtain rfl := Except.ok.inj hchildren
  have hget : (o.checkpoints keys).get? k = some (o.checkpoint k) :=
    Dict.get?_map_of_mem _ (hkeys.symm.subset hk)
  have hmore : ∀ x ∈ plan.dependencies k, x ∈ more := fun x hx =>
    hmore.symm.subset (hsplit ▸ List.mem_append_left _ (hbefore x hx))
  have hnew : k ∉ (o.checkpoints done).map Prod.fst := by
    have hnd := hf.nodup
    rw [hsplit, List.nodup_middle, List.nodup_cons, List.mem_append, not_or] at hnd
    simpa [Outcomes.checkpoints] using hnd.1.1
  have hset : (o.checkpoints done).set k (o.checkpoint k) = o.checkpoints (done ++ [k]) := by
    rw [Dict.set_of_not_mem hnew, Outcomes.checkpoints, Outcomes.checkpoints, List.map_append]
    rfl
  have hvalidate := validateResult_encode hround hresult
  rw [hreads.profile] at hvalidate
  have hcpResult : (o.checkpoint k).result = result := by rw [hcp]; rfl
  have hparents : (o.checkpoint k).parents = parentsOf plan planRef request := by rw [hcp]; rfl
  have hsummary : ((o.checkpoint k).inherited, (o.checkpoint k).propositions)
      = inheritedSummary result request ((plan.dependencies k).map o.checkpoint) := by rw [hcp]; rfl
  rw [replayStage, hget]
  dsimp only
  rw [hreads.made done more hbefore hmore, hmake, hcpResult, hsummary, hparents]
  simp only [bind, Except.bind, hvalidate, hreads.children done hbefore, ne_eq, not_true_eq_false,
    if_false, hset]
  by_cases hlong : plan.profile.responseByteLimit < (result.encode ids).length
  · rw [if_pos hlong, if_pos hlong]
  · rw [if_neg hlong, if_neg hlong]

/-- The replay of the stages after some, given what it has replayed. -/
theorem foldlM_replayStage (hf : Family ids plan o) (hround : Parser.RoundTrips ids parse)
    {keys more : List U} (hkeys : keys.Perm plan.stages) (hmore : more.Perm plan.stages)
    (hall : ∀ k ∈ plan.stages, Performed ids parse a plan planRef o k) {done rest : List U}
    (hsplit : plan.stages = done ++ rest) :
    (∃ ordered, rest.foldlM (replayStage ids parse a plan planRef (o.checkpoints keys) (o.refs more))
        (o.checkpoints done) = .ok ordered)
      ↔ ∀ k ∈ rest, ((o.checkpoint k).result.encode ids).length ≤ plan.profile.responseByteLimit := by
  induction rest generalizing done with
  | nil => exact ⟨fun _ => by simp, fun _ => ⟨_, rfl⟩⟩
  | cons k rest ih =>
    have hk : k ∈ plan.stages := hsplit ▸ List.mem_append_right _ (List.mem_cons_self ..)
    rw [List.foldlM_cons, replayStage_performed hf hround hsplit hkeys hmore (hall k hk),
      List.forall_mem_cons]
    by_cases hlong : plan.profile.responseByteLimit < ((o.checkpoint k).result.encode ids).length
    · rw [if_pos hlong]
      constructor
      · rintro ⟨ordered, h⟩
        cases h
      · rintro ⟨hfits, -⟩
        exact absurd hlong (Nat.not_lt.mpr hfits)
    · rw [if_neg hlong, and_iff_right (Nat.le_of_not_lt hlong)]
      exact ih (by rw [hsplit, List.append_assoc]; rfl)

/-- **When stage acceptance implies acceptance by the digest step.**  In a run whose stages all
accepted their output and wrote their checkpoints, the replay of the `digest` step returns exactly if
the canonical encoding of every result is within the limit on raw responses. -/
theorem replay_ok_iff (hc : ids.CollisionFree) (h : prepare ids a ref profile = .ok (plan, planRef))
    (hround : Parser.RoundTrips ids parse)
    (hall : ∀ k ∈ plan.stages, Performed ids parse a plan planRef o k) {keys more : List U}
    (hkeys : keys.Perm plan.stages) (hmore : more.Perm plan.stages) :
    (∃ ordered, replay ids parse a plan planRef (o.checkpoints keys) (o.refs more) = .ok ordered)
      ↔ ∀ k ∈ plan.stages,
        ((o.checkpoint k).result.encode ids).length ≤ profile.responseByteLimit := by
  have hplan := buildPlan_ok (prepare_ok h).1
  have hf := hplan.family hc fun k hk => (hall k hk).validated
  rw [← hplan.profile_eq]
  exact foldlM_replayStage hf hround hkeys hmore hall (List.nil_append _).symm

/-- The sample's parser reads what it was made from. -/
theorem sampleParser_roundTrips : Parser.RoundTrips keptIds (sampleParser keptIds) := by
  intro raw r h
  obtain ⟨hchunk, htext, hdocument, -⟩ := sampleParser_reads sample_lengths
  unfold sampleParser at h
  split_ifs at h
  · rw [← Except.ok.inj h]
    exact hchunk
  · rw [← Except.ok.inj h]
    exact htext
  · rw [← Except.ok.inj h]
    exact hdocument
  · rw [← Except.ok.inj h]
    exact hdocument

/-- The theorem applies to the run of the sample. -/
theorem replay_ok_iff_sample :
    (∃ ordered, replay keptIds (sampleParser keptIds) sampleArtifact keptPlan keptPlanRef
        (keptRun.checkpoints keptPlan.stages) (keptRun.refs keptPlan.stages) = .ok ordered)
      ↔ ∀ k ∈ keptPlan.stages, ((keptRun.checkpoint k).result.encode keptIds).length
        ≤ legacyProfile.responseByteLimit :=
  replay_ok_iff keptIds_collisionFree prepare_kept sampleParser_roundTrips legacy_performed
    (List.Perm.refl _) (List.Perm.refl _)

/-- Every stage of the sample is performed, and the `digest` step rejects what they left: the last
result was read from a text within the limit, and its canonical encoding is longer. -/
theorem replay_fails : prepare keptIds sampleArtifact (sampleRef keep legacyProfile) legacyProfile
      = .ok (keptPlan, keptPlanRef)
    ∧ (∀ k ∈ keptPlan.stages,
      Performed keptIds (sampleParser keptIds) sampleArtifact keptPlan keptPlanRef keptRun k)
    ∧ ¬∃ ordered, replay keptIds (sampleParser keptIds) sampleArtifact keptPlan keptPlanRef
      (keptRun.checkpoints keptPlan.stages) (keptRun.refs keptPlan.stages) = .ok ordered := by
  have hf := (buildPlan_ok buildPlan_kept).family keptIds_collisionFree legacy_validated
  refine ⟨prepare_kept, legacy_performed, fun hreplay => ?_⟩
  have hfits := (foldlM_replayStage hf sampleParser_roundTrips (List.Perm.refl _) (List.Perm.refl _)
    legacy_performed (List.nil_append _).symm).mp hreplay
  have hlast : ((keptRun.checkpoint 10).result.encode keptIds).length ≤ 959 :=
    hfits 10 (keptPlan_stages ▸ by decide)
  have hlength : ((keptRun.checkpoint 10).result.encode keptIds).length = 996 := sample_lengths.2.2.1
  omega

end Polymind.Digestion
