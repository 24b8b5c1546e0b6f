import Polymind.Digestion.Equiv.Citations
import Polymind.Lib.Walk

/-!
# Lineage up to the root

Nothing that a stage found is dropped on the way to the root.  A reducer links every claim of its
children, so that from the root every claim is reached (`Family.reached`); the walk of `make_digest`
therefore visits all claims (`walkClaims_ok`) and its checks pass (`connectedPieces_ok`).  The counts
of `inherited_summary` are sums over the tree, which has each stage once (`Forest.Builds.sum`).

* `nothing_dropped`: the lineage, the digest and the counts together.
-/

namespace Polymind.Digestion

open Json Documents Forest Relation

variable {U : Type} [DecidableEq U] {ids : Ids U} {parse : Parser U} {a : ExtractionArtifact U}
  {profile : DigestionProfile} {ref planRef : ObjectRef U} {plan : Plan U} {o : Outcomes U}

/-! ### From the root to every claim -/

/-- A reducer links every claim of its children. -/
theorem Family.linked_above (hf : Family ids plan o) {n : ReductionNode U} (hn : n ∈ plan.reducers)
    {k : U} (hk : k ∈ n.children) {claim : Claim U} (hclaim : claim ∈ o.claims k) :
    ∃ above ∈ o.claims n.stageId, o.Link (n.stageId, above) (k, claim) := by
  have hmem : (k, claim.claimId) ∈ (links (o.request plan n)).map Prod.fst :=
    (hf.mem_links hn).mpr ⟨hk, claim, hclaim, rfl⟩
  rw [← (hf.reducer n hn).linked rfl] at hmem
  obtain ⟨above, habove, hlink⟩ := List.mem_flatMap.mp hmem
  exact ⟨above, habove, hlink, hclaim⟩

/-- Every claim is reached from the root, by induction down the path to its stage. -/
theorem Family.reached (hf : Family ids plan o) {k : U} (hk : k ∈ plan.stages) :
    ∀ claim ∈ o.claims k, ∃ r ∈ o.claims plan.rootId,
      ReflTransGen o.Link (plan.rootId, r) (k, claim) := by
  obtain ⟨r, hr, hpath⟩ := hf.builds.reaches (stages_eq plan ▸ hk)
  rw [List.mem_singleton.mp hr] at hpath
  clear hk
  induction hpath with
  | refl => exact fun claim hclaim => ⟨claim, hclaim, .refl⟩
  | @tail parent child _ hchild ih =>
    intro claim hclaim
    obtain ⟨n, hn, rfl, hmem⟩ := child_iff.mp hchild
    obtain ⟨above, habove, hlink⟩ := hf.linked_above hn hmem hclaim
    obtain ⟨r, hr, hreach⟩ := ih above habove
    exact ⟨r, hr, hreach.tail hlink⟩

/-! ### The walk -/

/-- The links of the claim under a key. -/
def linksOf (claims : Dict (U × U) (Claim U)) (key : U × U) : List (U × U) :=
  ((claims.get? key).map fun c => c.links.reverse).getD []

/-- The links of the claim under a key, or what a key without a claim raises. -/
def followLinks (claims : Dict (U × U) (Claim U)) (key : U × U) : Except Fault (List (U × U)) :=
  match claims.get? key with
  | none => .error (.digestion { category := .evidenceValidationFailed })
  | some claim => .ok claim.links.reverse

/-- `walkClaims` is a walk over the links. -/
theorem walkClaims_eq (claims : Dict (U × U) (Claim U)) (rounds : Nat) (todo seen : List (U × U)) :
    walkClaims claims rounds todo seen = Walk.walk (followLinks claims) .diverges rounds todo seen := by
  induction rounds generalizing todo seen with
  | zero => cases todo <;> rfl
  | succ rounds ih =>
    cases todo with
    | nil => rfl
    | cons key todo =>
      rw [walkClaims, Walk.walk]
      by_cases hold : key ∈ seen
      · rw [if_pos hold, if_pos hold, ih]
      · rw [if_neg hold, if_neg hold, followLinks]
        cases hget : claims.get? key with
        | none => rfl
        | some claim => exact ih _ _

/-- The rounds of `make_digest` are those the walk needs. -/
theorem pending_eq {claims : Dict (U × U) (Claim U)} (hnd : (claims.map Prod.fst).Nodup) :
    Walk.pending (linksOf claims) (claims.map Prod.fst) []
      = (claims.map fun p => p.2.lineage.length).sum := by
  rw [Walk.pending, List.map_map]
  refine congrArg List.sum (List.map_congr_left fun p hp => ?_)
  have hget : claims.get? p.1 = some p.2 := Dict.get?_of_mem hnd hp
  simp [linksOf, hget, Claim.links]

/-- The lineage of a claim names claims of stages. -/
theorem Family.links_mem (hf : Family ids plan o) : ∀ k ∈ plan.stages, ∀ claim ∈ o.claims k,
    ∀ x ∈ claim.links, x.1 ∈ plan.stages ∧ ∃ c ∈ o.claims x.1, c.claimId = x.2 := by
  refine hf.cases ?_ ?_
  · intro c hc claim hclaim x hx
    cases ((hf.chunk c hc).claims claim hclaim).linked x hx
  · intro n hn claim hclaim x hx
    obtain ⟨hchild, hexists⟩ := (hf.mem_links hn).mp (((hf.reducer n hn).claims claim hclaim).linked x hx)
    exact ⟨hf.child_mem hn _ hchild, hexists⟩

theorem Family.root_mem (hf : Family ids plan o) : plan.rootId ∈ plan.stages := by
  rw [stages_eq]
  exact hf.builds.mem_of_free (List.mem_singleton.mpr rfl)

section

variable {keys : List U}

theorem Family.graph_nodup (hf : Family ids plan o) (hkeys : keys.Perm plan.stages) :
    ((o.graph keys).map Prod.fst).Nodup :=
  Digestion.graph_nodup (hkeys.nodup_iff.mpr hf.nodup) fun k hk => hf.claims_nodup k (hkeys.subset hk)

omit [DecidableEq U] in
theorem mem_graph_keys {x : U × U} (hkeys : keys.Perm plan.stages) :
    x ∈ (o.graph keys).map Prod.fst ↔ x.1 ∈ plan.stages ∧ ∃ c ∈ o.claims x.1, c.claimId = x.2 := by
  obtain ⟨k, id⟩ := x
  rw [List.mem_map]
  constructor
  · rintro ⟨⟨⟨k', id'⟩, c⟩, hmem, heq⟩
    obtain ⟨rfl, rfl⟩ := Prod.mk.inj heq
    obtain ⟨hk, hc, hid⟩ := mem_graph.mp hmem
    exact ⟨hkeys.subset hk, c, hc, hid⟩
  · rintro ⟨hk, c, hc, hid⟩
    exact ⟨((k, id), c), mem_graph.mpr ⟨hkeys.symm.subset hk, hc, hid⟩, rfl⟩

/-- The claim under a key of the graph. -/
theorem Family.graph_get? (hf : Family ids plan o) (hkeys : keys.Perm plan.stages) {k : U}
    (hk : k ∈ plan.stages) {claim : Claim U} (hclaim : claim ∈ o.claims k) :
    (o.graph keys).get? (k, claim.claimId) = some claim :=
  Dict.get?_of_mem (hf.graph_nodup hkeys) (mem_graph.mpr ⟨hkeys.symm.subset hk, hclaim, rfl⟩)

theorem Family.linksOf_graph (hf : Family ids plan o) (hkeys : keys.Perm plan.stages) {k : U}
    (hk : k ∈ plan.stages) {claim : Claim U} (hclaim : claim ∈ o.claims k) :
    linksOf (o.graph keys) (k, claim.claimId) = claim.links.reverse := by
  rw [linksOf, hf.graph_get? hkeys hk hclaim]
  rfl

/-- No link of the graph dangles. -/
theorem Family.graph_closed (hf : Family ids plan o) (hkeys : keys.Perm plan.stages) :
    ∀ x ∈ (o.graph keys).map Prod.fst, followLinks (o.graph keys) x = .ok (linksOf (o.graph keys) x)
      ∧ ∀ y ∈ linksOf (o.graph keys) x, y ∈ (o.graph keys).map Prod.fst := by
  rintro ⟨k, id⟩ hx
  obtain ⟨hk, claim, hclaim, rfl⟩ := (mem_graph_keys hkeys).mp hx
  rw [hf.linksOf_graph hkeys hk hclaim, followLinks, hf.graph_get? hkeys hk hclaim]
  refine ⟨rfl, fun y hy => (mem_graph_keys hkeys).mpr ?_⟩
  exact hf.links_mem k hk claim hclaim y (List.mem_reverse.mp hy)

/-- The walk of `make_digest` visits every claim. -/
theorem Family.walkClaims_ok (hf : Family ids plan o) (hkeys : keys.Perm plan.stages) :
    ∃ seen, walkClaims (o.graph keys)
        (walkRounds (o.graph keys) (rootLinks plan (o.checkpoint plan.rootId)))
        (rootLinks plan (o.checkpoint plan.rootId)).reverse [] = .ok seen
      ∧ ∀ k ∈ plan.stages, ∀ claim ∈ o.claims k, (k, claim.claimId) ∈ seen := by
  have hnd := hf.graph_nodup hkeys
  have hclosed := hf.graph_closed hkeys
  have htodo : ∀ x ∈ (rootLinks plan (o.checkpoint plan.rootId)).reverse,
      x ∈ (o.graph keys).map Prod.fst := by
    intro x hx
    obtain ⟨claim, hclaim, rfl⟩ := List.mem_map.mp (List.mem_reverse.mp hx)
    exact (mem_graph_keys hkeys).mpr ⟨hf.root_mem, claim, hclaim, rfl⟩
  have hnone : ∀ x ∈ ([] : List (U × U)), ∀ y ∈ linksOf (o.graph keys) x,
      y ∈ ([] : List (U × U)) ∨ y ∈ (rootLinks plan (o.checkpoint plan.rootId)).reverse := by simp
  have hrounds : (rootLinks plan (o.checkpoint plan.rootId)).reverse.length
        + Walk.pending (linksOf (o.graph keys)) ((o.graph keys).map Prod.fst) []
      = walkRounds (o.graph keys) (rootLinks plan (o.checkpoint plan.rootId)) := by
    rw [pending_eq hnd, List.length_reverse, walkRounds]
  obtain ⟨seen, hwalk, -, hstart, hseen⟩ := Walk.walk_ok .diverges hnd (fun x hx => (hclosed x hx).1)
    (fun x hx => (hclosed x hx).2) htodo hnone hrounds.le
  refine ⟨seen, by rw [walkClaims_eq]; exact hwalk, fun k hk claim hclaim => ?_⟩
  -- the set is closed under the links by which the root reaches every claim
  obtain ⟨r, hr, hreach⟩ := hf.reached hk claim hclaim
  suffices hall : ∀ y, ReflTransGen o.Link (plan.rootId, r) y → (y.1, y.2.claimId) ∈ seen from
    hall _ hreach
  intro y hy
  induction hy with
  | refl => exact hstart _ (List.mem_reverse.mpr (List.mem_map_of_mem hr))
  | @tail x y hx hlink ih =>
    obtain ⟨hstage, hmem⟩ := hf.reach_mem hf.root_mem hr hx
    refine hseen _ ih _ ?_
    rw [hf.linksOf_graph hkeys hstage hmem, List.mem_reverse]
    exact hlink.1

/-! ### The digest -/

/-- The pieces of the chunks that were analyzed. -/
def Outcomes.analyzedPieces (o : Outcomes U) (chunks : List (AnalysisChunk U)) : List (SourcePiece U) :=
  (chunks.filter fun c => (o.checkpoint c.chunkId).result.outcome ≠ .unavailable).flatMap
    AnalysisChunk.pieces

/-- The claims of a chunk are connected and its pieces resolve; the findings are the claims of the
chunks, and the pieces those of the chunks that were analyzed. -/
theorem connectedPieces_ok {seen : List (U × U)} {chunks : List (AnalysisChunk U)}
    (hkeys : ∀ c ∈ chunks, c.chunkId ∈ keys)
    (hseen : ∀ c ∈ chunks, ∀ claim ∈ o.claims c.chunkId, (c.chunkId, claim.claimId) ∈ seen)
    (hnone : ∀ c ∈ chunks, (o.checkpoint c.chunkId).result.outcome = .unavailable →
      o.claims c.chunkId = [])
    (hresolve : ∀ c ∈ chunks, ∀ p ∈ c.pieces, resolve a p.evidence = .ok p.text) :
    connectedPieces a (o.checkpoints keys) seen chunks
      = .ok (chunks.flatMap fun c => o.claims c.chunkId, o.analyzedPieces chunks) := by
  induction chunks with
  | nil => rfl
  | cons c chunks ih =>
    obtain ⟨hkey, hkeys⟩ := List.forall_mem_cons.mp hkeys
    obtain ⟨hclaims, hseen⟩ := List.forall_mem_cons.mp hseen
    obtain ⟨hempty, hnone⟩ := List.forall_mem_cons.mp hnone
    obtain ⟨hpieces, hresolve⟩ := List.forall_mem_cons.mp hresolve
    have hfound := ih hkeys hseen hnone hresolve
    have hget : (o.checkpoints keys).get? c.chunkId = some (o.checkpoint c.chunkId) :=
      Dict.get?_map_of_mem _ hkey
    have hall : (o.checkpoint c.chunkId).result.claims.all
        (fun claim => seen.contains (c.chunkId, claim.claimId)) = true := by
      rw [List.all_eq_true]
      exact fun claim hclaim => List.contains_iff_mem.mpr (hclaims claim hclaim)
    have hforM : c.pieces.forM (fun p => (resolve a p.evidence).map fun _ => ()) = .ok () := by
      rw [forM_eq_ok]
      intro p hp
      rw [hpieces p hp]
      rfl
    rw [connectedPieces, hget]
    dsimp only
    rw [List.flatMap_cons, Outcomes.analyzedPieces]
    by_cases hout : (o.checkpoint c.chunkId).result.outcome = .unavailable
    · rw [if_pos hout, hempty hout, List.nil_append, List.filter_cons_of_neg (by simpa using hout)]
      exact hfound
    · rw [if_neg hout, hall, hforM, hfound, List.filter_cons_of_pos (by simpa using hout)]
      rfl

theorem Family.claimGraph_eq (hf : Family ids plan o) (hkeys : keys.Perm plan.stages) :
    claimGraph (o.checkpoints keys) = o.graph keys := by
  have hitems : ((o.checkpoints keys).flatMap fun p => p.2.result.claims.map fun c =>
      ((p.1, c.claimId), c)) = o.graph keys := by
    rw [Outcomes.checkpoints, List.flatMap_map]
    rfl
  rw [claimGraph, hitems]
  exact Dict.ofList_eq_self (hf.graph_nodup hkeys)

theorem sameSet_of_perm {l m : List U} (h : l.Perm m) : sameSet l m = true :=
  sameSet_iff.mpr fun _ => h.mem_iff

/-- `make_digest` returns; the digest has the qualifications of all claims, its contradictions are
those of the claims of the chunks, and its coverage is that of the analyzed pieces. -/
theorem Family.makeDigest_ok (hf : Family ids plan o) (hkeys : keys.Perm plan.stages) {more : List U}
    (hmore : more.Perm plan.stages)
    (hresolve : ∀ c ∈ plan.chunks, ∀ p ∈ c.pieces, resolve a p.evidence = .ok p.text)
    (planRef : ObjectRef U) :
    ∃ digest, makeDigest ids a plan planRef (o.checkpoints keys) (o.refs more) = .ok digest
      ∧ digest.qualifications = ((o.graph keys).flatMap fun p => p.2.qualifications)
      ∧ digest.contradictions
        = contradictionsOf (plan.chunks.flatMap fun c => o.claims c.chunkId)
      ∧ digest.coverage = coverageOf ids a plan (o.analyzedPieces plan.chunks)
      ∧ digest.status = statusOf plan.profile digest.coverage := by
  obtain ⟨seen, hwalk, hseen⟩ := hf.walkClaims_ok hkeys
  have hchunk : ∀ c ∈ plan.chunks, c.chunkId ∈ plan.stages := fun c hc =>
    List.mem_append_left _ (List.mem_map_of_mem hc)
  have hfound := connectedPieces_ok
    (fun c hc => hkeys.symm.subset (hchunk c hc)) (fun c hc => hseen _ (hchunk c hc))
    (fun c hc hout => ((hf.chunk c hc).unavailable hout).2) hresolve
  have hroot : (o.checkpoints keys).get? plan.rootId = some (o.checkpoint plan.rootId) :=
    Dict.get?_map_of_mem _ (hkeys.symm.subset hf.root_mem)
  have hcheckpoints : sameSet ((o.checkpoints keys).map Prod.fst) plan.stages = true := by
    rw [Outcomes.checkpoints, List.map_map]
    exact sameSet_of_perm (by simpa [Function.comp_def] using hkeys)
  have hrefs : sameSet ((o.refs more).map Prod.fst) plan.stages = true := by
    rw [Outcomes.refs, List.map_map]
    exact sameSet_of_perm (by simpa [Function.comp_def] using hmore)
  have hfilter : (o.graph keys).filter (fun p => seen.contains p.1) = o.graph keys := by
    rw [List.filter_eq_self]
    rintro ⟨⟨k, id⟩, claim⟩ hmem
    obtain ⟨hk, hclaim, rfl⟩ := mem_graph.mp hmem
    exact List.contains_iff_mem.mpr (hseen k (hkeys.subset hk) claim hclaim)
  unfold makeDigest
  rw [hcheckpoints, hrefs, hroot, hf.claimGraph_eq hkeys]
  dsimp only
  rw [hwalk, if_neg (by decide)]
  simp only [bind, Except.bind, hfound]
  exact ⟨_, rfl, congrArg (List.flatMap fun p => p.2.qualifications) hfilter, rfl, rfl, rfl⟩

end

/-! ### Counts -/

/-- The pieces a stage reads: those of a chunk, and none for a reducer. -/
def Plan.sourceOf (plan : Plan U) (k : U) : List (SourcePiece U) :=
  match plan.nodes.get? k with
  | some (.chunk c) => c.pieces
  | _ => []

/-- The pieces of a stage, if its result has the given outcome. -/
def Outcomes.piecesIf (o : Outcomes U) (plan : Plan U) (outcome : StageOutcome) (k : U) : Nat :=
  if (o.checkpoint k).result.outcome = outcome then (plan.sourceOf k).length else 0

/-- The qualifications of a stage. -/
def Outcomes.qualifications (o : Outcomes U) (k : U) : Nat :=
  ((o.claims k).map fun c => c.qualifications.length).sum

/-- The counts of a stage are those of its children and its own. -/
structure Counted (plan : Plan U) (o : Outcomes U) (k : U) : Prop where
  analyzed : (o.checkpoint k).inherited.analyzedPieces = ((plan.dependencies k).map fun c =>
    (o.checkpoint c).inherited.analyzedPieces).sum + o.piecesIf plan .analyzed k
  failed : (o.checkpoint k).inherited.failedPieces = ((plan.dependencies k).map fun c =>
    (o.checkpoint c).inherited.failedPieces).sum + o.piecesIf plan .unavailable k
  qualifications : (o.checkpoint k).inherited.qualifications = ((plan.dependencies k).map fun c =>
    (o.checkpoint c).inherited.qualifications).sum + o.qualifications k

theorem counted_of_summary {k : U} {request : StageRequest U}
    (hsource : request.sourceData = plan.sourceOf k)
    (h : inheritedSummary (o.checkpoint k).result request ((plan.dependencies k).map o.checkpoint)
      = ((o.checkpoint k).inherited, (o.checkpoint k).propositions)) : Counted plan o k := by
  have hinherited := (Prod.mk.inj h).1
  simp only [hsource, List.map_map, Function.comp_def] at hinherited
  exact ⟨(congrArg InheritedSummary.analyzedPieces hinherited).symm,
    (congrArg InheritedSummary.failedPieces hinherited).symm,
    (congrArg InheritedSummary.qualifications hinherited).symm⟩

/-- Every stage of a family is counted. -/
theorem Family.counted (hf : Family ids plan o) (hall : ∀ k ∈ plan.stages, Validated ids parse a plan o k)
    (hinherits : ∀ k ∈ plan.stages, Inherits ids plan o k) : ∀ k ∈ plan.stages, Counted plan o k := by
  have hsource : ∀ k ∈ plan.stages, ∀ request, stageRequest ids plan k
      (o.checkpoints (plan.dependencies k)) (o.refs (plan.dependencies k)) = .ok request →
      request.sourceData = plan.sourceOf k := by
    refine hf.cases ?_ ?_
    · intro c hc request hrequest
      rw [stageRequest_chunk hf.nodup hc, make_eq_ok] at hrequest
      rw [← hrequest.2, Plan.sourceOf, nodes_chunk hf.nodup hc]
      rfl
    · intro n hn request hrequest
      rw [dependencies_reducer hf.nodup hn, stageRequest_reducer hf.nodup hn (fun _ hk => hk)
        (fun _ hk => hk), make_eq_ok] at hrequest
      rw [← hrequest.2, Plan.sourceOf, nodes_reducer hf.nodup hn]
      rfl
  intro k hk
  obtain ⟨raw, request, hrequest, -⟩ := hall k hk
  exact counted_of_summary (hsource k hk request hrequest) (hinherits k hk request hrequest)

/-- A count that a stage takes from its children and itself is, at the root, the sum over all
stages. -/
theorem Family.sum (hf : Family ids plan o) (total own : U → Nat)
    (h : ∀ k ∈ plan.stages, total k = ((plan.dependencies k).map total).sum + own k) :
    total plan.rootId = (plan.stages.map own).sum := by
  have hsum := hf.builds.sum total own ?_ ?_
  · rw [stages_eq, ← hsum, List.map_singleton, List.sum_singleton]
  · intro x hx
    obtain ⟨c, hc, rfl⟩ := List.mem_map.mp hx
    have := h c.chunkId (List.mem_append_left _ hx)
    rw [dependencies_chunk hf.nodup hc] at this
    simpa using this
  · intro key group hmem
    obtain ⟨n, hn, hpair⟩ := List.mem_map.mp hmem
    obtain ⟨rfl, rfl⟩ := Prod.mk.inj hpair
    have := h n.stageId (List.mem_append_right _ (List.mem_map_of_mem hn))
    rwa [dependencies_reducer hf.nodup hn] at this

/-- The pieces of the stages with an outcome are those of the chunks with it. -/
theorem Family.sum_piecesIf (hf : Family ids plan o) (outcome : StageOutcome) :
    (plan.stages.map (o.piecesIf plan outcome)).sum = ((plan.chunks.filter fun c =>
      (o.checkpoint c.chunkId).result.outcome = outcome).flatMap AnalysisChunk.pieces).length := by
  have hreducers : ((plan.reducers.map ReductionNode.stageId).map (o.piecesIf plan outcome)).sum = 0 := by
    rw [List.sum_eq_zero]
    intro x hx
    obtain ⟨k, hk, rfl⟩ := List.mem_map.mp hx
    obtain ⟨n, hn, rfl⟩ := List.mem_map.mp hk
    rw [Outcomes.piecesIf, Plan.sourceOf, nodes_reducer hf.nodup hn]
    exact ite_self 0
  have hchunks : ∀ chunks : List (AnalysisChunk U), (∀ c ∈ chunks, c ∈ plan.chunks) →
      ((chunks.map AnalysisChunk.chunkId).map (o.piecesIf plan outcome)).sum
        = ((chunks.filter fun c => (o.checkpoint c.chunkId).result.outcome = outcome).flatMap
          AnalysisChunk.pieces).length := by
    intro chunks hsub
    induction chunks with
    | nil => rfl
    | cons c chunks ih =>
      obtain ⟨hc, hsub⟩ := List.forall_mem_cons.mp hsub
      have hown : o.piecesIf plan outcome c.chunkId
          = if (o.checkpoint c.chunkId).result.outcome = outcome then c.pieces.length else 0 := by
        rw [Outcomes.piecesIf, Plan.sourceOf, nodes_chunk hf.nodup hc]
      rw [List.map_cons, List.map_cons, List.sum_cons, ih hsub, hown, List.filter_cons]
      by_cases hout : (o.checkpoint c.chunkId).result.outcome = outcome
      · simp [hout]
      · simp [hout]
  rw [Plan.stages, List.map_append, List.sum_append, hreducers, Nat.add_zero]
  exact hchunks plan.chunks fun _ hc => hc

omit [DecidableEq U] in
theorem length_graph_qualifications (keys : List U) :
    ((o.graph keys).flatMap fun p => p.2.qualifications).length = (keys.map o.qualifications).sum := by
  induction keys with
  | nil => rfl
  | cons k keys ih =>
    rw [Outcomes.graph] at ih ⊢
    rw [List.flatMap_cons, List.flatMap_append, List.length_append, ih, List.map_cons, List.sum_cons,
      List.flatMap_map, List.length_flatMap]
    rfl

omit [DecidableEq U] in
/-- Every chunk is analyzed or unavailable. -/
theorem length_pieces_split (chunks : List (AnalysisChunk U)) :
    ((chunks.filter fun c => (o.checkpoint c.chunkId).result.outcome = .analyzed).flatMap
        AnalysisChunk.pieces).length
      + ((chunks.filter fun c => (o.checkpoint c.chunkId).result.outcome = .unavailable).flatMap
        AnalysisChunk.pieces).length = (chunks.flatMap AnalysisChunk.pieces).length := by
  induction chunks with
  | nil => rfl
  | cons c chunks ih =>
    rw [List.filter_cons, List.filter_cons, List.flatMap_cons, List.length_append, ← ih]
    cases (o.checkpoint c.chunkId).result.outcome with
    | analyzed => simp; omega
    | unavailable => simp; omega

/-- **Nothing is dropped on the way to the root.**  Over a plan and a family of checkpoints accepted
stage by stage with the annotations `inherited_summary` computes: the root's claims lead to every
claim by lineage; `make_digest` returns a digest, with every qualification of every stage and as many
as the root inherits; and the root inherits the pieces of the plan, split by whether their chunk was
analyzed or unavailable. -/
theorem nothing_dropped (hc : ids.CollisionFree) (h : buildPlan ids a profile ref = .ok plan)
    (hall : ∀ k ∈ plan.stages, Validated ids parse a plan o k)
    (hinherits : ∀ k ∈ plan.stages, Inherits ids plan o k) :
    (∀ k ∈ plan.stages, ∀ claim ∈ o.claims k, ∃ r ∈ o.claims plan.rootId,
      ReflTransGen o.Link (plan.rootId, r) (k, claim))
    ∧ (∀ planRef keys more, keys.Perm plan.stages → more.Perm plan.stages →
      ∃ digest, makeDigest ids a plan planRef (o.checkpoints keys) (o.refs more) = .ok digest
        ∧ (∀ k ∈ plan.stages, ∀ claim ∈ o.claims k, ∀ q ∈ claim.qualifications,
          q ∈ digest.qualifications)
        ∧ digest.qualifications.length = (o.checkpoint plan.rootId).inherited.qualifications)
    ∧ (o.checkpoint plan.rootId).inherited.analyzedPieces = ((plan.chunks.filter fun c =>
        (o.checkpoint c.chunkId).result.outcome = .analyzed).flatMap AnalysisChunk.pieces).length
    ∧ (o.checkpoint plan.rootId).inherited.failedPieces = ((plan.chunks.filter fun c =>
        (o.checkpoint c.chunkId).result.outcome = .unavailable).flatMap AnalysisChunk.pieces).length
    ∧ (o.checkpoint plan.rootId).inherited.analyzedPieces
        + (o.checkpoint plan.rootId).inherited.failedPieces = plan.pieces.length := by
  have hplan := buildPlan_ok h
  have hf := hplan.family hc hall
  have hcounted := hf.counted hall hinherits
  have hanalyzed : (o.checkpoint plan.rootId).inherited.analyzedPieces = _ :=
    (hf.sum _ _ fun k hk => (hcounted k hk).analyzed).trans (hf.sum_piecesIf .analyzed)
  have hfailed : (o.checkpoint plan.rootId).inherited.failedPieces = _ :=
    (hf.sum _ _ fun k hk => (hcounted k hk).failed).trans (hf.sum_piecesIf .unavailable)
  refine ⟨fun k hk => hf.reached hk, ?_, hanalyzed, hfailed, ?_⟩
  · intro planRef keys more hkeys hmore
    obtain ⟨digest, hdigest, hqualifications, -⟩ := hf.makeDigest_ok hkeys hmore (fun c hcmem p hp =>
      hplan.resolve hc (List.mem_flatMap.mpr ⟨c, hcmem, hp⟩)) planRef
    refine ⟨digest, hdigest, fun k hk claim hclaim q hq => ?_, ?_⟩
    · rw [hqualifications]
      exact List.mem_flatMap.mpr ⟨_, mem_graph.mpr ⟨hkeys.symm.subset hk, hclaim, rfl⟩, hq⟩
    · rw [hqualifications, length_graph_qualifications, (hkeys.map _).sum_eq]
      exact (hf.sum _ _ fun k hk => (hcounted k hk).qualifications).symm
  · rw [hanalyzed, hfailed]
    exact length_pieces_split plan.chunks

/-- The theorem applies to the run of the sample, whose one piece was analyzed. -/
theorem nothing_dropped_sample : (keptRun.checkpoint 10).inherited.analyzedPieces
    + (keptRun.checkpoint 10).inherited.failedPieces = keptPlan.pieces.length :=
  (nothing_dropped keptIds_collisionFree buildPlan_kept legacy_validated legacy_inherits).2.2.2.2

end Polymind.Digestion
