import Polymind.Digestion.Equiv.Stages
import Polymind.Digestion.Equiv.OneBlock

/-!
# Accepting stages

When a stage step accepts an output: `performed_of` collects what has to hold of the request, of the
result and of the checkpoint.  It is applied to the stages of a document of one block, planned
without and with a managed budget.

* `performed_of`: the conditions under which a stage is performed;
* `legacy_performed`: a run of all the stages of such a document;
* `managed_performed`: its chunk under a managed budget.
-/

namespace Polymind.Digestion

open Json Documents

variable {U : Type} [DecidableEq U] {ids : Ids U} {parse : Parser U} {a : ExtractionArtifact U}
  {plan : Plan U} {planRef : ObjectRef U} {o : Outcomes U}

/-! ### Stored objects -/

/-- The reference `put` returns. -/
def stored (ids : Ids U) (scope : Scope U) (dump : Json) : ObjectRef U :=
  let identity := ids.stableId ["digestion-object/1".toList, ids.fingerprint dump]
  ⟨scope, .artifact, identity,
    ids.stableId [scope.identity ids, ObjectKind.artifact.text, ids.uuidStr identity],
    ids.sha256 (canonical dump), (canonical dump).length⟩

omit [DecidableEq U] in
theorem put_eq {scope : Scope U} {dump : Json} {limit : Nat} (h : (canonical dump).length ≤ limit) :
    put ids scope dump limit = .ok (stored ids scope dump) :=
  if_neg (Nat.not_lt.mpr h)

theorem stored_valid {scope : Scope U} {dump : Json} (hw : ids.FixedWidth) :
    (stored ids scope dump).valid ids = true := by
  have hdigest : isDigest (stored ids scope dump).sha256 = true := hw.sha256_digest (canonical dump)
  rw [ObjectRef.valid, hdigest, Bool.true_and, beq_iff_eq]
  rfl

/-! ### Sufficient conditions -/

/-- A stage is performed if its request fits, its output reads as an acceptable result, and the
checkpoint can be stored. -/
theorem performed_of {k : U} {raw : Bytes} {request : StageRequest U} {result : StageResult U}
    {size : Nat} {children : List (Checkpoint U)}
    (hrequest : stageRequest ids plan k (o.checkpoints (plan.dependencies k))
      (o.refs (plan.dependencies k)) = .ok request)
    (hsize : checkRequest ids request = .ok size)
    (hraw : raw.length ≤ request.profile.responseByteLimit) (hparse : parse raw = .ok result)
    (haccept : acceptResult ids a request result = .ok ())
    (hchildren : childCheckpoints (o.checkpoints (plan.dependencies k)) request = .ok children)
    (hcp : o.checkpoint k = checkpointOf ids plan planRef request result children)
    (hcontribution : checkContribution ids plan.profile planRef result (o.checkpoint k).inherited
      = .ok ())
    (hput : (canonical ((o.checkpoint k).modelDump ids)).length ≤ plan.profile.maxArtifactBytes)
    (href : o.ref k = stored ids planRef.scope ((o.checkpoint k).modelDump ids)) :
    Performed ids parse a plan planRef o k := by
  have hdecode : decodeResult parse raw request.profile.responseByteLimit = .ok result := by
    rw [decodeResult, if_neg (Nat.not_lt.mpr hraw), hparse]
  have hvalidate : validateResult ids parse a raw request = .ok result := by
    unfold validateResult
    rw [hsize]
    dsimp only [bind, Except.bind]
    rw [hdecode]
    dsimp only
    rw [haccept]
  refine ⟨raw, ?_⟩
  unfold performStage
  rw [hrequest]
  dsimp only [bind, Except.bind]
  rw [hvalidate]
  dsimp only
  rw [hchildren]
  dsimp only
  rw [← hcp, hcontribution]
  dsimp only
  rw [put_eq hput, href]

/-! ### The sample -/

attribute [local irreducible] digestDigits uuidText

def chunkResult : StageResult Nat :=
  { stageId := 8, kind := .analysis
    claims := [
      { claimId := 11, originatingStage := 8, text := "Alpha.".toList, kind := .fact
        evidenceIds := [7] },
      { claimId := 12, originatingStage := 8, text := "Beta?".toList, kind := .unknown }] }

def textResult : StageResult Nat :=
  { stageId := 9, kind := .reduction
    claims := [
      { claimId := 13, originatingStage := 9, text := "Alpha.".toList, kind := .fact
        lineage := [⟨8, 11⟩], subject := some "alpha".toList, stance := .affirmed },
      { claimId := 14, originatingStage := 9, text := "Beta?".toList, kind := .commentary
        lineage := [⟨8, 12⟩] }] }

def documentResult : StageResult Nat :=
  { stageId := 10, kind := .reduction
    claims := [
      { claimId := 15, originatingStage := 10, text := "Alpha, and nothing else in the text.".toList
        kind := .fact, lineage := [⟨9, 13⟩], subject := some "alpha".toList, stance := .denied },
      { claimId := 16, originatingStage := 10, text := "Beta, which the text does not decide.".toList
        kind := .fact, lineage := [⟨9, 14⟩] }] }

section

variable {cut : Nat → Nat → Nat} {profile : DigestionProfile} (hcut : SmallCut cut)

include hcut

theorem sample_claimId {stage position k : Nat} (hstage : stage < 1000) (hk : (sampleTable
    ((sampleIds cut profile).fingerprint (samplePiece.evidence.modelDump (sampleIds cut profile))))[k]?
      = some [uuidText stage, natText position]) :
    (sampleIds cut profile).stableId [(sampleIds cut profile).uuidStr stage, natText position] = k := by
  rw [sample_uuidStr hcut hstage]
  exact sample_stableId hk

theorem chunkResult_accepted {response : Option Nat} {budget : Option ManagedInputBudget}
    {context : Nat} (hsize : checkSize (sampleIds cut profile)
      (sampleRequest (sampleProfile response budget context)) chunkResult = .ok ()) :
    acceptResult (sampleIds cut profile) sampleArtifact
      (sampleRequest (sampleProfile response budget context)) chunkResult = .ok () := by
  have hfirst : (sampleIds cut profile).stableId [(sampleIds cut profile).uuidStr 8, natText 0] = 11 :=
    sample_claimId hcut (by decide) rfl
  have hsecond : (sampleIds cut profile).stableId [(sampleIds cut profile).uuidStr 8, natText 1] = 12 :=
    sample_claimId hcut (by decide) rfl
  have hevidence : samplePiece.evidenceId (sampleIds cut profile) = 7 := sample_evidenceId
  have hresolve : resolve sampleArtifact samplePiece.evidence = .ok samplePiece.text := rfl
  unfold acceptResult
  rw [hsize]
  generalize sampleIds cut profile = ids at *
  simp [bind, Except.bind, pure, Except.pure, checkBinding, checkOutcome, checkCounts, checkPieces,
    checkClaims, checkClaim, checkIdentity, checkClaimLimits, checkCitations, checkLineage, checkSupport,
    checkCoverage, checkTexts, sampleRequest, sampleProfile, chunkResult, hresolve, hfirst, hsecond,
    allowed, permitted, hevidence, Claim.links, hasSource, sameSet, StageResult.cited]

/-- The request of a reducer of the sample. -/
def sampleReduction (profile : DigestionProfile) (stageId : Nat) (child : ChildInput Nat) :
    StageRequest Nat :=
  { stageId, stage := .reduction, profile, structuralPath := [], children := [child] }

theorem textResult_accepted {response : Option Nat} {budget : Option ManagedInputBudget}
    {context : Nat} {ref : ObjectRef Nat} {inherited : InheritedSummary}
    (hsize : checkSize (sampleIds cut profile)
      (sampleReduction (sampleProfile response budget context) 9 ⟨ref, chunkResult, inherited⟩) textResult = .ok ()) :
    acceptResult (sampleIds cut profile) sampleArtifact
      (sampleReduction (sampleProfile response budget context) 9 ⟨ref, chunkResult, inherited⟩) textResult = .ok () := by
  have hfirst : (sampleIds cut profile).stableId [(sampleIds cut profile).uuidStr 9, natText 0] = 13 :=
    sample_claimId hcut (by decide) rfl
  have hsecond : (sampleIds cut profile).stableId [(sampleIds cut profile).uuidStr 9, natText 1] = 14 :=
    sample_claimId hcut (by decide) rfl
  unfold acceptResult
  rw [hsize]
  generalize sampleIds cut profile = ids at *
  simp [bind, Except.bind, pure, Except.pure, checkBinding, checkOutcome, checkCounts, checkPieces,
    checkClaims, checkClaim, checkIdentity, checkClaimLimits, checkCitations, checkLineage, checkSupport,
    checkCoverage, checkTexts, sampleReduction, sampleProfile, chunkResult, textResult, hfirst, hsecond,
    links, Dict.ofList, Dict.set, Dict.has, Dict.get?, Claim.links, hasSource, sameSet,
    StageResult.linked]

theorem documentResult_accepted {response : Option Nat} {budget : Option ManagedInputBudget}
    {context : Nat} {ref : ObjectRef Nat} {inherited : InheritedSummary}
    (hsize : checkSize (sampleIds cut profile)
      (sampleReduction (sampleProfile response budget context) 10 ⟨ref, textResult, inherited⟩) documentResult = .ok ()) :
    acceptResult (sampleIds cut profile) sampleArtifact
      (sampleReduction (sampleProfile response budget context) 10 ⟨ref, textResult, inherited⟩) documentResult = .ok () := by
  have hfirst : (sampleIds cut profile).stableId [(sampleIds cut profile).uuidStr 10, natText 0] = 15 :=
    sample_claimId hcut (by decide) rfl
  have hsecond : (sampleIds cut profile).stableId [(sampleIds cut profile).uuidStr 10, natText 1] = 16 :=
    sample_claimId hcut (by decide) rfl
  unfold acceptResult
  rw [hsize]
  generalize sampleIds cut profile = ids at *
  simp [bind, Except.bind, pure, Except.pure, checkBinding, checkOutcome, checkCounts, checkPieces,
    checkClaims, checkClaim, checkIdentity, checkClaimLimits, checkCitations, checkLineage, checkSupport,
    checkCoverage, checkTexts, sampleReduction, sampleProfile, textResult, documentResult, hfirst, hsecond,
    links, Dict.ofList, Dict.set, Dict.has, Dict.get?, Claim.links, hasSource, sameSet,
    StageResult.linked]

end

/-! ### The sizes of the sample's results -/

theorem length_text_le : (∀ k : ClaimKind, k.text.length ≤ 20) ∧ (∀ s : Stance, s.text.length ≤ 20)
    ∧ (∀ s : ClaimStatus, s.text.length ≤ 20) ∧ (∀ k : StageKind, k.text.length ≤ 20)
    ∧ ∀ o : StageOutcome, o.text.length ≤ 20 := by
  refine ⟨fun k => ?_, fun s => ?_, fun s => ?_, fun k => ?_, fun o => ?_⟩
  · cases k <;> decide
  · cases s <;> decide
  · cases s <;> decide
  · cases k <;> decide
  · cases o <;> decide

/-- A claim like those of the sample. -/
structure SmallClaim (c : Claim Nat) : Prop where
  claimId : c.claimId < 1000
  stage : c.originatingStage < 1000
  text : c.text.length ≤ 64
  evidence : c.evidenceIds = [] ∨ c.evidenceIds = [7]
  contradicting : c.contradictingEvidenceIds = []
  qualifications : c.qualifications = []
  lineage : c.lineage = [] ∨ ∃ l, c.lineage = [l] ∧ l.stageId < 1000 ∧ l.claimId < 1000
  subject : c.subject = none ∨ c.subject = some "alpha".toList

section

variable {ids : Ids Nat} (hwidth : ∀ n < 1000, (ids.uuidStr n).length = 36)

include hwidth

theorem bulk_smallClaim {c : Claim Nat} (h : SmallClaim c) : bulk (c.modelDump ids) ≤ 8000 := by
  have hkind := length_text_le.1 c.kind
  have hstance := length_text_le.2.1 c.stance
  have hstatus := length_text_le.2.2.1 c.status
  have hclaim := hwidth _ h.claimId
  have hstage := hwidth _ h.stage
  have htext := h.text
  have hseven := hwidth 7 (by decide)
  have hevidence : bulk (ids.uuidsJson c.evidenceIds) ≤ 500 := by
    rcases h.evidence with h | h <;> simp [h, Ids.uuidsJson, Ids.uuidJson, bulk, bulkItems]
    omega
  have hlineage : bulk (.arr (c.lineage.map (ClaimLink.modelDump ids))) ≤ 2000 := by
    rcases h.lineage with h | ⟨l, h, hstage, hclaim⟩
    · simp [h, bulk, bulkItems]
    · have := hwidth _ hstage
      have := hwidth _ hclaim
      simp [h, ClaimLink.modelDump, Json.record, Ids.uuidJson, bulk, bulkItems, bulkFields]
      omega
  have hsubject : bulk (.option .str c.subject) ≤ 100 := by
    rcases h.subject with h | h <;> simp [h, Json.option, bulk]
  unfold Claim.modelDump
  rw [h.contradicting, h.qualifications]
  generalize ids.uuidsJson c.evidenceIds = evidence at hevidence
  generalize Json.arr (c.lineage.map (ClaimLink.modelDump ids)) = lineage at hlineage
  generalize Json.option .str c.subject = subject at hsubject
  simp [Json.record, bulk, bulkFields, bulkItems, Ids.uuidJson, Ids.uuidsJson]
  omega

theorem bulk_smallResult {r : StageResult Nat} {x y : Claim Nat} (hstage : r.stageId < 1000)
    (hclaims : r.claims = [x, y]) (hx : SmallClaim x) (hy : SmallClaim y)
    (hquestions : r.openQuestions = []) (hlimitations : r.limitations = []) :
    bulk (r.modelDump ids) ≤ 20000 := by
  have hkind := length_text_le.2.2.2.1 r.kind
  have houtcome := length_text_le.2.2.2.2 r.outcome
  have hid := hwidth _ hstage
  have hfirst := bulk_smallClaim hwidth hx
  have hsecond := bulk_smallClaim hwidth hy
  unfold StageResult.modelDump
  rw [hclaims, hquestions, hlimitations, List.map_cons, List.map_singleton]
  generalize x.modelDump ids = first at hfirst
  generalize y.modelDump ids = second at hsecond
  simp [Json.record, bulk, bulkFields, bulkItems, Ids.uuidJson, Json.text]
  omega

theorem bulk_chunkResult : bulk (chunkResult.modelDump ids) ≤ 20000 :=
  bulk_smallResult hwidth (by decide) rfl
    ⟨by decide, by decide, by decide, .inr rfl, rfl, rfl, .inl rfl, .inl rfl⟩
    ⟨by decide, by decide, by decide, .inl rfl, rfl, rfl, .inl rfl, .inl rfl⟩ rfl rfl

theorem bulk_textResult : bulk (textResult.modelDump ids) ≤ 20000 :=
  bulk_smallResult hwidth (by decide) rfl
    ⟨by decide, by decide, by decide, .inl rfl, rfl, rfl, .inr ⟨_, rfl, by decide, by decide⟩, .inr rfl⟩
    ⟨by decide, by decide, by decide, .inl rfl, rfl, rfl, .inr ⟨_, rfl, by decide, by decide⟩, .inl rfl⟩
    rfl rfl

theorem bulk_documentResult : bulk (documentResult.modelDump ids) ≤ 20000 :=
  bulk_smallResult hwidth (by decide) rfl
    ⟨by decide, by decide, by decide, .inl rfl, rfl, rfl, .inr ⟨_, rfl, by decide, by decide⟩, .inr rfl⟩
    ⟨by decide, by decide, by decide, .inl rfl, rfl, rfl, .inr ⟨_, rfl, by decide, by decide⟩, .inl rfl⟩
    rfl rfl

/-- What a reference adds to a dump besides its scope. -/
def reach (ids : Ids Nat) (ref : ObjectRef Nat) : Nat :=
  (ids.uuidStr ref.objectId).length + (ids.uuidStr ref.key).length + ref.sha256.length
    + Nat.log2 ref.byteSize

theorem bulk_objectRef {ref : ObjectRef Nat} (hscope : ref.scope = sampleScope) :
    bulk (ref.modelDump ids) ≤ 3000 + 12 * reach ids ref := by
  have htenant := hwidth 100 (by decide)
  have howner := hwidth 101 (by decide)
  have hkind : ref.kind.text.length ≤ 8 := by
    cases ref.kind <;> decide
  unfold ObjectRef.modelDump reach
  rw [hscope]
  simp [Json.record, bulk, bulkFields, Ids.uuidJson, Json.text, Json.nat, Scope.modelDump, sampleScope]
  omega

omit hwidth in
theorem bulk_inherited (s : InheritedSummary) : bulk s.modelDump
    ≤ 2000 + s.analyzedPieces + s.failedPieces + s.qualifications + s.contradictions + s.openQuestions := by
  have hlog := Nat.log2_le_self
  have h1 := hlog s.analyzedPieces
  have h2 := hlog s.failedPieces
  have h3 := hlog s.qualifications
  have h4 := hlog s.contradictions
  have h5 := hlog s.openQuestions
  simp [InheritedSummary.modelDump, Json.record, bulk, bulkFields, Json.text, Json.nat]
  omega

omit hwidth in
theorem bulk_checkpoint {cp : Checkpoint Nat} {n m : Nat}
    (hparents : bulk (.arr (cp.parents.map (ObjectRef.modelDump ids))) ≤ n)
    (hresult : bulk (cp.result.modelDump ids) ≤ 20000) (hinherited : bulk cp.inherited.modelDump ≤ 3000)
    (hpropositions : bulk (.arr (cp.propositions.map Proposition.modelDump)) ≤ 1000)
    (hhash : cp.planHash.length ≤ m) : bulk (cp.modelDump ids) ≤ n + 12 * m + 40000 := by
  unfold Checkpoint.modelDump
  generalize Json.arr (cp.parents.map (ObjectRef.modelDump ids)) = parents at hparents
  generalize cp.result.modelDump ids = result at hresult
  generalize cp.inherited.modelDump = inherited at hinherited
  generalize Json.arr (cp.propositions.map Proposition.modelDump) = propositions at hpropositions
  simp [Json.record, bulk, bulkFields, Json.text]
  omega

theorem bulk_sampleReduction {profile : DigestionProfile} {stageId : Nat} {child : ChildInput Nat} {n : Nat}
    (hstage : stageId < 1000) (hprofile : bulk (profile.modelDump ids) ≤ 10000)
    (href : bulk (child.artifact.modelDump ids) ≤ n) (hresult : bulk (child.result.modelDump ids) ≤ 20000)
    (hinherited : bulk child.inherited.modelDump ≤ 3000) :
    bulk ((sampleReduction profile stageId child).modelDump ids) ≤ n + 60000 := by
  have hid := hwidth _ hstage
  have hkind : StageKind.reduction.text.length = 9 := rfl
  unfold StageRequest.modelDump sampleReduction
  dsimp only
  rw [List.map_singleton, ChildInput.modelDump]
  generalize profile.modelDump ids = dump at hprofile
  generalize child.artifact.modelDump ids = artifact at href
  generalize child.result.modelDump ids = result at hresult
  generalize child.inherited.modelDump = inherited at hinherited
  simp [Json.record, bulk, bulkFields, bulkItems, Json.text, Ids.uuidJson]
  omega

theorem bulk_structuralUnit {u : StructuralUnit Nat} (hid : u.structuralUnitId < 1000)
    (hparent : u.parentId = none ∨ u.parentId = some 5) (hchildren : u.childIds = [] ∨ u.childIds = [6])
    (hheading : u.heading = none) (hpath : u.path = []) (hblocks : u.blockIds = [] ∨ u.blockIds = [4])
    (hsources : u.sourceIds = [3]) (hpages : u.physicalPages = []) (horder : u.order = 0) :
    bulk (u.modelDump ids) ≤ 6000 := by
  have hwide := hwidth _ hid
  have hthree := hwidth 3 (by decide)
  have hfour := hwidth 4 (by decide)
  have hfive := hwidth 5 (by decide)
  have hsix := hwidth 6 (by decide)
  have hkind : u.kind.text.length ≤ 20 := by
    cases u.kind <;> decide
  have hsource : u.source.text.length ≤ 20 := by
    cases u.source <;> decide
  have hconfidence : u.confidence.text.length ≤ 20 := by
    cases u.confidence <;> decide
  have hp : bulk (.option ids.uuidJson u.parentId) ≤ 500 := by
    rcases hparent with h | h <;> simp [h, Json.option, Ids.uuidJson, bulk]
    omega
  have hc : bulk (ids.uuidsJson u.childIds) ≤ 500 := by
    rcases hchildren with h | h <;> simp [h, Ids.uuidsJson, Ids.uuidJson, bulk, bulkItems]
    omega
  have hb : bulk (ids.uuidsJson u.blockIds) ≤ 500 := by
    rcases hblocks with h | h <;> simp [h, Ids.uuidsJson, Ids.uuidJson, bulk, bulkItems]
    omega
  unfold StructuralUnit.modelDump
  rw [hheading, hpath, hsources, hpages, horder]
  generalize Json.option ids.uuidJson u.parentId = parent at hp
  generalize ids.uuidsJson u.childIds = children at hc
  generalize ids.uuidsJson u.blockIds = blocks at hb
  simp [Json.record, bulk, bulkFields, bulkItems, Json.option, Ids.uuidJson, Ids.uuidsJson, Json.nat]
  omega

theorem bulk_samplePiece : bulk (samplePiece.modelDump ids) ≤ 12000 := by
  have hpiece : samplePiece = ⟨⟨sampleScope, 0, 2, 3, 4, ⟨0, 6, some 1, some 1⟩⟩, sampleText,
    .paragraph, none, .none⟩ := rfl
  have h100 := hwidth 100 (by decide)
  have h101 := hwidth 101 (by decide)
  have h0 := hwidth 0 (by decide)
  have h2 := hwidth 2 (by decide)
  have h3 := hwidth 3 (by decide)
  have h4 := hwidth 4 (by decide)
  simp [Json.record, bulk, bulkFields, Ids.uuidJson, SourcePiece.modelDump,
    EvidenceRef.modelDump, Scope.modelDump, hpiece, Span.modelDump, sampleScope, sampleText,
    Json.option, cellsJson, Json.nat]
  have hblock : BlockKind.paragraph.name.length = 9 := rfl
  have hlimitation : Limitation.none.text.length = 4 := rfl
  have hone : Nat.log2 1 = 0 := by decide
  have hsix : Nat.log2 6 = 2 := by decide
  omega

theorem bulk_sampleChunk (estimate : Nat) :
    bulk ((sampleChunk estimate).modelDump ids) ≤ 20000 + estimate := by
  have h8 := hwidth 8 (by decide)
  have h0 := hwidth 0 (by decide)
  have h6 := hwidth 6 (by decide)
  have hpiece := bulk_samplePiece hwidth
  have hdigest := length_digestDigits (n := 0) (by omega)
  have hlog := Nat.log2_le_self estimate
  unfold AnalysisChunk.modelDump sampleChunk
  rw [List.map_singleton]
  dsimp only
  generalize samplePiece.modelDump ids = piece at hpiece
  simp [Json.record, bulk, bulkFields, bulkItems, Ids.uuidJson, Json.text, Json.nat]
  omega

theorem bulk_sampleReducer {cut : Nat → Nat → Nat} {profile : DigestionProfile}
    {stageId unitId child level tokens : Nat} (hid : stageId < 1000) (hunit : unitId < 1000)
    (hchild : child < 1000) (hlevel : level ≤ 2)
    (htokens : (sampleReducer cut profile 9 6 8 1).estimatedTokens ≤ tokens) :
    bulk ((sampleReducer cut profile stageId unitId child level).modelDump ids) ≤ 4000 + tokens := by
  have h1 := hwidth _ hid
  have h2 := hwidth _ hunit
  have h3 := hwidth _ hchild
  have hlog := Nat.log2_le_self (sampleReducer cut profile 9 6 8 1).estimatedTokens
  have hlevels := Nat.log2_le_self level
  unfold ReductionNode.modelDump
  rw [show (sampleReducer cut profile stageId unitId child level).estimatedTokens
    = (sampleReducer cut profile 9 6 8 1).estimatedTokens from rfl]
  generalize (sampleReducer cut profile 9 6 8 1).estimatedTokens = estimate at *
  simp [sampleReducer, Json.record, bulk, bulkFields, bulkItems, Ids.uuidJson, Ids.uuidsJson, Json.nat]
  omega

theorem bulk_samplePlan {cut : Nat → Nat → Nat} {profile : DigestionProfile} {estimate tokens : Nat}
    (hprofile : bulk (profile.modelDump ids) ≤ 10000)
    (htokens : (sampleReducer cut profile 9 6 8 1).estimatedTokens ≤ tokens) :
    bulk ((samplePlan cut profile estimate).modelDump ids)
      ≤ 100000 + 12 * reach ids (sampleRef cut profile) + estimate + 2 * tokens := by
  have h10 := hwidth 10 (by decide)
  have h4 := hwidth 4 (by decide)
  have h0 := hwidth 0 (by decide)
  have hdigest := length_digestDigits (n := 0) (by omega)
  have hchunk := bulk_sampleChunk hwidth estimate
  have href : bulk ((sampleRef cut profile).modelDump ids)
      ≤ 3000 + 12 * reach ids (sampleRef cut profile) :=
    bulk_objectRef hwidth rfl
  have htext : bulk ((sampleReducer cut profile 9 6 8 1).modelDump ids) ≤ 4000 + tokens :=
    bulk_sampleReducer hwidth (by decide) (by decide) (by decide) (by decide) htokens
  have hdocument : bulk ((sampleReducer cut profile 10 5 9 2).modelDump ids) ≤ 4000 + tokens :=
    bulk_sampleReducer hwidth (by decide) (by decide) (by decide) (by decide) htokens
  let root : StructuralUnit Nat := { rootUnit 5 with childIds := [6], sourceIds := [3] }
  let leaf : StructuralUnit Nat :=
    { rootUnit 6 with
      kind := .fallback, source := .canonicalText, confidence := .fallback, parentId := some 5
      blockIds := [4], sourceIds := [3] }
  have hroot : bulk (root.modelDump ids) ≤ 6000 :=
    bulk_structuralUnit hwidth (by decide) (.inl rfl) (.inr rfl) rfl rfl (.inl rfl) rfl rfl rfl
  have hleaf : bulk (leaf.modelDump ids) ≤ 6000 :=
    bulk_structuralUnit hwidth (by decide) (.inr rfl) (.inl rfl) rfl rfl (.inr rfl) rfl rfl rfl
  have hdump : (samplePlan cut profile estimate).modelDump ids
      = .record [("schema_version", .text "digestion-plan/1"), ("profile", profile.modelDump ids),
        ("structure", .record [("schema_version", .text "structure/1"),
          ("extraction", (sampleRef cut profile).modelDump ids), ("document_version_id", ids.uuidJson 0),
          ("profile", .str (digestDigits 0)), ("units", .arr [root.modelDump ids, leaf.modelDump ids])]),
        ("chunks", .arr [(sampleChunk estimate).modelDump ids]),
        ("reducers", .arr [(sampleReducer cut profile 9 6 8 1).modelDump ids,
          (sampleReducer cut profile 10 5 9 2).modelDump ids]),
        ("root_id", ids.uuidJson 10), ("eligible", ids.uuidsJson [4]), ("skipped", ids.uuidsJson []),
        ("unsupported", ids.uuidsJson [])] := rfl
  rw [hdump]
  generalize profile.modelDump ids = dump at hprofile
  generalize (sampleRef cut profile).modelDump ids = ref at href
  generalize root.modelDump ids = first at hroot
  generalize leaf.modelDump ids = second at hleaf
  generalize (sampleChunk estimate).modelDump ids = chunk at hchunk
  generalize (sampleReducer cut profile 9 6 8 1).modelDump ids = text at htext
  generalize (sampleReducer cut profile 10 5 9 2).modelDump ids = document at hdocument
  simp [Json.record, bulk, bulkFields, bulkItems, Ids.uuidJson, Ids.uuidsJson, Json.text]
  omega

theorem bulk_sampleArtifact (hfloat : (ids.floatRepr 0).length = 3 ∧ (ids.floatRepr 1).length = 3) :
    bulk (sampleArtifact.modelDump ids) ≤ 60000 := by
  have h100 := hwidth 100 (by decide)
  have h101 := hwidth 101 (by decide)
  have h102 := hwidth 102 (by decide)
  have h0 := hwidth 0 (by decide)
  have h1 := hwidth 1 (by decide)
  have h2 := hwidth 2 (by decide)
  have h3 := hwidth 3 (by decide)
  have h4 := hwidth 4 (by decide)
  have hdigest := length_digestDigits (n := 0) (by omega)
  obtain ⟨hzero, hone⟩ := hfloat
  have hsource : ObjectKind.source.text.length = 6 := rfl
  have hmime : Mime.textPlain.text.length = 10 := rfl
  have hblock : BlockKind.paragraph.name.length = 9 := rfl
  have hstatus : UnitStatus.nativeText.text.length = 11 := rfl
  have hmethod : ExtractionMethod.native.text.length = 6 := rfl
  have houtcome : DecisionOutcome.nativeAccepted.text.length = 15 := rfl
  have htier : NextTier.none.text.length = 4 := rfl
  have hreason : DecisionReason.nativeText.text.length = 11 := rfl
  simp [ExtractionArtifact.modelDump, sampleArtifact, sampleDocument, sampleUnit, sampleBlock, sampleText,
    sampleScope, Document.modelDump, ObjectRef.modelDump, Scope.modelDump, TextUnit.modelDump,
    Block.modelDump, Span.modelDump, Decision.modelDump, Observations.modelDump, Json.record, bulk,
    bulkFields, bulkItems, Ids.uuidJson, Ids.uuidsJson, Json.text, Json.nat, Json.option, floatJson]
  have hlog : Nat.log2 1 = 0 ∧ Nat.log2 6 = 2 ∧ Nat.log2 10 = 3 ∧ Nat.log2 100 = 6 := by decide
  rw [hlog.1, hlog.2.1, hlog.2.2.1, hlog.2.2.2]
  omega

end

theorem utf8Length_le (s : Str) : utf8Length s ≤ 4 * s.length := by
  induction s with
  | nil => exact Nat.le_refl 0
  | cons c s ih =>
    have hc : c.utf8Size ≤ 4 := Char.utf8Size_le_four c
    have hcons : utf8Length (c :: s) = c.utf8Size + utf8Length s := rfl
    rw [hcons, List.length_cons]
    omega

section

variable {cut : Nat → Nat → Nat} {profile : DigestionProfile} (hcut : SmallCut cut)

include hcut

theorem length_sample_stableId_le (profile : DigestionProfile) (parts : List Str) :
    ((sampleIds cut profile).uuidStr ((sampleIds cut profile).stableId parts)).length
      ≤ 7 * bulk (.arr (parts.map .str)) + 104 := by
  have hlength : (partsText parts).length ≤ bulk (.arr (parts.map .str)) := length_dumps_le_bulk true _
  have htable : ∀ e, (sampleTable e).length ≤ 10 ^ 11 := fun e => (by decide : 17 ≤ 10 ^ 11)
  have hbound : ((sampleIds cut profile).uuidStr ((sampleIds cut profile).stableId parts)).length
      ≤ 7 * (partsText parts).length + 104 :=
    length_stableId_le hcut.le (htable _) (sampleDigests cut profile) parts
  omega

theorem length_sample_sha256_le (profile : DigestionProfile) (s : Str) :
    ((sampleIds cut profile).sha256 s).length ≤ 7 * s.length + 80 := by
  have hdigests : (sampleDigests cut profile).length ≤ 10 ^ 63 := (by decide : 1 ≤ 10 ^ 63)
  exact length_sha256_le hcut.le _ hdigests s

/-- What a stored object's reference adds to a dump. -/
theorem reach_stored {dump : Json} {n : Nat} (h : bulk dump ≤ n) :
    reach (sampleIds cut profile) (stored (sampleIds cut profile) sampleScope dump)
      ≤ 60000 * n + 1000000 := by
  have hlength := length_canonical_le_bulk dump
  have hlog := Nat.log2_le_self (canonical dump).length
  have hsha := length_sample_sha256_le hcut profile (canonical dump)
  have hid := length_sample_stableId_le hcut profile
    ["digestion-object/1".toList, (sampleIds cut profile).fingerprint dump]
  have hkey := length_sample_stableId_le hcut profile
    [sampleScope.identity (sampleIds cut profile), ObjectKind.artifact.text,
      (sampleIds cut profile).uuidStr ((sampleIds cut profile).stableId
        ["digestion-object/1".toList, (sampleIds cut profile).fingerprint dump])]
  have hscope : (sampleScope.identity (sampleIds cut profile)).length = 73 := by
    have h100 : ((sampleIds cut profile).uuidStr 100).length = 36 := sample_width hcut 100 (by decide)
    have h101 : ((sampleIds cut profile).uuidStr 101).length = 36 := sample_width hcut 101 (by decide)
    show ((sampleIds cut profile).uuidStr 100 ++ ':' :: (sampleIds cut profile).uuidStr 101).length = 73
    rw [List.length_append, List.length_cons]
    omega
  have hkind : ObjectKind.artifact.text.length = 8 := rfl
  have hliteral : "digestion-object/1".toList.length = 18 := rfl
  have hfingerprint : ((sampleIds cut profile).fingerprint dump).length
      = ((sampleIds cut profile).sha256 (canonical dump)).length := rfl
  simp only [List.map_cons, List.map_nil, bulk, bulkItems, hliteral, hscope, hkind] at hid hkey
  unfold reach stored
  dsimp only
  omega

theorem reach_sampleRef : reach (sampleIds cut profile) (sampleRef cut profile) ≤ 1000000 := by
  have hbulk : bulk (sampleArtifact.modelDump (sampleIds cut profile)) ≤ 60000 :=
    bulk_sampleArtifact (sample_width hcut) ⟨rfl, rfl⟩
  have hlength : (serialize (sampleIds cut profile) sampleArtifact).length
      ≤ bulk (sampleArtifact.modelDump (sampleIds cut profile)) := length_dumps_le_bulk false _
  have hsha := length_sample_sha256_le hcut profile
    (serialize (sampleIds cut profile) sampleArtifact)
  have hbytes := Nat.log2_le_self (utf8Length (serialize (sampleIds cut profile) sampleArtifact))
  have hutf : utf8Length (serialize (sampleIds cut profile) sampleArtifact)
      ≤ 4 * (serialize (sampleIds cut profile) sampleArtifact).length :=
    utf8Length_le _
  have hobject : ((sampleIds cut profile).uuidStr 2).length = 36 := sample_width hcut 2 (by decide)
  have hkey : ((sampleIds cut profile).uuidStr 103).length = 36 := sample_width hcut 103 (by decide)
  unfold reach sampleRef
  dsimp only
  omega

end

/-! ### The sample's run -/

section

variable (cut : Nat → Nat → Nat) (profile : DigestionProfile) (estimate : Nat)

def samplePlanRef : ObjectRef Nat :=
  stored (sampleIds cut profile) sampleScope
    ((samplePlan cut profile estimate).modelDump (sampleIds cut profile))

/-- The checkpoint of an accepted result of the sample. -/
def sampleCheckpoint (request : StageRequest Nat) (result : StageResult Nat)
    (children : List (Checkpoint Nat)) : Checkpoint Nat :=
  checkpointOf (sampleIds cut profile) (samplePlan cut profile estimate)
    (samplePlanRef cut profile estimate) request result children

/-- What it hands to the reducer above. -/
def sampleChild (cp : Checkpoint Nat) : ChildInput Nat :=
  ⟨stored (sampleIds cut profile) sampleScope (cp.modelDump (sampleIds cut profile)), cp.result,
    cp.inherited⟩

def chunkCheckpoint : Checkpoint Nat :=
  sampleCheckpoint cut profile estimate (sampleRequest profile) chunkResult []

def textRequest : StageRequest Nat :=
  sampleReduction profile 9 (sampleChild cut profile (chunkCheckpoint cut profile estimate))

def textCheckpoint : Checkpoint Nat :=
  sampleCheckpoint cut profile estimate (textRequest cut profile estimate) textResult
    [chunkCheckpoint cut profile estimate]

def documentRequest : StageRequest Nat :=
  sampleReduction profile 10 (sampleChild cut profile (textCheckpoint cut profile estimate))

def documentCheckpoint : Checkpoint Nat :=
  sampleCheckpoint cut profile estimate (documentRequest cut profile estimate) documentResult
    [textCheckpoint cut profile estimate]

/-- The stages of the sample and what they left. -/
def sampleOutcomes : Outcomes Nat where
  checkpoint k :=
    if k = 8 then chunkCheckpoint cut profile estimate
    else if k = 9 then textCheckpoint cut profile estimate
    else documentCheckpoint cut profile estimate
  ref k :=
    stored (sampleIds cut profile) sampleScope
      ((if k = 8 then chunkCheckpoint cut profile estimate
        else if k = 9 then textCheckpoint cut profile estimate
        else documentCheckpoint cut profile estimate).modelDump (sampleIds cut profile))

variable {cut profile estimate}

theorem chunk_stageRequest : stageRequest (sampleIds cut profile) (samplePlan cut profile estimate) 8
    [] [] = .ok (sampleRequest profile) := by
  have hnode : (samplePlan cut profile estimate).nodes.get? 8 = some (.chunk (sampleChunk estimate)) :=
    rfl
  have hrequest : chunkRequest (samplePlan cut profile estimate) 8 (sampleChunk estimate)
    = sampleRequest profile := rfl
  unfold stageRequest
  rw [hnode]
  dsimp only
  rw [hrequest, StageRequest.make, if_pos]
  simp [StageRequest.valid, sampleRequest]

theorem text_stageRequest (hfan : 1 ≤ profile.maxFanIn) :
    stageRequest (sampleIds cut profile) (samplePlan cut profile estimate) 9
      ((sampleOutcomes cut profile estimate).checkpoints [8])
      ((sampleOutcomes cut profile estimate).refs [8])
      = .ok (textRequest cut profile estimate) := by
  have hnode : (samplePlan cut profile estimate).nodes.get? 9
    = some (.reducer (sampleReducer cut profile 9 6 8 1)) := rfl
  have hchild : [8].mapM (childInput ((sampleOutcomes cut profile estimate).checkpoints [8])
      ((sampleOutcomes cut profile estimate).refs [8]))
      = .ok [sampleChild cut profile (chunkCheckpoint cut profile estimate)] := rfl
  unfold stageRequest
  rw [hnode]
  dsimp only
  rw [show (sampleReducer cut profile 9 6 8 1).children = [8] from rfl, hchild]
  dsimp only [bind, Except.bind]
  rw [show reducerRequest (samplePlan cut profile estimate) 9 (sampleReducer cut profile 9 6 8 1)
    [sampleChild cut profile (chunkCheckpoint cut profile estimate)]
    = textRequest cut profile estimate from rfl, StageRequest.make, if_pos]
  simp [StageRequest.valid, textRequest, sampleReduction, hfan]

theorem document_stageRequest (hfan : 1 ≤ profile.maxFanIn) :
    stageRequest (sampleIds cut profile) (samplePlan cut profile estimate) 10
      ((sampleOutcomes cut profile estimate).checkpoints [9])
      ((sampleOutcomes cut profile estimate).refs [9])
      = .ok (documentRequest cut profile estimate) := by
  have hnode : (samplePlan cut profile estimate).nodes.get? 10
    = some (.reducer (sampleReducer cut profile 10 5 9 2)) := rfl
  have hchild : [9].mapM (childInput ((sampleOutcomes cut profile estimate).checkpoints [9])
      ((sampleOutcomes cut profile estimate).refs [9]))
      = .ok [sampleChild cut profile (textCheckpoint cut profile estimate)] := rfl
  unfold stageRequest
  rw [hnode]
  dsimp only
  rw [show (sampleReducer cut profile 10 5 9 2).children = [9] from rfl, hchild]
  dsimp only [bind, Except.bind]
  rw [show reducerRequest (samplePlan cut profile estimate) 10 (sampleReducer cut profile 10 5 9 2)
    [sampleChild cut profile (textCheckpoint cut profile estimate)]
    = documentRequest cut profile estimate from rfl, StageRequest.make, if_pos]
  simp [StageRequest.valid, documentRequest, sampleReduction, hfan]

theorem sample_summaries :
    (chunkCheckpoint cut profile estimate).inherited = ⟨1, 0, 0, 0, 0⟩
      ∧ (chunkCheckpoint cut profile estimate).propositions = []
      ∧ (textCheckpoint cut profile estimate).inherited = ⟨1, 0, 0, 0, 0⟩
      ∧ (textCheckpoint cut profile estimate).propositions = [⟨"alpha".toList, true, false⟩]
      ∧ (documentCheckpoint cut profile estimate).inherited = ⟨1, 0, 0, 1, 0⟩
      ∧ (documentCheckpoint cut profile estimate).propositions = [⟨"alpha".toList, true, true⟩] := by
  refine ⟨rfl, rfl, rfl, rfl, rfl, rfl⟩

end

section

variable {cut : Nat → Nat → Nat} {profile : DigestionProfile} (hcut : SmallCut cut)

include hcut

/-- What a plan's reference and its hash add to a dump. -/
theorem reach_samplePlanRef {estimate : Nat}
    (hplan : bulk ((samplePlan cut profile estimate).modelDump (sampleIds cut profile)) ≤ 4 * 10 ^ 7) :
    reach (sampleIds cut profile) (samplePlanRef cut profile estimate) ≤ 3 * 10 ^ 12
      ∧ ((samplePlan cut profile estimate).hash (sampleIds cut profile)).length ≤ 3 * 10 ^ 8 := by
  have hreach : reach (sampleIds cut profile) (samplePlanRef cut profile estimate)
    ≤ 60000 * (4 * 10 ^ 7) + 1000000 := reach_stored hcut hplan
  have hlength := length_canonical_le_bulk
    ((samplePlan cut profile estimate).modelDump (sampleIds cut profile))
  have hsha : ((samplePlan cut profile estimate).hash (sampleIds cut profile)).length
      ≤ 7 * (canonical ((samplePlan cut profile estimate).modelDump
        (sampleIds cut profile))).length + 80 :=
    length_sample_sha256_le hcut profile _
  constructor <;> omega

omit hcut in
theorem bulk_summary {s : InheritedSummary} (h : s = ⟨1, 0, 0, 0, 0⟩ ∨ s = ⟨1, 0, 0, 1, 0⟩) :
    bulk s.modelDump ≤ 3000 := by
  have hbound := bulk_inherited s
  rcases h with rfl | rfl <;> exact hbound.trans (by decide)

theorem bulk_chunkCheckpoint {estimate : Nat}
    (hplan : bulk ((samplePlan cut profile estimate).modelDump (sampleIds cut profile)) ≤ 4 * 10 ^ 7) :
    bulk ((chunkCheckpoint cut profile estimate).modelDump (sampleIds cut profile)) ≤ 10 ^ 14 := by
  have hplanRef : bulk ((samplePlanRef cut profile estimate).modelDump (sampleIds cut profile))
    ≤ 3000 + 12 * _ := bulk_objectRef (sample_width hcut) rfl
  obtain ⟨hreach, hhash⟩ := reach_samplePlanRef hcut hplan
  have hextraction : bulk ((sampleRef cut profile).modelDump (sampleIds cut profile))
    ≤ 3000 + 12 * _ := bulk_objectRef (sample_width hcut) rfl
  have hreach' : reach (sampleIds cut profile) (sampleRef cut profile) ≤ 1000000 :=
    reach_sampleRef hcut
  have hparents : bulk (.arr ((chunkCheckpoint cut profile estimate).parents.map
      (ObjectRef.modelDump (sampleIds cut profile)))) ≤ 4 * 10 ^ 13 := by
    have heq : (chunkCheckpoint cut profile estimate).parents.map
        (ObjectRef.modelDump (sampleIds cut profile))
        = [(samplePlanRef cut profile estimate).modelDump (sampleIds cut profile),
          (sampleRef cut profile).modelDump (sampleIds cut profile)] := rfl
    rw [heq, bulk, bulkItems, bulkItems, bulkItems]
    omega
  have hbound := bulk_checkpoint hparents (bulk_chunkResult (sample_width hcut))
    (bulk_summary (.inl sample_summaries.1)) (by rw [sample_summaries.2.1]; decide) hhash
  omega

end

/-! ### The sample's run without a managed budget -/

section

/-- The estimate of the sample's chunk. -/
def legacyEstimate (cut : Nat → Nat → Nat) : Nat :=
  requestSize (sampleIds cut legacyProfile) (sampleRequest legacyProfile)

variable {cut : Nat → Nat → Nat} (hcut : SmallCut cut)

include hcut

theorem legacyEstimate_le : legacyEstimate cut ≤ 30000 := by
  have hbulk : bulk ((sampleRequest legacyProfile).modelDump (sampleIds cut legacyProfile)) ≤ 30000 :=
    bulk_sampleRequest (sample_width hcut) (bulk_legacyProfile rfl)
  have hlength := length_canonical_le_bulk
    ((sampleRequest legacyProfile).modelDump (sampleIds cut legacyProfile))
  have hsize : legacyEstimate cut = (canonical ((sampleRequest legacyProfile).modelDump
      (sampleIds cut legacyProfile))).length + 0 := rfl
  omega

theorem bulk_legacyPlan : bulk ((samplePlan cut legacyProfile (legacyEstimate cut)).modelDump
    (sampleIds cut legacyProfile)) ≤ 4 * 10 ^ 7 := by
  have hover : legacyOverhead (sampleIds cut legacyProfile) legacyProfile 5 [] ≤ 40000 :=
    sample_overhead (sample_width hcut) (bulk_legacyProfile rfl) rfl
  have htokens : (sampleReducer cut legacyProfile 9 6 8 1).estimatedTokens ≤ 150000 := by
    have heq : (sampleReducer cut legacyProfile 9 6 8 1).estimatedTokens
      = legacyOverhead (sampleIds cut legacyProfile) legacyProfile 5 [] + 1 * (100000 + 1024) := rfl
    omega
  have hplan : bulk ((samplePlan cut legacyProfile (legacyEstimate cut)).modelDump
      (sampleIds cut legacyProfile)) ≤ _ :=
    bulk_samplePlan (sample_width hcut) (bulk_legacyProfile rfl) htokens
  have hreach : reach (sampleIds cut legacyProfile) (sampleRef cut legacyProfile) ≤ 1000000 :=
    reach_sampleRef hcut
  have hestimate := legacyEstimate_le hcut
  refine hplan.trans ?_
  omega

theorem bulk_legacyChild {cp : Checkpoint Nat} {n : Nat}
    (h : bulk (cp.modelDump (sampleIds cut legacyProfile)) ≤ n) :
    bulk ((sampleChild cut legacyProfile cp).artifact.modelDump (sampleIds cut legacyProfile))
      ≤ 720000 * n + 13000000 := by
  have hbulk : bulk ((sampleChild cut legacyProfile cp).artifact.modelDump (sampleIds cut legacyProfile))
      ≤ 3000 + 12 * reach (sampleIds cut legacyProfile) (sampleChild cut legacyProfile cp).artifact :=
    bulk_objectRef (sample_width hcut) rfl
  have hreach : reach (sampleIds cut legacyProfile) (sampleChild cut legacyProfile cp).artifact
    ≤ 60000 * n + 1000000 := reach_stored hcut h
  omega

/-- A checkpoint over one child. -/
theorem bulk_reducerCheckpoint {cp : Checkpoint Nat} {ref : ObjectRef Nat} {n : Nat}
    (hparents : cp.parents = [ref])
    (href : bulk (ref.modelDump (sampleIds cut legacyProfile)) ≤ n)
    (hhash : cp.planHash = (samplePlan cut legacyProfile (legacyEstimate cut)).hash
      (sampleIds cut legacyProfile))
    (hresult : bulk (cp.result.modelDump (sampleIds cut legacyProfile)) ≤ 20000)
    (hinherited : bulk cp.inherited.modelDump ≤ 3000)
    (hpropositions : bulk (.arr (cp.propositions.map Proposition.modelDump)) ≤ 1000) :
    bulk (cp.modelDump (sampleIds cut legacyProfile)) ≤ n + 4 * 10 ^ 9 := by
  have hlist : bulk (.arr (cp.parents.map (ObjectRef.modelDump (sampleIds cut legacyProfile))))
      ≤ n + 10 := by
    rw [hparents, List.map_singleton, bulk, bulkItems, bulkItems]
    omega
  have hlength : cp.planHash.length ≤ 3 * 10 ^ 8 :=
    hhash ▸ (reach_samplePlanRef hcut (bulk_legacyPlan hcut)).2
  have hbound := bulk_checkpoint hlist hresult hinherited hpropositions hlength
  omega

theorem bulk_textCheckpoint : bulk ((textCheckpoint cut legacyProfile (legacyEstimate cut)).modelDump
    (sampleIds cut legacyProfile)) ≤ 10 ^ 21 := by
  have hchild := bulk_legacyChild hcut (bulk_chunkCheckpoint hcut (bulk_legacyPlan hcut))
  have hbound : bulk ((textCheckpoint cut legacyProfile (legacyEstimate cut)).modelDump
      (sampleIds cut legacyProfile)) ≤ _ :=
    bulk_reducerCheckpoint hcut rfl hchild rfl (bulk_textResult (sample_width hcut))
      (bulk_summary (.inl sample_summaries.2.2.1))
      (by rw [sample_summaries.2.2.2.1]; decide)
  omega

theorem bulk_documentCheckpoint :
    bulk ((documentCheckpoint cut legacyProfile (legacyEstimate cut)).modelDump
      (sampleIds cut legacyProfile)) ≤ 10 ^ 28 := by
  have hchild := bulk_legacyChild hcut (bulk_textCheckpoint hcut)
  have hbound : bulk ((documentCheckpoint cut legacyProfile (legacyEstimate cut)).modelDump
      (sampleIds cut legacyProfile)) ≤ _ :=
    bulk_reducerCheckpoint hcut rfl hchild rfl (bulk_documentResult (sample_width hcut))
      (bulk_summary (.inr sample_summaries.2.2.2.2.1))
      (by rw [sample_summaries.2.2.2.2.2]; decide)
  omega

/-- A reducer's request fits in the context. -/
theorem legacy_reduction (stageId : Nat) {n : Nat} {cp : Checkpoint Nat} (hstage : stageId < 1000)
    (hcp : bulk (cp.modelDump (sampleIds cut legacyProfile)) ≤ n) (hn : n ≤ 10 ^ 21)
    (hresult : bulk (cp.result.modelDump (sampleIds cut legacyProfile)) ≤ 20000)
    (hinherited : bulk cp.inherited.modelDump ≤ 3000) :
    ∃ size, checkRequest (sampleIds cut legacyProfile)
      (sampleReduction legacyProfile stageId (sampleChild cut legacyProfile cp)) = .ok size := by
  have hprofile : bulk (legacyProfile.modelDump (sampleIds cut legacyProfile)) ≤ 10000 :=
    bulk_legacyProfile rfl
  have hbulk := bulk_sampleReduction (sample_width hcut) hstage hprofile (bulk_legacyChild hcut hcp)
    hresult hinherited
  have hlength := length_canonical_le_bulk
    ((sampleReduction legacyProfile stageId (sampleChild cut legacyProfile cp)).modelDump
      (sampleIds cut legacyProfile))
  have hsize : requestSize (sampleIds cut legacyProfile)
      (sampleReduction legacyProfile stageId (sampleChild cut legacyProfile cp))
      = (canonical ((sampleReduction legacyProfile stageId (sampleChild cut legacyProfile cp)).modelDump
          (sampleIds cut legacyProfile))).length + 0 := rfl
  have hcharged : chargedSize (sampleIds cut legacyProfile)
      (sampleReduction legacyProfile stageId (sampleChild cut legacyProfile cp))
      = .ok (requestSize (sampleIds cut legacyProfile)
        (sampleReduction legacyProfile stageId (sampleChild cut legacyProfile cp))) := rfl
  have hcontext : (sampleReduction legacyProfile stageId
    (sampleChild cut legacyProfile cp)).profile.contextTokens = 10 ^ 60 := rfl
  have hreserved : (sampleReduction legacyProfile stageId
    (sampleChild cut legacyProfile cp)).profile.reservedOutputTokens = 1000 := rfl
  unfold checkRequest
  rw [hcharged, hcontext, hreserved]
  dsimp only [bind, Except.bind]
  rw [if_neg]
  · exact ⟨_, rfl⟩
  · omega

omit hcut in
theorem legacy_checkSize (request : StageRequest Nat) {r : StageResult Nat}
    (hprofile : request.profile = legacyProfile)
    (hbulk : bulk (r.modelDump (sampleIds cut legacyProfile)) ≤ 20000) :
    checkSize (sampleIds cut legacyProfile) request r = .ok () := by
  have hlength := length_canonical_le_bulk (r.modelDump (sampleIds cut legacyProfile))
  have hencode : (r.encode (sampleIds cut legacyProfile)).length
    = (canonical (r.modelDump (sampleIds cut legacyProfile))).length := rfl
  have hlimit : legacyProfile.maxResultCharacters = 100000 := rfl
  unfold checkSize
  rw [hprofile, if_neg (by omega)]
  rfl

omit hcut in
theorem legacy_put {cp : Checkpoint Nat} {n : Nat} (hn : n ≤ 10 ^ 28)
    (h : bulk (cp.modelDump (sampleIds cut legacyProfile)) ≤ n) :
    (canonical (cp.modelDump (sampleIds cut legacyProfile))).length ≤ legacyProfile.maxArtifactBytes := by
  have hlength := length_canonical_le_bulk (cp.modelDump (sampleIds cut legacyProfile))
  have hlimit : legacyProfile.maxArtifactBytes = 10 ^ 60 := rfl
  omega

/-- The plan is stored. -/
theorem prepare_legacy : prepare (sampleIds cut legacyProfile) sampleArtifact
    (sampleRef cut legacyProfile) legacyProfile
      = .ok (samplePlan cut legacyProfile (legacyEstimate cut),
          samplePlanRef cut legacyProfile (legacyEstimate cut)) := by
  have hbuild : buildPlan (sampleIds cut legacyProfile) sampleArtifact legacyProfile
      (sampleRef cut legacyProfile) = .ok (samplePlan cut legacyProfile (legacyEstimate cut)) :=
    buildPlan_legacy hcut
  have hbulk : bulk ((samplePlan cut legacyProfile (legacyEstimate cut)).modelDump
      (sampleIds cut legacyProfile)) ≤ 4 * 10 ^ 7 := bulk_legacyPlan hcut
  have hlength := length_canonical_le_bulk ((samplePlan cut legacyProfile (legacyEstimate cut)).modelDump
    (sampleIds cut legacyProfile))
  have hlimit : legacyProfile.maxArtifactBytes = 10 ^ 60 := rfl
  have hput : put (sampleIds cut legacyProfile) sampleArtifact.document.scope
      ((samplePlan cut legacyProfile (legacyEstimate cut)).modelDump (sampleIds cut legacyProfile))
      legacyProfile.maxArtifactBytes = .ok (samplePlanRef cut legacyProfile (legacyEstimate cut)) :=
    put_eq (by omega)
  unfold prepare
  rw [hbuild]
  dsimp only [bind, Except.bind]
  rw [hput]

theorem chunk_performed {parse : Parser Nat} {raw : Bytes} (hraw : raw.length ≤ 959)
    (hparse : parse raw = .ok chunkResult) :
    Performed (sampleIds cut legacyProfile) parse sampleArtifact
      (samplePlan cut legacyProfile (legacyEstimate cut))
      (samplePlanRef cut legacyProfile (legacyEstimate cut))
      (sampleOutcomes cut legacyProfile (legacyEstimate cut)) 8 := by
  have hsize := legacy_checkSize (sampleRequest legacyProfile) rfl
    (bulk_chunkResult (sample_width hcut))
  exact performed_of chunk_stageRequest (legacy_request hcut) hraw hparse
    (chunkResult_accepted hcut hsize) rfl rfl rfl
    (legacy_put (by decide) (bulk_chunkCheckpoint hcut (bulk_legacyPlan hcut))) rfl

theorem text_performed {parse : Parser Nat} {raw : Bytes} (hraw : raw.length ≤ 959)
    (hparse : parse raw = .ok textResult) :
    Performed (sampleIds cut legacyProfile) parse sampleArtifact
      (samplePlan cut legacyProfile (legacyEstimate cut))
      (samplePlanRef cut legacyProfile (legacyEstimate cut))
      (sampleOutcomes cut legacyProfile (legacyEstimate cut)) 9 := by
  obtain ⟨size, hrequest⟩ := legacy_reduction hcut 9 (by decide)
    (bulk_chunkCheckpoint hcut (bulk_legacyPlan hcut)) (by decide) (bulk_chunkResult (sample_width hcut)) (bulk_summary (.inl sample_summaries.1))
  have hsize := legacy_checkSize (textRequest cut legacyProfile (legacyEstimate cut)) rfl
    (bulk_textResult (sample_width hcut))
  exact performed_of (text_stageRequest (by decide)) hrequest hraw hparse
    (textResult_accepted hcut hsize) rfl rfl rfl
    (legacy_put (by decide) (bulk_textCheckpoint hcut)) rfl

theorem document_performed {parse : Parser Nat} {raw : Bytes} (hraw : raw.length ≤ 959)
    (hparse : parse raw = .ok documentResult) :
    Performed (sampleIds cut legacyProfile) parse sampleArtifact
      (samplePlan cut legacyProfile (legacyEstimate cut))
      (samplePlanRef cut legacyProfile (legacyEstimate cut))
      (sampleOutcomes cut legacyProfile (legacyEstimate cut)) 10 := by
  obtain ⟨size, hrequest⟩ := legacy_reduction hcut 10 (by decide) (bulk_textCheckpoint hcut)
    (by decide) (bulk_textResult (sample_width hcut)) (bulk_summary (.inl sample_summaries.2.2.1))
  have hsize := legacy_checkSize (documentRequest cut legacyProfile (legacyEstimate cut)) rfl
    (bulk_documentResult (sample_width hcut))
  exact performed_of (document_stageRequest (by decide)) hrequest hraw hparse
    (documentResult_accepted hcut hsize) rfl rfl rfl
    (legacy_put (by decide) (bulk_documentCheckpoint hcut)) rfl

end

/-! ### Reading the sample's outputs -/

/-- The canonical text of a result without the two lists that are empty by default. -/
def briefText (ids : Ids Nat) (r : StageResult Nat) : Str :=
  canonical (.record [("schema_version", .text "stage-result/1"), ("stage_id", ids.uuidJson r.stageId),
    ("kind", .str r.kind.text), ("outcome", .str r.outcome.text),
    ("claims", .arr (r.claims.map (Claim.modelDump ids)))])

/-- A parser that reads the sample's texts. -/
def sampleParser (ids : Ids Nat) : Parser Nat := fun raw =>
  if raw = asciiBytes (chunkResult.encode ids) then .ok chunkResult
  else if raw = asciiBytes (textResult.encode ids) then .ok textResult
  else if raw = asciiBytes (documentResult.encode ids) then .ok documentResult
  else if raw = asciiBytes (briefText ids documentResult) then .ok documentResult
  else .error (.digestion ⟨.inferenceContractError, some .jsonDecode, some .malformedJson⟩)

section

variable {ids : Ids Nat} (hlengths : (chunkResult.encode ids).length = 770
  ∧ (textResult.encode ids).length = 942 ∧ (documentResult.encode ids).length = 996
  ∧ (briefText ids documentResult).length = 959)

include hlengths

/-- The four texts have four lengths, so that the parser tells them apart. -/
theorem sampleParser_reads :
    sampleParser ids (asciiBytes (chunkResult.encode ids)) = .ok chunkResult
      ∧ sampleParser ids (asciiBytes (textResult.encode ids)) = .ok textResult
      ∧ sampleParser ids (asciiBytes (documentResult.encode ids)) = .ok documentResult
      ∧ sampleParser ids (asciiBytes (briefText ids documentResult)) = .ok documentResult := by
  obtain ⟨hchunk, htext, hdocument, hbrief⟩ := hlengths
  have hne : ∀ {s t : Str}, s.length ≠ t.length → asciiBytes s ≠ asciiBytes t := by
    intro s t hst h
    have hlength := congrArg List.length h
    rw [asciiBytes, asciiBytes, List.length_map, List.length_map] at hlength
    exact hst hlength
  refine ⟨if_pos rfl, ?_, ?_, ?_⟩
  · rw [sampleParser, if_neg (hne (by omega)), if_pos rfl]
  · rw [sampleParser, if_neg (hne (by omega)), if_neg (hne (by omega)), if_pos rfl]
  · rw [sampleParser, if_neg (hne (by omega)), if_neg (hne (by omega)), if_neg (hne (by omega)),
      if_pos rfl]

end

set_option maxRecDepth 10000 in
theorem sample_lengths : (chunkResult.encode (sampleIds keep legacyProfile)).length = 770
    ∧ (textResult.encode (sampleIds keep legacyProfile)).length = 942
    ∧ (documentResult.encode (sampleIds keep legacyProfile)).length = 996
    ∧ (briefText (sampleIds keep legacyProfile) documentResult).length = 959 := by
  refine ⟨?_, ?_, ?_, ?_⟩
  · decide +kernel
  · decide +kernel
  · decide +kernel
  · decide +kernel

/-- The sample's identities, plan and run with no two identities alike. -/
abbrev keptIds : Ids Nat := sampleIds keep legacyProfile

abbrev keptPlan : Plan Nat := samplePlan keep legacyProfile (legacyEstimate keep)

abbrev keptPlanRef : ObjectRef Nat := samplePlanRef keep legacyProfile (legacyEstimate keep)

abbrev keptRun : Outcomes Nat := sampleOutcomes keep legacyProfile (legacyEstimate keep)

theorem keptIds_collisionFree : keptIds.CollisionFree := tableIds_collisionFree _ _

theorem keptPlan_stages : keptPlan.stages = [8, 9, 10] := rfl

/-- Every stage of the sample is performed; the last one on a text that leaves out two defaults. -/
theorem legacy_performed : ∀ k ∈ keptPlan.stages,
    Performed keptIds (sampleParser keptIds) sampleArtifact keptPlan keptPlanRef keptRun k := by
  obtain ⟨hchunk, htext, hdocument, hbrief⟩ := sampleParser_reads sample_lengths
  obtain ⟨hlchunk, hltext, -, hlbrief⟩ := sample_lengths
  have hbytes : ∀ {s : Str} {n : Nat}, s.length = n → n ≤ 959 → (asciiBytes s).length ≤ 959 := by
    intro s n hs hn
    rw [asciiBytes, List.length_map]
    omega
  intro k hk
  rw [keptPlan_stages] at hk
  simp only [List.mem_cons, List.not_mem_nil, or_false] at hk
  rcases hk with rfl | rfl | rfl
  · exact chunk_performed smallCut_keep (hbytes hlchunk (by decide)) hchunk
  · exact text_performed smallCut_keep (hbytes hltext (by decide)) htext
  · exact document_performed smallCut_keep (hbytes hlbrief (by decide)) hbrief

theorem prepare_kept : prepare keptIds sampleArtifact (sampleRef keep legacyProfile) legacyProfile
    = .ok (keptPlan, keptPlanRef) :=
  prepare_legacy smallCut_keep

theorem buildPlan_kept : buildPlan keptIds sampleArtifact legacyProfile (sampleRef keep legacyProfile)
    = .ok keptPlan :=
  (prepare_ok prepare_kept).1

theorem legacy_validated : ∀ k ∈ keptPlan.stages,
    Validated keptIds (sampleParser keptIds) sampleArtifact keptPlan keptRun k :=
  fun k hk => (legacy_performed k hk).validated

/-- The annotations of the sample's stages are those `inherited_summary` computes. -/
theorem legacy_inherits : ∀ k ∈ keptPlan.stages, Inherits keptIds keptPlan keptRun k := by
  intro k hk
  rw [keptPlan_stages] at hk
  simp only [List.mem_cons, List.not_mem_nil, or_false] at hk
  intro request hrequest
  rcases hk with rfl | rfl | rfl
  · obtain rfl : sampleRequest legacyProfile = request :=
      Except.ok.inj (chunk_stageRequest.symm.trans hrequest)
    rfl
  · obtain rfl : textRequest keep legacyProfile (legacyEstimate keep) = request :=
      Except.ok.inj ((text_stageRequest (by decide)).symm.trans hrequest)
    rfl
  · obtain rfl : documentRequest keep legacyProfile (legacyEstimate keep) = request :=
      Except.ok.inj ((document_stageRequest (by decide)).symm.trans hrequest)
    rfl

/-! ### The sample's chunk with a managed budget -/

section

variable {cut : Nat → Nat → Nat} (hcut : SmallCut cut)

/-- The estimate of the sample's chunk. -/
def managedEstimate (cut : Nat → Nat → Nat) : Nat :=
  max (requestSize (sampleIds cut managedProfile) (sampleRequest managedProfile))
    (analysisSize (sampleIds cut managedProfile) ⟨10 ^ 9, 10 ^ 6, 10 ^ 7⟩
      (sampleRequest managedProfile))

include hcut

theorem sample_contribution : resultContribution (sampleIds cut managedProfile) chunkResult ≤ 300000 := by
  have hwidth : ∀ n < 1000, ((sampleIds cut managedProfile).uuidStr n).length = 36 := sample_width hcut
  have hresult := bulk_chunkResult hwidth
  generalize sampleIds cut managedProfile = ids at *
  have h7 := hwidth 7 (by decide)
  have h8 := hwidth 8 (by decide)
  have h11 := hwidth 11 (by decide)
  have h12 := hwidth 12 (by decide)
  let links : List Json := [.record [("stage_id", ids.uuidJson 8), ("claim_id", ids.uuidJson 11)],
    .record [("stage_id", ids.uuidJson 8), ("claim_id", ids.uuidJson 12)]]
  have hcontribution : resultContribution ids chunkResult = escapedSize (chunkResult.modelDump ids)
    + escapedSize (.arr links) + escapedSize (.arr [.str (ids.uuidStr 7)]) + 8 := rfl
  have hlinks : bulk (.arr links) ≤ 2500 := by
    simp [links, Json.record, bulk, bulkItems, bulkFields, Ids.uuidJson]
    omega
  have hevidence : bulk (.arr [.str (ids.uuidStr 7)]) ≤ 500 := by
    simp [bulk, bulkItems]
    omega
  have h1 := escapedSize_le_bulk (chunkResult.modelDump ids)
  have h2 := escapedSize_le_bulk (.arr links)
  have h3 := escapedSize_le_bulk (.arr [.str (ids.uuidStr 7)])
  omega

theorem managed_checkSize :
    checkSize (sampleIds cut managedProfile) (sampleRequest managedProfile) chunkResult = .ok () := by
  have hbulk : bulk (chunkResult.modelDump (sampleIds cut managedProfile)) ≤ 20000 :=
    bulk_chunkResult (sample_width hcut)
  have hlength := length_canonical_le_bulk (chunkResult.modelDump (sampleIds cut managedProfile))
  have hencode : (chunkResult.encode (sampleIds cut managedProfile)).length
    = (canonical (chunkResult.modelDump (sampleIds cut managedProfile))).length := rfl
  have hlimit : (sampleRequest managedProfile).profile.maxResultCharacters = 100000 := rfl
  have hbudget : (sampleRequest managedProfile).profile.managedInputBudget
    = some ⟨10 ^ 9, 10 ^ 6, 10 ^ 7⟩ := rfl
  have hcontribution := sample_contribution hcut
  have hwrapper : childWrapperBytes = 1024 := rfl
  unfold checkSize
  rw [if_neg (by omega), hbudget]
  dsimp only
  rw [if_neg]
  omega

end

/-- With identities of a fixed width, every reference adds little. -/
theorem reach_le {ids : Ids Nat} (hw : ids.FixedWidth) (ref : ObjectRef Nat)
    (hdigest : isDigest ref.sha256 = true) : reach ids ref ≤ 136 + Nat.log2 ref.byteSize := by
  have hobject := hw.uuidStr_length ref.objectId
  have hkey := hw.uuidStr_length ref.key
  have hsha : ref.sha256.length = 64 := by
    rw [isDigest, Bool.and_eq_true, beq_iff_eq] at hdigest
    exact hdigest.1
  unfold reach
  omega

section

/-- The sample's identities at their real width. -/
theorem sample_fixedWidth (profile : DigestionProfile) : (sampleIds wrap profile).FixedWidth :=
  tableIds_fixedWidth _ _

theorem managed_checkContribution {cut : Nat → Nat → Nat} (hcut : SmallCut cut)
    (hw : (sampleIds cut managedProfile).FixedWidth) :
    checkContribution (sampleIds cut managedProfile) managedProfile
      (samplePlanRef cut managedProfile (managedEstimate cut)) chunkResult ⟨1, 0, 0, 0, 0⟩ = .ok () := by
  let ref : ObjectRef Nat :=
    { samplePlanRef cut managedProfile (managedEstimate cut) with byteSize := 10 ^ 60 }
  have hwidth : ∀ n < 1000, ((sampleIds cut managedProfile).uuidStr n).length = 36 := sample_width hcut
  have hreach : reach (sampleIds cut managedProfile) ref ≤ 136 + Nat.log2 (10 ^ 60) :=
    reach_le hw ref (hw.sha256_digest _)
  have hlog : Nat.log2 (10 ^ 60) = 199 := by decide +kernel
  have href : bulk (ref.modelDump (sampleIds cut managedProfile))
    ≤ 3000 + 12 * reach (sampleIds cut managedProfile) ref := bulk_objectRef hwidth rfl
  have hresult := bulk_chunkResult hwidth
  have hinherited : bulk (InheritedSummary.mk 1 0 0 0 0).modelDump ≤ 3000 := bulk_summary (.inl rfl)
  have hchild : bulk ((ChildInput.mk ref chunkResult ⟨1, 0, 0, 0, 0⟩).modelDump
      (sampleIds cut managedProfile)) ≤ 60000 := by
    unfold ChildInput.modelDump
    dsimp only
    generalize ref.modelDump (sampleIds cut managedProfile) = artifact at href
    generalize chunkResult.modelDump (sampleIds cut managedProfile) = result at hresult
    generalize (InheritedSummary.mk 1 0 0 0 0).modelDump = inherited at hinherited
    simp [Json.record, bulk, bulkFields, Json.text]
    omega
  have hescaped := escapedSize_le_bulk ((ChildInput.mk ref chunkResult ⟨1, 0, 0, 0, 0⟩).modelDump
    (sampleIds cut managedProfile))
  have hcontribution := sample_contribution hcut
  have hsum : childContribution (sampleIds cut managedProfile)
      ⟨ref, chunkResult, ⟨1, 0, 0, 0, 0⟩⟩
      = resultContribution (sampleIds cut managedProfile) chunkResult
        + escapedSize ((ChildInput.mk ref chunkResult ⟨1, 0, 0, 0, 0⟩).modelDump
            (sampleIds cut managedProfile))
        - escapedSize (chunkResult.modelDump (sampleIds cut managedProfile)) := rfl
  have hlimit : managedProfile.maxArtifactBytes = 10 ^ 60 := rfl
  unfold checkContribution
  rw [show managedProfile.managedInputBudget = some ⟨10 ^ 9, 10 ^ 6, 10 ^ 7⟩ from rfl, hlimit]
  dsimp only
  rw [show ObjectRef.mk (samplePlanRef cut managedProfile (managedEstimate cut)).scope
    (samplePlanRef cut managedProfile (managedEstimate cut)).kind
    (samplePlanRef cut managedProfile (managedEstimate cut)).objectId
    (samplePlanRef cut managedProfile (managedEstimate cut)).key
    (samplePlanRef cut managedProfile (managedEstimate cut)).sha256 (10 ^ 60) = ref from rfl, if_neg]
  omega

variable {cut : Nat → Nat → Nat} (hcut : SmallCut cut)

include hcut

theorem bulk_managedPlan : bulk ((samplePlan cut managedProfile (managedEstimate cut)).modelDump
    (sampleIds cut managedProfile)) ≤ 4 * 10 ^ 7 := by
  have hrendered : reductionSize ⟨10 ^ 9, 10 ^ 6, 10 ^ 7⟩ [] 0 = 10 ^ 6 := by
    show 10 ^ 6 + escapedSize (.arr []) - escapedSize (.arr []) + 0 * 10 ^ 7 = 10 ^ 6
    omega
  have htokens : (sampleReducer cut managedProfile 9 6 8 1).estimatedTokens ≤ 10 ^ 6 + 10 ^ 7 := by
    have heq : (sampleReducer cut managedProfile 9 6 8 1).estimatedTokens
      = reductionSize ⟨10 ^ 9, 10 ^ 6, 10 ^ 7⟩ [] 0 + 1 * 10 ^ 7 := rfl
    omega
  have hplan : bulk ((samplePlan cut managedProfile (managedEstimate cut)).modelDump
      (sampleIds cut managedProfile)) ≤ _ :=
    bulk_samplePlan (sample_width hcut) (bulk_managedProfile rfl) htokens
  have hreach : reach (sampleIds cut managedProfile) (sampleRef cut managedProfile) ≤ 1000000 :=
    reach_sampleRef hcut
  have hestimate : managedEstimate cut ≤ 10 ^ 6 + 10 ^ 5 := by
    have hbulk : bulk ((sampleRequest managedProfile).modelDump (sampleIds cut managedProfile))
      ≤ 30000 := bulk_sampleRequest (sample_width hcut) (bulk_managedProfile rfl)
    have hlength := length_canonical_le_bulk
      ((sampleRequest managedProfile).modelDump (sampleIds cut managedProfile))
    have hsize : requestSize (sampleIds cut managedProfile) (sampleRequest managedProfile)
      = (canonical ((sampleRequest managedProfile).modelDump
          (sampleIds cut managedProfile))).length + 0 := rfl
    have hanalysis : analysisSize (sampleIds cut managedProfile) ⟨10 ^ 9, 10 ^ 6, 10 ^ 7⟩
      (sampleRequest managedProfile) ≤ 10 ^ 6 + 100000 :=
      sample_analysisSize (sample_width hcut) sample_evidenceId
    unfold managedEstimate
    omega
  refine hplan.trans ?_
  omega

/-- The plan is stored. -/
theorem prepare_managed : prepare (sampleIds cut managedProfile) sampleArtifact
    (sampleRef cut managedProfile) managedProfile
      = .ok (samplePlan cut managedProfile (managedEstimate cut),
          samplePlanRef cut managedProfile (managedEstimate cut)) := by
  have hbuild : buildPlan (sampleIds cut managedProfile) sampleArtifact managedProfile
      (sampleRef cut managedProfile) = .ok (samplePlan cut managedProfile (managedEstimate cut)) :=
    buildPlan_managed hcut
  have hbulk := bulk_managedPlan hcut
  have hlength := length_canonical_le_bulk
    ((samplePlan cut managedProfile (managedEstimate cut)).modelDump (sampleIds cut managedProfile))
  have hlimit : managedProfile.maxArtifactBytes = 10 ^ 60 := rfl
  have hput : put (sampleIds cut managedProfile) sampleArtifact.document.scope
      ((samplePlan cut managedProfile (managedEstimate cut)).modelDump (sampleIds cut managedProfile))
      managedProfile.maxArtifactBytes = .ok (samplePlanRef cut managedProfile (managedEstimate cut)) :=
    put_eq (by omega)
  unfold prepare
  rw [hbuild]
  dsimp only [bind, Except.bind]
  rw [hput]

/-- The chunk is performed, on its canonical encoding. -/
theorem managed_performed (hw : (sampleIds cut managedProfile).FixedWidth) :
    Performed (sampleIds cut managedProfile) (sampleParser (sampleIds cut managedProfile))
      sampleArtifact (samplePlan cut managedProfile (managedEstimate cut))
      (samplePlanRef cut managedProfile (managedEstimate cut))
      (sampleOutcomes cut managedProfile (managedEstimate cut)) 8 := by
  have hbulk : bulk (chunkResult.modelDump (sampleIds cut managedProfile)) ≤ 20000 :=
    bulk_chunkResult (sample_width hcut)
  have hlength := length_canonical_le_bulk (chunkResult.modelDump (sampleIds cut managedProfile))
  have hencode : (asciiBytes (chunkResult.encode (sampleIds cut managedProfile))).length
    = (canonical (chunkResult.modelDump (sampleIds cut managedProfile))).length := List.length_map _
  have hlimit : (sampleRequest managedProfile).profile.responseByteLimit = 100000 := rfl
  have hcp := bulk_chunkCheckpoint hcut (bulk_managedPlan hcut)
  have hcanonical := length_canonical_le_bulk
    ((chunkCheckpoint cut managedProfile (managedEstimate cut)).modelDump (sampleIds cut managedProfile))
  have hbytes : managedProfile.maxArtifactBytes = 10 ^ 60 := rfl
  have hput : (canonical ((chunkCheckpoint cut managedProfile (managedEstimate cut)).modelDump
    (sampleIds cut managedProfile))).length ≤ managedProfile.maxArtifactBytes := by omega
  exact performed_of chunk_stageRequest (managed_request hcut) (by omega) (if_pos rfl)
    (chunkResult_accepted hcut (managed_checkSize hcut)) rfl rfl (managed_checkContribution hcut hw)
    hput rfl

end

end Polymind.Digestion
