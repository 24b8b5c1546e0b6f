import Polymind.Digestion.Equiv.Binding
import Polymind.Digestion.Equiv.Sizes
import Mathlib.Data.List.Dedup
import Mathlib.Data.List.Perm.Subperm
import Mathlib.Algebra.Order.BigOperators.Group.List
import Mathlib.Tactic.Linarith

/-!
# The managed envelope

`profile` measures the envelope of an empty request once, and `check_request` adds to it what the
material of a request takes inside the envelope.  The envelopes of two requests under one profile
differ by their material only (`envelopeSize_add`), and the material of a request is what
`analysis_size` and `reduction_size` allow for (`envelopeSize_le`), so that `render` is not stopped
by the size of a request that `check_request` has admitted.
-/

namespace Polymind.Digestion

open Json Documents Llm

variable {U : Type} {ids : Ids U} {resultSchema : Json}

/-! ### Material -/

/-- What a request adds to the envelope: five lists, each of them inside a JSON string. -/
def materialSize (ids : Ids U) (r : StageRequest U) : Nat :=
  escapedSize (.arr ((evidenceOf ids r).map .str)) + escapedSize (.arr (requiredChildLinks ids r))
    + escapedSize (.arr (documentData ids r)) + escapedSize (.arr (r.structuralPath.map .str))
    + escapedSize (.arr (r.children.map (ChildInput.modelDump ids)))

/-- The requests are rendered from the same settings of a profile. -/
structure SameProfile (r e : StageRequest U) : Prop where
  stage : r.stage = e.stage
  maxClaims : r.profile.maxClaims = e.profile.maxClaims
  maxClaimCharacters : r.profile.maxClaimCharacters = e.profile.maxClaimCharacters
  maxAnnotations : r.profile.maxAnnotations = e.profile.maxAnnotations
  maxResultCharacters : r.profile.maxResultCharacters = e.profile.maxResultCharacters
  responseByteLimit : r.profile.responseByteLimit = e.profile.responseByteLimit

/-- Identities take the same room, whichever they are. -/
theorem escapedSize_uuids (hw : ids.FixedWidth) (f g : Nat → U) (n : Nat) :
    escapedSize (.arr ((List.range n).map fun i => ids.uuidJson (f i)))
      = escapedSize (.arr ((List.range n).map fun i => ids.uuidJson (g i))) := by
  have hsame : ∀ u w, weight escapedLength (canonical (ids.uuidJson u))
      = weight escapedLength (canonical (ids.uuidJson w)) := by
    intro u w
    rw [← escapedSize_eq, ← escapedSize_eq, escapedSize_uuidJson hw, escapedSize_uuidJson hw]
  rw [escapedSize_eq, escapedSize_eq, weight_canonical_arr, weight_canonical_arr]
  simp only [List.map_map, List.length_map, Function.comp_def]
  rw [List.map_congr_left fun i _ => hsame (f i) (g i)]

section

variable (resultSchema : Json) (settings : ManagedSettings) (profile : StageProfile)

/-- The control block differs by the identities and links it lists. -/
theorem escapedSize_control_add (hw : ids.FixedWidth) {r e : StageRequest U} (h : SameProfile r e) :
    escapedSize (control ids resultSchema settings profile r)
        + escapedSize (.arr ((evidenceOf ids e).map .str)) + escapedSize (.arr (requiredChildLinks ids e))
      = escapedSize (control ids resultSchema settings profile e)
        + escapedSize (.arr ((evidenceOf ids r).map .str)) + escapedSize (.arr (requiredChildLinks ids r)) := by
  have hstage := escapedSize_uuidJson hw r.stageId
  have hstage' := escapedSize_uuidJson hw e.stageId
  have hclaims := escapedSize_uuids hw (fun i => ids.stableId [ids.uuidStr r.stageId, natText i])
    (fun i => ids.stableId [ids.uuidStr e.stageId, natText i]) e.profile.maxClaims
  unfold control
  rw [h.stage, h.maxClaims, h.maxClaimCharacters, h.maxAnnotations, h.maxResultCharacters,
    h.responseByteLimit]
  cases settings.childInputBytes with
  | none =>
    simp only [Option.toList_none, List.map_nil, List.append_nil, Json.record, escapedSize_eq,
      weight_canonical_obj, List.map_cons, List.sum_cons, List.sum_nil, List.length_cons,
      List.length_nil] at hstage hstage' hclaims ⊢
    omega
  | some n =>
    simp only [Option.toList_some, List.map_nil, List.cons_append, List.nil_append, Json.record,
      escapedSize_eq, weight_canonical_obj, List.map_cons, List.sum_cons, List.sum_nil, List.length_cons,
      List.length_nil] at hstage hstage' hclaims ⊢
    omega

theorem weight_systemText (r : StageRequest U) :
    weight escapedLength (systemText ids resultSchema settings profile r)
      = weight escapedLength (prose.toList ++ (if settings.childInputBytes.isSome then childProse.toList else [])
          ++ (task profile.stage).toList ++ "\nCONTROL\n".toList)
        + escapedSize (control ids resultSchema settings profile r) := by
  rw [systemText, weight_append, escapedSize_eq]

theorem weight_dataText_add (ids : Ids U) (r e : StageRequest U) :
    weight escapedLength (dataText ids r) + escapedSize (.arr (documentData ids e))
        + escapedSize (.arr (e.structuralPath.map .str))
        + escapedSize (.arr (e.children.map (ChildInput.modelDump ids)))
      = weight escapedLength (dataText ids e) + escapedSize (.arr (documentData ids r))
        + escapedSize (.arr (r.structuralPath.map .str))
        + escapedSize (.arr (r.children.map (ChildInput.modelDump ids))) := by
  simp only [dataText, Json.record, escapedSize_eq, weight_canonical_obj, List.map_cons, List.map_nil,
    List.sum_cons, List.sum_nil, List.length_cons, List.length_nil]
  omega

/-- Envelopes under one profile differ by the material of their requests. -/
theorem envelopeSize_add (hw : ids.FixedWidth) {r e : StageRequest U} (h : SameProfile r e) :
    envelopeSize ids resultSchema settings profile r + materialSize ids e
      = envelopeSize ids resultSchema settings profile e + materialSize ids r := by
  have hstr : ∀ s : Str, (canonical (.str s)).length = weight escapedLength s + 2 := fun s => by
    rw [canonical, dumps, length_quote]
  have hlength : ∀ r : StageRequest U, envelopeSize ids resultSchema settings profile r
      = (canonical (.record [("system", .str []), ("data", .str []),
          ("schema", generationSchema resultSchema)])).length
        + weight escapedLength (systemText ids resultSchema settings profile r)
        + weight escapedLength (dataText ids r) := by
    intro r
    simp only [envelopeSize, envelope, Json.record, ← weight_one, weight_canonical_obj, List.map_cons,
      List.map_nil, List.sum_cons, List.sum_nil, List.length_cons, List.length_nil]
    simp only [weight_one, hstr, weight_nil]
    omega
  have hcontrol := escapedSize_control_add resultSchema settings profile hw h
  have hdata := weight_dataText_add ids r e
  rw [hlength r, hlength e, weight_systemText, weight_systemText]
  unfold materialSize
  omega

end

/-! ### Material against its allowance -/

/-- The room of the items of a list, each with a comma. -/
def itemsSize (l : List Json) : Nat := (l.map fun v => escapedSize v + 1).sum

theorem escapedSize_arr (l : List Json) :
    escapedSize (.arr l) = 2 + (l.map escapedSize).sum + (l.length - 1) := by
  have hopen : escapedLength '[' = 1 := by decide
  have hclose : escapedLength ']' = 1 := by decide
  have hcomma : escapedLength ',' = 1 := by decide
  rw [escapedSize_eq, weight_canonical_arr, hopen, hclose, hcomma, Nat.mul_one]
  simp only [← escapedSize_eq]

theorem itemsSize_eq (l : List Json) : itemsSize l = (l.map escapedSize).sum + l.length := by
  unfold itemsSize
  induction l with
  | nil => rfl
  | cons v l ih =>
    rw [List.map_cons, List.sum_cons, ih, List.map_cons, List.sum_cons, List.length_cons]
    omega

theorem escapedSize_arr_le (l : List Json) : escapedSize (.arr l) ≤ 2 + itemsSize l := by
  rw [escapedSize_arr, itemsSize_eq]
  omega

theorem itemsSize_le (l : List Json) : itemsSize l ≤ escapedSize (.arr l) := by
  rw [escapedSize_arr, itemsSize_eq]
  omega

theorem itemsSize_flatMap {α : Type} (l : List α) (f : α → List Json) :
    itemsSize (l.flatMap f) = (l.map fun a => itemsSize (f a)).sum := by
  unfold itemsSize
  induction l with
  | nil => rfl
  | cons a l ih => rw [List.flatMap_cons, List.map_append, List.sum_append, ih, List.map_cons, List.sum_cons]

/-- Each identity of a list without repetitions takes the same room. -/
theorem itemsSize_sortedSet (hw : ids.FixedWidth) {texts : List Str}
    (htexts : ∀ text ∈ texts, ∃ u, text = ids.uuidStr u) :
    itemsSize ((sortedSet texts).map .str) = 41 * texts.dedup.length := by
  have hitem : ∀ text ∈ sortedSet texts, escapedSize (.str text) + 1 = 41 := by
    intro text hmem
    obtain ⟨u, rfl⟩ := htexts text (List.mem_dedup.mp ((List.mem_insertionSort _).mp hmem))
    rw [escapedSize_str_plain (uuidStr_all_plain hw u), hw.uuidStr_length]
  have hlength : (sortedSet texts).length = texts.dedup.length := List.length_insertionSort _ _
  rw [itemsSize, List.map_map, ← hlength]
  have hconst : (sortedSet texts).map ((fun v => escapedSize v + 1) ∘ Json.str)
      = (sortedSet texts).map fun _ => 41 := List.map_congr_left hitem
  rw [hconst, List.map_const', List.sum_replicate_nat, Nat.mul_comm]

/-- Each child's identities are counted, the ones they share more than once. -/
theorem length_dedup_flatMap_le {α β : Type} [DecidableEq β] (l : List α) (f : α → List β) :
    (l.flatMap f).dedup.length ≤ (l.map fun a => (f a).dedup.length).sum := by
  have hsubset : (l.flatMap f).dedup ⊆ l.flatMap fun a => (f a).dedup := by
    intro b hb
    obtain ⟨a, ha, hb⟩ := List.mem_flatMap.mp (List.mem_dedup.mp hb)
    exact List.mem_flatMap.mpr ⟨a, ha, List.mem_dedup.mpr hb⟩
  have hle := ((List.nodup_dedup _).subperm hsubset).length_le
  rwa [List.length_flatMap] at hle

/-- What a child contributes covers its part of the three lists. -/
theorem itemsSize_le_childContribution (ids : Ids U) (c : ChildInput U) :
    itemsSize (c.result.claims.map fun claim =>
        Json.record [("stage_id", ids.uuidJson c.result.stageId), ("claim_id", ids.uuidJson claim.claimId)])
      + itemsSize ((sortedSet (c.result.cited.map ids.uuidStr)).map .str)
      + (escapedSize (c.modelDump ids) + 1) ≤ childContribution ids c := by
  have hlinks := itemsSize_le (c.result.claims.map fun claim =>
    Json.record [("stage_id", ids.uuidJson c.result.stageId), ("claim_id", ids.uuidJson claim.claimId)])
  have hevidence := itemsSize_le ((sortedSet (c.result.cited.map ids.uuidStr)).map .str)
  unfold childContribution resultContribution
  dsimp only
  omega

/-- The parts of all the children, added up. -/
theorem sum_children_le (hw : ids.FixedWidth) (cs : List (ChildInput U)) :
    itemsSize (cs.flatMap fun c => c.result.claims.map fun claim =>
        Json.record [("stage_id", ids.uuidJson c.result.stageId), ("claim_id", ids.uuidJson claim.claimId)])
      + 41 * (cs.map fun c => (c.result.cited.map ids.uuidStr).dedup.length).sum
      + itemsSize (cs.map (ChildInput.modelDump ids)) ≤ (cs.map (childContribution ids)).sum := by
  rw [itemsSize_flatMap]
  induction cs with
  | nil => exact Nat.le_refl 0
  | cons c cs ih =>
    have hchild := itemsSize_le_childContribution ids c
    rw [itemsSize_sortedSet hw fun text htext => (by
      obtain ⟨u, -, rfl⟩ := List.mem_map.mp htext
      exact ⟨u, rfl⟩)] at hchild
    unfold itemsSize at ih hchild ⊢
    simp only [List.map_cons, List.sum_cons] at ih ⊢
    omega

/-- The material of a reduction is covered by what its children contribute. -/
theorem materialSize_reduction_le (hw : ids.FixedWidth) {r : StageRequest U} (hsource : r.sourceData = []) :
    materialSize ids r ≤ 8 + escapedSize (.arr (r.structuralPath.map .str))
      + (r.children.map (childContribution ids)).sum := by
  have hsum := sum_children_le hw r.children
  have hdata : escapedSize (.arr (documentData ids r)) = 2 := by
    rw [documentData, hsource]
    rfl
  have hevidence : escapedSize (.arr ((evidenceOf ids r).map .str))
      ≤ 2 + 41 * (r.children.map fun c => (c.result.cited.map ids.uuidStr).dedup.length).sum := by
    refine (escapedSize_arr_le _).trans (Nat.add_le_add_left ?_ 2)
    rw [evidenceOf, hsource, List.map_nil, List.nil_append, itemsSize_sortedSet hw]
    · exact Nat.mul_le_mul_left 41 (length_dedup_flatMap_le _ _)
    · intro text htext
      obtain ⟨c, -, hc⟩ := List.mem_flatMap.mp htext
      obtain ⟨u, -, rfl⟩ := List.mem_map.mp hc
      exact ⟨u, rfl⟩
  have hlinks := escapedSize_arr_le (requiredChildLinks ids r)
  have hchildren := escapedSize_arr_le (r.children.map (ChildInput.modelDump ids))
  unfold materialSize
  unfold requiredChildLinks at hlinks ⊢
  omega

/-- The material of an analysis is its pieces, its evidence and its path. -/
theorem materialSize_analysis (ids : Ids U) {r : StageRequest U} (hchildren : r.children = []) :
    materialSize ids r = 4 + escapedSize (.arr (r.structuralPath.map .str))
      + escapedSize (.arr (documentData ids r))
      + escapedSize (.arr ((sortedSet (r.sourceData.map fun p => ids.uuidStr (p.evidenceId ids))).map .str)) := by
  have hnone : escapedSize (.arr []) = 2 := by decide
  rw [materialSize, evidenceOf, requiredChildLinks, hchildren, List.flatMap_nil, List.flatMap_nil,
    List.append_nil, List.map_nil, hnone]
  omega

/-! ### The bound -/

/-- The envelope of a request is as large as the empty one allows for with its material. -/
theorem envelopeSize_le [DecidableEq U] (hw : ids.FixedWidth) (resultSchema : Json) (settings : ManagedSettings)
    (profile : StageProfile) {budget : ManagedInputBudget} {r e : StageRequest U} (hvalid : r.valid ids = true)
    (hsame : SameProfile r e) (hempty : materialSize ids e = 10)
    (hbase : envelopeSize ids resultSchema settings profile e ≤ budget.baseBytes)
    (hchildren : ∀ c ∈ r.children, childContribution ids c ≤ budget.childBytes) :
    envelopeSize ids resultSchema settings profile r ≤ renderedSize ids budget r := by
  have hadd := envelopeSize_add resultSchema settings profile hw hsame
  have hnone : escapedSize (.arr []) = 2 := by decide
  have hpath : 2 ≤ escapedSize (.arr (r.structuralPath.map .str)) := by
    rw [escapedSize_arr]
    omega
  rw [hempty] at hadd
  unfold StageRequest.valid at hvalid
  unfold renderedSize
  cases hstage : r.stage with
  | analysis =>
    rw [hstage] at hvalid
    simp only [Bool.and_eq_true, List.isEmpty_iff] at hvalid
    rw [materialSize_analysis ids hvalid.1.2] at hadd
    dsimp only
    rw [analysisSize, reductionSize, hnone]
    unfold documentData at hadd
    omega
  | reduction =>
    rw [hstage] at hvalid
    simp only [Bool.and_eq_true, List.isEmpty_iff] at hvalid
    have hmaterial := materialSize_reduction_le hw hvalid.1.1
    have hsum : (r.children.map (childContribution ids)).sum ≤ r.children.length * budget.childBytes := by
      have hle := List.sum_le_card_nsmul (r.children.map (childContribution ids)) budget.childBytes
        (List.forall_mem_map.mpr hchildren)
      rwa [List.length_map] at hle
    dsimp only
    rw [reductionSize, hnone]
    omega

namespace ManagedSynthesisInference

variable {self : ManagedSynthesisInference} {nil : U} {planning bound : DigestionProfile}

/-- What `profile` gives: the planning profile with its binding, and a budget that leaves every stage
its room and covers the empty envelope of every stage. -/
theorem profile_ok {childBytes : Nat} (h : self.profile ids resultSchema nil planning = .ok bound)
    (hchild : self.settings.childInputBytes = some childBytes) :
    ∃ budget unbudgeted, self.boundProfile planning = .ok unbudgeted
      ∧ bound = { unbudgeted with managedInputBudget := some budget }
      ∧ (budget.inputBytes : Int) = self.inputLimit ∧ budget.childBytes = childBytes
      ∧ ∀ p ∈ self.settings.stageProfiles, ∃ fixed, self.stageBase ids resultSchema nil unbudgeted p.1 = .ok fixed
        ∧ fixed ≤ budget.baseBytes := by
  unfold profile at h
  obtain ⟨unbudgeted, hbound, h⟩ := bind_eq_ok.mp h
  rw [hchild] at h
  obtain ⟨bases, hbases, h⟩ := bind_eq_ok.mp h
  obtain ⟨budget, hbudget, h⟩ := bind_eq_ok.mp h
  unfold makeBudget at hbudget
  dsimp only at hbudget
  split at hbudget
  · rename_i hpos
    obtain rfl := Except.ok.inj hbudget
    refine ⟨_, unbudgeted, hbound, (Except.ok.inj h).symm, ?_, rfl, fun p hp => ?_⟩
    · exact Int.toNat_of_nonneg hpos.1.le
    · obtain ⟨fixed, hmem, hfixed⟩ := mem_of_forall₂ (mapM_eq_ok.mp hbases).flip (List.mem_map_of_mem hp)
      refine ⟨fixed, hfixed, ?_⟩
      show fixed ≤ ((bases.foldl max 0).toNat : Int)
      rw [Int.toNat_of_nonneg hpos.2.1.le]
      exact (List.max?_le_iff List.max?_cons').mp (le_refl _) fixed (List.mem_cons_of_mem _ hmem)
  · cases hbudget

/-- The limit is what every stage leaves, and what a request may have at all. -/
theorem inputLimit_le (self : ManagedSynthesisInference) :
    self.inputLimit ≤ self.settings.maxRequestBytes
      ∧ ∀ p ∈ self.settings.stageProfiles, self.inputLimit ≤ p.2.inputTokens
        ∧ self.inputLimit ≤ inputRoom self.settings.capability p.2 := by
  have hmin : ∀ x ∈ (self.settings.maxRequestBytes : Int) :: self.settings.stageProfiles.map fun p =>
      min (p.2.inputTokens : Int) (inputRoom self.settings.capability p.2), self.inputLimit ≤ x :=
    (List.le_min?_iff List.min?_cons').mp (le_refl _)
  refine ⟨hmin _ (List.mem_cons_self ..), fun p hp => ?_⟩
  exact le_min_iff.mp (hmin _ (List.mem_cons_of_mem _ (List.mem_map_of_mem hp)))

theorem bind_settings {stage : ManagedStage} {renderer : ManagedSynthesisInference}
    (h : self.bind ids resultSchema stage = .ok renderer) :
    renderer.settings = self.settings ∧ renderer.stage = stage := by
  unfold ManagedSynthesisInference.bind at h
  obtain ⟨made, hmade, h⟩ := bind_eq_ok.mp h
  split at h
  · cases h
  obtain rfl := Except.ok.inj h
  unfold make at hmade
  split at hmade
  · cases hmade
  split at hmade
  · cases hmade
  split at hmade
  · cases hmade
  obtain ⟨binding, -, hmade⟩ := bind_eq_ok.mp hmade
  obtain rfl := Except.ok.inj hmade
  exact ⟨rfl, rfl⟩

theorem stageProfile_ok {profile : StageProfile} (h : self.stageProfile = .ok profile) :
    self.settings.stageProfiles.get? self.stage = some profile := by
  unfold stageProfile at h
  split at h
  · rename_i found hfound
    rw [hfound, Except.ok.inj h]
  · cases h

/-- The fixed part of a stage is the size of the envelope of its empty request. -/
theorem stageBase_ok {stage : ManagedStage} {fixed : Int}
    (h : self.stageBase ids resultSchema nil bound stage = .ok fixed) :
    ∃ profile, self.settings.stageProfiles.get? stage = some profile
      ∧ fixed = envelopeSize ids resultSchema self.settings profile (emptyStageRequest nil stage bound) := by
  unfold stageBase at h
  obtain ⟨renderer, hrenderer, h⟩ := bind_eq_ok.mp h
  obtain ⟨⟨generation, estimate⟩, hrender, h⟩ := bind_eq_ok.mp h
  obtain ⟨hsettings, hstage⟩ := bind_settings hrenderer
  unfold renderUnchecked at hrender
  obtain ⟨profile, hprofile, hrender⟩ := bind_eq_ok.mp hrender
  obtain ⟨⟨⟩, -, hrender⟩ := bind_eq_ok.mp hrender
  obtain ⟨⟨generation', size⟩, hassemble, hrender⟩ := bind_eq_ok.mp hrender
  unfold assemble at hassemble
  split at hassemble
  · cases hassemble
  obtain ⟨rfl, rfl⟩ := Prod.mk.inj (Except.ok.inj hassemble)
  obtain ⟨rfl, rfl⟩ := Prod.mk.inj (Except.ok.inj hrender)
  obtain rfl := Except.ok.inj h
  have hfound := stageProfile_ok hprofile
  rw [hsettings, hstage] at hfound
  refine ⟨profile, hfound, ?_⟩
  rw [estimate, hsettings]
  push_cast
  omega

/-! The errors before the last check of `render` are others. -/

theorem mapError_ne (x : Except Fault Nat) : x.mapError ManagedFault.fault ≠ .error exceedsCapability := by
  cases x with
  | ok n =>
    intro h
    cases h
  | error e =>
    intro h
    cases h

variable {profile : StageProfile} {request : StageRequest U}

theorem stageProfile_ne : self.stageProfile ≠ .error exceedsCapability := by
  unfold stageProfile
  split <;> intro h <;> cases h

theorem checkCompatible_ne : self.checkCompatible profile request ≠ .error exceedsCapability := by
  unfold checkCompatible
  intro h
  split_ifs at h <;> cases h

theorem checkCompatible_ok (h : self.checkCompatible profile request = .ok ()) :
    request.stage = .analysis ↔ self.stage = .chunk := by
  unfold checkCompatible at h
  split_ifs at h with _ hkind
  have hkind := not_not.mp hkind
  rwa [decide_eq_decide] at hkind

theorem assemble_ne : self.assemble ids resultSchema profile request ≠ .error exceedsCapability := by
  unfold assemble
  split
  · intro h
    exact absurd (ManagedFault.context.inj (Except.error.inj h)) (by decide)
  · intro h
    cases h

theorem assemble_ok {made : GenerationRequest × Nat}
    (h : self.assemble ids resultSchema profile request = .ok made) :
    made.2 = envelopeSize ids resultSchema self.settings profile request := by
  unfold assemble at h
  split at h
  · cases h
  · rw [← Except.ok.inj h]

theorem bind_ne {stage : ManagedStage} : self.bind ids resultSchema stage ≠ .error exceedsCapability := by
  have hschema : ∀ x : Except AzureSchema.SchemaFault Json, schemaResult x ≠ .error exceedsCapability := by
    intro x h
    rcases x with (_ | _) | _ <;> cases h
  unfold ManagedSynthesisInference.bind make bindingOf
  refine bind_ne_error ?_ fun made _ h => ?_
  · split_ifs
    · intro h
      cases h
    · intro h
      cases h
    · intro h
      cases h
    · exact bind_ne_error (bind_ne_error (hschema _) fun _ _ h => (by cases h)) fun _ _ h => (by cases h)
    · exact bind_ne_error (fun h => by cases h) fun _ _ h => (by cases h)
  · split_ifs at h
    cases h

theorem stageBase_ne {stage : ManagedStage} :
    self.stageBase ids resultSchema nil bound stage ≠ .error exceedsCapability := by
  unfold stageBase renderUnchecked
  refine bind_ne_error bind_ne fun renderer _ => bind_ne_error ?_ fun _ _ h => (by cases h)
  refine bind_ne_error stageProfile_ne fun profile _ => ?_
  refine bind_ne_error checkCompatible_ne fun _ _ => ?_
  exact bind_ne_error assemble_ne fun _ _ h => (by cases h)

theorem profile_ne : self.profile ids resultSchema nil planning ≠ .error exceedsCapability := by
  unfold profile boundProfile makeBudget
  refine bind_ne_error ?_ fun _ _ => ?_
  · intro h
    dsimp only at h
    split_ifs at h
    cases h
  split
  · intro h
    cases h
  · refine bind_ne_error (mapM_ne_error fun stage _ => stageBase_ne) fun bases _ => ?_
    refine bind_ne_error (fun h => ?_) fun _ _ h => (by cases h)
    dsimp only at h
    split_ifs at h
    cases h

theorem checkBudget_ne : self.checkBudget ids resultSchema nil request ≠ .error exceedsCapability := by
  unfold checkBudget
  split
  · intro h
    cases h
  · refine bind_ne_error profile_ne fun _ _ h => ?_
    split_ifs at h
    cases h

end ManagedSynthesisInference

section

open ManagedSynthesisInference

variable [DecidableEq U] {size : Nat} {request : StageRequest U} {budget : ManagedInputBudget}

/-- What `check_request` has found of a request with a budget. -/
theorem admitRequest_ok (h : admitRequest ids request = .ok size)
    (hbudget : request.profile.managedInputBudget = some budget) :
    request.valid ids = true ∧ (∀ c ∈ request.children, childContribution ids c ≤ budget.childBytes)
      ∧ renderedSize ids budget request ≤ budget.inputBytes := by
  unfold admitRequest at h
  split at h
  · rename_i hvalid
    unfold checkRequest at h
    obtain ⟨charged, hcharged, -⟩ := bind_eq_ok.mp h
    unfold chargedSize at hcharged
    rw [hbudget] at hcharged
    dsimp only at hcharged
    rw [ite_error_eq_ok, Bool.or_eq_true, not_or, List.any_eq_true, decide_eq_true_eq] at hcharged
    obtain ⟨⟨hchildren, hrendered⟩, -⟩ := hcharged
    refine ⟨(Bool.and_eq_true _ _ ▸ hvalid).2, fun c hc => ?_, Nat.not_lt.mp hrendered⟩
    by_contra hover
    exact hchildren ⟨c, hc, decide_eq_true (Nat.not_le.mp hover)⟩
  · cases h

/-- The envelope of an admitted request is within what `check_request` has measured. -/
theorem envelopeSize_le_rendered (hw : ids.FixedWidth) {self : ManagedSynthesisInference} {nil : U}
    {planning bound : DigestionProfile} {childBytes : Nat}
    (hprofile : self.profile ids resultSchema nil planning = .ok bound)
    (hchild : self.settings.childInputBytes = some childBytes) (hrequest : request.profile = bound)
    (hadmitted : admitRequest ids request = .ok size) :
    ∃ budget, bound.managedInputBudget = some budget ∧ (budget.inputBytes : Int) = self.inputLimit
      ∧ renderedSize ids budget request ≤ budget.inputBytes
      ∧ ∀ stage profile, self.settings.stageProfiles.get? stage = some profile →
        (request.stage = .analysis ↔ stage = .chunk) →
        envelopeSize ids resultSchema self.settings profile request ≤ renderedSize ids budget request := by
  obtain ⟨budget, unbudgeted, -, rfl, hlimit, -, hbases⟩ := profile_ok hprofile hchild
  have hbudget : request.profile.managedInputBudget = some budget := by rw [hrequest]
  obtain ⟨hvalid, hchildren, hrendered⟩ := admitRequest_ok hadmitted hbudget
  refine ⟨budget, rfl, hlimit, hrendered, fun stage profile hfound hkind => ?_⟩
  obtain ⟨fixed, hfixed, hle⟩ := hbases _ (Dict.mem_of_get? hfound)
  obtain ⟨profile', hfound', rfl⟩ := stageBase_ok hfixed
  obtain rfl := Option.some.inj (hfound.symm.trans hfound')
  refine envelopeSize_le hw resultSchema self.settings profile hvalid ?_ rfl (Int.ofNat_le.mp hle) hchildren
  refine ⟨?_, by rw [hrequest]; rfl, by rw [hrequest]; rfl, by rw [hrequest]; rfl, by rw [hrequest]; rfl,
    by rw [hrequest]; rfl⟩
  show request.stage = if stage = .chunk then .analysis else .reduction
  by_cases hchunk : stage = .chunk
  · rw [if_pos hchunk, hkind.mpr hchunk]
  · rw [if_neg hchunk]
    cases hstage : request.stage with
    | analysis => exact absurd (hkind.mp hstage) hchunk
    | reduction => rfl

/-- A request whose envelope is within the limits of every stage is not stopped by its size. -/
theorem not_exceeds (self : ManagedSynthesisInference) {stage : ManagedStage} {profile : StageProfile} {n : Nat}
    (hfound : self.settings.stageProfiles.get? stage = some profile) (hn : (n : Int) ≤ self.inputLimit) :
    ¬(self.settings.maxRequestBytes < n ∨ profile.inputTokens < n
      ∨ self.settings.capability.contextTokens < self.estimate n + profile.outputTokens) := by
  obtain ⟨hrequestBytes, hstages⟩ := inputLimit_le self
  obtain ⟨htokens, hroom⟩ := hstages _ (Dict.mem_of_get? hfound)
  unfold inputRoom at hroom
  unfold estimate
  dsimp only at htokens hroom
  omega

/-- **The sizing estimate bounds the envelope.**  For a profile that `profile` has bound with
`child_input_bytes` set, and a request under it that `check_request` admits, the envelope that `render`
builds for a stage of the request's kind is at most `analysis_size` of an analysis and at most
`reduction_size` of a reduction, so that `render` is never stopped by its size. -/
theorem managed_sizing_bounds (hw : ids.FixedWidth) {self renderer : ManagedSynthesisInference}
    {nil nil' : U} {planning bound : DigestionProfile} {childBytes : Nat}
    (hprofile : self.profile ids resultSchema nil planning = .ok bound)
    (hchild : self.settings.childInputBytes = some childBytes) (hsettings : renderer.settings = self.settings)
    (hrequest : request.profile = bound) (hadmitted : admitRequest ids request = .ok size) :
    ∃ budget, bound.managedInputBudget = some budget
      ∧ (∀ stageProfile, renderer.stageProfile = .ok stageProfile →
        (request.stage = .analysis ↔ renderer.stage = .chunk) →
        (request.stage = .analysis → envelopeSize ids resultSchema renderer.settings stageProfile request
            ≤ analysisSize ids budget request)
          ∧ (request.stage = .reduction → envelopeSize ids resultSchema renderer.settings stageProfile request
            ≤ reductionSize budget request.structuralPath request.children.length))
      ∧ renderer.render ids resultSchema nil' request
        ≠ .error exceedsCapability := by
  obtain ⟨budget, hbudget, hlimit, hrendered, hsizes⟩ :=
    envelopeSize_le_rendered hw hprofile hchild hrequest hadmitted
  have hfound : ∀ profile, renderer.stageProfile = .ok profile →
      self.settings.stageProfiles.get? renderer.stage = some profile := by
    intro profile hstage
    rw [← hsettings]
    exact stageProfile_ok hstage
  have hsize : ∀ profile, renderer.stageProfile = .ok profile →
      (request.stage = .analysis ↔ renderer.stage = .chunk) →
      envelopeSize ids resultSchema renderer.settings profile request ≤ renderedSize ids budget request := by
    intro profile hstage hkind
    rw [hsettings]
    exact hsizes renderer.stage profile (hfound profile hstage) hkind
  refine ⟨budget, hbudget, fun profile hfound hkind => ⟨fun hstage => ?_, fun hstage => ?_⟩, ?_⟩
  · have hle := hsize profile hfound hkind
    unfold renderedSize at hle
    rwa [hstage] at hle
  · have hle := hsize profile hfound hkind
    unfold renderedSize at hle
    rwa [hstage] at hle
  · unfold render
    refine bind_ne_error (mapError_ne _) fun _ _ => ?_
    refine bind_ne_error stageProfile_ne fun profile hstage => ?_
    refine bind_ne_error checkCompatible_ne fun _ hcompatible => ?_
    refine bind_ne_error checkBudget_ne fun _ _ => ?_
    refine bind_ne_error assemble_ne fun made hmade => ?_
    have hle := hsize profile hstage (checkCompatible_ok hcompatible)
    have hexceeds := not_exceeds self (hfound profile hstage)
      (le_trans (Int.ofNat_le.mpr (hle.trans hrendered)) hlimit.le)
    unfold estimate at hexceeds ⊢
    rw [← hsettings] at hexceeds
    dsimp only
    rw [ManagedSynthesisInference.assemble_ok hmade, if_neg]
    · intro h
      cases h
    · exact hexceeds

end

/-! ### A sample request -/

section

attribute [local irreducible] digestDigits uuidText

theorem length_ofList_le {l : Str} {n : Nat} (h : l.length ≤ n) : (String.ofList l).toList.length ≤ n := by
  rwa [String.toList_ofList]

theorem length_append_le {a b : String} {n : Nat} (ha : a.toList.length ≤ n) (hb : b.toList.length ≤ 110) :
    (a ++ b).toList.length ≤ n + 110 := by
  rw [String.toList_append, List.length_append]
  exact Nat.add_le_add ha hb

/-- The prose is counted one literal at a time. -/
theorem length_prose : prose.toList.length ≤ 4000 := by
  unfold prose
  repeat refine length_append_le ?_ (length_ofList_le (by decide))
  exact length_ofList_le (by decide)

theorem length_childProse : childProse.toList.length ≤ 400 := by
  unfold childProse
  exact length_append_le (length_ofList_le (by decide)) (length_ofList_le (by decide))

def sampleSettings : ManagedSettings where
  strictGeneration := false
  capability := {
    version := "1".toList, contextTokens := 10 ^ 7, maxOutputTokens := 1000, overheadTokens := 10
    safetyTokens := 10, structuredOutput := .prompt, outputParameter := .maxTokens, streaming := false
    usageReporting := false, temperature := none, responseModels := [], reasoningEffort := none
    strictSchema := false }
  profiles := [.chunk, .intermediate, .structural, .root].map fun stage => ⟨stage, "1".toList, 4000000, 1000⟩
  maxRequestBytes := 4000000
  maxResponseEnvelopeBytes := none
  maxEvidence := 16
  childInputBytes := some 5000
  totalSeconds := 60

def sampleProvider : Provider := ⟨"azure".toList, fun _ => "model-1".toList, true⟩

def samplePlanning : DigestionProfile := sampleProfile none none (10 ^ 60)

/-- The sample's inference, as its constructor makes it. -/
def sampleInference : ManagedSynthesisInference where
  provider := sampleProvider
  settings := sampleSettings
  stage := .chunk
  model := "model-1".toList
  config := (sampleIds wrap samplePlanning).fingerprint (.record
    [("settings", sampleSettings.modelDump (sampleIds wrap samplePlanning) true),
      ("provider", .str "azure".toList), ("model", .str "model-1".toList)])

theorem sample_made : ManagedSynthesisInference.Made (sampleIds wrap samplePlanning) .null sampleInference := by
  unfold ManagedSynthesisInference.Made ManagedSynthesisInference.make
  rw [if_neg (by decide), if_neg (by decide), if_neg (by decide)]
  rfl

theorem sampleSettings_valid : sampleSettings.valid .null = true := by
  decide +kernel

theorem bulkItems_uuids (hw : ids.FixedWidth) (l : List U) :
    bulkItems (l.map ids.uuidJson) = 435 * l.length := by
  induction l with
  | nil => rfl
  | cons u l ih =>
    have hu : bulk (ids.uuidJson u) = 12 * (ids.uuidStr u).length + 2 := rfl
    rw [List.map_cons, bulkItems, ih, hu, hw.uuidStr_length, List.length_cons]
    omega

/-- The sample's planning profile with its binding. -/
def sampleBound : DigestionProfile :=
  { samplePlanning with
    inferenceProfile := "managed/1".toList, promptProfile := StageProfile.templateVersion
    inferenceConfig := sampleInference.config, managedInputBudget := none }

/-- The control block of an empty sample request. -/
theorem bulk_sampleControl {ids : Ids Nat} (hw : ids.FixedWidth) (stage : ManagedStage) :
    bulk (control ids .null sampleSettings ⟨stage, "1".toList, 4000000, 1000⟩
      (ManagedSynthesisInference.emptyStageRequest 0 stage sampleBound)) ≤ 20000 := by
  have hids : bulkItems ((List.range 8).map fun i => ids.uuidJson
      (ids.stableId [ids.uuidStr 0, natText i])) = 435 * 8 := by
    have h := bulkItems_uuids hw ((List.range 8).map fun i => ids.stableId [ids.uuidStr 0, natText i])
    rw [List.map_map, List.length_map, List.length_range] at h
    exact h
  have hprofile : bulk (StageProfile.modelDump ⟨stage, "1".toList, 4000000, 1000⟩) ≤ 4000 := by
    cases stage <;> decide +kernel
  have hkind : ((ManagedSynthesisInference.emptyStageRequest 0 stage sampleBound).stage.text).length ≤ 9 := by
    cases stage <;> decide
  have hstage : bulk (ids.uuidJson (0 : Nat)) = 434 := by
    show 12 * (ids.uuidStr 0).length + 2 = 434
    rw [hw.uuidStr_length]
  have hparts : control ids .null sampleSettings ⟨stage, "1".toList, 4000000, 1000⟩
        (ManagedSynthesisInference.emptyStageRequest 0 stage sampleBound)
      = .record [("profile", StageProfile.modelDump ⟨stage, "1".toList, 4000000, 1000⟩),
          ("stage_id", ids.uuidJson (0 : Nat)),
          ("kind", .str (ManagedSynthesisInference.emptyStageRequest 0 stage sampleBound).stage.text),
          ("allowed_evidence_ids", .arr []),
          ("claim_ids_in_order", .arr ((List.range 8).map fun i => ids.uuidJson
            (ids.stableId [ids.uuidStr 0, natText i]))),
          ("required_child_links", .arr []), ("max_claim_characters", .nat 64),
          ("max_annotations", .nat 4), ("max_result_bytes", .nat 100000),
          ("max_response_bytes", .nat 100000), ("schema", .null), ("max_child_input_bytes", .nat 5000)] := rfl
  have hempty : bulk (.arr []) = 2 := rfl
  have hclaims : bulk (.arr ((List.range 8).map fun i => ids.uuidJson
      (ids.stableId [ids.uuidStr 0, natText i]))) = 2 + 435 * 8 := congrArg (2 + ·) hids
  have hkind : bulk (.str (ManagedSynthesisInference.emptyStageRequest 0 stage sampleBound).stage.text) ≤ 110 :=
    Nat.add_le_add_right (Nat.mul_le_mul_left 12 hkind) 2
  have hnat : bulk (.nat 64) ≤ 20 ∧ bulk (.nat 4) ≤ 20 ∧ bulk (.nat 100000) ≤ 20 ∧ bulk (.nat 5000) ≤ 20 := by
    decide +kernel
  have hnull : bulk .null = 4 := rfl
  rw [hparts]
  generalize StageProfile.modelDump _ = dump at hprofile ⊢
  show 2 + bulkFields _ ≤ 20000
  simp only [List.map_cons, List.map_nil, bulkFields, String.reduceToList, List.length_cons, List.length_nil]
  rw [hstage, hempty, hclaims, hnull]
  generalize bulk (.str _) = b at hkind ⊢
  generalize bulk (.nat 64) = c, bulk (.nat 4) = d, bulk (.nat 100000) = e, bulk (.nat 5000) = f at hnat ⊢
  linarith

/-- The envelope of an empty sample request. -/
theorem sample_envelope {ids : Ids Nat} (hw : ids.FixedWidth) (stage : ManagedStage) :
    envelopeSize ids .null sampleSettings ⟨stage, "1".toList, 4000000, 1000⟩
      (ManagedSynthesisInference.emptyStageRequest 0 stage sampleBound) ≤ 1000000 := by
  have hcontrol := (length_canonical_le_bulk _).trans (bulk_sampleControl hw stage)
  have htask : (task stage).toList.length ≤ 100 := by
    cases stage <;> decide
  have hmark : "\nCONTROL\n".toList.length = 9 := by decide
  have hprose := length_prose
  have hchild := length_childProse
  have hsystem : (systemText ids .null sampleSettings ⟨stage, "1".toList, 4000000, 1000⟩
      (ManagedSynthesisInference.emptyStageRequest 0 stage sampleBound)).length ≤ 25000 := by
    unfold systemText
    rw [if_pos (show sampleSettings.childInputBytes.isSome = true from rfl)]
    simp only [List.length_append]
    omega
  have hdata : (dataText ids (ManagedSynthesisInference.emptyStageRequest 0 stage sampleBound)).length ≤ 2000 :=
    (length_canonical_le_bulk (.record [("UNTRUSTED_DOCUMENT_DATA", .arr []),
      ("UNTRUSTED_STRUCTURAL_PATH", .arr []), ("GENERATED_CHILD_MATERIAL", .arr [])])).trans (by decide)
  have hschema : bulk (generationSchema .null) = 4 := rfl
  refine (length_canonical_le_bulk (envelope ids .null sampleSettings ⟨stage, "1".toList, 4000000, 1000⟩
    (ManagedSynthesisInference.emptyStageRequest 0 stage sampleBound))).trans ?_
  unfold envelope
  generalize systemText _ _ _ _ _ = system at hsystem ⊢
  generalize dataText _ _ = data at hdata ⊢
  simp only [Json.record, List.map_cons, List.map_nil, bulk, bulkFields, String.reduceToList, List.length_cons,
    List.length_nil, hschema]
  omega

theorem sampleBound_valid {budget : Option ManagedInputBudget} (h : budget.all ManagedInputBudget.valid = true) :
    ({ sampleBound with managedInputBudget := budget } : DigestionProfile).valid = true := by
  have hdigest : isDigest sampleInference.config = true :=
    (sample_fixedWidth samplePlanning).sha256_digest _
  unfold DigestionProfile.valid sampleBound
  dsimp only
  rw [hdigest, h]
  rfl

theorem sample_boundProfile : sampleInference.boundProfile samplePlanning = .ok sampleBound := by
  have hvalid : sampleBound.valid = true :=
    sampleBound_valid (show Option.all ManagedInputBudget.valid none = true from rfl)
  show (if sampleSettings.stageProfiles.has .chunk && sampleBound.valid then Except.ok sampleBound
    else .error (ManagedFault.fault .exception)) = _
  rw [hvalid]
  rfl

/-- What is known of the sample's budget without counting its base. -/
structure SampleBudget (b : ManagedInputBudget) : Prop where
  valid : b.valid = true
  inputBytes : b.inputBytes = 4000000
  baseBytes : b.baseBytes ≤ 10 ^ 6
  childBytes : b.childBytes = 5000

/-- The sample's profile with a budget. -/
def budgetedSample (budget : ManagedInputBudget) : DigestionProfile :=
  { sampleBound with managedInputBudget := some budget }

theorem sample_profile : ∃ budget, SampleBudget budget
    ∧ sampleInference.profile (sampleIds wrap samplePlanning) .null 0 samplePlanning
        = .ok (budgetedSample budget) := by
  obtain ⟨budget, hprofile, hvalid, hinput, hchild, hbase⟩ := ManagedSynthesisInference.profile_eq_ok
    sampleSettings_valid 0 sample_made rfl rfl sample_boundProfile (by decide)
  have hlimit : sampleInference.inputLimit = 4000000 := by decide +kernel
  refine ⟨budget, ⟨hvalid, by omega, hbase _ ?_, hchild⟩, hprofile⟩
  rw [ManagedSynthesisInference.stageProfiles_eq sampleSettings_valid]
  intro p hp
  obtain ⟨q, hq, rfl⟩ := List.mem_map.mp hp
  obtain ⟨stage, -, rfl⟩ := List.mem_map.mp hq
  exact sample_envelope (sample_fixedWidth samplePlanning) stage

theorem bulk_nat_le {n k : Nat} (h : n < 2 ^ k) : bulk (.nat n) ≤ k + 2 := by
  show n.log2 + 2 ≤ k + 2
  by_cases hzero : n = 0
  · rw [hzero, Nat.log2_zero]
    omega
  · exact Nat.add_le_add_right ((Nat.log2_lt hzero).mpr h).le 2

/-- The sample's profile, written out. -/
theorem bulk_budgetedSample (ids : Ids Nat) (hfloat : (ids.floatRepr 0).length = 3) {budget : ManagedInputBudget}
    (h : SampleBudget budget) : bulk ((budgetedSample budget).modelDump ids) ≤ 10000 := by
  have hconfig : sampleInference.config.length = 64 :=
    (digest_plain ((sample_fixedWidth samplePlanning).sha256_digest _)).1
  -- the numbers of the profile are not evaluated, their sizes are only bounded
  obtain ⟨size, hsize, hnat⟩ : ∃ size : Nat → Nat, (∀ n, bulk (.nat n) = size n) ∧ ∀ n, n < 2 ^ 30 → size n ≤ 32 :=
    ⟨fun n => bulk (.nat n), fun _ => rfl, fun _ h => bulk_nat_le h⟩
  have hbudget : bulk budget.modelDump ≤ 600 := by
    have hinput := hnat budget.inputBytes (by rw [h.inputBytes]; decide)
    have hbase := hnat budget.baseBytes (h.baseBytes.trans_lt (by decide))
    have hchild := hnat budget.childBytes (by rw [h.childBytes]; decide)
    simp [ManagedInputBudget.modelDump, Json.record, bulk, bulkFields, hsize]
    omega
  have hversion : StageProfile.templateVersion.length = 16 := by decide
  have hratio : bulk (floatJson ids 0) = 3 := hfloat
  unfold DigestionProfile.modelDump budgetedSample sampleBound samplePlanning sampleProfile
  dsimp only
  generalize budget.modelDump = dump at hbudget ⊢
  generalize sampleInference.config = config at hconfig ⊢
  have hbig : size (10 ^ 60) ≤ 202 := hsize _ ▸ bulk_nat_le (by decide)
  generalize (10 ^ 60 : Nat) = big at hbig ⊢
  simp [Json.record, Json.text, bulk, bulkFields, hsize, hversion, hratio, hconfig]
  have h1000 := hnat 1000 (by decide)
  have h100 := hnat 100 (by decide)
  have h100000 := hnat 100000 (by decide)
  have h0 := hnat 0 (by decide)
  have h4 := hnat 4 (by decide)
  have h8 := hnat 8 (by decide)
  have h10 := hnat 10 (by decide)
  have h64 := hnat 64 (by decide)
  linarith

theorem analysisSize_mono (ids : Ids U) {b c : ManagedInputBudget} (h : b.baseBytes ≤ c.baseBytes)
    (r : StageRequest U) : analysisSize ids b r ≤ analysisSize ids c r := by
  unfold analysisSize reductionSize
  dsimp only
  omega

/-- The analysis of the sample's piece is admitted under the sample's profile. -/
theorem sample_admitted {budget : ManagedInputBudget} (h : SampleBudget budget) :
    ∃ size, admitRequest (sampleIds wrap samplePlanning) (sampleRequest (budgetedSample budget)) = .ok size := by
  have hw := sample_fixedWidth samplePlanning
  have hwidth : ∀ n < 1000, ((sampleIds wrap samplePlanning).uuidStr n).length = 36 :=
    fun n _ => hw.uuidStr_length n
  have hbulk := bulk_sampleRequest hwidth (bulk_budgetedSample (sampleIds wrap samplePlanning) rfl h)
  have hanalysis := (analysisSize_mono (sampleIds wrap samplePlanning) (c := ⟨10 ^ 9, 10 ^ 6, 10 ^ 7⟩) h.baseBytes
    (sampleRequest (budgetedSample budget))).trans (sample_analysisSize hwidth sample_evidenceId)
  have hlength := length_canonical_le_bulk
    ((sampleRequest (budgetedSample budget)).modelDump (sampleIds wrap samplePlanning))
  have hprofile : (budgetedSample budget).valid = true := sampleBound_valid h.valid
  have hrequest : (sampleRequest (budgetedSample budget)).valid (sampleIds wrap samplePlanning) = true := by
    simp [StageRequest.valid, sampleRequest]
  have hsize : requestSize (sampleIds wrap samplePlanning) (sampleRequest (budgetedSample budget)) ≤ 30000 := by
    have hsum : requestSize (sampleIds wrap samplePlanning) (sampleRequest (budgetedSample budget))
        = (canonical ((sampleRequest (budgetedSample budget)).modelDump (sampleIds wrap samplePlanning))).length + 0 :=
      rfl
    rw [hsum, Nat.add_zero]
    exact hlength.trans hbulk
  have hcharged : chargedSize (sampleIds wrap samplePlanning) (sampleRequest (budgetedSample budget))
      = .ok (max (requestSize (sampleIds wrap samplePlanning) (sampleRequest (budgetedSample budget)))
        (analysisSize (sampleIds wrap samplePlanning) budget (sampleRequest (budgetedSample budget)))) := by
    refine if_neg ?_
    rw [show (sampleRequest (budgetedSample budget)).children = [] from rfl, List.any_nil, Bool.false_or,
      decide_eq_true_eq, Nat.not_lt, h.inputBytes]
    exact hanalysis.trans (by decide)
  have hcontext : (sampleRequest (budgetedSample budget)).profile.contextTokens = 10 ^ 60 := rfl
  have hreserved : (sampleRequest (budgetedSample budget)).profile.reservedOutputTokens = 1000 := rfl
  have hmax := max_le (hsize.trans (show 30000 ≤ 10 ^ 6 + 100000 by decide)) hanalysis
  have hroom : 10 ^ 6 + 100000 + 1000 ≤ 10 ^ 60 := by decide
  have hchecked : checkRequest (sampleIds wrap samplePlanning) (sampleRequest (budgetedSample budget))
      = .ok (max (requestSize (sampleIds wrap samplePlanning) (sampleRequest (budgetedSample budget)))
        (analysisSize (sampleIds wrap samplePlanning) budget (sampleRequest (budgetedSample budget)))) := by
    unfold checkRequest
    rw [hcharged, ok_bind, hcontext, hreserved]
    exact if_neg (Nat.not_lt.mpr (Nat.le_trans (Nat.add_le_add_right hmax 1000) hroom))
  unfold admitRequest
  rw [show (sampleRequest (budgetedSample budget)).profile = budgetedSample budget from rfl, hprofile, hrequest]
  exact ⟨_, (if_pos rfl).trans hchecked⟩

/-- The theorem applies to the sample: the analysis of one piece. -/
theorem managed_sizing_bounds_sample : ∃ budget size,
    sampleInference.profile (sampleIds wrap samplePlanning) .null 0 samplePlanning = .ok (budgetedSample budget)
      ∧ admitRequest (sampleIds wrap samplePlanning) (sampleRequest (budgetedSample budget)) = .ok size
      ∧ sampleInference.render (sampleIds wrap samplePlanning) .null 0 (sampleRequest (budgetedSample budget))
        ≠ .error exceedsCapability := by
  obtain ⟨budget, hbudget, hprofile⟩ := sample_profile
  obtain ⟨size, hadmitted⟩ := sample_admitted hbudget
  refine ⟨budget, size, hprofile, hadmitted, ?_⟩
  exact (managed_sizing_bounds (sample_fixedWidth samplePlanning) hprofile rfl rfl rfl hadmitted).elim fun _ h => h.2.2

end

end Polymind.Digestion
