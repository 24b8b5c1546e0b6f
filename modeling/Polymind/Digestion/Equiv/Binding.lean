import Polymind.Digestion.Managed

/-!
# Binding

What `ManagedSynthesisInference` does with its own configuration.  An inference that was made can be
bound to every stage (`bind_of_made`), an empty request of a stage is rendered (`stageBase_eq`), and
`profile` succeeds on settings that are valid (`profile_eq_ok`), with the same result for a profile
that it has bound already (`profile_idempotent`).
-/

namespace Polymind.Digestion

open Json Documents Llm

variable {U : Type} {ids : Ids U} {resultSchema : Json}

namespace ManagedSynthesisInference

variable {self : ManagedSynthesisInference} {nil : U} {planning bound : DigestionProfile}

/-- The inference is what its constructor makes of its own parts. -/
def Made (ids : Ids U) (resultSchema : Json) (self : ManagedSynthesisInference) : Prop :=
  make ids resultSchema self.provider self.settings self.stage = .ok self

/-- The constructor looks at the stage only to keep it. -/
theorem make_stage {provider : Provider} {settings : ManagedSettings} {stage : ManagedStage}
    (h : make ids resultSchema provider settings stage = .ok self) (stage' : ManagedStage) :
    make ids resultSchema provider settings stage' = .ok { self with stage := stage' } := by
  unfold make at h ⊢
  split_ifs at h ⊢ with hexecutes hschema hmodel
  obtain ⟨binding, hbinding, h⟩ := bind_eq_ok.mp h
  obtain rfl := Except.ok.inj h
  rw [hbinding]
  rfl

/-- An inference that was made can be bound to every stage. -/
theorem bind_of_made (h : Made ids resultSchema self) (stage : ManagedStage) :
    self.bind ids resultSchema stage = .ok { self with stage } := by
  unfold ManagedSynthesisInference.bind
  rw [make_stage h stage]
  exact if_neg (not_not.mpr rfl)

theorem made_bind (h : Made ids resultSchema self) (stage : ManagedStage) :
    Made ids resultSchema { self with stage } :=
  make_stage h stage

theorem make_made {provider : Provider} {settings : ManagedSettings} {stage : ManagedStage}
    (h : make ids resultSchema provider settings stage = .ok self) :
    Made ids resultSchema self ∧ self.provider = provider ∧ self.settings = settings ∧ self.stage = stage
      ∧ self.model = provider.modelId .summarization := by
  have hparts := h
  unfold make at hparts
  split_ifs at hparts with hexecutes hschema hmodel
  obtain ⟨binding, -, hparts⟩ := bind_eq_ok.mp hparts
  obtain rfl := Except.ok.inj hparts
  exact ⟨h, rfl, rfl, rfl, rfl⟩

/-- The model of an inference that was made is the one of its provider. -/
theorem Made.model (h : Made ids resultSchema self) : self.provider.modelId .summarization = self.model :=
  ((make_made h).2.2.2.2).symm

/-! ### Profiles -/

/-- The profile carries the binding of these settings. -/
structure Bound (inference : ManagedSynthesisInference) (p : DigestionProfile) : Prop where
  inferenceProfile : p.inferenceProfile = "managed/1".toList
  promptProfile : p.promptProfile = StageProfile.templateVersion
  inferenceConfig : p.inferenceConfig = inference.config

theorem boundProfile_ok (h : self.boundProfile planning = .ok bound) :
    self.settings.stageProfiles.has .chunk = true ∧ bound.valid = true
      ∧ bound = { planning with
          inferenceProfile := "managed/1".toList, promptProfile := StageProfile.templateVersion
          inferenceConfig := self.config, managedInputBudget := none } := by
  unfold boundProfile at h
  dsimp only at h
  split at h
  · rename_i hvalid
    obtain rfl := Except.ok.inj h
    exact ⟨(Bool.and_eq_true _ _ ▸ hvalid).1, (Bool.and_eq_true _ _ ▸ hvalid).2, rfl⟩
  · cases h

theorem boundProfile_bound (h : self.boundProfile planning = .ok bound) : self.Bound bound := by
  obtain ⟨-, -, rfl⟩ := boundProfile_ok h
  exact ⟨rfl, rfl, rfl⟩

/-- What was bound before is bound to the same profile. -/
theorem boundProfile_again (h : self.boundProfile planning = .ok bound)
    (budget : Option ManagedInputBudget) :
    self.boundProfile { bound with managedInputBudget := budget } = .ok bound := by
  obtain ⟨hchunk, hvalid, rfl⟩ := boundProfile_ok h
  unfold boundProfile
  dsimp only
  rw [hchunk, hvalid]
  rfl

/-- **Binding is idempotent**: a profile that was bound is bound to itself. -/
theorem profile_idempotent (h : self.profile ids resultSchema nil planning = .ok bound) :
    self.profile ids resultSchema nil bound = .ok bound := by
  unfold profile at h ⊢
  obtain ⟨unbudgeted, hunbudgeted, h⟩ := bind_eq_ok.mp h
  cases hchild : self.settings.childInputBytes with
  | none =>
    rw [hchild] at h
    obtain rfl := Except.ok.inj h
    have hagain := boundProfile_again hunbudgeted unbudgeted.managedInputBudget
    exact bind_eq_ok.mpr ⟨unbudgeted, hagain, rfl⟩
  | some childBytes =>
    rw [hchild] at h
    obtain ⟨bases, hbases, h⟩ := bind_eq_ok.mp h
    obtain ⟨budget, hbudget, h⟩ := bind_eq_ok.mp h
    obtain rfl := Except.ok.inj h
    rw [boundProfile_again hunbudgeted, ok_bind]
    exact bind_eq_ok.mpr ⟨bases, hbases, bind_eq_ok.mpr ⟨budget, hbudget, rfl⟩⟩

/-- The checks that a request passes which was bound to these settings and reserves enough. -/
theorem checkCompatible_eq_ok {stageProfile : StageProfile} {request : StageRequest U}
    (hmade : Made ids resultSchema self) (hbound : self.Bound request.profile)
    (hkind : request.stage = .analysis ↔ self.stage = .chunk)
    (hreserved : stageProfile.outputTokens ≤ request.profile.reservedOutputTokens) :
    self.checkCompatible stageProfile request = .ok () := by
  unfold checkCompatible
  rw [if_neg, if_neg, if_neg (Nat.not_lt.mpr hreserved), if_neg (not_not.mpr hmade.model)]
  · exact not_not.mpr (decide_eq_decide.mpr hkind)
  · rw [hbound.inferenceConfig, hbound.promptProfile, hbound.inferenceProfile]
    simp

theorem stageProfile_eq_ok {p : StageProfile} (h : self.settings.stageProfiles.get? self.stage = some p) :
    self.stageProfile = .ok p := by
  unfold stageProfile
  rw [h]

/-- The fixed part of a stage is measured on its empty request. -/
theorem stageBase_eq {stage : ManagedStage} {p : StageProfile} (hmade : Made ids resultSchema self)
    (hfound : self.settings.stageProfiles.get? stage = some p) (hbound : self.Bound bound)
    (hreserved : p.outputTokens ≤ bound.reservedOutputTokens) :
    self.stageBase ids resultSchema nil bound stage
      = .ok (envelopeSize ids resultSchema self.settings p (emptyStageRequest nil stage bound)) := by
  have hkind : (emptyStageRequest nil stage bound).stage = .analysis ↔ stage = .chunk := by
    show (if stage = .chunk then StageKind.analysis else .reduction) = .analysis ↔ stage = .chunk
    by_cases hchunk : stage = .chunk
    · rw [if_pos hchunk]
      exact ⟨fun _ => hchunk, fun _ => rfl⟩
    · rw [if_neg hchunk]
      exact ⟨fun h => (by cases h), fun h => absurd h hchunk⟩
  have hcompatible : checkCompatible { self with stage } p (emptyStageRequest nil stage bound) = .ok () :=
    checkCompatible_eq_ok (made_bind hmade stage)
      (show Bound { self with stage } bound from ⟨hbound.1, hbound.2, hbound.3⟩) hkind hreserved
  -- no evidence is listed, so that its bound is kept
  have hassemble : assemble ids resultSchema { self with stage } p (emptyStageRequest nil stage bound)
      = .ok (generation ids resultSchema self.settings p (emptyStageRequest nil stage bound),
          envelopeSize ids resultSchema self.settings p (emptyStageRequest nil stage bound)) :=
    if_neg (Nat.not_lt_zero _)
  unfold stageBase renderUnchecked
  rw [bind_of_made hmade stage, ok_bind, stageProfile_eq_ok hfound, ok_bind, hcompatible, ok_bind,
    hassemble, ok_bind, ok_bind]
  dsimp only
  rw [estimate]
  refine congrArg Except.ok ?_
  push_cast
  omega

/-! ### Settings -/

section

variable {settings : ManagedSettings} (hvalid : settings.valid resultSchema = true)

include hvalid

/-- Valid settings have one profile for each stage. -/
theorem stages_nodup : (settings.profiles.map StageProfile.stage).Nodup := by
  simp only [ManagedSettings.valid, Bool.and_eq_true, decide_eq_true_eq] at hvalid
  have hperm := hvalid.1.2
  exact hperm.nodup_iff.mpr (by decide)

theorem stageProfiles_eq : settings.stageProfiles = settings.profiles.map fun p => (p.stage, p) := by
  refine Dict.ofList_eq_self ?_
  rw [List.map_map]
  exact stages_nodup hvalid

theorem get?_stageProfiles {p : ManagedStage × StageProfile} (hp : p ∈ settings.stageProfiles) :
    settings.stageProfiles.get? p.1 = some p.2 := by
  refine Dict.get?_of_mem ?_ hp
  rw [stageProfiles_eq hvalid, List.map_map]
  exact stages_nodup hvalid

/-- Every stage has its profile. -/
theorem stageProfiles_complete (stage : ManagedStage) :
    ∃ p ∈ settings.profiles, settings.stageProfiles.get? stage = some p := by
  have hperm : (settings.profiles.map StageProfile.stage).Perm [.chunk, .intermediate, .root, .structural] := by
    simp only [ManagedSettings.valid, Bool.and_eq_true, decide_eq_true_eq] at hvalid
    exact hvalid.1.2
  have hmem : stage ∈ settings.profiles.map StageProfile.stage := by
    rw [hperm.mem_iff]
    cases stage <;> decide
  obtain ⟨p, hp, rfl⟩ := List.mem_map.mp hmem
  refine ⟨p, hp, get?_stageProfiles hvalid (p := (p.stage, p)) ?_⟩
  rw [stageProfiles_eq hvalid]
  exact List.mem_map_of_mem hp

/-- Every stage leaves some room for its input. -/
theorem inputLimit_pos (hself : self.settings = settings) : 0 < self.inputLimit := by
  have hprofiles := stageProfiles_eq hvalid
  simp only [ManagedSettings.valid, Bool.and_eq_true, decide_eq_true_eq, List.all_eq_true] at hvalid
  obtain ⟨⟨⟨⟨⟨⟨⟨⟨⟨⟨⟨⟨⟨-, hstages⟩, hbytes⟩, -⟩, -⟩, -⟩, -⟩, -⟩, -⟩, -⟩, -⟩, -⟩, -⟩, hroom⟩ := hvalid
  -- the limit is one of the bounds it is the least of
  have hmem : self.inputLimit ∈ (settings.maxRequestBytes : Int) :: settings.stageProfiles.map fun p =>
      min (p.2.inputTokens : Int) (inputRoom settings.capability p.2) := by
    rw [← hself]
    exact List.min?_mem List.min?_cons'
  rcases List.mem_cons.mp hmem with heq | hmem
  · rw [heq]
    exact Int.natCast_pos.mpr hbytes
  · rw [hprofiles, List.map_map] at hmem
    obtain ⟨p, hp, heq⟩ := List.mem_map.mp hmem
    have hstage := hstages p hp
    simp only [StageProfile.valid, Bool.and_eq_true, decide_eq_true_eq] at hstage
    have hp := (hroom p hp).2
    rw [← heq]
    show 0 < min (p.inputTokens : Int) (inputRoom settings.capability p)
    omega

/-- The fixed parts of all the stages. -/
theorem bases_eq (nil : U) (hmade : Made ids resultSchema self) (hself : self.settings = settings)
    (hbound : self.Bound bound)
    (hreserved : ∀ p ∈ settings.profiles, p.outputTokens ≤ bound.reservedOutputTokens) :
    (self.settings.stageProfiles.map Prod.fst).mapM (self.stageBase ids resultSchema nil bound)
      = .ok (settings.stageProfiles.map fun p =>
          (envelopeSize ids resultSchema settings p.2 (emptyStageRequest nil p.1 bound) : Int)) := by
  rw [mapM_eq_ok, hself, List.forall₂_map_left_iff, List.forall₂_map_right_iff, List.forall₂_same]
  intro p hp
  have hfound := get?_stageProfiles hvalid hp
  rw [stageProfiles_eq hvalid] at hp
  obtain ⟨stageProfile, hmem, rfl⟩ := List.mem_map.mp hp
  rw [← hself] at hfound ⊢
  exact stageBase_eq hmade hfound hbound (hreserved stageProfile hmem)

/-- **Binding succeeds.**  On valid settings `profile` gives every planning profile that reserves the
output of each stage a budget, whose base is the largest of the fixed parts. -/
theorem profile_eq_ok (nil : U) {childBytes : Nat} (hmade : Made ids resultSchema self)
    (hself : self.settings = settings)
    (hchild : settings.childInputBytes = some childBytes) (hbound : self.boundProfile planning = .ok bound)
    (hreserved : ∀ p ∈ settings.profiles, p.outputTokens ≤ planning.reservedOutputTokens) :
    ∃ budget, self.profile ids resultSchema nil planning = .ok { bound with managedInputBudget := some budget }
      ∧ budget.valid = true ∧ (budget.inputBytes : Int) = self.inputLimit ∧ budget.childBytes = childBytes
      ∧ ∀ n, (∀ p ∈ settings.stageProfiles,
          envelopeSize ids resultSchema settings p.2 (emptyStageRequest nil p.1 bound) ≤ n)
          → budget.baseBytes ≤ n := by
  have hlimit := inputLimit_pos hvalid hself
  have hbases := bases_eq hvalid nil hmade hself (boundProfile_bound hbound) (by
    obtain ⟨-, -, rfl⟩ := boundProfile_ok hbound
    exact hreserved)
  have hroom : 1024 < childBytes := by
    simp only [ManagedSettings.valid, hchild, Option.all_some, Bool.and_eq_true, decide_eq_true_eq] at hvalid
    omega
  -- the stage that is measured first already has a positive part
  obtain ⟨p, hp, -⟩ := stageProfiles_complete hvalid .chunk
  have hsize : 0 < envelopeSize ids resultSchema settings p (emptyStageRequest nil p.stage bound) :=
    Nat.succ_pos _
  generalize hlist : (settings.stageProfiles.map fun p =>
    (envelopeSize ids resultSchema settings p.2 (emptyStageRequest nil p.1 bound) : Int)) = bases at hbases
  have hle : ∀ n : Int, bases.foldl max 0 ≤ n ↔ ∀ x ∈ 0 :: bases, x ≤ n := fun n =>
    List.max?_le_iff List.max?_cons'
  have hbase : 0 < bases.foldl max 0 := by
    have hmem :
        (envelopeSize ids resultSchema settings p (emptyStageRequest nil p.stage bound) : Int) ∈ bases := by
      rw [← hlist, stageProfiles_eq hvalid, List.map_map]
      exact List.mem_map_of_mem hp
    have := (hle _).mp (le_refl _) _ (List.mem_cons_of_mem _ hmem)
    omega
  have hbudget :
      (ManagedInputBudget.mk self.inputLimit.toNat (bases.foldl max 0).toNat childBytes).valid = true := by
    simp only [ManagedInputBudget.valid, Bool.and_eq_true, decide_eq_true_eq]
    omega
  refine ⟨_, ?_, hbudget, Int.toNat_of_nonneg hlimit.le, rfl, fun n hn => ?_⟩
  · unfold profile
    rw [hbound, ok_bind, hself, hchild]
    dsimp only
    rw [← hself, hbases, ok_bind]
    unfold makeBudget
    dsimp only
    rw [if_pos ⟨hlimit, hbase, hbudget⟩]
    rfl
  · rw [Int.toNat_le, hle]
    rintro x (_ | ⟨_, hx⟩)
    · exact Int.natCast_nonneg n
    · rw [← hlist] at hx
      obtain ⟨p, hp, rfl⟩ := List.mem_map.mp hx
      exact Int.ofNat_le.mpr (hn p hp)

end

end ManagedSynthesisInference

end Polymind.Digestion
