import Polymind.Digestion.Equiv.Envelope

/-!
# Rendering

What binding and rendering come to for settings that are valid.  `profile_exact` says which planning
profiles can be bound and that binding a second time changes nothing; `render_bound` says what
`render` answers for an admitted request under a profile that was bound.
-/

namespace Polymind.Digestion

open Json Documents Llm ManagedSynthesisInference

variable {U : Type} {ids : Ids U} {resultSchema : Json} {self : ManagedSynthesisInference} {nil : U}
  {planning bound : DigestionProfile}

/-! ### Binding -/

/-- The planning profile under the configuration of an inference, without a budget. -/
def unbudgeted (self : ManagedSynthesisInference) (planning : DigestionProfile) : DigestionProfile :=
  { planning with
    inferenceProfile := "managed/1".toList, promptProfile := StageProfile.templateVersion
    inferenceConfig := self.config, managedInputBudget := none }

theorem boundProfile_eq_ok_iff (hvalid : self.settings.valid resultSchema = true) :
    self.boundProfile planning = .ok bound
      ↔ (unbudgeted self planning).valid = true ∧ bound = unbudgeted self planning := by
  constructor
  · intro h
    obtain ⟨-, hbound, rfl⟩ := boundProfile_ok h
    exact ⟨hbound, rfl⟩
  · rintro ⟨hbound, rfl⟩
    obtain ⟨p, -, hfound⟩ := stageProfiles_complete hvalid .chunk
    have hhas : self.settings.stageProfiles.has .chunk = true :=
      Dict.has_iff.mpr (List.mem_map_of_mem (Dict.mem_of_get? hfound))
    show (if self.settings.stageProfiles.has .chunk && (unbudgeted self planning).valid then
      Except.ok (unbudgeted self planning) else .error (ManagedFault.fault .exception)) = _
    rw [hhas, hbound]
    rfl

/-- Measuring a stage needs its output to be reserved. -/
theorem reserved_of_stageBase {stage : ManagedStage} {p : StageProfile} {fixed : Int}
    (hfound : self.settings.stageProfiles.get? stage = some p)
    (h : self.stageBase ids resultSchema nil bound stage = .ok fixed) :
    p.outputTokens ≤ bound.reservedOutputTokens := by
  unfold stageBase at h
  obtain ⟨renderer, hrenderer, h⟩ := bind_eq_ok.mp h
  obtain ⟨⟨generation, estimate⟩, hrender, -⟩ := bind_eq_ok.mp h
  obtain ⟨hsettings, hstage⟩ := bind_settings hrenderer
  unfold renderUnchecked at hrender
  obtain ⟨q, hprofile, hrender⟩ := bind_eq_ok.mp hrender
  obtain ⟨⟨⟩, hcompatible, -⟩ := bind_eq_ok.mp hrender
  have hfound' := stageProfile_ok hprofile
  rw [hsettings, hstage, hfound] at hfound'
  obtain rfl := Option.some.inj hfound'
  unfold checkCompatible at hcompatible
  split_ifs at hcompatible with _ _ hreserved
  exact Nat.not_lt.mp hreserved

/-- **What can be bound.**  On valid settings `profile` succeeds for exactly the planning profiles that
are valid under the configuration and, with `child_input_bytes` set, reserve the output of every
stage; and it leaves a profile alone that it has bound before. -/
theorem profile_exact (nil : U) (planning : DigestionProfile)
    (hmade : ManagedSynthesisInference.Made ids resultSchema self)
    (hvalid : self.settings.valid resultSchema = true) :
    ((∃ bound, self.profile ids resultSchema nil planning = .ok bound) ↔
      (unbudgeted self planning).valid = true ∧ (self.settings.childInputBytes.isSome = true →
        ∀ p ∈ self.settings.profiles, p.outputTokens ≤ planning.reservedOutputTokens))
    ∧ ∀ bound, self.profile ids resultSchema nil planning = .ok bound →
      self.profile ids resultSchema nil bound = .ok bound := by
  refine ⟨⟨?_, ?_⟩, fun bound h => profile_idempotent h⟩
  · rintro ⟨bound, h⟩
    have hunbudgeted : (unbudgeted self planning).valid = true := by
      obtain ⟨unbound, hbound, -⟩ := bind_eq_ok.mp h
      exact ((boundProfile_eq_ok_iff hvalid).mp hbound).1
    refine ⟨hunbudgeted, fun hchild p hp => ?_⟩
    obtain ⟨childBytes, hchild⟩ := Option.isSome_iff_exists.mp hchild
    obtain ⟨budget, unbound, hbound, -, -, -, hbases⟩ := profile_ok h hchild
    obtain ⟨-, rfl⟩ := (boundProfile_eq_ok_iff hvalid).mp hbound
    have hmem : (p.stage, p) ∈ self.settings.stageProfiles := by
      rw [stageProfiles_eq hvalid]
      exact List.mem_map_of_mem hp
    obtain ⟨fixed, hfixed, -⟩ := hbases _ hmem
    have hreserved : p.outputTokens ≤ (unbudgeted self planning).reservedOutputTokens :=
      reserved_of_stageBase (get?_stageProfiles hvalid hmem) hfixed
    exact hreserved
  · rintro ⟨hunbudgeted, hreserved⟩
    have hbound := (boundProfile_eq_ok_iff hvalid).mpr ⟨hunbudgeted, rfl⟩
    cases hchild : self.settings.childInputBytes with
    | none =>
      refine ⟨unbudgeted self planning, ?_⟩
      unfold profile
      rw [hbound, ok_bind, hchild]
    | some childBytes =>
      rw [hchild] at hreserved
      obtain ⟨budget, hprofile, -⟩ := profile_eq_ok hvalid nil hmade rfl hchild hbound (hreserved rfl)
      exact ⟨_, hprofile⟩

/-- The theorem applies to the sample settings. -/
theorem profile_exact_sample :
    (∃ bound, sampleInference.profile (sampleIds wrap samplePlanning) .null 0 samplePlanning = .ok bound)
    ∧ ∀ bound, sampleInference.profile (sampleIds wrap samplePlanning) .null 0 samplePlanning = .ok bound
      → sampleInference.profile (sampleIds wrap samplePlanning) .null 0 bound = .ok bound := by
  have h := profile_exact 0 samplePlanning sample_made sampleSettings_valid
  have hreserved : ∀ p ∈ sampleSettings.profiles,
      p.outputTokens ≤ samplePlanning.reservedOutputTokens := by decide
  have hbound : (unbudgeted sampleInference samplePlanning).valid = true :=
    ((boundProfile_eq_ok_iff sampleSettings_valid).mp sample_boundProfile).1
  exact ⟨h.1.mpr ⟨hbound, fun _ => hreserved⟩, h.2⟩

/-! ### Rendering -/

section

variable {size : Nat} {request : StageRequest U}

/-- What `checkBudget` compares is what `profile` has put there. -/
theorem checkBudget_of_bound (hprofile : self.profile ids resultSchema nil planning = .ok bound)
    (hrequest : request.profile = bound) : self.checkBudget ids resultSchema nil request = .ok () := by
  unfold checkBudget
  split
  · rfl
  · rw [hrequest, profile_idempotent hprofile, ok_bind]
    exact if_neg (not_not.mpr rfl)

/-- `profile` looks at the stage of its inference nowhere. -/
theorem profile_stage (stage : ManagedStage) (p : DigestionProfile) :
    ({ self with stage } : ManagedSynthesisInference).profile ids resultSchema nil p
      = self.profile ids resultSchema nil p := rfl

/-- **What a bound request is rendered to.**  On valid settings with `child_input_bytes` set, a request
under a profile that was bound, and admitted, is rendered for every stage of its kind, or it cites
more evidence than the settings allow. -/
theorem render_bound [DecidableEq U] (stage : ManagedStage) (hw : ids.FixedWidth)
    (hmade : ManagedSynthesisInference.Made ids resultSchema self)
    (hvalid : self.settings.valid resultSchema = true) (hchild : self.settings.childInputBytes.isSome = true)
    (hprofile : self.profile ids resultSchema nil planning = .ok bound) (hrequest : request.profile = bound)
    (hadmitted : admitRequest ids request = .ok size) (hkind : request.stage = .analysis ↔ stage = .chunk) :
    ∃ p ∈ self.settings.profiles, p.stage = stage
      ∧ ({ self with stage } : ManagedSynthesisInference).render ids resultSchema nil request
        = if self.settings.maxEvidence < (evidenceOf ids request).length then
            .error (.context "Evidence cardinality exceeds configured bound.")
          else .ok (generation ids resultSchema self.settings p request,
            self.estimate (envelopeSize ids resultSchema self.settings p request)) := by
  obtain ⟨childBytes, hchild⟩ := Option.isSome_iff_exists.mp hchild
  obtain ⟨p, hp, hfound⟩ := stageProfiles_complete hvalid stage
  have hstage : p.stage = stage := by
    have hmem := Dict.mem_of_get? hfound
    rw [stageProfiles_eq hvalid] at hmem
    obtain ⟨q, -, hq⟩ := List.mem_map.mp hmem
    obtain ⟨rfl, rfl⟩ := Prod.mk.inj hq
    rfl
  refine ⟨p, hp, hstage, ?_⟩
  obtain ⟨budget, -, hlimit, hrendered, hsizes⟩ :=
    envelopeSize_le_rendered hw hprofile hchild hrequest hadmitted
  have hexceeds := not_exceeds self hfound
    (le_trans (Int.ofNat_le.mpr ((hsizes stage p hfound hkind).trans hrendered)) hlimit.le)
  -- the checks before the last one
  obtain ⟨_, unbound, hunbound, rfl, -, -, hbases⟩ := profile_ok hprofile hchild
  have hbound : self.Bound request.profile := by
    have h := boundProfile_bound hunbound
    rw [hrequest]
    exact ⟨h.1, h.2, h.3⟩
  have hreserved : p.outputTokens ≤ request.profile.reservedOutputTokens := by
    obtain ⟨fixed, hfixed, -⟩ := hbases _ (Dict.mem_of_get? hfound)
    rw [hrequest]
    exact reserved_of_stageBase hfound hfixed
  have hcompatible : checkCompatible { self with stage } p request = .ok () :=
    checkCompatible_eq_ok (made_bind hmade stage) ⟨hbound.1, hbound.2, hbound.3⟩ hkind hreserved
  have hbudget : checkBudget ids resultSchema { self with stage } nil request = .ok () :=
    checkBudget_of_bound ((profile_stage stage planning).trans hprofile) hrequest
  have hstageProfile : stageProfile { self with stage } = .ok p := stageProfile_eq_ok hfound
  have hrequested : (admitRequest ids request).mapError ManagedFault.fault = .ok size := by
    rw [hadmitted]
    rfl
  unfold render
  rw [hrequested, ok_bind, hstageProfile, ok_bind, hcompatible, ok_bind, hbudget, ok_bind]
  by_cases hevidence : self.settings.maxEvidence < (evidenceOf ids request).length
  · have hassemble : ManagedSynthesisInference.assemble ids resultSchema { self with stage } p request
        = .error (.context "Evidence cardinality exceeds configured bound.") := if_pos hevidence
    rw [if_pos hevidence, hassemble, error_bind]
  · have hassemble : ManagedSynthesisInference.assemble ids resultSchema { self with stage } p request
        = .ok (generation ids resultSchema self.settings p request,
            envelopeSize ids resultSchema self.settings p request) := if_neg hevidence
    rw [if_neg hevidence, hassemble, ok_bind]
    exact if_neg hexceeds

end

end Polymind.Digestion
