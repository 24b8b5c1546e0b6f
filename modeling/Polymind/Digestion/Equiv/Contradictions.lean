import Polymind.Digestion.Equiv.Lineage
import Mathlib.Data.List.Dedup

/-!
# Contradictions

A digest is told of conflicting propositions twice: by the propositions that `inherited_summary`
folds up to the root, and by the contradictions that `make_digest` lists.  The first ones come from
the claims of every stage (`Family.says_root_iff`), the second ones from the claims of the chunks
only (`mem_contradictionsOf`), whose ids a `Contradiction` names.

* `contradictions_iff`: what each of the two holds, and when they agree.
-/

namespace Polymind.Digestion

open Json Documents Forest Relation

variable {U : Type} [DecidableEq U] {ids : Ids U} {parse : Parser U} {a : ExtractionArtifact U}
  {profile : DigestionProfile} {ref planRef : ObjectRef U} {plan : Plan U} {o : Outcomes U}
  {stance : Stance} {s : Str}

/-! ### Sides of a proposition -/

theorem mem_sortedSet {texts : List Str} : s ∈ sortedSet texts ↔ s ∈ texts := by
  rw [sortedSet, List.mem_insertionSort, List.mem_dedup]

theorem nodup_sortedSet (texts : List Str) : (sortedSet texts).Nodup :=
  (List.perm_insertionSort _ _).nodup_iff.mpr texts.nodup_dedup

/-- The side of a proposition that a stance is for. -/
def Proposition.side (p : Proposition) : Stance → Bool
  | .affirmed => p.affirmed
  | .denied => p.denied
  | .unknown => false

/-- The propositions of a checkpoint have the side of a stance set for a subject. -/
def Checkpoint.Says (cp : Checkpoint U) (stance : Stance) (s : Str) : Prop :=
  ∃ p ∈ cp.propositions, p.subject = s ∧ p.side stance = true

/-- The subjects a checkpoint has as both affirmed and denied. -/
def Checkpoint.conflicts (cp : Checkpoint U) : List Str :=
  (cp.propositions.filter fun p => p.affirmed && p.denied).map Proposition.subject

/-- Some claim of some of the stages takes a stance on a subject. -/
def Outcomes.Asserts (o : Outcomes U) (keys : List U) (stance : Stance) (s : Str) : Prop :=
  ∃ k ∈ keys, ∃ claim ∈ o.claims k, claim.proposes stance s = true

omit [DecidableEq U] in
theorem Outcomes.Asserts.mono {keys more : List U} (hsub : ∀ k ∈ keys, k ∈ more)
    (h : o.Asserts keys stance s) : o.Asserts more stance s := by
  obtain ⟨k, hk, hclaim⟩ := h
  exact ⟨k, hsub k hk, hclaim⟩

omit [DecidableEq U] in
/-- The subjects of claims that take a side. -/
theorem mem_subjects {claims : List (Claim U)} :
    s ∈ (claims.filterMap fun c => match c.subject with
      | some s => if !s.isEmpty && (c.stance = .affirmed || c.stance = .denied) then some s else none
      | none => none)
      ↔ ∃ c ∈ claims, c.proposes .affirmed s = true ∨ c.proposes .denied s = true := by
  rw [List.mem_filterMap]
  refine exists_congr fun c => and_congr_right fun _ => ?_
  cases hsubject : c.subject with
  | none => simp [Claim.proposes, hsubject]
  | some t =>
    simp only [Claim.proposes, hsubject, Option.some.injEq, Bool.and_eq_true, decide_eq_true_eq,
      Bool.not_eq_true', Bool.or_eq_true, Option.ite_none_right_eq_some]
    constructor
    · rintro ⟨⟨hne, hstance | hstance⟩, rfl⟩
      · exact .inl ⟨⟨rfl, hne⟩, hstance⟩
      · exact .inr ⟨⟨rfl, hne⟩, hstance⟩
    · rintro (⟨⟨rfl, hne⟩, hstance⟩ | ⟨⟨rfl, hne⟩, hstance⟩)
      · exact ⟨⟨hne, .inl hstance⟩, rfl⟩
      · exact ⟨⟨hne, .inr hstance⟩, rfl⟩

omit [DecidableEq U] in
theorem mem_subjectsOf {result : StageResult U} {children : List (Checkpoint U)} :
    s ∈ subjectsOf result children ↔ (∃ cp ∈ children, ∃ p ∈ cp.propositions, p.subject = s)
      ∨ ∃ c ∈ result.claims, c.proposes .affirmed s = true ∨ c.proposes .denied s = true := by
  refine (mem_sortedSet.trans List.mem_append).trans (or_congr ?_ mem_subjects)
  simp only [List.mem_flatMap, List.mem_map]

/-! ### The fold over the tree -/

section

variable {result : StageResult U} {children : List (Checkpoint U)} {cp : Checkpoint U}

omit [DecidableEq U] in
theorem subjects_eq (result : StageResult U) (children : List (Checkpoint U)) :
    (propositionsOf result children).map Proposition.subject = subjectsOf result children := by
  rw [propositionsOf, List.map_map]
  exact List.map_id _

omit [DecidableEq U] in
/-- The propositions have distinct subjects. -/
theorem subjects_nodup (hcp : cp.propositions = propositionsOf result children) :
    (cp.propositions.map Proposition.subject).Nodup := by
  rw [hcp, subjects_eq]
  exact nodup_sortedSet _

omit [DecidableEq U] in
/-- A side is set by a child or by a claim of the stage. -/
theorem side_eq (hside : stance = .affirmed ∨ stance = .denied) {p : Proposition}
    (hp : p ∈ propositionsOf result children) : p.side stance = true
      ↔ (∃ child ∈ children, child.Says stance p.subject)
        ∨ ∃ c ∈ result.claims, c.proposes stance p.subject = true := by
  obtain ⟨s, -, rfl⟩ := List.mem_map.mp hp
  rcases hside with rfl | rfl
  · simp [Proposition.side, Checkpoint.Says]
  · simp [Proposition.side, Checkpoint.Says]

omit [DecidableEq U] in
theorem says_iff (hcp : cp.propositions = propositionsOf result children)
    (hside : stance = .affirmed ∨ stance = .denied) : cp.Says stance s
      ↔ (∃ child ∈ children, child.Says stance s)
        ∨ ∃ c ∈ result.claims, c.proposes stance s = true := by
  constructor
  · rintro ⟨p, hp, rfl, hset⟩
    exact (side_eq hside (hcp ▸ hp)).mp hset
  · intro h
    have hmem : s ∈ subjectsOf result children := by
      rw [mem_subjectsOf]
      rcases h with ⟨child, hchild, p, hp, hsubject, -⟩ | ⟨c, hc, hproposes⟩
      · exact .inl ⟨child, hchild, p, hp, hsubject⟩
      · rcases hside with rfl | rfl
        · exact .inr ⟨c, hc, .inl hproposes⟩
        · exact .inr ⟨c, hc, .inr hproposes⟩
    rw [← subjects_eq result children] at hmem
    obtain ⟨p, hp, rfl⟩ := List.mem_map.mp hmem
    exact ⟨p, hcp ▸ hp, rfl, (side_eq hside hp).mpr h⟩

omit [DecidableEq U] in
/-- A subject is in conflict if both its sides are set. -/
theorem mem_conflicts (hcp : cp.propositions = propositionsOf result children) :
    s ∈ cp.conflicts ↔ cp.Says .affirmed s ∧ cp.Says .denied s := by
  rw [Checkpoint.conflicts, List.mem_map]
  simp only [List.mem_filter, Bool.and_eq_true]
  constructor
  · rintro ⟨p, ⟨hp, haffirmed, hdenied⟩, rfl⟩
    exact ⟨⟨p, hp, rfl, haffirmed⟩, p, hp, rfl, hdenied⟩
  · rintro ⟨⟨p, hp, rfl, haffirmed⟩, q, hq, hsubject, hdenied⟩
    obtain rfl : q = p := List.inj_on_of_nodup_map (subjects_nodup hcp) hq hp hsubject
    exact ⟨q, ⟨hp, haffirmed, hdenied⟩, rfl⟩

omit [DecidableEq U] in
theorem conflicts_nodup (hcp : cp.propositions = propositionsOf result children) :
    cp.conflicts.Nodup :=
  (subjects_nodup hcp).sublist (List.filter_sublist.map _)

end

section

variable (hf : Family ids plan o) (hall : ∀ k ∈ plan.stages, Validated ids parse a plan o k)
  (hinherits : ∀ k ∈ plan.stages, Inherits ids plan o k)

include hall hinherits in
/-- The annotations of a stage, computed from those of the stages it reads. -/
theorem summary_eq {k : U} (hk : k ∈ plan.stages) :
    (o.checkpoint k).propositions
        = propositionsOf (o.checkpoint k).result ((plan.dependencies k).map o.checkpoint)
      ∧ (o.checkpoint k).inherited.contradictions = (o.checkpoint k).conflicts.length := by
  obtain ⟨raw, request, hrequest, -⟩ := hall k hk
  have hsummary := hinherits k hk request hrequest
  have hprops := (Prod.mk.inj hsummary).2.symm
  refine ⟨hprops, ?_⟩
  rw [← (Prod.mk.inj hsummary).1, Checkpoint.conflicts, List.length_map, ← List.countP_eq_length_filter,
    hprops]

include hall hinherits in
/-- A claim sets the side it is for in the checkpoint of its stage. -/
theorem says_own (hside : stance = .affirmed ∨ stance = .denied) {k : U} (hk : k ∈ plan.stages)
    (h : ∃ claim ∈ o.claims k, claim.proposes stance s = true) : (o.checkpoint k).Says stance s :=
  (says_iff (summary_eq hall hinherits hk).1 hside).mpr (.inr h)

include hf hall hinherits

/-- A reducer has the sides that its children have. -/
theorem Family.says_parent (hside : stance = .affirmed ∨ stance = .denied) {n : ReductionNode U}
    (hn : n ∈ plan.reducers) {k : U} (hk : k ∈ n.children) (h : (o.checkpoint k).Says stance s) :
    (o.checkpoint n.stageId).Says stance s := by
  have hstage : n.stageId ∈ plan.stages := List.mem_append_right _ (List.mem_map_of_mem hn)
  refine (says_iff (summary_eq hall hinherits hstage).1 hside).mpr (.inl ⟨_, ?_, h⟩)
  rw [dependencies_reducer hf.nodup hn]
  exact List.mem_map_of_mem hk

/-- By induction over the tree, a side that is set comes from a claim of some stage. -/
theorem Family.asserts_of_says (hside : stance = .affirmed ∨ stance = .denied) :
    ∀ k ∈ plan.stages, (o.checkpoint k).Says stance s → o.Asserts plan.stages stance s := by
  refine hf.induction ?_ ?_
  · intro c hc h
    have hstage : c.chunkId ∈ plan.stages := List.mem_append_left _ (List.mem_map_of_mem hc)
    rcases (says_iff (summary_eq hall hinherits hstage).1 hside).mp h with ⟨child, hchild, -⟩ | hclaim
    · rw [dependencies_chunk hf.nodup hc] at hchild
      cases hchild
    · exact ⟨_, hstage, hclaim⟩
  · intro n hn ih h
    have hstage : n.stageId ∈ plan.stages := List.mem_append_right _ (List.mem_map_of_mem hn)
    rcases (says_iff (summary_eq hall hinherits hstage).1 hside).mp h with ⟨child, hchild, hsays⟩ | hclaim
    · rw [dependencies_reducer hf.nodup hn] at hchild
      obtain ⟨k, hk, rfl⟩ := List.mem_map.mp hchild
      exact ih k hk hsays
    · exact ⟨_, hstage, hclaim⟩

/-- The sides at the root are those that the claims of all stages take. -/
theorem Family.says_root_iff (hside : stance = .affirmed ∨ stance = .denied) :
    (o.checkpoint plan.rootId).Says stance s ↔ o.Asserts plan.stages stance s := by
  constructor
  · exact hf.asserts_of_says hall hinherits hside _ hf.root_mem
  · rintro ⟨k, hk, hclaim⟩
    have hsays := says_own hall hinherits hside hk hclaim
    obtain ⟨r, hr, hpath⟩ := hf.builds.reaches (stages_eq plan ▸ hk)
    rw [← List.mem_singleton.mp hr]
    -- up the path from the stage to the root
    clear hr hk hclaim
    induction hpath with
    | refl => exact hsays
    | tail _ hchild ih =>
      obtain ⟨n, hn, rfl, hmem⟩ := child_iff.mp hchild
      exact ih (hf.says_parent hall hinherits hside hn hmem hsays)

end

/-! ### The contradictions of a digest -/

omit [DecidableEq U] in
theorem mem_contradictionsOf {findings : List (Claim U)} :
    s ∈ (contradictionsOf findings).map Contradiction.subject
      ↔ (∃ c ∈ findings, c.proposes .affirmed s = true) ∧ ∃ c ∈ findings, c.proposes .denied s = true := by
  have hside : ∀ stance, ((findings.filter fun c => c.proposes stance s).map Claim.claimId).isEmpty
      = false ↔ ∃ c ∈ findings, c.proposes stance s = true := by
    intro stance
    rw [← Bool.not_eq_true, List.isEmpty_iff, List.map_eq_nil_iff, List.filter_eq_nil_iff]
    push Not
    rfl
  unfold contradictionsOf
  rw [List.map_map, List.mem_map]
  simp only [Function.comp, exists_eq_right]
  rw [List.mem_filter, Bool.and_eq_true, Bool.not_eq_true', Bool.not_eq_true', hside, hside]
  constructor
  · exact And.right
  · rintro ⟨⟨c, hc, haffirmed⟩, hdenied⟩
    refine ⟨mem_sortedSet.mpr (mem_subjects.mpr ?_), ⟨c, hc, haffirmed⟩, hdenied⟩
    exact ⟨c, hc, .inl haffirmed⟩

/-- The chunks of a plan, as stages. -/
def Plan.leaves (plan : Plan U) : List U := plan.chunks.map AnalysisChunk.chunkId

omit [DecidableEq U] in
theorem asserts_leaves : o.Asserts plan.leaves stance s
    ↔ ∃ c ∈ plan.chunks.flatMap fun c => o.claims c.chunkId, c.proposes stance s = true := by
  simp only [Outcomes.Asserts, Plan.leaves, List.mem_map, List.mem_flatMap]
  constructor
  · rintro ⟨_, ⟨chunk, hchunk, rfl⟩, claim, hclaim, hproposes⟩
    exact ⟨claim, ⟨chunk, hchunk, hclaim⟩, hproposes⟩
  · rintro ⟨claim, ⟨chunk, hchunk, hclaim⟩, hproposes⟩
    exact ⟨_, ⟨chunk, hchunk, rfl⟩, claim, hclaim, hproposes⟩

/-- **The two computations of contradictions.**  Over a plan and a family of checkpoints accepted
stage by stage: the root's propositions have a subject as both affirmed and denied exactly if claims
of stages affirm and deny it, and the root inherits the number of these subjects; `make_digest` lists
exactly the subjects that claims of chunks affirm and deny.  The listed subjects are therefore among
the root's, and the two agree exactly if reducers bring no subject into conflict. -/
theorem contradictions_iff (hc : ids.CollisionFree) (h : buildPlan ids a profile ref = .ok plan)
    (hall : ∀ k ∈ plan.stages, Validated ids parse a plan o k)
    (hinherits : ∀ k ∈ plan.stages, Inherits ids plan o k) :
    (∀ s, s ∈ (o.checkpoint plan.rootId).conflicts
      ↔ o.Asserts plan.stages .affirmed s ∧ o.Asserts plan.stages .denied s)
    ∧ (o.checkpoint plan.rootId).conflicts.Nodup
    ∧ (o.checkpoint plan.rootId).inherited.contradictions
      = (o.checkpoint plan.rootId).conflicts.length
    ∧ ∀ planRef keys more, keys.Perm plan.stages → more.Perm plan.stages →
      ∃ digest, makeDigest ids a plan planRef (o.checkpoints keys) (o.refs more) = .ok digest
        ∧ (∀ s, s ∈ digest.contradictions.map Contradiction.subject
          ↔ o.Asserts plan.leaves .affirmed s ∧ o.Asserts plan.leaves .denied s)
        ∧ (∀ s ∈ digest.contradictions.map Contradiction.subject,
          s ∈ (o.checkpoint plan.rootId).conflicts)
        ∧ ((∀ s, s ∈ (o.checkpoint plan.rootId).conflicts
            ↔ s ∈ digest.contradictions.map Contradiction.subject)
          ↔ ∀ s, o.Asserts plan.stages .affirmed s → o.Asserts plan.stages .denied s →
            o.Asserts plan.leaves .affirmed s ∧ o.Asserts plan.leaves .denied s) := by
  have hplan := buildPlan_ok h
  have hf := hplan.family hc hall
  obtain ⟨hprops, hcount⟩ := summary_eq hall hinherits hf.root_mem
  have hroot : ∀ s, s ∈ (o.checkpoint plan.rootId).conflicts
      ↔ o.Asserts plan.stages .affirmed s ∧ o.Asserts plan.stages .denied s := by
    intro s
    rw [mem_conflicts hprops, hf.says_root_iff hall hinherits (.inl rfl),
      hf.says_root_iff hall hinherits (.inr rfl)]
  have hsub : ∀ k ∈ plan.leaves, k ∈ plan.stages := fun _ hk => List.mem_append_left _ hk
  refine ⟨hroot, conflicts_nodup hprops, hcount, fun planRef keys more hkeys hmore => ?_⟩
  obtain ⟨digest, hdigest, -, hcontradictions, -⟩ := hf.makeDigest_ok hkeys hmore (fun c hcmem p hp =>
    hplan.resolve hc (List.mem_flatMap.mpr ⟨c, hcmem, hp⟩)) planRef
  have hlisted : ∀ s, s ∈ digest.contradictions.map Contradiction.subject
      ↔ o.Asserts plan.leaves .affirmed s ∧ o.Asserts plan.leaves .denied s := by
    intro s
    rw [hcontradictions, mem_contradictionsOf, asserts_leaves, asserts_leaves]
  refine ⟨digest, hdigest, hlisted, fun s hs => ?_, ?_⟩
  · obtain ⟨haffirmed, hdenied⟩ := (hlisted s).mp hs
    exact (hroot s).mpr ⟨haffirmed.mono hsub, hdenied.mono hsub⟩
  · constructor
    · intro hagree s haffirmed hdenied
      exact (hlisted s).mp ((hagree s).mp ((hroot s).mpr ⟨haffirmed, hdenied⟩))
    · intro hleaves s
      rw [hroot, hlisted]
      constructor
      · exact fun hs => hleaves s hs.1 hs.2
      · exact fun hs => ⟨hs.1.mono hsub, hs.2.mono hsub⟩

/-- The theorem applies to the run of the sample, where the root inherits a contradiction. -/
theorem contradictions_iff_sample : (keptRun.checkpoint keptPlan.rootId).inherited.contradictions
    = (keptRun.checkpoint keptPlan.rootId).conflicts.length :=
  (contradictions_iff keptIds_collisionFree buildPlan_kept legacy_validated legacy_inherits).2.2.1

/-- In the run of the sample one reducer affirms "alpha" and the next one denies it: the root has the
conflict, and the digest lists none. -/
theorem contradictions_differ :
    buildPlan keptIds sampleArtifact legacyProfile (sampleRef keep legacyProfile) = .ok keptPlan
      ∧ (∀ k ∈ keptPlan.stages,
        Validated keptIds (sampleParser keptIds) sampleArtifact keptPlan keptRun k)
      ∧ (∀ k ∈ keptPlan.stages, Inherits keptIds keptPlan keptRun k)
      ∧ ∃ digest, makeDigest keptIds sampleArtifact keptPlan keptPlanRef
          (keptRun.checkpoints keptPlan.stages) (keptRun.refs keptPlan.stages) = .ok digest
        ∧ "alpha".toList ∈ (keptRun.checkpoint keptPlan.rootId).conflicts
        ∧ digest.contradictions = [] := by
  refine ⟨buildPlan_kept, legacy_validated, legacy_inherits, ?_⟩
  have hplan := buildPlan_ok buildPlan_kept
  have hf := hplan.family keptIds_collisionFree legacy_validated
  obtain ⟨digest, hdigest, -, hcontradictions, -⟩ := hf.makeDigest_ok (.refl _) (.refl _)
    (fun c hcmem p hp => hplan.resolve keptIds_collisionFree (List.mem_flatMap.mpr ⟨c, hcmem, hp⟩))
    keptPlanRef
  have hroot : (keptRun.checkpoint keptPlan.rootId).propositions = [⟨"alpha".toList, true, true⟩] :=
    sample_summaries.2.2.2.2.2
  refine ⟨digest, hdigest, ?_, hcontradictions.trans rfl⟩
  rw [Checkpoint.conflicts, hroot]
  exact List.mem_singleton.mpr rfl

end Polymind.Digestion
