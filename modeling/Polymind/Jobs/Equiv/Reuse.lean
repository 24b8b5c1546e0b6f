import Polymind.Jobs.Equiv.Fencing
import Polymind.Jobs.Equiv.Machine

/-!
# Checkpoint reuse

* `Inputs`: the input fingerprint of a step is that of the compatibility of its job, its spec and the
  manifests its parents have in its own job;
* `Origin`: the executed step a chain of copies leads to;
* `checkpoint_reuse`: every database of every run has sound checkpoints, and step keys that differ.
-/

namespace Polymind.Jobs

open Relation

variable {U : Type} [DecidableEq U] {env : Env U} {db db' : Ledger U} {now : Time}

/-! ### Checkpoints -/

/-- The states in which a step has its key and its inputs. -/
def StepState.keyed : StepState → Bool
  | .ready | .running | .retryWait | .succeeded => true
  | _ => false

/-- `inputs` is `fingerprint([compatibility, spec, parents])` for the manifests the parents of the step
have in its job, where all of them have succeeded. -/
def Inputs (env : Env U) (db : Ledger U) (r : StepRow U) (inputs : Str) : Prop :=
  ∃ j ∈ db.jobs, j.jobId = r.jobId ∧
    (∀ parent ∈ r.spec.dependsOn, ∃ p ∈ db.stepsOf r.jobId, p.unitId = parent ∧
      p.state = .succeeded) ∧
    inputs = inputFingerprint env j.request r.spec
      (parentManifests db (db.stepsOf r.jobId) r.spec.dependsOn)

/-- `r` was copied from the succeeded step `o`. -/
def CopiedFrom (db : Ledger U) (r o : StepRow U) : Prop :=
  o ∈ db.steps ∧ o.state = .succeeded ∧ r.reusedFrom = some o.stepId

/-- The executed step `o` that the copies of `r` lead back to. -/
structure Origin (env : Env U) (db : Ledger U) (r o : StepRow U) : Prop where
  chain : ReflTransGen (CopiedFrom db) r o
  executed : o.state = .succeeded ∧ o.reusedFrom = none ∧ 0 < o.fence
  spec_eq : o.spec = r.spec
  executionAt_eq : o.executionAt = r.executionAt
  manifest_eq : db.manifest o.stepId = db.manifest r.stepId
  compatibility : ∃ i ∈ db.jobs, ∃ j ∈ db.jobs, i.jobId = o.jobId ∧ j.jobId = r.jobId ∧
    i.request.compatibility env.toIds = j.request.compatibility env.toIds

/-- A unit names one step of a job. -/
def Units (db : Ledger U) : Prop :=
  ∀ r ∈ db.steps, ∀ s ∈ db.steps, r.jobId = s.jobId → r.unitId = s.unitId → r = s

structure Checkpoints (env : Env U) (db : Ledger U) : Prop where
  units : Units db
  keys : (db.steps.map StepRow.stepKey).Nodup
  manifest : ∀ r ∈ db.steps, r.state = .succeeded → ∃ m ∈ db.manifests, m.stepId = r.stepId
  inputs : ∀ r ∈ db.steps, r.state.keyed = true → Inputs env db r r.inputFingerprint
  reused : ∀ r ∈ db.steps, r.reusedFrom.isSome = true → r.state = .succeeded
  origin : ∀ r ∈ db.steps, r.state = .succeeded → ∃ o ∈ db.steps, Origin env db r o

/-! ### How a step got where it is -/

/-- A step has a manifest exactly when it has succeeded, by copying or by an attempt. -/
structure Executed (v : View U) : Prop where
  manifest : v.row.state = .succeeded ↔ v.manifests ≠ []
  running : v.row.state = .running → 0 < v.row.fence
  executed : v.row.state = .succeeded → v.row.reusedFrom = none → 0 < v.row.fence
  reused : v.row.reusedFrom.isSome = true → v.row.state = .succeeded

omit [DecidableEq U] in
theorem Executed.of_fresh {v : View U} (h : Fresh now v) : Executed v := by
  refine ⟨h.copied, fun hs => ?_, fun hs hn => ?_, h.planned.reused.mpr⟩
  · rcases h.planned.state with hc | hc | hc <;> rw [hs] at hc <;> cases hc
  · have := h.planned.reused.mp hs
    rw [hn] at this
    cases this

omit [DecidableEq U] in
/-- Moves between states other than `SUCCEEDED`. -/
theorem Executed.of_open {v v' : View U} (h : Executed v) (hs : v.row.state ≠ .succeeded)
    (hs' : v'.row.state ≠ .succeeded) (hmanifests : v'.manifests = v.manifests)
    (hreused : v'.row.reusedFrom = v.row.reusedFrom)
    (hrun : v'.row.state = .running → 0 < v'.row.fence) : Executed v' := by
  refine ⟨?_, hrun, fun hc => (hs' hc).elim, fun hc => ?_⟩
  · rw [hmanifests, ← h.manifest]
    exact iff_of_false hs' hs
  · rw [hreused] at hc
    exact (hs (h.reused hc)).elim

theorem executed_move {policy : RetryPolicy} {given : StepRow U → Str → Prop} {v v' : View U}
    (h : Executed v) (hm : Move now policy given v v') : Executed v' := by
  cases hm with
  | same => exact h
  | activated key inputs sent hpend _ _ _ =>
    exact h.of_open (by rw [hpend]; decide) (by simp) rfl rfl (by simp)
  | started owner expires hwait _ _ =>
    have hrow : startRow now v.row owner expires v.row = { v.row with
        state := .running, attemptCount := v.row.attemptCount + 1, fence := v.row.fence + 1
        leaseOwner := some owner, leaseExpiresAt := some expires
        startedAt := some (v.row.startedAt.getD now), failureCategory := none } := if_pos rfl
    rw [hrow]
    refine h.of_open ?_ (by simp) rfl rfl fun _ => Nat.succ_pos _
    rcases hwait with hs | hs <;> rw [hs] <;> decide
  | renewed expires hrun =>
    exact h.of_open (by rw [hrun]; decide) (by rw [hrun]; decide) rfl rfl fun _ => h.running hrun
  | retried fault retryAt dispatchId hrun _ _ =>
    have hrow : retryRow v.row retryAt fault.category v.row = { v.row with
        state := .retryWait, notBefore := retryAt, failureCategory := some fault.category
        leaseOwner := none, leaseExpiresAt := none } := if_pos rfl
    rw [hrow]
    exact h.of_open (by rw [hrun]; decide) (by simp) rfl rfl (by simp)
  | failed fault category hrun =>
    exact h.of_open (by rw [hrun]; decide) (by simp [StepRow.failedWith]) rfl rfl
      (by simp [StepRow.failedWith])
  | spent category hwait =>
    refine h.of_open ?_ (by simp [StepRow.failedWith]) rfl rfl (by simp [StepRow.failedWith])
    rcases hwait with hs | hs <;> rw [hs] <;> decide
  | cancelled hact =>
    refine h.of_open (fun hs => ?_) (by simp [StepRow.cancelled]) rfl rfl (by simp [StepRow.cancelled])
    rw [hs] at hact
    cases hact
  | committed lease refs hrun _ _ hnew _ =>
    have hrow : commitRow now v.row.stepId v.row = { v.row with
        state := .succeeded, finishedAt := some now, leaseOwner := none
        leaseExpiresAt := none } := if_pos rfl
    rw [hrow]
    exact ⟨by simp, by simp, fun _ _ => h.running hrun, fun _ => rfl⟩
  | registered ref _ => exact ⟨h.manifest, h.running, h.executed, h.reused⟩
  | notified dispatchId => exact ⟨h.manifest, h.running, h.executed, h.reused⟩
  | delivered dispatchId => exact ⟨h.manifest, h.running, h.executed, h.reused⟩

/-! ### What a move keeps of a row -/

structure RowKeeps (r r' : StepRow U) : Prop where
  unitId : r'.unitId = r.unitId
  spec : r'.spec = r.spec
  executionAt : r'.executionAt = r.executionAt
  reusedFrom : r'.reusedFrom = r.reusedFrom

theorem Move.keeps {policy : RetryPolicy} {given : StepRow U → Str → Prop} {v v' : View U}
    (hm : Move now policy given v v') : RowKeeps v.row v'.row := by
  cases hm with
  | started owner expires _ _ _ =>
    unfold startRow
    rw [if_pos rfl]
    exact ⟨rfl, rfl, rfl, rfl⟩
  | retried fault retryAt dispatchId _ _ _ =>
    unfold retryRow
    rw [if_pos rfl]
    exact ⟨rfl, rfl, rfl, rfl⟩
  | committed lease refs _ _ _ _ _ =>
    unfold commitRow
    rw [if_pos rfl]
    exact ⟨rfl, rfl, rfl, rfl⟩
  | _ => exact ⟨rfl, rfl, rfl, rfl⟩

/-- A step keeps the inputs it has, or is given them. -/
theorem Move.inputs {policy : RetryPolicy} {given : StepRow U → Str → Prop} {v v' : View U}
    (hm : Move now policy given v v') (hk : v'.row.state.keyed = true) :
    (v.row.state.keyed = true ∧ v'.row.inputFingerprint = v.row.inputFingerprint) ∨
      given v.row v'.row.inputFingerprint := by
  cases hm with
  | activated key inputs sent _ hgiven _ _ => exact Or.inr hgiven
  | started owner expires hwait _ _ =>
    refine Or.inl ⟨?_, ?_⟩
    · rcases hwait with hs | hs <;> rw [hs] <;> rfl
    · unfold startRow
      rw [if_pos rfl]
  | retried fault retryAt dispatchId hrun _ _ =>
    refine Or.inl ⟨by rw [hrun]; rfl, ?_⟩
    unfold retryRow
    rw [if_pos rfl]
  | failed => cases hk
  | spent => cases hk
  | cancelled => cases hk
  | committed lease refs hrun _ _ _ _ =>
    refine Or.inl ⟨by rw [hrun]; rfl, ?_⟩
    unfold commitRow
    rw [if_pos rfl]
  | _ => exact Or.inl ⟨hk, rfl⟩

/-! ### Keys and units -/

omit [DecidableEq U] in
theorem nodup_keys_map {l : List (StepRow U)} {f : StepRow U → StepRow U}
    (hf : ∀ r, (f r).stepKey = r.stepKey) (h : (l.map StepRow.stepKey).Nodup) :
    ((l.map f).map StepRow.stepKey).Nodup := by
  rw [List.map_map]
  exact (List.map_congr_left fun r _ => hf r) ▸ h

theorem cancelRow_stepKey (ids : List U) (r : StepRow U) : (cancelRow now ids r).stepKey = r.stepKey := by
  unfold cancelRow
  split <;> rfl

theorem failRow_stepKey (row : StepRow U) (category : Category) (r : StepRow U) :
    (failRow now row category r).stepKey = r.stepKey := by
  unfold failRow
  split
  · rfl
  · split <;> rfl

/-- Only an admission and an activation write step keys, and both check them. -/
theorem keys_transition (hinv : Inv db) (h : (db.steps.map StepRow.stepKey).Nodup)
    (ht : Transition env now db db') : (db'.steps.map StepRow.stepKey).Nodup := by
  cases ht with
  | admitted scan jobId _ row new copies had =>
    obtain ⟨objects, outbox, seq, rfl⟩ := had.result
    exact had.keys h
  | retried scan job row fault retryAt _ _ _ _ =>
    refine nodup_keys_map (fun r => ?_) h
    unfold retryRow
    split <;> rfl
  | failed scan job row fault category _ _ =>
    rw [terminalFailure_eq _ _ _ _ _ _ (by exact hinv.stepIds)]
    exact nodup_keys_map (failRow_stepKey row category) h
  | spent scan job row _ _ =>
    rw [terminalFailure_eq _ _ _ _ _ _ hinv.stepIds]
    exact nodup_keys_map (failRow_stepKey row _) h
  | started scan job row owner expires _ _ _ _ _ =>
    refine nodup_keys_map (fun r => ?_) h
    unfold startRow
    split <;> rfl
  | renewed lease job row expires _ =>
    refine nodup_keys_map (fun r => ?_) h
    unfold renewRow
    split <;> rfl
  | registered =>
    unfold Ledger.insertIntent
    split <;> exact h
  | committed scan lease refs job row db₁ _ _ _ hact =>
    obtain ⟨g, sent, hg⟩ := activate_ok (by exact nodup_commitRow hinv lease.stepId) hact
    apply hg.keys
    refine nodup_keys_map (fun r => ?_) h
    unfold commitRow
    split <;> rfl
  | cancelled scan job _ _ =>
    rw [cancelJob_eq]
    exact nodup_keys_map (cancelRow_stepKey _) h
  | abandoned scan job row _ _ =>
    rw [cancelStep_eq, cancelJob_eq]
    exact nodup_keys_map (cancelRow_stepKey _) (nodup_keys_map (cancelRow_stepKey _) h)
  | settled scan job row _ _ _ _ _ =>
    rw [cancelStep_eq]
    exact nodup_keys_map (cancelRow_stepKey _) h
  | enqueued => exact h
  | delivered => exact h

/-- The units of an ordered plan differ. -/
theorem nodup_of_planOrdered {steps : List StepSpec} {seen : List Str}
    (h : planOrdered seen steps = true) :
    (steps.map StepSpec.unitId).Nodup ∧ ∀ u ∈ steps.map StepSpec.unitId, u ∉ seen := by
  induction steps generalizing seen with
  | nil => exact ⟨List.nodup_nil, by simp⟩
  | cons step steps ih =>
    rw [planOrdered] at h
    simp only [Bool.and_eq_true, Bool.not_eq_true'] at h
    obtain ⟨⟨⟨hfree, -⟩, -⟩, hrest⟩ := h
    obtain ⟨hnodup, hnew⟩ := ih hrest
    have hfree : step.unitId ∉ seen := by
      rw [← List.contains_iff_mem, hfree]
      exact Bool.false_ne_true
    rw [List.map_cons, List.nodup_cons]
    refine ⟨⟨fun hmem => hnew _ hmem (List.mem_cons_self ..), hnodup⟩, fun u hu => ?_⟩
    rcases List.mem_cons.mp hu with rfl | hu
    · exact hfree
    · exact fun hmem => hnew u hu (List.mem_cons_of_mem _ hmem)

/-- The rows of an admission have the units of the plan. -/
theorem Admitted.units {scan : Scan U} {jobId : U} {row : JobRow U} {new : List (StepRow U)}
    {copies : List (ManifestRow U)} (had : Admitted env scan db jobId now db' row new copies) :
    (new.map StepRow.unitId).Nodup := by
  obtain ⟨prior, execution, drafts, rows, g, hp⟩ := had.plans
  have hplan : planOrdered [] row.request.steps = true := by
    have hrules := planRules_of_valid had.valid
    simp only [planRules, Bool.and_eq_true] at hrules
    exact hrules.2
  have hdrafts : drafts.map StepRow.unitId = row.request.steps.map StepSpec.unitId := by
    refine (map_eq_of_forall₂ hp.drafted fun spec r hd => ?_).symm
    obtain ⟨old, heq, -⟩ := hd
    rw [heq]
    rfl
  have hnew : new.map StepRow.unitId = drafts.map StepRow.unitId := by
    rw [hp.new_eq, List.map_map]
    refine List.map_congr_left fun r hr => ?_
    rcases hp.kept hr with ⟨-, hg⟩ | hg <;> rw [Function.comp, hg]
    rfl
  rw [hnew, hdrafts]
  exact (nodup_of_planOrdered hplan).1

theorem units_transition (hs : Sound env db) (h : Units db) (ht : Transition env now db db') :
    Units db' := by
  have hs' := sound_transition hs ht
  have hview := view_transition hs.inv hs.refs ht
  -- a new row and one of before belong to different jobs
  have hapart : ∀ r' s' : StepRow U, Adds env now db db' r' → (∃ s ∈ db.steps, s'.jobId = s.jobId) →
      r'.jobId ≠ s'.jobId := by
    rintro r' s' ⟨-, -, scan, jobId, row, new, copies, had, hr'⟩ ⟨s, hsm, hsj⟩ heq
    rw [(had.planned r' hr').jobId, hsj] at heq
    exact had.rowFresh (heq ▸ hs.inv.owned s hsm)
  intro r' hr' s' hs'm hjob hunit
  rcases hview r' hr' with hr | ⟨r, hr, hrid, hrj, hrm⟩
  · rcases hview s' hs'm with hn | ⟨s, hsm, -, hsj, -⟩
    · obtain ⟨scan, jobId, row, new, copies, had, hmem⟩ := hr.admitted
      obtain ⟨objects, outbox, seq, rfl⟩ := had.result
      have hmem' : s' ∈ new := by
        rcases List.mem_append.mp hs'm with hold | hnew
        · exact absurd (List.mem_map_of_mem hold) hn.new
        · exact hnew
      exact List.inj_on_of_nodup_map had.units hmem hmem' hunit
    · exact absurd hjob (hapart r' s' hr ⟨s, hsm, hsj⟩)
  · rcases hview s' hs'm with hn | ⟨s, hsm, hsid, hsj, hsm'⟩
    · exact absurd hjob.symm (hapart s' r' hn ⟨r, hr, hrj⟩)
    · obtain ⟨j, hj, hjr⟩ := hs.inv.exists_job hr
      have hrs : r.jobId = s.jobId := hrj.symm.trans (hjob.trans hsj)
      have hru : r'.unitId = r.unitId := (hrm j hj hjr).keeps.unitId
      have hsu : s'.unitId = s.unitId := (hsm' j hj (hjr.trans hrs)).keeps.unitId
      have heq : r = s := h r hr s hsm hrs (hru.symm.trans (hunit.trans hsu))
      exact eq_of_stepId_eq hs'.inv.stepIds hr' hs'm (hrid.trans ((congrArg _ heq).trans hsid.symm))

/-! ### What the manifests of parents depend on -/

/-- The row of a unit, among the rows of its job. -/
theorem Units.find (h : Units db) {rows : List (StepRow U)} {p : StepRow U} (hp : p ∈ rows)
    (hrows : ∀ r ∈ rows, r ∈ db.stepsOf p.jobId) :
    rows.find? (fun r => r.unitId = p.unitId) = some p := by
  cases hf : rows.find? fun r => decide (r.unitId = p.unitId) with
  | none => exact absurd (decide_eq_true rfl) (List.find?_eq_none.mp hf p hp)
  | some q =>
    obtain ⟨hq, hqj⟩ := mem_stepsOf.mp (hrows q (List.mem_of_find?_eq_some hf))
    have hunit := List.find?_some hf
    rw [decide_eq_true_eq] at hunit
    exact congrArg some (h q hq p (mem_stepsOf.mp (hrows p hp)).1 hqj hunit)

/-- Rows in which a parent is found give the manifest it has. -/
theorem parentManifests_congr {d : Ledger U} {rows rows' : List (StepRow U)} {parents parents' : List Str}
    (hlen : parents = parents')
    (h : ∀ parent ∈ parents, ∃ p p', rows.find? (fun r => r.unitId = parent) = some p ∧
      rows'.find? (fun r => r.unitId = parent) = some p' ∧ db.manifest p.stepId = d.manifest p'.stepId) :
    parentManifests db rows parents = parentManifests d rows' parents' := by
  subst hlen
  refine List.map_congr_left fun parent hparent => ?_
  obtain ⟨p, p', hp, hp', heq⟩ := h parent hparent
  simp only [hp, hp', heq]

omit [DecidableEq U] in
theorem inputFingerprint_congr {a b : Admission U} {spec spec' : StepSpec}
    {parents parents' : List (List (ObjectRef U))}
    (hc : a.compatibility env.toIds = b.compatibility env.toIds) (hs : spec = spec')
    (hp : parents = parents') :
    inputFingerprint env a spec parents = inputFingerprint env b spec' parents' := by
  unfold inputFingerprint
  rw [hc, hs, hp]

/-- A manifest that is there stays the manifest of its step. -/
theorem manifest_stable (hpre : db.manifests <+: db'.manifests) {id : U}
    (hm : ∃ m ∈ db.manifests, m.stepId = id) : db'.manifest id = db.manifest id := by
  have hsome : (db.manifests.find? fun m => decide (m.stepId = id)).isSome = true := by
    rw [List.find?_isSome]
    obtain ⟨m, hm, hid⟩ := hm
    exact ⟨m, hm, decide_eq_true hid⟩
  obtain ⟨m, hm⟩ := Option.isSome_iff_exists.mp hsome
  unfold Ledger.manifest
  rw [hm, hpre.find?_eq_some hm]

/-- The manifest of a step, where a step has at most one. -/
theorem manifest_eq (hnd : (db.manifests.map ManifestRow.stepId).Nodup) {m : ManifestRow U}
    (hm : m ∈ db.manifests) : db.manifest m.stepId = m.manifest := by
  unfold Ledger.manifest
  cases hf : db.manifests.find? fun n => decide (n.stepId = m.stepId) with
  | none => exact absurd (decide_eq_true rfl) (List.find?_eq_none.mp hf m hm)
  | some n =>
    have hid := List.find?_some hf
    rw [decide_eq_true_eq] at hid
    rw [List.inj_on_of_nodup_map hnd (List.mem_of_find?_eq_some hf) hm hid]

omit [DecidableEq U] in
/-- The rows of succeeded steps stay. -/
theorem Evolves.succeeded (hev : Evolves db db') {p : StepRow U} (hp : p ∈ db.steps)
    (hs : p.state = .succeeded) : p ∈ db'.steps := by
  obtain ⟨p', hp', hpp⟩ := hev.steps p hp
  have hended : p' = p := hpp.ended (by rw [hs]; rfl)
  exact hended ▸ hp'

/-- The inputs of a step stay those of its spec and its parents. -/
theorem Inputs.mono (hev : Evolves db db') (hunits : Units db) (hunits' : Units db')
    (hman : ∀ r ∈ db.steps, r.state = .succeeded → ∃ m ∈ db.manifests, m.stepId = r.stepId)
    {r r' : StepRow U} {inputs : Str} (h : Inputs env db r inputs) (hjob : r'.jobId = r.jobId)
    (hspec : r'.spec = r.spec) : Inputs env db' r' inputs := by
  obtain ⟨j, hj, hjr, hparents, rfl⟩ := h
  obtain ⟨j', hj', hjj⟩ := hev.jobs j hj
  refine ⟨j', hj', hjj.jobId.trans (hjr.trans hjob.symm), ?_, ?_⟩
  · rw [hspec, hjob]
    intro parent hparent
    obtain ⟨p, hp, hunit, hs⟩ := hparents parent hparent
    obtain ⟨hp, hpj⟩ := mem_stepsOf.mp hp
    exact ⟨p, mem_stepsOf.mpr ⟨hev.succeeded hp hs, hpj⟩, hunit, hs⟩
  · refine inputFingerprint_congr (by rw [hjj.request]) hspec.symm
      (parentManifests_congr (by rw [hspec]) fun parent hparent => ?_)
    obtain ⟨p, hp, rfl, hs⟩ := hparents parent hparent
    obtain ⟨hpm, hpj⟩ := mem_stepsOf.mp hp
    have hp' : p ∈ db'.stepsOf r'.jobId :=
      mem_stepsOf.mpr ⟨hev.succeeded hpm hs, hpj.trans hjob.symm⟩
    refine ⟨p, p, hunits.find hp fun x hx => ?_, hunits'.find hp' fun x hx => ?_,
      (manifest_stable hev.manifests (hman p hpm hs)).symm⟩
    · rwa [hpj]
    · rwa [hpj, ← hjob]

/-- What `_activate` computes are the inputs. -/
theorem Inputs.of_given (hunits : Units db) {r r' : StepRow U} {inputs : Str} (h : Given env db r inputs)
    (hjob : r'.jobId = r.jobId) (hspec : r'.spec = r.spec) : Inputs env db r' inputs := by
  obtain ⟨job, hj, hjr, rows, hrows, hdue, rfl⟩ := h
  have hfound : ∀ parent ∈ r.spec.dependsOn, ∃ p ∈ db.stepsOf r.jobId,
      rows.find? (fun r => r.unitId = parent) = some p ∧ p.unitId = parent ∧ p.state = .succeeded := by
    intro parent hparent
    obtain ⟨p, hp, hs⟩ := hdue.parents parent hparent
    have hunit := List.find?_some hp
    rw [decide_eq_true_eq] at hunit
    exact ⟨p, hrows p (List.mem_of_find?_eq_some hp) hs, hp, hunit, hs⟩
  refine ⟨job, hj, hjr.trans hjob.symm, ?_, ?_⟩
  · rw [hspec, hjob]
    intro parent hparent
    obtain ⟨p, hp, -, hunit, hs⟩ := hfound parent hparent
    exact ⟨p, hp, hunit, hs⟩
  · refine inputFingerprint_congr rfl hspec.symm
      (parentManifests_congr (by rw [hspec]) fun parent hparent => ?_)
    obtain ⟨p, hp, hfind, rfl, -⟩ := hfound parent hparent
    have hpj := (mem_stepsOf.mp hp).2
    refine ⟨p, p, hfind, hunits.find (hjob ▸ hp) fun x hx => ?_, rfl⟩
    rwa [hpj, ← hjob]

/-! ### Copied checkpoints -/

/-- The rows an admission may reuse: the succeeded ones of one job with its compatibility. -/
theorem reusableSteps_ok {request : Admission U} {prior : Option (JobRow U)}
    (hprior : priorJob env db request = .ok prior) {o : StepRow U}
    (ho : o ∈ reusableSteps env db request prior) :
    o ∈ db.steps ∧ o.state = .succeeded ∧ ∃ i ∈ db.jobs, prior = some i ∧ i.jobId = o.jobId ∧
      i.request.compatibility env.toIds = request.compatibility env.toIds := by
  unfold reusableSteps at ho
  split at ho
  · cases ho
  · rename_i i
    split at ho
    · rename_i hc
      obtain ⟨ho, hs⟩ := List.mem_filter.mp ho
      obtain ⟨hmem, hjob⟩ := mem_stepsOf.mp ho
      have hi : i ∈ db.jobs := by
        unfold priorJob at hprior
        split at hprior
        · cases hprior
        · obtain ⟨i', hi', heq⟩ := map_eq_ok.mp hprior
          obtain rfl := Option.some.inj heq
          unfold resumed at hi'
          rw [bind_eq_ok] at hi'
          obtain ⟨i'', hfind, hi'⟩ := hi'
          rw [ite_error_eq_ok, ite_error_eq_ok] at hi'
          obtain ⟨-, -, hi'⟩ := hi'
          exact Except.ok.inj hi' ▸ (findJob_ok hfind).1
      exact ⟨hmem, of_decide_eq_true hs, i, hi, rfl, hjob.symm, hc⟩
    · cases ho

/-- What a reused row has of the row `o` of the job `i` it was copied from. -/
structure Copy (env : Env U) (db db' : Ledger U) (request : Admission U) (i : JobRow U)
    (r o : StepRow U) : Prop where
  step : o ∈ db.steps ∧ o.state = .succeeded ∧ o.jobId = i.jobId
  job : i ∈ db.jobs ∧ i.request.compatibility env.toIds = request.compatibility env.toIds
  cols : RowKeeps r { o with reusedFrom := r.reusedFrom }
  inputs : r.inputFingerprint = o.inputFingerprint
  reusedFrom : r.reusedFrom = some o.stepId
  manifest : db'.manifest r.stepId = db.manifest o.stepId

/-- The succeeded rows of an admission are copies of rows of one job, their parents with them. -/
theorem Plans.copy {row : JobRow U} {new drafts rows : List (StepRow U)} {copies : List (ManifestRow U)}
    {prior : Option (JobRow U)} {execution : Time} {g : StepRow U → StepRow U}
    (hp : Plans env db now db' row new copies prior execution drafts rows g)
    (hids : (db.manifests.map ManifestRow.stepId).Nodup)
    (hids' : (db'.manifests.map ManifestRow.stepId).Nodup)
    (hmanifests : db'.manifests = db.manifests ++ copies) {r : StepRow U} (hr : r ∈ new)
    (hs : r.state = .succeeded) : ∃ i o, prior = some i ∧ Copy env db db' row.request i r o ∧
      ∀ parent ∈ r.spec.dependsOn, ∃ p ∈ new, p.unitId = parent ∧ p.state = .succeeded := by
  obtain ⟨-, spec, -, o, heq, hreuse⟩ := hp.copied hr hs
  obtain ⟨hmem, hos, i, hi, hprior, hio, hc⟩ := reusableSteps_ok hp.prior_eq hreuse.mem
  obtain ⟨m, hm, hmo, hcopy⟩ := hreuse.manifest
  have hm : m ∈ db.manifests := hm
  have hcopy : (⟨r.stepId, m.manifest, now, 0⟩ : ManifestRow U) ∈ db'.manifests := by
    rw [hmanifests]
    exact List.mem_append_right _ hcopy
  have hman : db'.manifest r.stepId = db.manifest o.stepId := by
    rw [show r.stepId = (⟨r.stepId, m.manifest, now, 0⟩ : ManifestRow U).stepId from rfl,
      manifest_eq hids' hcopy, ← hmo, manifest_eq hids hm]
  refine ⟨i, o, hprior, ⟨⟨hmem, hos, hio.symm⟩, ⟨hi, hc⟩, ?_, ?_, ?_, hman⟩, ?_⟩
  · rw [heq]
    exact ⟨hreuse.unit_eq, hreuse.spec_eq, rfl, rfl⟩
  · rw [heq]
    rfl
  · rw [heq]
    rfl
  · intro parent hparent
    have hspec : r.spec = spec := by rw [heq]; rfl
    rw [hspec] at hparent
    obtain ⟨p, hpm, hunit, hsome⟩ := hreuse.parents parent hparent
    have hps : p.state = .succeeded := by
      obtain ⟨_, -, hd⟩ := mem_of_forall₂ hp.drafted hpm
      exact hd.planned.reused.mpr hsome
    have hsame : g p = p := hp.rest p hpm fun hdue => by
      rw [hdue.pending] at hps
      cases hps
    refine ⟨p, ?_, hunit, hps⟩
    rw [hp.new_eq]
    exact List.mem_map.mpr ⟨p, hpm, hsame⟩

/-- A copied fingerprint is the fingerprint of the inputs in the new job. -/
theorem Inputs.of_copy (hunits : Units db) (hunits' : Units db') {request : Admission U}
    {i j : JobRow U} {r o : StepRow U} (hids : (db.jobs.map JobRow.jobId).Nodup)
    (hc : Copy env db db' request i r o) (h : Inputs env db o o.inputFingerprint) (hj : j ∈ db'.jobs)
    (hjr : j.jobId = r.jobId) (hrequest : j.request = request)
    (hparents : ∀ parent ∈ r.spec.dependsOn, ∃ p ∈ db'.stepsOf r.jobId, ∃ q, p.unitId = parent ∧
      p.state = .succeeded ∧ Copy env db db' request i p q) :
    Inputs env db' r r.inputFingerprint := by
  obtain ⟨i', hi', hio, -, hinputs⟩ := h
  obtain rfl : i' = i := eq_of_jobId_eq hids hi' hc.job.1 (hio.trans hc.step.2.2)
  have hspec : o.spec = r.spec := hc.cols.spec
  refine ⟨j, hj, hjr, fun parent hparent => ?_, ?_⟩
  · obtain ⟨p, hp, -, hunit, hs, -⟩ := hparents parent hparent
    exact ⟨p, hp, hunit, hs⟩
  · rw [hc.inputs, hinputs]
    refine inputFingerprint_congr (by rw [hrequest, hc.job.2]) hspec ?_
    refine (parentManifests_congr (by rw [hspec]) fun parent hparent => ?_).symm
    -- the parent's row in the new job is a copy of its row in the resumed one
    obtain ⟨p, hp, q, rfl, hs, hq⟩ := hparents parent hparent
    have hpj := (mem_stepsOf.mp hp).2
    have hqj : q.jobId = o.jobId := hq.step.2.2.trans hc.step.2.2.symm
    have hunit : q.unitId = p.unitId := hq.cols.unitId
    refine ⟨p, q, hunits'.find hp fun x hx => ?_, ?_, hq.manifest⟩
    · rwa [hpj]
    · rw [← hunit]
      refine hunits.find (mem_stepsOf.mpr ⟨hq.step.1, hqj⟩) fun x hx => ?_
      rwa [hqj]

/-- The ready rows of an admission were given their inputs. -/
theorem Plans.given {scan : Scan U} {jobId : U} {row : JobRow U} {new drafts rows : List (StepRow U)}
    {copies : List (ManifestRow U)} {prior : Option (JobRow U)} {execution : Time}
    {g : StepRow U → StepRow U} (had : Admitted env scan db jobId now db' row new copies)
    (hp : Plans env db now db' row new copies prior execution drafts rows g) {r : StepRow U}
    (hr : r ∈ new) (hs : r.state = .ready) :
    ∃ r₀, r.jobId = r₀.jobId ∧ r.spec = r₀.spec ∧ Given env db' r₀ r.inputFingerprint := by
  have hnew := hr
  rw [hp.new_eq] at hr
  obtain ⟨r₀, hr₀, rfl⟩ := List.mem_map.mp hr
  have hjob : ∀ p ∈ drafts, p.jobId = row.jobId := by
    intro p hpm
    obtain ⟨_, -, hd⟩ := mem_of_forall₂ hp.drafted hpm
    exact hd.planned.jobId
  rcases hp.kept hr₀ with ⟨hdue, hg⟩ | hg
  · obtain ⟨row', hjobs, hkeeps⟩ := had.jobs_eq
    rw [hg]
    refine ⟨r₀, rfl, rfl, row', ?_, hkeeps.jobId.trans (hjob r₀ hr₀).symm, rows, ?_, hdue, ?_⟩
    · rw [hjobs]
      exact List.mem_append_right _ (List.mem_singleton.mpr rfl)
    · intro p hpm hps
      have hpm := hp.perm.mem_iff.mp hpm
      have hsame : g p = p := hp.rest p hpm fun hd => by
        rw [hd.pending] at hps
        cases hps
      have hpn : p ∈ new := by
        rw [hp.new_eq]
        exact List.mem_map.mpr ⟨p, hpm, hsame⟩
      refine mem_stepsOf.mpr ⟨?_, (hjob p hpm).trans (hjob r₀ hr₀).symm⟩
      obtain ⟨objects, outbox, seq, hd⟩ := had.result
      rw [hd]
      exact List.mem_append_right _ hpn
    · unfold inputsOf
      rw [hkeeps.request]
      rfl
  · -- a draft is not ready before it is activated
    rw [hg] at hs
    obtain ⟨spec, -, old, heq, -⟩ := mem_of_forall₂ hp.drafted hr₀
    rw [heq] at hs
    cases old <;> cases hs

/-! ### Transitions -/

/-- Every keyed step has its inputs. -/
theorem inputs_transition (hs : Sound env db) (hids : (db.manifests.map ManifestRow.stepId).Nodup)
    (hids' : (db'.manifests.map ManifestRow.stepId).Nodup) (h : Checkpoints env db) (hunits' : Units db')
    (ht : Transition env now db db') :
    ∀ r ∈ db'.steps, r.state.keyed = true → Inputs env db' r r.inputFingerprint := by
  have hev := evolves_transition hs.inv ht
  intro r' hr' hk
  rcases view_transition hs.inv hs.refs ht r' hr' with hadd | ⟨r, hr, hid, hjob, hm⟩
  · obtain ⟨scan, jobId, row, new, copies, had, hmem⟩ := hadd.admitted
    obtain ⟨prior, execution, drafts, rows, g, hp⟩ := had.plans
    obtain ⟨row', hjobs, hkeeps⟩ := had.jobs_eq
    have hmanifests : db'.manifests = db.manifests ++ copies := by
      obtain ⟨objects, outbox, seq, hd⟩ := had.result
      rw [hd]
      rfl
    have hsteps : ∀ p ∈ new, p ∈ db'.steps := by
      obtain ⟨objects, outbox, seq, hd⟩ := had.result
      rw [hd]
      exact fun p hpm => List.mem_append_right _ hpm
    rcases (had.planned r' hmem).state with hst | hst | hst
    · rw [hst] at hk
      cases hk
    · obtain ⟨r₀, hj₀, hs₀, hgiven⟩ := Plans.given had hp hmem hst
      exact Inputs.of_given hunits' hgiven hj₀ hs₀
    · -- a copied step
      obtain ⟨i, o, hprior, hc, hparents⟩ := hp.copy hids hids' hmanifests hmem hst
      have hjr : row'.jobId = r'.jobId :=
        hkeeps.jobId.trans (had.rowId.trans (had.planned r' hmem).jobId.symm)
      refine Inputs.of_copy h.units hunits' hs.inv.jobIds hc (h.inputs o hc.step.1 ?_) ?_ hjr
        hkeeps.request ?_
      · rw [hc.step.2.1]
        rfl
      · rw [hjobs]
        exact List.mem_append_right _ (List.mem_singleton.mpr rfl)
      · intro parent hparent
        obtain ⟨p, hpm, hunit, hps⟩ := hparents parent hparent
        obtain ⟨i', q, hprior', hq, -⟩ := hp.copy hids hids' hmanifests hpm hps
        obtain rfl : i' = i := Option.some.inj (hprior'.symm.trans hprior)
        refine ⟨p, mem_stepsOf.mpr ⟨hsteps p hpm, ?_⟩, q, hunit, hps, hq⟩
        rw [(had.planned p hpm).jobId, (had.planned r' hmem).jobId]
  · obtain ⟨j, hj, hjr⟩ := hs.inv.exists_job hr
    have hm := hm j hj hjr
    have hspec : r'.spec = r.spec := hm.keeps.spec
    rcases hm.inputs hk with ⟨hk₀, heq⟩ | hgiven
    · have heq : r'.inputFingerprint = r.inputFingerprint := heq
      rw [heq]
      exact (h.inputs r hr hk₀).mono hev h.units hunits' h.manifest hjob hspec
    · exact Inputs.of_given hunits' hgiven hjob hspec

/-- A chain of copies and the step it leads to stay. -/
theorem Origin.mono (hev : Evolves db db')
    (hman : ∀ r ∈ db.steps, r.state = .succeeded → ∃ m ∈ db.manifests, m.stepId = r.stepId)
    {r o : StepRow U} (hr : r ∈ db.steps) (hrs : r.state = .succeeded) (ho : o ∈ db.steps)
    (h : Origin env db r o) : Origin env db' r o := by
  have hcopied : ∀ a b, CopiedFrom db a b → CopiedFrom db' a b :=
    fun _ _ hab => ⟨hev.succeeded hab.1 hab.2.1, hab.2⟩
  have hchain : ReflTransGen (CopiedFrom db') r o := ReflTransGen.mono hcopied r o h.chain
  refine ⟨hchain, h.executed, h.spec_eq, h.executionAt_eq, ?_, ?_⟩
  · rw [manifest_stable hev.manifests (hman o ho h.executed.1),
      manifest_stable hev.manifests (hman r hr hrs), h.manifest_eq]
  · obtain ⟨i, hi, j, hj, hio, hjr, hc⟩ := h.compatibility
    obtain ⟨i', hi', hii⟩ := hev.jobs i hi
    obtain ⟨j', hj', hjj⟩ := hev.jobs j hj
    refine ⟨i', hi', j', hj', hii.jobId.trans hio, hjj.jobId.trans hjr, ?_⟩
    rw [hii.request, hjj.request, hc]

/-- Every succeeded step leads back to an executed one. -/
theorem origin_transition (hs : Sound env db) (hids : (db.manifests.map ManifestRow.stepId).Nodup)
    (hids' : (db'.manifests.map ManifestRow.stepId).Nodup) (h : Checkpoints env db)
    (hex : AllViews (fun _ => Executed) db) (hex' : AllViews (fun _ => Executed) db')
    (ht : Transition env now db db') :
    ∀ r ∈ db'.steps, r.state = .succeeded → ∃ o ∈ db'.steps, Origin env db' r o := by
  have hev := evolves_transition hs.inv ht
  intro r' hr' hst
  obtain ⟨j', hj', hjr'⟩ := (sound_transition hs ht).inv.exists_job hr'
  have hexr := hex' r' hr' j' hj' hjr'
  rcases view_transition hs.inv hs.refs ht r' hr' with hadd | ⟨r, hr, hid, hjob, hm⟩
  · -- the row was copied from one that leads back
    obtain ⟨scan, jobId, row, new, copies, had, hmem⟩ := hadd.admitted
    obtain ⟨prior, execution, drafts, rows, g, hp⟩ := had.plans
    obtain ⟨row', hjobs, hkeeps⟩ := had.jobs_eq
    have hmanifests : db'.manifests = db.manifests ++ copies := by
      obtain ⟨objects, outbox, seq, hd⟩ := had.result
      rw [hd]
      rfl
    obtain ⟨i, o, -, hc, -⟩ := hp.copy hids hids' hmanifests hmem hst
    obtain ⟨x, hx, hox⟩ := h.origin o hc.step.1 hc.step.2.1
    have hox' := hox.mono hev h.manifest hc.step.1 hc.step.2.1 hx
    have hom : db'.manifest o.stepId = db.manifest o.stepId :=
      manifest_stable hev.manifests (h.manifest o hc.step.1 hc.step.2.1)
    refine ⟨x, hev.succeeded hx hox.executed.1, ⟨?_, hox.executed, ?_, ?_, ?_, ?_⟩⟩
    · exact .head ⟨hev.succeeded hc.step.1 hc.step.2.1, hc.step.2.1, hc.reusedFrom⟩ hox'.chain
    · exact hox.spec_eq.trans hc.cols.spec
    · exact hox.executionAt_eq.trans hc.cols.executionAt
    · rw [hox'.manifest_eq, hom, hc.manifest]
    · obtain ⟨a, ha, b, hb, hax, hbo, hab⟩ := hox'.compatibility
      obtain ⟨i', hi', hii⟩ := hev.jobs i hc.job.1
      obtain rfl : b = i' := eq_of_jobId_eq (sound_transition hs ht).inv.jobIds hb hi'
        (hbo.trans (hc.step.2.2.trans hii.jobId.symm))
      refine ⟨a, ha, row', ?_, hax, ?_, ?_⟩
      · rw [hjobs]
        exact List.mem_append_right _ (List.mem_singleton.mpr rfl)
      · exact hkeeps.jobId.trans (had.rowId.trans (had.planned r' hmem).jobId.symm)
      · rw [hab, hii.request, hc.job.2, hkeeps.request]
  · obtain ⟨j, hj, hjr⟩ := hs.inv.exists_job hr
    have hm := hm j hj hjr
    by_cases hrs : r.state = .succeeded
    · obtain ⟨r₁, hr₁, hev₁⟩ := hev.steps r hr
      have hsame : r₁ = r := hev₁.ended (by rw [hrs]; rfl)
      obtain rfl : r = r' := by
        refine eq_of_stepId_eq (sound_transition hs ht).inv.stepIds (hsame ▸ hr₁) hr' hid.symm
      obtain ⟨x, hx, hrx⟩ := h.origin r hr hrs
      exact ⟨x, hev.succeeded hx hrx.executed.1, hrx.mono hev h.manifest hr hrs hx⟩
    · -- the step has just been committed: it is its own origin
      have hnone : r'.reusedFrom = none := by
        have hkeep : r'.reusedFrom = r.reusedFrom := hm.keeps.reusedFrom
        rw [hkeep, ← Option.not_isSome_iff_eq_none]
        exact fun hsome => hrs ((hex r hr j hj hjr).reused hsome)
      exact ⟨r', hr', ⟨.refl, ⟨hst, hnone, hexr.executed hst hnone⟩, rfl, rfl, rfl, j', hj', j', hj',
        hjr', hjr', rfl⟩⟩

/-! ### The main result -/

theorem Sound.executed (hs : Sound env db) (hex : AllViews (fun _ => Executed) db) :
    (∀ r ∈ db.steps, r.state = .succeeded → ∃ m ∈ db.manifests, m.stepId = r.stepId) ∧
    ∀ r ∈ db.steps, r.reusedFrom.isSome = true → r.state = .succeeded := by
  refine ⟨fun r hr hst => ?_, fun r hr hsome => ?_⟩
  · obtain ⟨j, hj, hjr⟩ := hs.inv.exists_job hr
    obtain ⟨m, hm⟩ := List.exists_mem_of_ne_nil _ ((hex r hr j hj hjr).manifest.mp hst)
    obtain ⟨hm, hid⟩ := List.mem_filter.mp hm
    exact ⟨m, hm, of_decide_eq_true hid⟩
  · obtain ⟨j, hj, hjr⟩ := hs.inv.exists_job hr
    exact (hex r hr j hj hjr).reused hsome

theorem checkpoints_transition (hs : Sound env db) (hf : Fenced db) (hf' : Fenced db')
    (hex : AllViews (fun _ => Executed) db) (hex' : AllViews (fun _ => Executed) db')
    (h : Checkpoints env db) (ht : Transition env now db db') : Checkpoints env db' := by
  have hunits := units_transition hs h.units ht
  obtain ⟨hman, hreused⟩ := (sound_transition hs ht).executed hex'
  exact ⟨hunits, keys_transition hs.inv h.keys ht, hman,
    inputs_transition hs hf.manifestIds hf'.manifestIds h hunits ht, hreused,
    origin_transition hs hf.manifestIds hf'.manifestIds h hex hex' ht⟩

/-- Checkpoint reuse is sound in every database of every history of calls: an activated or succeeded
step, copied or not, has the fingerprint of the inputs it has in its own job; a copied step leads back
to an executed one with its spec, manifest and execution time, in a job with the same compatibility;
and no two steps have the same key. -/
theorem checkpoint_reuse (env : Env U) (calls : List (Call U)) :
    Checkpoints env (Ledger.empty.exec env calls) := by
  have hempty : Checkpoints env (Ledger.empty : Ledger U) := by
    refine ⟨?_, List.nodup_nil, ?_, ?_, ?_, ?_⟩ <;> intro r hr <;> cases hr
  refine (exec_sound (fun d => Fenced d ∧ AllViews (fun _ => Executed) d ∧ Checkpoints env d) ?_ calls
    Sound.empty ⟨Fenced.empty, (fun _ hr => nomatch hr), hempty⟩).2.2.2
  intro now db db' hs ⟨hf, hex, h⟩ ht
  have hf' := fenced_transition hs.inv hf ht
  have hex' := allViews_transition hs.inv hs.refs hs.valid (fun _ _ _ => Executed.of_fresh)
    (fun _ _ _ _ _ hv hm => executed_move hv hm) hex ht
  exact ⟨hf', hex', checkpoints_transition hs hf hf' hex hex' h ht⟩

end Polymind.Jobs
