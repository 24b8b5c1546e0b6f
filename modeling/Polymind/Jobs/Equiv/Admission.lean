import Polymind.Jobs.Equiv.Tables

/-!
# What an admission inserts

`admitJob_spec`: an `admit` that does not find an earlier job with its key appends one job and the
rows of its steps, which are `SUCCEEDED` when reused and `PENDING` or `READY` otherwise, together
with the manifests it copies, and leaves every other row as it was.
-/

namespace Polymind.Jobs

variable {U : Type} [DecidableEq U] {env : Env U} {db db' : Ledger U}

theorem planRules_of_valid {a : Admission U} (h : a.valid env.toIds = true) :
    planRules a.steps = true := by
  simp only [Admission.valid, Bool.and_eq_true] at h
  exact h.2

omit [DecidableEq U] in
theorem one_le_of_planRules {steps : List StepSpec} (h : planRules steps = true) :
    1 ≤ steps.length := by
  simp only [planRules, Bool.and_eq_true, decide_eq_true_eq] at h
  exact h.1.1

theorem insertJob_ok {row : JobRow U} (h : db.insertJob row = .ok db') :
    db' = { db with jobs := db.jobs ++ [row] } ∧ row.jobId ∉ db.jobs.map JobRow.jobId := by
  unfold Ledger.insertJob at h
  rw [ite_error_eq_ok] at h
  obtain ⟨hany, h⟩ := h
  refine ⟨(Except.ok.inj h).symm, ?_⟩
  intro hmem
  obtain ⟨j, hj, hid⟩ := List.mem_map.mp hmem
  exact hany (List.any_eq_true.mpr ⟨j, hj, by simp [hid]⟩)

theorem insertStep_ok {row : StepRow U} (h : db.insertStep row = .ok db') :
    db' = { db with steps := db.steps ++ [row] } ∧ row.stepId ∉ db.steps.map StepRow.stepId ∧
      row.stepKey ∉ db.steps.map StepRow.stepKey := by
  unfold Ledger.insertStep at h
  rw [ite_error_eq_ok] at h
  obtain ⟨hany, h⟩ := h
  refine ⟨(Except.ok.inj h).symm, fun hmem => ?_, fun hmem => ?_⟩
  · obtain ⟨r, hr, hid⟩ := List.mem_map.mp hmem
    exact hany (List.any_eq_true.mpr ⟨r, hr, by simp [hid]⟩)
  · obtain ⟨r, hr, hkey⟩ := List.mem_map.mp hmem
    exact hany (List.any_eq_true.mpr ⟨r, hr, by simp [hkey]⟩)

/-- The rows of `manifest_objects` that belong to a manifest. -/
def ManifestRow.objects (m : ManifestRow U) : List (U × U) :=
  m.manifest.map fun ref => (m.stepId, ref.key)

theorem insertManifest_ok {row : ManifestRow U} (h : db.insertManifest row = .ok db') :
    db' = { db with manifests := db.manifests ++ [row]
                    manifestObjects := db.manifestObjects ++ row.objects } ∧
    row.stepId ∉ db.manifests.map ManifestRow.stepId := by
  unfold Ledger.insertManifest at h
  simp only [ite_error_eq_ok, Except.ok.injEq, Bool.or_eq_true, not_or] at h
  obtain ⟨⟨hany, -⟩, h⟩ := h
  refine ⟨h.symm, ?_⟩
  intro hmem
  obtain ⟨m, hm, hid⟩ := List.mem_map.mp hmem
  exact hany (List.any_eq_true.mpr ⟨m, hm, by simp [hid]⟩)

/-! ### Drafts -/

/-- A step row as `admit` plans it: never attempted, and `SUCCEEDED` exactly when reused. -/
structure Planned (jobId : U) (r : StepRow U) : Prop where
  jobId : r.jobId = jobId
  state : r.state = .pending ∨ r.state = .ready ∨ r.state = .succeeded
  fence : r.fence = 0
  attemptCount : r.attemptCount = 0
  leaseOwner : r.leaseOwner = none
  leaseExpiresAt : r.leaseExpiresAt = none
  startedAt : r.startedAt = none
  reused : r.state = .succeeded ↔ r.reusedFrom.isSome = true

omit [DecidableEq U] in
theorem planned_plannedStep {request : Admission U} {jobId runId stepId : U} {generation : Nat}
    {execution now : Time} {spec : StepSpec} {old : Option (StepRow U)} :
    Planned jobId
      (plannedStep env request jobId runId stepId generation execution now spec old) := by
  cases old with
  | none => exact ⟨rfl, Or.inl rfl, rfl, rfl, rfl, rfl, rfl, by simp [plannedStep]⟩
  | some o => exact ⟨rfl, Or.inr (Or.inr rfl), rfl, rfl, rfl, rfl, rfl, by simp [plannedStep]⟩

/-- The row `o` that `admit` reuses for `spec`, with the manifest it copies.  The parents of `spec` are
reused as well. -/
structure Reuses (db : Ledger U) (reusable drafts : List (StepRow U)) (copies : List (ManifestRow U))
    (now : Time) (spec : StepSpec) (r o : StepRow U) : Prop where
  mem : o ∈ reusable
  unit_eq : o.unitId = spec.unitId
  spec_eq : o.spec = spec
  parents : ∀ parent ∈ spec.dependsOn, ∃ p ∈ drafts, p.unitId = parent ∧ p.reusedFrom.isSome = true
  manifest : ∃ m ∈ db.manifests, m.stepId = o.stepId ∧ ⟨r.stepId, m.manifest, now, 0⟩ ∈ copies

/-- The row that the loop of `admit` inserts for `spec`. -/
def Draft (env : Env U) (row : JobRow U) (reusable : List (StepRow U)) (execution now : Time)
    (db : Ledger U) (drafts : List (StepRow U)) (copies : List (ManifestRow U)) (spec : StepSpec)
    (r : StepRow U) : Prop :=
  ∃ old : Option (StepRow U), r = plannedStep env row.request row.jobId row.runId r.stepId
      row.generation execution now spec old
    ∧ ∀ o ∈ old, Reuses db reusable drafts copies now spec r o

omit [DecidableEq U] in
theorem Reuses.mono {reusable drafts drafts' : List (StepRow U)} {copies copies' : List (ManifestRow U)}
    {now : Time} {spec : StepSpec} {r o : StepRow U} (h : Reuses db reusable drafts copies now spec r o)
    (hdrafts : ∀ p ∈ drafts, p ∈ drafts') (hcopies : ∀ m ∈ copies, m ∈ copies') :
    Reuses db reusable drafts' copies' now spec r o := by
  refine ⟨h.mem, h.unit_eq, h.spec_eq, fun parent hparent => ?_, ?_⟩
  · obtain ⟨p, hp, hrest⟩ := h.parents parent hparent
    exact ⟨p, hdrafts p hp, hrest⟩
  · obtain ⟨m, hm, hid, hcopy⟩ := h.manifest
    exact ⟨m, hm, hid, hcopies _ hcopy⟩

omit [DecidableEq U] in
theorem Draft.planned {row : JobRow U} {reusable : List (StepRow U)} {execution now : Time}
    {drafts : List (StepRow U)} {copies : List (ManifestRow U)} {spec : StepSpec} {r : StepRow U}
    (h : Draft env row reusable execution now db drafts copies spec r) : Planned row.jobId r := by
  obtain ⟨old, hr, -⟩ := h
  rw [hr]
  exact planned_plannedStep

/-- What the loop of `admit` has inserted so far, for the steps `specs`. -/
structure Inserted (env : Env U) (row : JobRow U) (reusable : List (StepRow U)) (execution now : Time)
    (db : Ledger U) (specs : List StepSpec) (new : List (StepRow U)) (copies : List (ManifestRow U))
    (s : AdmitLoop U) : Prop where
  steps : s.db.steps = db.steps ++ new
  manifests : s.db.manifests = db.manifests ++ copies
  objects : s.db.manifestObjects = db.manifestObjects ++ copies.flatMap ManifestRow.objects
  rest : s.db = { db with steps := s.db.steps, manifests := s.db.manifests
                          manifestObjects := s.db.manifestObjects }
  drafts : List.Forall₂ (Draft env row reusable execution now db new copies) specs new
  units : ∀ u ∈ s.copied, ∃ p ∈ new, p.unitId = u ∧ p.reusedFrom.isSome = true
  owned : ∀ m ∈ copies, m.fence = 0 ∧ ∃ r ∈ new, r.stepId = m.stepId ∧ r.reusedFrom.isSome = true
  fresh : ∀ r ∈ new, r.stepId ∉ db.steps.map StepRow.stepId
  nodup : (db.steps.map StepRow.stepId).Nodup → (s.db.steps.map StepRow.stepId).Nodup
  keys : (db.steps.map StepRow.stepKey).Nodup → (s.db.steps.map StepRow.stepKey).Nodup
  manifestIds : (db.manifests.map ManifestRow.stepId).Nodup →
    (s.db.manifests.map ManifestRow.stepId).Nodup

theorem nodup_concat_of_not_mem {α β : Type} {f : α → β} {l : List α} {a : α}
    (hl : (l.map f).Nodup) (ha : f a ∉ l.map f) : ((l ++ [a]).map f).Nodup := by
  rw [List.map_append, List.map_singleton, List.nodup_append]
  refine ⟨hl, List.nodup_singleton _, ?_⟩
  rintro x hx y hy rfl
  rw [List.mem_singleton.mp hy] at hx
  exact ha hx

omit [DecidableEq U] in
/-- The drafts of earlier steps stay drafts when another one is added. -/
theorem forall₂_concat {row : JobRow U} {reusable : List (StepRow U)} {execution now : Time}
    {specs : List StepSpec} {new : List (StepRow U)} {copies copies' : List (ManifestRow U)}
    {spec : StepSpec} {r : StepRow U}
    (h : List.Forall₂ (Draft env row reusable execution now db new copies) specs new)
    (hcopies : ∀ m ∈ copies, m ∈ copies')
    (hr : Draft env row reusable execution now db (new ++ [r]) copies' spec r) :
    List.Forall₂ (Draft env row reusable execution now db (new ++ [r]) copies') (specs ++ [spec])
      (new ++ [r]) := by
  refine List.rel_append ?_ (.cons hr .nil)
  refine h.imp fun spec' r' hdraft => ?_
  obtain ⟨old, hplanned, hreuse⟩ := hdraft
  exact ⟨old, hplanned, fun o ho =>
    (hreuse o ho).mono (fun p hp => List.mem_append_left _ hp) hcopies⟩

section

variable {row : JobRow U} {reusable : List (StepRow U)} {execution now : Time} {fresh : Nat → U}

/-- One iteration of the loop of `admit`. -/
theorem admitStep_inserted {specs : List StepSpec} {s t : AdmitLoop U} {spec : StepSpec}
    {new : List (StepRow U)} {copies : List (ManifestRow U)} (hreusable : ∀ o ∈ reusable, o ∈ db.steps)
    (hs : Inserted env row reusable execution now db specs new copies s)
    (h : admitStep env row.request reusable row.jobId row.runId fresh row.generation execution now s
      spec = .ok t) :
    ∃ r copies', Inserted env row reusable execution now db (specs ++ [spec]) (new ++ [r]) copies' t := by
  unfold admitStep at h
  simp only [bind_eq_ok] at h
  obtain ⟨d, hd, h⟩ := h
  obtain ⟨rfl, hid, hkey⟩ := insertStep_ok hd
  -- the row of the step, and the row it reuses
  generalize hold : ((reusable.find? fun r => r.unitId = spec.unitId).filter fun o =>
      decide (o.spec = spec) && spec.dependsOn.all s.copied.contains) = old at h hid hkey
  set r := plannedStep env row.request row.jobId row.runId (fresh s.drawn) row.generation execution now
    spec old with hr
  have hsteps : s.db.steps ++ [r] = db.steps ++ (new ++ [r]) := by
    rw [hs.steps, List.append_assoc]
  have hnew : r.stepId ∉ db.steps.map StepRow.stepId := by
    rw [hs.steps, List.map_append] at hid
    exact fun hmem => hid (List.mem_append_left _ hmem)
  have hfresh : ∀ x ∈ new ++ [r], x.stepId ∉ db.steps.map StepRow.stepId := by
    intro x hx
    rcases List.mem_append.mp hx with hx | hx
    · exact hs.fresh x hx
    · rw [List.mem_singleton.mp hx]
      exact hnew
  have hnodup : (db.steps.map StepRow.stepId).Nodup →
      ((s.db.steps ++ [r]).map StepRow.stepId).Nodup :=
    fun hnd => nodup_concat_of_not_mem (hs.nodup hnd) hid
  have hkeys : (db.steps.map StepRow.stepKey).Nodup →
      ((s.db.steps ++ [r]).map StepRow.stepKey).Nodup :=
    fun hnd => nodup_concat_of_not_mem (hs.keys hnd) hkey
  have hunits : ∀ u ∈ s.copied, ∃ p ∈ new ++ [r], p.unitId = u ∧ p.reusedFrom.isSome = true := by
    intro u hu
    obtain ⟨p, hp, hrest⟩ := hs.units u hu
    exact ⟨p, List.mem_append_left _ hp, hrest⟩
  have howned : ∀ m ∈ copies, m.fence = 0 ∧
      ∃ x ∈ new ++ [r], x.stepId = m.stepId ∧ x.reusedFrom.isSome = true := by
    intro m hm
    obtain ⟨hfence, x, hx, hrest⟩ := hs.owned m hm
    exact ⟨hfence, x, List.mem_append_left _ hx, hrest⟩
  split at h
  · -- the step is planned anew
    obtain rfl := Except.ok.inj h
    have hdraft : Draft env row reusable execution now db (new ++ [r]) copies spec r :=
      ⟨none, hr, by simp⟩
    refine ⟨r, copies, ⟨hsteps, hs.manifests, hs.objects, ?_, forall₂_concat hs.drafts (fun _ hm => hm)
      hdraft, hunits, howned, hfresh, hnodup, hkeys, hs.manifestIds⟩⟩
    rw [hs.rest]
  · -- the step is reused
    rename_i o
    rw [Option.filter_eq_some_iff] at hold
    obtain ⟨hfind, hok⟩ := hold
    simp only [Bool.and_eq_true, decide_eq_true_eq, List.all_eq_true, List.contains_iff_mem] at hok
    have hmem := List.mem_of_find?_eq_some hfind
    have hunit := List.find?_some hfind
    rw [decide_eq_true_eq] at hunit
    split at h
    · cases h
    · rename_i prior hprior
      simp only [bind_eq_ok] at h
      obtain ⟨d', hd', h⟩ := h
      obtain ⟨rfl, hmid⟩ := insertManifest_ok hd'
      obtain rfl := Except.ok.inj h
      have hpid := List.find?_some hprior
      rw [decide_eq_true_eq] at hpid
      -- the manifest that is copied was there before the admission
      have hpmem : prior ∈ db.manifests := by
        have hpm := List.mem_of_find?_eq_some hprior
        rw [hs.manifests] at hpm
        rcases List.mem_append.mp hpm with hpm | hpm
        · exact hpm
        · obtain ⟨-, x, hx, hxid, -⟩ := hs.owned prior hpm
          refine absurd ?_ (hs.fresh x hx)
          rw [hxid, hpid]
          exact List.mem_map_of_mem (hreusable o hmem)
      have hdraft : Draft env row reusable execution now db (new ++ [r])
          (copies ++ [⟨fresh s.drawn, prior.manifest, now, 0⟩]) spec r := by
        refine ⟨some o, hr, fun o' ho' => ?_⟩
        obtain rfl := Option.some.inj ho'
        refine ⟨hmem, hunit, hok.1, fun parent hparent => hunits parent (hok.2 parent hparent),
          prior, hpmem, hpid, List.mem_append_right _ (List.mem_singleton.mpr rfl)⟩
      refine ⟨r, copies ++ [⟨fresh s.drawn, prior.manifest, now, 0⟩], ⟨hsteps, ?_, ?_, ?_,
        forall₂_concat hs.drafts (fun _ hm => List.mem_append_left _ hm) hdraft, ?_, ?_, hfresh, hnodup,
        hkeys, ?_⟩⟩
      · simp only [hs.manifests, List.append_assoc]
      · simp only [hs.objects, List.append_assoc, List.flatMap_append, List.flatMap_singleton]
      · rw [hs.rest]
      · intro u hu
        rcases List.mem_cons.mp hu with rfl | hu
        · exact ⟨r, List.mem_append_right _ (List.mem_singleton.mpr rfl), rfl, rfl⟩
        · exact hunits u hu
      · intro m hm
        rcases List.mem_append.mp hm with hm | hm
        · exact howned m hm
        · rw [List.mem_singleton.mp hm]
          exact ⟨rfl, r, List.mem_append_right _ (List.mem_singleton.mpr rfl), rfl, rfl⟩
      · exact fun hnd => nodup_concat_of_not_mem (hs.manifestIds hnd) hmid

/-- The loop of `admit` inserts one drafted row for each requested step. -/
theorem admitLoop_inserted {specs : List StepSpec} {t : AdmitLoop U}
    (hreusable : ∀ o ∈ reusable, o ∈ db.steps)
    (h : specs.foldlM (admitStep env row.request reusable row.jobId row.runId fresh row.generation
      execution now) ⟨db, [], 0⟩ = .ok t) :
    ∃ new copies, Inserted env row reusable execution now db specs new copies t := by
  refine foldlM_ok_prefix (fun done s => ∃ new copies,
    Inserted env row reusable execution now db done new copies s) h ?_ ?_
  · refine ⟨[], [], ⟨?_, ?_, ?_, rfl, .nil, ?_, ?_, ?_, id, id, id⟩⟩ <;> simp
  · rintro done spec s t - ⟨new, copies, hs⟩ ht
    obtain ⟨r, copies', hr⟩ := admitStep_inserted hreusable hs ht
    exact ⟨new ++ [r], copies', hr⟩

end

/-! ### The admission of a job -/

/-- How an admission came to the rows it inserts: from the job it resumes, the drafts of the requested
steps, and their activation. -/
structure Plans (env : Env U) (db : Ledger U) (now : Time) (db' : Ledger U) (row : JobRow U)
    (new : List (StepRow U)) (copies : List (ManifestRow U)) (prior : Option (JobRow U))
    (execution : Time) (drafts rows : List (StepRow U)) (g : StepRow U → StepRow U) : Prop where
  prior_eq : priorJob env db row.request = .ok prior
  row_eq : row = plannedJob env db row.request row.jobId row.runId prior now
  execution_eq : nextExecution { db with jobs := db.jobs ++ [row] } row.scope row.versionId now
    = .ok execution
  drafted : List.Forall₂ (Draft env row (reusableSteps env db row.request prior) execution now
    { db with jobs := db.jobs ++ [row] } drafts copies) row.request.steps drafts
  new_eq : new = drafts.map g
  perm : rows.Perm drafts
  due : ∀ r ∈ drafts, Due rows r → g r = readyRow env row db' rows r
  rest : ∀ r ∈ drafts, ¬Due rows r → g r = r

/-- What an admission of a new job leaves behind. -/
structure Admitted (env : Env U) (scan : Scan U) (db : Ledger U) (jobId : U) (now : Time)
    (db' : Ledger U) (row : JobRow U) (new : List (StepRow U)) (copies : List (ManifestRow U)) :
    Prop where
  result : ∃ objects outbox seq, db' = refresh scan { db with
    jobs := db.jobs ++ [row], steps := db.steps ++ new, manifests := db.manifests ++ copies
    manifestObjects := objects, outbox := outbox, outboxSeq := seq } jobId now
  rowId : row.jobId = jobId
  rowFresh : jobId ∉ db.jobs.map JobRow.jobId
  rowState : row.state = .queued ∧ row.cancelRequested = false
  valid : row.request.valid env.toIds = true
  unclaimed : ∀ j ∈ db.jobs, ¬(j.scope = row.scope ∧ j.requestKey = row.requestKey)
  plans : ∃ prior execution drafts rows g,
    Plans env db now db' row new copies prior execution drafts rows g
  planned : ∀ r ∈ new, Planned jobId r
  nonempty : new ≠ []
  nodup : ((db.steps ++ new).map StepRow.stepId).Nodup
  keys : (db.steps.map StepRow.stepKey).Nodup → ((db.steps ++ new).map StepRow.stepKey).Nodup
  objects : db'.manifestObjects = db.manifestObjects ++ copies.flatMap ManifestRow.objects
  announced : ∃ sent, db'.outbox = db.outbox ++ sent
    ∧ (∀ o ∈ sent, o.availableAt = now ∧ o.deliveredAt = none ∧ ∃ r ∈ new, r.stepId = o.stepId)
    ∧ ∀ r ∈ new, r.state = .ready → ∃ o ∈ sent, o.stepId = r.stepId
  copied : ∀ m ∈ copies, m.fence = 0
  owned : ∀ m ∈ copies, ∃ r ∈ new, r.stepId = m.stepId ∧ r.state = .succeeded
  manifestIds : (db.manifests.map ManifestRow.stepId).Nodup →
    ((db.manifests ++ copies).map ManifestRow.stepId).Nodup

omit [DecidableEq U] in
theorem planned_of_activated {jobId : U} {r r' : StepRow U} (h : Planned jobId r)
    (ha : Activated jobId r r') : Planned jobId r' := by
  rcases ha with rfl | ⟨-, hpend, key, inputs, rfl⟩
  · exact h
  · refine ⟨h.jobId, Or.inr (Or.inl rfl), h.fence, h.attemptCount, h.leaseOwner, h.leaseExpiresAt,
      h.startedAt, ?_⟩
    rw [← h.reused, hpend]
    simp

omit [DecidableEq U] in
theorem stepId_of_activated {jobId : U} {r r' : StepRow U} (ha : Activated jobId r r') :
    r'.stepId = r.stepId := by
  rcases ha with rfl | ⟨-, -, key, inputs, rfl⟩ <;> rfl

theorem reusable_mem {request : Admission U} {prior : Option (JobRow U)} :
    ∀ o ∈ reusableSteps env db request prior, o ∈ db.steps := by
  intro o ho
  unfold reusableSteps at ho
  split at ho
  · cases ho
  · split at ho
    · exact (mem_stepsOf.mp (List.mem_filter.mp ho).1).1
    · cases ho

/-- The manifests the parents of a step have only depend on the table of manifests. -/
theorem readyRow_congr {d d' : Ledger U} (h : d.manifests = d'.manifests) (job : JobRow U)
    (rows : List (StepRow U)) (r : StepRow U) : readyRow env job d rows r = readyRow env job d' rows r := by
  have hman : d.manifest = d'.manifest := by
    funext stepId
    unfold Ledger.manifest
    rw [h]
  unfold readyRow inputsOf parentManifests
  rw [hman]

/-- `admit` either returns the job it already has, or inserts a new one. -/
theorem admitJob_spec {scan : Scan U} {request : Admission U} {jobId runId : U} {fresh : Nat → U}
    {now : Time} {job : JobRow U} (hnd : (db.steps.map StepRow.stepId).Nodup)
    (howned : ∀ r ∈ db.steps, r.jobId ∈ db.jobs.map JobRow.jobId)
    (h : admitJob env scan request jobId runId fresh now db = .ok (job, db')) :
    db' = db ∨ ∃ row new copies, row.request = request ∧
      Admitted env scan db jobId now db' row new copies := by
  unfold admitJob at h
  simp only [ite_error_eq_ok] at h
  obtain ⟨hvalid, h⟩ := h
  split at h
  · -- the key is known
    rw [ite_error_eq_ok] at h
    cases h.2
    exact Or.inl rfl
  · rename_i hkey
    right
    simp only [bind_eq_ok] at h
    obtain ⟨prior, hprior, inserted, hd, execution, hexec, loop, hloop, job₁, hjob₁, d', hact, job₂, -,
      h⟩ := h
    obtain ⟨rfl, hfresh⟩ := insertJob_ok hd
    have hvalid : request.valid env.toIds = true := by simpa using hvalid
    set row := plannedJob env db request jobId runId prior now with hrow
    have hfresh : jobId ∉ db.jobs.map JobRow.jobId := hfresh
    obtain ⟨drafts, copies, hins⟩ : ∃ drafts copies, Inserted env row
        (reusableSteps env db request prior) execution now { db with jobs := db.jobs ++ [row] }
        request.steps drafts copies loop :=
      admitLoop_inserted reusable_mem hloop
    have hloopnd : (loop.db.steps.map StepRow.stepId).Nodup := hins.nodup hnd
    obtain ⟨g, sent, hg⟩ := activate_ok hloopnd hact
    have hjobs : loop.db.jobs = db.jobs ++ [row] := by rw [hins.rest]
    -- the job that is activated is the new one, and its rows are the drafts
    obtain rfl : job₁ = row := by
      obtain ⟨hmem, hid, -⟩ := findJob_ok hjob₁
      rw [hjobs] at hmem
      rcases List.mem_append.mp hmem with hmem | hmem
      · exact absurd (hid ▸ List.mem_map_of_mem hmem) hfresh
      · exact List.mem_singleton.mp hmem
    have hplanned : ∀ r ∈ drafts, Planned jobId r := fun r hr =>
      (mem_of_forall₂ hins.drafts hr).elim fun _ hd => hd.2.planned
    have hrows : loop.db.stepsOf jobId = drafts := by
      rw [Ledger.stepsOf, hins.steps, List.filter_append, List.filter_eq_nil_iff.mpr,
        List.filter_eq_self.mpr, List.nil_append]
      · exact fun r hr => decide_eq_true (hplanned r hr).jobId
      · exact fun r hr hd => hfresh (of_decide_eq_true hd ▸ howned r hr)
    have hg' := hg
    rw [show row.jobId = jobId from rfl, hrows] at hg
    have hperm := scan.perm drafts
    have hact : ∀ r ∈ loop.db.steps, Activated jobId r (g r) := by
      intro r hr
      by_cases hdue : r ∈ scan.order drafts ∧ Due (scan.order drafts) r
      · exact Or.inr ⟨(hplanned r (hperm.mem_iff.mp hdue.1)).jobId, hdue.2.pending, _, _,
          hg.due r hdue.1 hdue.2⟩
      · exact Or.inl (hg.rest r hr hdue)
    have hmem : ∀ r ∈ drafts, r ∈ loop.db.steps := fun r hr => by
      rw [hins.steps]
      exact List.mem_append_right _ hr
    have hold : db.steps.map g = db.steps := by
      refine (List.map_congr_left fun r hr => ?_).trans (List.map_id _)
      refine hg.rest r (by rw [hins.steps]; exact List.mem_append_left _ hr) fun hc => ?_
      exact hfresh ((hplanned r (hperm.mem_iff.mp hc.1)).jobId ▸ howned r hr)
    have hsteps : loop.db.steps.map g = db.steps ++ drafts.map g := by
      rw [hins.steps, List.map_append]
      exact congrArg (· ++ _) hold
    simp only [Except.ok.injEq, Prod.mk.injEq] at h
    have hresult : d' = { db with
        jobs := db.jobs ++ [row], steps := db.steps ++ drafts.map g
        manifests := db.manifests ++ copies, manifestObjects := loop.db.manifestObjects
        outbox := db.outbox ++ sent, outboxSeq := db.outboxSeq + sent.length } := by
      rw [hg.result, hsteps, hins.rest]
      simp only [hins.manifests]
    have hdb' : db' = refresh scan d' jobId now := h.2.symm
    have hmanifests : loop.db.manifests = db'.manifests := by
      rw [hdb', hresult]
      exact hins.manifests
    refine ⟨row, drafts.map g, copies, rfl, ?_⟩
    refine
      { result := ⟨loop.db.manifestObjects, db.outbox ++ sent, db.outboxSeq + sent.length, ?_⟩
        rowId := rfl, rowFresh := hfresh, rowState := ⟨rfl, rfl⟩, valid := hvalid
        unclaimed := ?_, plans := ⟨prior, execution, drafts, scan.order drafts, g, ?_⟩, planned := ?_
        nonempty := ?_, nodup := ?_, keys := ?_, objects := ?_, announced := ⟨sent, ?_, ?_, ?_⟩
        copied := fun m hm => (hins.owned m hm).1, owned := ?_, manifestIds := ?_ }
    · rw [hdb', hresult]
    · intro j hj hc
      rw [List.find?_eq_none] at hkey
      refine hkey j hj ?_
      rw [Bool.and_eq_true]
      exact ⟨decide_eq_true hc.1, decide_eq_true hc.2⟩
    · refine ⟨hprior, hrow, hexec, hins.drafts, rfl, hperm, fun r hr hdue => ?_, fun r hr hdue => ?_⟩
      · rw [hg.due r (hperm.mem_iff.mpr hr) hdue, readyRow_congr hmanifests]
      · exact hg.rest r (hmem r hr) fun hc => hdue hc.2
    · intro r hr
      obtain ⟨r₀, hr₀, rfl⟩ := List.mem_map.mp hr
      exact planned_of_activated (hplanned r₀ hr₀) (hact r₀ (hmem r₀ hr₀))
    · -- the plan rules demand at least one step
      intro hnil
      have hrules : 1 ≤ request.steps.length := one_le_of_planRules (planRules_of_valid hvalid)
      have hlen : request.steps.length = drafts.length := hins.drafts.length_eq
      rw [List.map_eq_nil_iff] at hnil
      rw [hlen, hnil, List.length_nil] at hrules
      omega
    · rw [← hsteps, List.map_map]
      have : loop.db.steps.map (StepRow.stepId ∘ g) = loop.db.steps.map StepRow.stepId :=
        List.map_congr_left fun r hr => stepId_of_activated (hact r hr)
      rw [this]
      exact hloopnd
    · intro hk
      have := hg.keys (hins.keys hk)
      rwa [hresult] at this
    · rw [hdb', hresult]
      exact hins.objects
    · rw [hdb', hresult]
      rfl
    · intro o ho
      obtain ⟨h1, h2, r, hr, -, hid⟩ := hg.sent o ho
      refine ⟨h1, h2, g r, List.mem_map_of_mem (hperm.mem_iff.mp hr), ?_⟩
      rw [stepId_of_activated (hact r (hmem r (hperm.mem_iff.mp hr))), hid]
    · intro r hr hready
      obtain ⟨r₀, hr₀, rfl⟩ := List.mem_map.mp hr
      have hdue : Due (scan.order drafts) r₀ := by
        by_contra hnot
        rw [hg.rest r₀ (hmem r₀ hr₀) fun hc => hnot hc.2] at hready
        obtain ⟨spec, -, old, hdraft, -⟩ := mem_of_forall₂ hins.drafts hr₀
        rw [hdraft] at hready
        cases old <;> cases hready
      obtain ⟨o, ho, hid⟩ := hg.announced r₀ (hperm.mem_iff.mpr hr₀) hdue
      exact ⟨o, ho, hid.trans (stepId_of_activated (hact r₀ (hmem r₀ hr₀))).symm⟩
    · intro m hm
      obtain ⟨-, r, hr, hid, hsome⟩ := hins.owned m hm
      have hs := (hplanned r hr).reused.mpr hsome
      have hsame : g r = r := hg.rest r (hmem r hr) fun hc => by
        rw [hc.2.pending] at hs
        cases hs
      exact ⟨g r, List.mem_map_of_mem hr, by rw [hsame, hid], by rw [hsame, hs]⟩
    · intro hm
      have := hins.manifestIds hm
      rwa [hins.manifests] at this

end Polymind.Jobs
