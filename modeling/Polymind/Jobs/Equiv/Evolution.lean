import Polymind.Jobs.Equiv.Invariant

/-!
# What never changes and what only grows

`Evolves db db'`: no row of `db` is lost in `db'`; identities, requests and the committed manifests
are kept, fences only grow, a step regains `RUNNING` only with a larger fence, a step that has
ended and a job that is terminal keep their rows for ever.  `evolves_transition`: every transition
is such an evolution.  `jobs_transition`: it updates the jobs there are, or admits one.
-/

namespace Polymind.Jobs

variable {U : Type} [DecidableEq U] {env : Env U} {db db' db'' : Ledger U} {now : Time}

structure StepEvolves (r r' : StepRow U) : Prop where
  stepId : r'.stepId = r.stepId
  jobId : r'.jobId = r.jobId
  unitId : r'.unitId = r.unitId
  spec : r'.spec = r.spec
  fence : r.fence ≤ r'.fence
  running : r'.fence = r.fence → r'.state = .running →
    r.state = .running ∧ r'.leaseOwner = r.leaseOwner
  ended : r.state.active = false → r' = r

structure JobEvolves (j j' : JobRow U) : Prop where
  jobId : j'.jobId = j.jobId
  scope : j'.scope = j.scope
  requestKey : j'.requestKey = j.requestKey
  fingerprint : j'.fingerprint = j.fingerprint
  request : j'.request = j.request
  cancel : j.cancelRequested = true → j'.cancelRequested = true
  terminal : j.state.terminal = true → j' = j

structure AttemptEvolves (a a' : AttemptRow U) : Prop where
  stepId : a'.stepId = a.stepId
  number : a'.number = a.number
  worker : a'.worker = a.worker
  fence : a'.fence = a.fence
  startedAt : a'.startedAt = a.startedAt

structure Evolves (db db' : Ledger U) : Prop where
  steps : ∀ r ∈ db.steps, ∃ r' ∈ db'.steps, StepEvolves r r'
  jobs : ∀ j ∈ db.jobs, ∃ j' ∈ db'.jobs, JobEvolves j j'
  attempts : ∀ a ∈ db.attempts, ∃ a' ∈ db'.attempts, AttemptEvolves a a'
  manifests : db.manifests <+: db'.manifests

/-! ### A preorder -/

omit [DecidableEq U] in
theorem StepEvolves.refl (r : StepRow U) : StepEvolves r r :=
  ⟨rfl, rfl, rfl, rfl, Nat.le_refl _, fun _ h => ⟨h, rfl⟩, fun _ => rfl⟩

omit [DecidableEq U] in
theorem StepEvolves.trans {r s t : StepRow U} (h : StepEvolves r s) (h' : StepEvolves s t) :
    StepEvolves r t := by
  refine ⟨h'.stepId.trans h.stepId, h'.jobId.trans h.jobId, h'.unitId.trans h.unitId,
    h'.spec.trans h.spec, h.fence.trans h'.fence, ?_, ?_⟩
  · intro hfence hrun
    -- the fence cannot have grown and come back
    have h1 := h.fence
    have h2 := h'.fence
    obtain ⟨hs, howner⟩ := h'.running (by omega) hrun
    obtain ⟨hr, howner'⟩ := h.running (by omega) hs
    exact ⟨hr, howner.trans howner'⟩
  · intro ha
    have hs := h.ended ha
    rw [← hs] at ha
    rw [h'.ended ha, hs]

omit [DecidableEq U] in
theorem JobEvolves.refl (j : JobRow U) : JobEvolves j j :=
  ⟨rfl, rfl, rfl, rfl, rfl, fun h => h, fun _ => rfl⟩

omit [DecidableEq U] in
theorem JobEvolves.trans {i j k : JobRow U} (h : JobEvolves i j) (h' : JobEvolves j k) :
    JobEvolves i k := by
  refine ⟨h'.jobId.trans h.jobId, h'.scope.trans h.scope, h'.requestKey.trans h.requestKey,
    h'.fingerprint.trans h.fingerprint, h'.request.trans h.request, fun hc => h'.cancel (h.cancel hc),
    ?_⟩
  intro ht
  have hj := h.terminal ht
  rw [← hj] at ht
  rw [h'.terminal ht, hj]

omit [DecidableEq U] in
theorem AttemptEvolves.refl (a : AttemptRow U) : AttemptEvolves a a := ⟨rfl, rfl, rfl, rfl, rfl⟩

omit [DecidableEq U] in
theorem AttemptEvolves.trans {a b c : AttemptRow U} (h : AttemptEvolves a b)
    (h' : AttemptEvolves b c) : AttemptEvolves a c :=
  ⟨h'.stepId.trans h.stepId, h'.number.trans h.number, h'.worker.trans h.worker,
    h'.fence.trans h.fence, h'.startedAt.trans h.startedAt⟩

omit [DecidableEq U] in
theorem Evolves.refl (db : Ledger U) : Evolves db db :=
  ⟨fun r hr => ⟨r, hr, .refl r⟩, fun j hj => ⟨j, hj, .refl j⟩, fun a ha => ⟨a, ha, .refl a⟩,
    List.prefix_refl _⟩

omit [DecidableEq U] in
theorem Evolves.trans (h : Evolves db db') (h' : Evolves db' db'') : Evolves db db'' := by
  refine ⟨?_, ?_, ?_, h.manifests.trans h'.manifests⟩
  · intro r hr
    obtain ⟨s, hs, hrs⟩ := h.steps r hr
    obtain ⟨t, ht, hst⟩ := h'.steps s hs
    exact ⟨t, ht, hrs.trans hst⟩
  · intro i hi
    obtain ⟨j, hj, hij⟩ := h.jobs i hi
    obtain ⟨k, hk, hjk⟩ := h'.jobs j hj
    exact ⟨k, hk, hij.trans hjk⟩
  · intro a ha
    obtain ⟨b, hb, hab⟩ := h.attempts a ha
    obtain ⟨c, hc, hbc⟩ := h'.attempts b hb
    exact ⟨c, hc, hab.trans hbc⟩

/-! ### What happens to one row -/

omit [DecidableEq U] in
/-- An active step that leaves `RUNNING`, or was waiting and still is. -/
theorem StepEvolves.of_active {r r' : StepRow U} (hact : r.state.active = true)
    (hids : r'.stepId = r.stepId ∧ r'.jobId = r.jobId ∧ r'.unitId = r.unitId ∧ r'.spec = r.spec)
    (hfence : r.fence ≤ r'.fence) (hrun : r'.state = .running → r.fence < r'.fence) :
    StepEvolves r r' := by
  refine ⟨hids.1, hids.2.1, hids.2.2.1, hids.2.2.2, hfence, ?_, ?_⟩
  · intro he hs
    have := hrun hs
    omega
  · intro hf
    rw [hact] at hf
    cases hf

theorem stepEvolves_cancelRow {stepIds : List U} {r : StepRow U}
    (h : r.stepId ∈ stepIds → r.state.active = true) : StepEvolves r (cancelRow now stepIds r) := by
  unfold cancelRow
  split
  · rename_i hm
    exact .of_active (h hm) ⟨rfl, rfl, rfl, rfl⟩ (Nat.le_refl _) (by simp [StepRow.cancelled])
  · exact .refl r

theorem stepEvolves_failRow {row r : StepRow U} {category : Category}
    (h : r.stepId = row.stepId → r.state.active = true) :
    StepEvolves r (failRow now row category r) := by
  unfold failRow
  split
  · rename_i hid
    exact .of_active (h hid) ⟨rfl, rfl, rfl, rfl⟩ (Nat.le_refl _) (by simp [StepRow.failedWith])
  · split
    · rename_i hs
      exact .of_active hs.2 ⟨rfl, rfl, rfl, rfl⟩ (Nat.le_refl _) (by simp [StepRow.cancelled])
    · exact .refl r

theorem attemptEvolves_cancelAttempt {stepIds : List U} (a : AttemptRow U) :
    AttemptEvolves a (cancelAttempt now stepIds a) := by
  unfold cancelAttempt
  split
  · exact ⟨rfl, rfl, rfl, rfl, rfl⟩
  · exact .refl a

theorem attemptEvolves_closeAttempt {row : StepRow U} {fault : SanitizedFailure} {outcome : Outcome}
    {notBefore : Option Time} (a : AttemptRow U) :
    AttemptEvolves a (closeAttempt now row fault outcome notBefore a) := by
  unfold closeAttempt
  split
  · exact ⟨rfl, rfl, rfl, rfl, rfl⟩
  · exact .refl a

theorem attemptEvolves_commitAttempt {lease : Lease U} (a : AttemptRow U) :
    AttemptEvolves a (commitAttempt now lease a) := by
  unfold commitAttempt
  split
  · exact ⟨rfl, rfl, rfl, rfl, rfl⟩
  · exact .refl a

omit [DecidableEq U] in
theorem attempts_map {k : AttemptRow U → AttemptRow U} (hk : ∀ a, AttemptEvolves a (k a))
    {l : List (AttemptRow U)} : ∀ a ∈ l, ∃ a' ∈ l.map k, AttemptEvolves a a' :=
  fun a ha => ⟨k a, List.mem_map_of_mem ha, hk a⟩

omit [DecidableEq U] in
theorem attempts_same {l m : List (AttemptRow U)} : ∀ a ∈ l, ∃ a' ∈ l ++ m, AttemptEvolves a a' :=
  fun a ha => ⟨a, List.mem_append_left _ ha, .refl a⟩

/-! ### The transitions -/

/-- Statements on the rows of one job that is not terminal, followed by `_refresh`. -/
theorem evolves_refresh {J : U} {g : StepRow U → StepRow U} {f : JobRow U → JobRow U} {d : Ledger U}
    (scan : Scan U) (hsteps : d.steps = db.steps.map g) (hjobs : d.jobs = db.jobs.map f)
    (hattempts : ∀ a ∈ db.attempts, ∃ a' ∈ d.attempts, AttemptEvolves a a')
    (hmanifests : db.manifests <+: d.manifests) (hg : ∀ r ∈ db.steps, StepEvolves r (g r))
    (hother : ∀ j, j.jobId ≠ J → f j = j)
    (hJ : ∀ j ∈ db.jobs, j.jobId = J → j.state.terminal = false)
    (hf : ∀ j, (f j).jobId = j.jobId ∧ (f j).scope = j.scope ∧ (f j).requestKey = j.requestKey ∧
      (f j).fingerprint = j.fingerprint ∧ (f j).request = j.request ∧
      (j.cancelRequested = true → (f j).cancelRequested = true)) :
    Evolves db (refresh scan d J now) := by
  refine ⟨?_, ?_, hattempts, hmanifests⟩
  · intro r hr
    refine ⟨g r, ?_, hg r hr⟩
    show g r ∈ d.steps
    rw [hsteps]
    exact List.mem_map_of_mem hr
  · intro j hj
    rw [refresh_eq, hjobs]
    simp only [List.map_map, List.mem_map, Function.comp]
    refine ⟨_, ⟨j, hj, rfl⟩, ?_⟩
    obtain ⟨h1, h2, h3, h4, h5, h6⟩ := hf j
    by_cases hid : j.jobId = J
    · have hid' : (f j).jobId = J := h1.trans hid
      rw [if_pos hid']
      refine ⟨h1, h2, h3, h4, h5, h6, fun ht => ?_⟩
      rw [hJ j hj hid] at ht
      cases ht
    · have hfj := hother j hid
      rw [if_neg (by rw [hfj]; exact hid), hfj]
      exact .refl j

theorem onLive_not_terminal (h : Inv db) {job : JobRow U} {row : StepRow U}
    (hl : OnLive db job row) : ∀ j ∈ db.jobs, j.jobId = row.jobId → j.state.terminal = false := by
  intro j hj hid
  rw [hl.job_eq h hj hid]
  exact hl.not_terminal

omit [DecidableEq U] in
theorem id_keeps (j : JobRow U) : (id j).jobId = j.jobId ∧ (id j).scope = j.scope ∧
    (id j).requestKey = j.requestKey ∧ (id j).fingerprint = j.fingerprint ∧
    (id j).request = j.request ∧ (j.cancelRequested = true → (id j).cancelRequested = true) :=
  ⟨rfl, rfl, rfl, rfl, rfl, fun h => h⟩

theorem evolves_terminalFailure (h : Inv db) (scan : Scan U) {job : JobRow U} {row : StepRow U}
    (hl : OnLive db job row) (hact : row.state.active = true) {k : AttemptRow U → AttemptRow U}
    (hk : ∀ a, AttemptEvolves a (k a)) (now : Time) (category : Category)
    (classification : Classification) : Evolves db (refresh scan (terminalFailure scan { db with attempts := db.attempts.map k } row
      category classification now) row.jobId now) := by
  rw [terminalFailure_eq scan { db with attempts := db.attempts.map k } row category classification
    now h.stepIds]
  refine evolves_refresh scan (g := failRow now row category) rfl rfl ?_ (List.prefix_refl _) ?_ ?_
    (onLive_not_terminal h hl) ?_
  · intro a ha
    exact ⟨_, List.mem_map_of_mem (List.mem_map_of_mem ha),
      (hk a).trans (attemptEvolves_cancelAttempt _)⟩
  · intro r hr
    refine stepEvolves_failRow fun hid => ?_
    rw [eq_of_stepId_eq h.stepIds hr hl.row_mem hid]
    exact hact
  · exact fun j hne => if_neg hne
  · intro j
    split <;> exact ⟨rfl, rfl, rfl, rfl, rfl, fun h => h⟩

theorem evolves_committed (h : Inv db) (scan : Scan U) {lease : Lease U}
    {refs : List (ObjectRef U)} {job : JobRow U} {row : StepRow U} {db₁ : Ledger U}
    (hc : checkLease env db lease now false = .ok (job, row))
    (hact : activate env scan (recordCommit now lease refs db) job now = .ok db₁) :
    Evolves db (refresh scan db₁ lease.jobId now) := by
  obtain ⟨hl, hrun, hsid, hrj⟩ := onLive_of_checkLease hc
  have hnd : ((recordCommit now lease refs db).steps.map StepRow.stepId).Nodup :=
    nodup_commitRow h lease.stepId
  obtain ⟨g, outbox, seq, rfl, hg⟩ := activate_spec hnd hact
  rw [← hrj]
  refine evolves_refresh scan (g := g ∘ commitRow now lease.stepId) (f := id) (List.map_map ..)
    (List.map_id _).symm (attempts_map attemptEvolves_commitAttempt) ?_ ?_ (fun _ _ => rfl)
    (onLive_not_terminal h hl) id_keeps
  · exact List.prefix_append _ _
  · intro r hr
    have hcommit : StepEvolves r (commitRow now lease.stepId r) := by
      unfold commitRow
      split
      · rename_i hid
        refine .of_active ?_ ⟨rfl, rfl, rfl, rfl⟩ (Nat.le_refl _) (by simp)
        rw [eq_of_stepId_eq h.stepIds hr hl.row_mem (hid.trans hsid.symm), hrun]
        rfl
      · exact .refl r
    refine hcommit.trans ?_
    simp only [Function.comp]
    rcases hg _ (List.mem_map_of_mem hr) with he | ⟨-, hpend, key, inputs, he⟩
    · rw [he]
      exact .refl _
    · rw [he]
      exact .of_active (by rw [hpend]; rfl) ⟨rfl, rfl, rfl, rfl⟩ (Nat.le_refl _) (by simp)

/-- Every transition is an evolution. -/
theorem evolves_transition (h : Inv db) (ht : Transition env now db db') : Evolves db db' := by
  cases ht with
  | admitted scan jobId _ row new copies ha =>
    obtain ⟨objects, outbox, seq, rfl⟩ := ha.result
    refine ⟨fun r hr => ⟨r, List.mem_append_left _ hr, .refl r⟩, ?_,
      fun a ha => ⟨a, ha, .refl a⟩, List.prefix_append _ _⟩
    intro j hj
    refine ⟨j, ?_, .refl j⟩
    rw [refresh_eq]
    refine List.mem_map.mpr ⟨j, List.mem_append_left _ hj, if_neg fun hid => ?_⟩
    exact ha.rowFresh (hid ▸ List.mem_map_of_mem hj)
  | retried scan job row fault retryAt hl hrun _ _ =>
    refine evolves_refresh scan (g := retryRow row retryAt fault.category) (f := id) rfl
      (List.map_id _).symm (attempts_map attemptEvolves_closeAttempt) (List.prefix_refl _) ?_
      (fun _ _ => rfl) (onLive_not_terminal h hl) id_keeps
    intro r hr
    unfold retryRow
    split
    · rename_i hid
      rw [eq_of_stepId_eq h.stepIds hr hl.row_mem hid]
      exact .of_active (by rw [hrun]; rfl) ⟨rfl, rfl, rfl, rfl⟩ (Nat.le_refl _) (by simp)
    · exact .refl r
  | failed scan job row fault category hl hrun =>
    exact evolves_terminalFailure h scan hl (by rw [hrun]; rfl) attemptEvolves_closeAttempt now
      category fault.classification
  | spent scan job row hl hwait =>
    have hev := evolves_terminalFailure h scan hl (waiting_active hwait) AttemptEvolves.refl now
      .retryExhausted .nonRetryable
    rwa [List.map_id'] at hev
  | started scan job row owner expires hl hwait _ _ _ =>
    refine evolves_refresh scan (g := startRow now row owner expires) (f := id) rfl
      (List.map_id _).symm attempts_same (List.prefix_refl _) ?_ (fun _ _ => rfl)
      (onLive_not_terminal h hl) id_keeps
    intro r hr
    unfold startRow
    split
    · rename_i hid
      rw [eq_of_stepId_eq h.stepIds hr hl.row_mem hid]
      exact .of_active (waiting_active hwait) ⟨rfl, rfl, rfl, rfl⟩ (Nat.le_succ _)
        fun _ => Nat.lt_succ_self _
    · exact .refl r
  | renewed lease job row expires hc =>
    obtain ⟨hl, hrun, hsid, -⟩ := onLive_of_checkLease hc
    refine ⟨fun r hr => ⟨_, List.mem_map_of_mem hr, ?_⟩, fun j hj => ⟨j, hj, .refl j⟩,
      fun a ha => ⟨a, ha, .refl a⟩, List.prefix_refl _⟩
    unfold renewRow
    split
    · rename_i hid
      have hrow := eq_of_stepId_eq h.stepIds hr hl.row_mem (hid.trans hsid.symm)
      refine ⟨rfl, rfl, rfl, rfl, Nat.le_refl _, fun _ hs => ⟨hs, rfl⟩, fun ha => ?_⟩
      rw [hrow, hrun] at ha
      cases ha
    · exact .refl r
  | registered lease job row ref _ =>
    unfold Ledger.insertIntent
    split
    · exact .refl db
    · exact ⟨fun r hr => ⟨r, hr, .refl r⟩, fun j hj => ⟨j, hj, .refl j⟩,
        fun a ha => ⟨a, ha, .refl a⟩, List.prefix_refl _⟩
  | committed scan lease refs job row db₁ hc _ _ hact => exact evolves_committed h scan hc hact
  | cancelled scan job hjob hterm =>
    rw [cancelJob_eq]
    refine evolves_refresh scan rfl rfl (attempts_map attemptEvolves_cancelAttempt)
      (List.prefix_refl _) ?_ (fun j hne => if_neg hne) ?_ ?_
    · intro r hr
      refine stepEvolves_cancelRow fun hm => ?_
      rw [StepState.active, ((mem_selected h.stepIds hr).mp hm).2, Bool.true_or]
    · intro j hj hid
      rw [eq_of_jobId_eq h.jobIds hj hjob hid]
      exact hterm
    · intro j
      split
      · exact ⟨rfl, rfl, rfl, rfl, rfl, fun _ => rfl⟩
      · exact ⟨rfl, rfl, rfl, rfl, rfl, fun h => h⟩
  | abandoned scan job row hl hrun =>
    rw [cancelStep_eq, cancelJob_eq, hl.owner]
    refine evolves_refresh scan (List.map_map ..) rfl ?_ (List.prefix_refl _) ?_
      (fun j hne => if_neg hne) (hl.owner ▸ onLive_not_terminal h hl) ?_
    · intro a ha
      exact ⟨_, List.mem_map_of_mem (List.mem_map_of_mem ha),
        (attemptEvolves_cancelAttempt a).trans (attemptEvolves_cancelAttempt _)⟩
    · intro r hr
      by_cases hw : r.jobId = job.jobId ∧ r.state.waiting = true
      · refine .of_active ?_ ?_ ?_ ?_
        · rw [StepState.active, hw.2, Bool.true_or]
        all_goals
          simp only [Function.comp, cancelRow, mem_selected h.stepIds hr, if_pos hw]
          split <;> simp [StepRow.cancelled]
      · have hsame : cancelRow now (selected db job.jobId fun r => r.state.waiting) r = r := by
          simp only [cancelRow, mem_selected h.stepIds hr, if_neg hw]
        simp only [Function.comp, hsame]
        refine stepEvolves_cancelRow fun hid => ?_
        rw [List.mem_singleton] at hid
        rw [eq_of_stepId_eq h.stepIds hr hl.row_mem hid, hrun]
        rfl
    · intro j
      split
      · exact ⟨rfl, rfl, rfl, rfl, rfl, fun _ => rfl⟩
      · exact ⟨rfl, rfl, rfl, rfl, rfl, fun h => h⟩
  | settled scan job row hjob hrow howner hrun _ =>
    have hact : row.state.active = true := by rw [hrun]; rfl
    rw [cancelStep_eq]
    refine evolves_refresh scan (f := id) rfl (List.map_id _).symm
      (attempts_map attemptEvolves_cancelAttempt) (List.prefix_refl _) ?_ (fun _ _ => rfl) ?_ id_keeps
    · intro r hr
      refine stepEvolves_cancelRow fun hid => ?_
      rw [List.mem_singleton] at hid
      rw [eq_of_stepId_eq h.stepIds hr hrow hid]
      exact hact
    · intro j hj hid
      exact h.not_terminal hj hrow hid.symm hact
  | enqueued row hrow =>
    exact ⟨fun r hr => ⟨r, hr, .refl r⟩, fun j hj => ⟨j, hj, .refl j⟩,
      fun a ha => ⟨a, ha, .refl a⟩, List.prefix_refl _⟩
  | delivered dispatchId stepId =>
    exact ⟨fun r hr => ⟨r, hr, .refl r⟩, fun j hj => ⟨j, hj, .refl j⟩,
      fun a ha => ⟨a, ha, .refl a⟩, List.prefix_refl _⟩

/-! ### Jobs -/

/-- What an update of a job never touches. -/
structure JobKeeps (j j' : JobRow U) : Prop where
  jobId : j'.jobId = j.jobId
  runId : j'.runId = j.runId
  scope : j'.scope = j.scope
  requestKey : j'.requestKey = j.requestKey
  fingerprint : j'.fingerprint = j.fingerprint
  versionId : j'.versionId = j.versionId
  sourceKey : j'.sourceKey = j.sourceKey
  generation : j'.generation = j.generation
  request : j'.request = j.request

omit [DecidableEq U] in
theorem JobKeeps.refl (j : JobRow U) : JobKeeps j j :=
  ⟨rfl, rfl, rfl, rfl, rfl, rfl, rfl, rfl, rfl⟩

omit [DecidableEq U] in
theorem JobKeeps.trans {i j k : JobRow U} (h : JobKeeps i j) (h' : JobKeeps j k) : JobKeeps i k :=
  ⟨h'.jobId.trans h.jobId, h'.runId.trans h.runId, h'.scope.trans h.scope,
    h'.requestKey.trans h.requestKey, h'.fingerprint.trans h.fingerprint,
    h'.versionId.trans h.versionId, h'.sourceKey.trans h.sourceKey, h'.generation.trans h.generation,
    h'.request.trans h.request⟩

theorem jobs_refresh (scan : Scan U) (d : Ledger U) (jobId : U) (now : Time) :
    ∃ f : JobRow U → JobRow U, (refresh scan d jobId now).jobs = d.jobs.map f ∧ ∀ j, JobKeeps j (f j) := by
  refine ⟨_, rfl, fun j => ?_⟩
  by_cases h : j.jobId = jobId
  · rw [if_pos h]
    exact ⟨rfl, rfl, rfl, rfl, rfl, rfl, rfl, rfl, rfl⟩
  · rw [if_neg h]
    exact .refl j

/-- A transition updates the jobs there are, or admits one. -/
theorem jobs_transition (h : Inv db) (ht : Transition env now db db') :
    (∃ f, db'.jobs = db.jobs.map f ∧ ∀ j, JobKeeps j (f j)) ∨
    ∃ scan jobId row new copies, Admitted env scan db jobId now db' row new copies := by
  have hid : ∃ f, db.jobs = db.jobs.map f ∧ ∀ j, JobKeeps j (f j) :=
    ⟨id, (List.map_id _).symm, JobKeeps.refl⟩
  -- statements on the jobs followed by `_refresh`
  have hthen : ∀ {d : Ledger U} {f : JobRow U → JobRow U} (scan : Scan U) (jobId : U),
      d.jobs = db.jobs.map f → (∀ j, JobKeeps j (f j)) →
      ∃ f, (refresh scan d jobId now).jobs = db.jobs.map f ∧ ∀ j, JobKeeps j (f j) := by
    intro d f scan jobId hd hf
    obtain ⟨f', hf', hkeeps⟩ := jobs_refresh scan d jobId now
    exact ⟨f' ∘ f, by rw [hf', hd, List.map_map], fun j => (hf j).trans (hkeeps _)⟩
  have hsame : ∀ {d : Ledger U} (scan : Scan U) (jobId : U), d.jobs = db.jobs →
      ∃ f, (refresh scan d jobId now).jobs = db.jobs.map f ∧ ∀ j, JobKeeps j (f j) :=
    fun scan jobId hd => hthen scan jobId (hd.trans (List.map_id _).symm) JobKeeps.refl
  have hfail : ∀ (d : Ledger U) (scan : Scan U) (row : StepRow U) (category : Category)
      (classification : Classification), d.jobs = db.jobs → d.steps = db.steps →
      ∃ f, (refresh scan (terminalFailure scan d row category classification now) row.jobId now).jobs
        = db.jobs.map f ∧ ∀ j, JobKeeps j (f j) := by
    intro d scan row category classification hd hsteps
    rw [terminalFailure_eq _ _ _ _ _ _ (by rw [hsteps]; exact h.stepIds)]
    refine hthen scan row.jobId (congrArg (List.map _) hd) fun j => ?_
    split
    · exact ⟨rfl, rfl, rfl, rfl, rfl, rfl, rfl, rfl, rfl⟩
    · exact .refl j
  have hcancel : ∀ (scan : Scan U) (job : JobRow U), ∃ f, (cancelJob scan db job now).jobs
      = db.jobs.map f ∧ ∀ j, JobKeeps j (f j) := by
    intro scan job
    rw [cancelJob_eq]
    refine ⟨_, rfl, fun j => ?_⟩
    split
    · exact ⟨rfl, rfl, rfl, rfl, rfl, rfl, rfl, rfl, rfl⟩
    · exact .refl j
  cases ht with
  | admitted scan jobId _ row new copies ha => exact Or.inr ⟨scan, jobId, row, new, copies, ha⟩
  | retried scan job row fault retryAt _ _ _ _ => exact Or.inl (hsame scan row.jobId rfl)
  | failed scan job row fault category _ _ => exact Or.inl (hfail _ scan row category _ rfl rfl)
  | spent scan job row _ _ => exact Or.inl (hfail _ scan row _ _ rfl rfl)
  | started scan job row owner expires _ _ _ _ _ => exact Or.inl (hsame scan row.jobId rfl)
  | renewed => exact Or.inl hid
  | registered lease job row ref _ =>
    unfold Ledger.insertIntent
    split <;> exact Or.inl hid
  | committed scan lease refs job row db₁ hc _ _ hact =>
    obtain ⟨g, outbox, seq, rfl, -⟩ := activate_spec (by exact nodup_commitRow h lease.stepId) hact
    exact Or.inl (hsame scan lease.jobId rfl)
  | cancelled scan job _ _ =>
    obtain ⟨f, hf, hkeeps⟩ := hcancel scan job
    exact Or.inl (hthen scan job.jobId hf hkeeps)
  | abandoned scan job row _ _ =>
    obtain ⟨f, hf, hkeeps⟩ := hcancel scan job
    exact Or.inl (hthen scan row.jobId hf hkeeps)
  | settled scan job row _ _ _ _ _ => exact Or.inl (hsame scan row.jobId rfl)
  | enqueued => exact Or.inl hid
  | delivered => exact Or.inl hid

/-- The jobs after an admission: those of before and the new one. -/
theorem Admitted.jobs_eq {scan : Scan U} {jobId : U} {row : JobRow U} {new : List (StepRow U)}
    {copies : List (ManifestRow U)} (ha : Admitted env scan db jobId now db' row new copies) :
    ∃ row', db'.jobs = db.jobs ++ [row'] ∧ JobKeeps row row' := by
  obtain ⟨objects, outbox, seq, rfl⟩ := ha.result
  rw [refresh_eq, List.map_append, List.map_singleton, if_pos ha.rowId]
  refine ⟨_, congrArg (· ++ _) ?_, ⟨rfl, rfl, rfl, rfl, rfl, rfl, rfl, rfl, rfl⟩⟩
  refine (List.map_congr_left fun j hj => if_neg fun hid => ?_).trans (List.map_id _)
  exact ha.rowFresh (hid ▸ List.mem_map_of_mem hj)

/-- What holds of the job an admission adds, and does not read the columns that updates touch, holds
of every job. -/
theorem jobs_forall (P : JobRow U → Prop) (hkeeps : ∀ j j', JobKeeps j j' → P j → P j')
    (h : Inv db) (hP : ∀ j ∈ db.jobs, P j) (ht : Transition env now db db')
    (hnew : ∀ scan jobId row new copies, Admitted env scan db jobId now db' row new copies → P row) :
    ∀ j ∈ db'.jobs, P j := by
  intro j hj
  rcases jobs_transition h ht with ⟨f, hf, hk⟩ | ⟨scan, jobId, row, new, copies, ha⟩
  · rw [hf] at hj
    obtain ⟨i, hi, rfl⟩ := List.mem_map.mp hj
    exact hkeeps i _ (hk i) (hP i hi)
  · obtain ⟨row', hjobs, hrow⟩ := ha.jobs_eq
    rw [hjobs] at hj
    rcases List.mem_append.mp hj with hj | hj
    · exact hP j hj
    · rw [List.mem_singleton.mp hj]
      exact hkeeps row row' hrow (hnew scan jobId row new copies ha)

end Polymind.Jobs
