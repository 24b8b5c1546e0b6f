import Polymind.Jobs.Equiv.Runs

/-!
# The state of a job is a function of its steps

`job_follows_steps`: in every database that any sequence of calls leads to, each job stores the
counts of its steps' states and the state they determine, terminal states are final, and
`reconcile` never finds a terminal job to repair.
-/

namespace Polymind.Jobs

variable {U : Type} [DecidableEq U] {env : Env U} {db db' : Ledger U} {now : Time}

/-! ### Dead letters are not repeated -/

theorem nodup_insertDeadLetter {x : DeadLetterRow U}
    (h : (db.deadLetters.map DeadLetterRow.stepId).Nodup) :
    ((db.insertDeadLetter x).deadLetters.map DeadLetterRow.stepId).Nodup := by
  unfold Ledger.insertDeadLetter
  split
  · exact h
  · rename_i hany
    refine nodup_concat_of_not_mem h fun hm => hany ?_
    obtain ⟨d, hd, hid⟩ := List.mem_map.mp hm
    exact List.any_eq_true.mpr ⟨d, hd, decide_eq_true hid⟩

theorem deadIds_transition (hinv : Inv db) (h : (db.deadLetters.map DeadLetterRow.stepId).Nodup)
    (ht : Transition env now db db') : (db'.deadLetters.map DeadLetterRow.stepId).Nodup := by
  cases ht with
  | admitted scan jobId _ row new copies ha =>
    obtain ⟨objects, outbox, seq, rfl⟩ := ha.result
    exact h
  | retried => exact h
  | failed scan job row fault category _ _ =>
    rw [terminalFailure_eq _ _ _ _ _ _ (by exact hinv.stepIds)]
    exact nodup_insertDeadLetter (by exact h)
  | spent scan job row _ _ =>
    rw [terminalFailure_eq _ _ _ _ _ _ hinv.stepIds]
    exact nodup_insertDeadLetter h
  | started => exact h
  | renewed => exact h
  | registered lease job row ref _ =>
    unfold Ledger.insertIntent
    split <;> exact h
  | committed scan lease refs job row db₁ hc _ _ hact =>
    obtain ⟨g, outbox, seq, rfl, -⟩ := activate_spec (by exact nodup_commitRow hinv lease.stepId) hact
    exact h
  | cancelled scan job _ _ =>
    rw [cancelJob_eq]
    exact h
  | abandoned scan job row _ _ =>
    rw [cancelStep_eq, cancelJob_eq]
    exact h
  | settled scan job row _ _ _ _ _ =>
    rw [cancelStep_eq]
    exact h
  | enqueued => exact h
  | delivered => exact h

/-! ### The specification -/

/-- The `dead_letters` of a job, by step. -/
def Ledger.deadSteps (db : Ledger U) (jobId : U) : List U :=
  (db.deadLetters.filter fun d => db.steps.any fun r => r.stepId = d.stepId && r.jobId = jobId).map
    DeadLetterRow.stepId

/-- The stored columns of `j` are what the states of its steps say. -/
structure FollowsSteps (db : Ledger U) (j : JobRow U) (rows : List (StepRow U)) : Prop where
  completed_count : j.progress.completed = rows.countP fun r => r.state = .succeeded
  running_count : j.progress.running = rows.countP fun r => r.state = .running
  retrying_count : j.progress.retrying = rows.countP fun r => r.state = .retryWait
  failed_count : j.progress.failed = rows.countP fun r => r.state = .failed
  cancelled_count : j.progress.cancelled = rows.countP fun r => r.state = .cancelled
  pending_count : j.progress.pending =
    rows.countP fun r => r.state = .pending ∨ r.state = .ready
  total : j.progress.total = rows.length ∧ j.progress.total =
    j.progress.completed + j.progress.running + j.progress.retrying + j.progress.failed
      + j.progress.cancelled + j.progress.pending
  completed : j.state = .completed ↔ ∀ r ∈ rows, r.state = .succeeded
  failed : j.state = .failed ↔ ∃ r ∈ rows, r.state = .failed
  failed_once : j.state = .failed → ∃ r ∈ rows, r.state = .failed ∧
    (∀ s ∈ rows, s.state = .failed → s = r) ∧ db.deadSteps j.jobId = [r.stepId]
  cancelled : j.state = .cancelled ↔ j.cancelRequested = true ∧ ∀ r ∈ rows, r.state ≠ .running
  cancelRequested : j.state = .cancelRequested ↔
    j.cancelRequested = true ∧ ∃ r ∈ rows, r.state = .running
  otherwise : j.cancelRequested = false → (∀ r ∈ rows, r.state ≠ .failed) →
    (∃ r ∈ rows, r.state ≠ .succeeded) →
    (∃ r ∈ rows, r.state = .running ∧ j.state = r.spec.stage.jobState) ∨
      ((∀ r ∈ rows, r.state ≠ .running) ∧ j.state = .queued)
  ended : j.state.terminal = true → ∀ r ∈ rows, r.state ≠ .pending ∧ r.state ≠ .ready ∧
    r.state ≠ .retryWait ∧ r.state ≠ .running

/-! ### From the invariant to the specification -/

omit [DecidableEq U] in
theorem countP_or {rows : List (StepRow U)} :
    rows.countP (fun r => decide (r.state = .pending)) + rows.countP (fun r => decide (r.state = .ready))
      = rows.countP fun r => decide (r.state = .pending ∨ r.state = .ready) := by
  induction rows with
  | nil => rfl
  | cons r rows ih =>
    simp only [List.countP_cons, ← ih]
    cases r.state <;> simp <;> omega

omit [DecidableEq U] in
/-- Every step is in one of the states that are counted. -/
theorem length_eq_counts (rows : List (StepRow U)) :
    rows.length = (progressOf rows).completed + (progressOf rows).running + (progressOf rows).retrying
      + (progressOf rows).failed + (progressOf rows).cancelled + (progressOf rows).pending := by
  induction rows with
  | nil => rfl
  | cons r rows ih =>
    simp only [progressOf] at ih ⊢
    simp only [List.countP_cons, List.length_cons]
    cases r.state <;> simp <;> omega

omit [DecidableEq U] in
theorem Stage.jobState_ne (s : Stage) : s.jobState ≠ .completed ∧ s.jobState ≠ .failed ∧
    s.jobState ≠ .cancelled ∧ s.jobState ≠ .cancelRequested := by
  cases s <;> decide

omit [DecidableEq U] in
theorem openState_ne (rows : List (StepRow U)) : openState rows ≠ .completed ∧
    openState rows ≠ .failed ∧ openState rows ≠ .cancelled ∧ openState rows ≠ .cancelRequested := by
  unfold openState
  split
  · rename_i stage _
    exact stage.jobState_ne
  · decide

omit [DecidableEq U] in
theorem openState_cases (rows : List (StepRow U)) :
    (∃ r ∈ rows, r.state = .running ∧ openState rows = r.spec.stage.jobState) ∨
      ((∀ r ∈ rows, r.state ≠ .running) ∧ openState rows = .queued) := by
  unfold openState progressOf
  cases hf : rows.find? (fun r => r.state = .running) with
  | none =>
    right
    rw [List.find?_eq_none] at hf
    refine ⟨fun r hr => ?_, rfl⟩
    simpa using hf r hr
  | some r =>
    left
    have hr := List.find?_some hf
    exact ⟨r, List.mem_of_find?_eq_some hf, of_decide_eq_true hr, rfl⟩

omit [DecidableEq U] in
theorem derivedState_cases (cancel : Bool) (rows : List (StepRow U)) :
    (cancel = true ∧ (∃ r ∈ rows, r.state = .running) ∧ derivedState cancel rows = .cancelRequested) ∨
    (cancel = true ∧ (∀ r ∈ rows, r.state ≠ .running) ∧ derivedState cancel rows = .cancelled) ∨
    (cancel = false ∧ (∃ r ∈ rows, r.state = .failed) ∧ derivedState cancel rows = .failed) ∨
    (cancel = false ∧ (∀ r ∈ rows, r.state = .succeeded) ∧ derivedState cancel rows = .completed) ∨
    (cancel = false ∧ (∀ r ∈ rows, r.state ≠ .failed) ∧ (∃ r ∈ rows, r.state ≠ .succeeded) ∧
      derivedState cancel rows = openState rows) := by
  cases cancel with
  | true =>
    by_cases hrun : ∃ r ∈ rows, r.state = .running
    · exact Or.inl ⟨rfl, hrun, by simp [derivedState, hrun]⟩
    · refine Or.inr (Or.inl ⟨rfl, ?_, by simp only [derivedState, if_true, if_neg hrun]⟩)
      intro r hr hs
      exact hrun ⟨r, hr, hs⟩
  | false =>
    right; right
    by_cases hfail : ∃ r ∈ rows, r.state = .failed
    · exact Or.inl ⟨rfl, hfail, by simp [derivedState, hfail]⟩
    · right
      by_cases hall : ∀ r ∈ rows, r.state = .succeeded
      · exact Or.inl ⟨rfl, hall, by
          simp only [derivedState, Bool.false_eq_true, if_false, if_neg hfail, if_pos hall]⟩
      · refine Or.inr ⟨rfl, ?_, ?_, ?_⟩
        · intro r hr hs
          exact hfail ⟨r, hr, hs⟩
        · push Not at hall
          exact hall
        · simp only [derivedState, Bool.false_eq_true, if_false, if_neg hfail, if_neg hall]

theorem mem_deadSteps (hinv : Inv db) {jobId id : U} :
    id ∈ db.deadSteps jobId ↔ ∃ r ∈ db.stepsOf jobId, r.state = .failed ∧ r.stepId = id := by
  simp only [Ledger.deadSteps, List.mem_map, List.mem_filter, List.any_eq_true, Bool.and_eq_true,
    decide_eq_true_eq, mem_stepsOf]
  constructor
  · rintro ⟨d, ⟨hd, r, hr, hid, hj⟩, rfl⟩
    obtain ⟨s, hs, hsid, hf⟩ := (hinv.dead d.stepId).mp (List.mem_map_of_mem hd)
    have hrs := eq_of_stepId_eq hinv.stepIds hr hs (hid.trans hsid.symm)
    exact ⟨r, ⟨hr, hj⟩, hrs ▸ hf, hid⟩
  · rintro ⟨r, ⟨hr, hj⟩, hf, rfl⟩
    obtain ⟨d, hd, hid⟩ := List.mem_map.mp ((hinv.dead r.stepId).mpr ⟨r, hr, rfl, hf⟩)
    exact ⟨d, ⟨hd, r, hr, hid.symm, hj⟩, hid⟩

/-- One failed step, and its dead letter is the only one of the job. -/
theorem failedOnce_unique (hinv : Inv db)
    (hdead : (db.deadLetters.map DeadLetterRow.stepId).Nodup) {jobId : U}
    (h : FailedOnce (db.stepsOf jobId)) : ∃ r ∈ db.stepsOf jobId, r.state = .failed ∧
      (∀ s ∈ db.stepsOf jobId, s.state = .failed → s = r) ∧ db.deadSteps jobId = [r.stepId] := by
  have hone : ((db.stepsOf jobId).filter fun r => r.state = .failed).length = 1 := by
    rw [← List.countP_eq_length_filter]
    exact h.1
  obtain ⟨r, hr⟩ := List.length_eq_one_iff.mp hone
  have hmem : ∀ s, (s ∈ db.stepsOf jobId ∧ s.state = .failed) ↔ s = r := by
    intro s
    have hs : s ∈ (db.stepsOf jobId).filter (fun r => decide (r.state = .failed)) ↔ s = r := by
      rw [hr, List.mem_singleton]
    rwa [List.mem_filter, decide_eq_true_eq] at hs
  obtain ⟨hrow, hf⟩ := (hmem r).mpr rfl
  refine ⟨r, hrow, hf, fun s hs hsf => (hmem s).mp ⟨hs, hsf⟩, ?_⟩
  -- a list without repetitions whose only member is the failed step
  have hnd : (db.deadSteps jobId).Nodup := hdead.sublist (List.filter_sublist.map _)
  have honly : ∀ id, id ∈ db.deadSteps jobId ↔ id = r.stepId := by
    intro id
    rw [mem_deadSteps hinv]
    constructor
    · rintro ⟨s, hs, hsf, rfl⟩
      rw [(hmem s).mp ⟨hs, hsf⟩]
    · rintro rfl
      exact ⟨r, hrow, hf, rfl⟩
  refine List.perm_singleton.mp ((List.perm_ext_iff_of_nodup hnd (List.nodup_singleton _)).mpr ?_)
  intro id
  rw [honly, List.mem_singleton]

theorem followsSteps (hinv : Inv db) (hdead : (db.deadLetters.map DeadLetterRow.stepId).Nodup)
    {j : JobRow U} (hj : j ∈ db.jobs) : FollowsSteps db j (db.stepsOf j.jobId) := by
  have hok := hinv.jobs j hj
  obtain ⟨rows', hp, hprog, hstate⟩ := hok.stored
  have hcount : ∀ s, rows'.countP (fun r => decide (r.state = s))
      = (db.stepsOf j.jobId).countP fun r => decide (r.state = s) := fun s => hp.countP_eq _
  have hall : ∀ p : StepRow U → Prop, (∀ r ∈ rows', p r) ↔ ∀ r ∈ db.stepsOf j.jobId, p r :=
    fun p => forall_congr' fun r => by rw [hp.mem_iff]
  have hex : ∀ p : StepRow U → Prop, (∃ r ∈ rows', p r) ↔ ∃ r ∈ db.stepsOf j.jobId, p r :=
    fun p => exists_congr fun r => by rw [hp.mem_iff]
  have hcases := derivedState_cases j.cancelRequested rows'
  rw [← hstate] at hcases
  simp only [hall, hex] at hcases
  have hopen := openState_ne rows'
  have hshape := hok.shape
  -- a failed step and a completed job are excluded by the shape where they could overlap
  have hcf : j.cancelRequested = true → (∀ r ∈ db.stepsOf j.jobId, r.state ≠ .failed) ∧
      ∃ r ∈ db.stepsOf j.jobId, r.state ≠ .succeeded := by
    intro hc
    rw [hc] at hshape
    refine ⟨fun r hr hf => ?_, hshape.2⟩
    rcases hshape.1 r hr with hs | hs | hs <;> rw [hf] at hs <;> cases hs
  refine
    { completed_count := by rw [hprog, ← hcount]; rfl
      running_count := by rw [hprog, ← hcount]; rfl
      retrying_count := by rw [hprog, ← hcount]; rfl
      failed_count := by rw [hprog, ← hcount]; rfl
      cancelled_count := by rw [hprog, ← hcount]; rfl
      pending_count := by
        rw [hprog, ← countP_or, ← hcount, ← hcount]
        rfl
      total := by
        rw [hprog]
        exact ⟨hp.length_eq, length_eq_counts rows'⟩
      completed := ?_, failed := ?_, failed_once := ?_, cancelled := ?_, cancelRequested := ?_
      otherwise := ?_, ended := ?_ }
  · -- completed
    rcases hcases with ⟨hc, -, hs⟩ | ⟨hc, -, hs⟩ | ⟨-, ⟨r, hr, hf⟩, hs⟩ | ⟨-, ha, hs⟩ | ⟨-, -, ⟨r, hr, hn⟩, hs⟩
    · obtain ⟨r, hr, hn⟩ := (hcf hc).2
      exact iff_of_false (by rw [hs]; decide) fun h => hn (h r hr)
    · obtain ⟨r, hr, hn⟩ := (hcf hc).2
      exact iff_of_false (by rw [hs]; decide) fun h => hn (h r hr)
    · refine iff_of_false (by rw [hs]; decide) fun h => ?_
      rw [h r hr] at hf
      cases hf
    · exact iff_of_true hs ha
    · exact iff_of_false (by rw [hs]; exact hopen.1) fun h => hn (h r hr)
  · -- failed
    rcases hcases with ⟨hc, -, hs⟩ | ⟨hc, -, hs⟩ | ⟨-, hf, hs⟩ | ⟨-, ha, hs⟩ | ⟨-, hnf, -, hs⟩
    · exact iff_of_false (by rw [hs]; decide) fun ⟨r, hr, hf⟩ => (hcf hc).1 r hr hf
    · exact iff_of_false (by rw [hs]; decide) fun ⟨r, hr, hf⟩ => (hcf hc).1 r hr hf
    · exact iff_of_true hs hf
    · refine iff_of_false (by rw [hs]; decide) fun ⟨r, hr, hf⟩ => ?_
      rw [ha r hr] at hf
      cases hf
    · exact iff_of_false (by rw [hs]; exact hopen.2.1) fun ⟨r, hr, hf⟩ => hnf r hr hf
  · -- the failed step is the only one
    intro hs
    rcases hcases with ⟨-, -, h⟩ | ⟨-, -, h⟩ | ⟨hc, ⟨r, hr, hf⟩, -⟩ | ⟨-, -, h⟩ | ⟨-, -, -, h⟩
    · rw [hs] at h
      cases h
    · rw [hs] at h
      cases h
    · rw [hc] at hshape
      rcases hshape with hl | hf'
      · exact absurd hf (hl.not_failed hr)
      · exact failedOnce_unique hinv hdead hf'
    · rw [hs] at h
      cases h
    · exact absurd (hs ▸ h.symm) hopen.2.1
  · -- cancelled
    rcases hcases with ⟨hc, ⟨r, hr, hrun⟩, hs⟩ | ⟨hc, hn, hs⟩ | ⟨hc, -, hs⟩ | ⟨hc, -, hs⟩ | ⟨hc, -, -, hs⟩
    · exact iff_of_false (by rw [hs]; decide) fun h => h.2 r hr hrun
    · exact iff_of_true hs ⟨hc, hn⟩
    · exact iff_of_false (by rw [hs]; decide) fun h => by rw [hc] at h; cases h.1
    · exact iff_of_false (by rw [hs]; decide) fun h => by rw [hc] at h; cases h.1
    · exact iff_of_false (by rw [hs]; exact hopen.2.2.1) fun h => by rw [hc] at h; cases h.1
  · -- cancellation requested
    rcases hcases with ⟨hc, hrun, hs⟩ | ⟨hc, hn, hs⟩ | ⟨hc, -, hs⟩ | ⟨hc, -, hs⟩ | ⟨hc, -, -, hs⟩
    · exact iff_of_true hs ⟨hc, hrun⟩
    · exact iff_of_false (by rw [hs]; decide) fun ⟨_, r, hr, hrun⟩ => hn r hr hrun
    · exact iff_of_false (by rw [hs]; decide) fun h => by rw [hc] at h; cases h.1
    · exact iff_of_false (by rw [hs]; decide) fun h => by rw [hc] at h; cases h.1
    · exact iff_of_false (by rw [hs]; exact hopen.2.2.2) fun h => by rw [hc] at h; cases h.1
  · -- still open
    intro hc hnf ⟨r, hr, hn⟩
    rcases hcases with ⟨hc', -⟩ | ⟨hc', -⟩ | ⟨-, ⟨s, hs, hf⟩, -⟩ | ⟨-, ha, -⟩ | ⟨-, -, -, hs⟩
    · rw [hc] at hc'
      cases hc'
    · rw [hc] at hc'
      cases hc'
    · exact absurd hf (hnf s hs)
    · exact absurd (ha r hr) hn
    · rw [hs]
      have := openState_cases rows'
      simpa only [hall, hex] using this
  · intro ht r hr
    have ha := hok.terminal_iff.mp ht r hr
    rw [StepState.active_false_iff] at ha
    rcases ha with hs | hs | hs <;> rw [hs] <;> decide

/-- In every reachable database each job follows its steps; whatever is called afterwards, a
terminal job keeps its row, a job whose cancellation was requested neither completes nor fails,
and a reconciliation repairs no terminal job. -/
theorem job_follows_steps (env : Env U) (calls : List (Call U)) :
    let db := Ledger.empty.exec env calls
    (∀ j ∈ db.jobs, FollowsSteps db j (db.stepsOf j.jobId) ∧
      ∀ more : List (Call U), ∃ j' ∈ (db.exec env more).jobs, j'.jobId = j.jobId ∧
        (j.state.terminal = true → j' = j) ∧
        (j.cancelRequested = true → j'.cancelRequested = true ∧ j'.state ≠ .completed ∧
          j'.state ≠ .failed)) ∧
    ∀ scan limit now r db', reconcile env scan limit now db = .ok (r, db') → r.terminalRepairs = 0 := by
  intro db
  have hdead0 : ((Ledger.empty : Ledger U).deadLetters.map DeadLetterRow.stepId).Nodup := by
    simp [Ledger.empty]
  obtain ⟨hinv, hdead⟩ : Inv db ∧ (db.deadLetters.map DeadLetterRow.stepId).Nodup :=
    exec_invariant (fun d : Ledger U => (d.deadLetters.map DeadLetterRow.stepId).Nodup)
      (fun _ _ _ hi hd ht => deadIds_transition hi hd ht) calls Inv.empty hdead0
  refine ⟨fun j hj => ⟨followsSteps hinv hdead hj, fun more => ?_⟩, ?_⟩
  · have hevolves : Evolves db (db.exec env more) := evolves_exec more hinv
    obtain ⟨j', hj', hev⟩ := hevolves.jobs j hj
    refine ⟨j', hj', hev.jobId, hev.terminal, fun hc => ?_⟩
    have hc' := hev.cancel hc
    have hinv' : Inv (db.exec env more) := inv_exec more hinv
    obtain ⟨rows', -, -, hstate⟩ := (hinv'.jobs j' hj').stored
    rw [hc'] at hstate
    rcases derivedState_cases true rows' with ⟨-, -, h⟩ | ⟨-, -, h⟩ | ⟨h, -⟩ | ⟨h, -⟩ | ⟨h, -⟩
    · rw [hstate, h]
      exact ⟨hc', by decide, by decide⟩
    · rw [hstate, h]
      exact ⟨hc', by decide, by decide⟩
    all_goals cases h
  · intro scan limit now r db' h
    exact (reconcile_ok hinv h).2

end Polymind.Jobs
