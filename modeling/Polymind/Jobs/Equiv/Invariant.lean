import Polymind.Jobs.Equiv.Transitions

/-!
# The invariant of jobs, steps and dead letters

* `derivedState`: what the state of a job is, as a function of its steps and its cancel flag;
* `Shape`: which combinations of step states a job can have;
* `Inv`: every job stores the state and the progress its steps give it, and the dead letters are
  the failed steps;
* `inv_transition`: every transition keeps `Inv`.
-/

namespace Polymind.Jobs

variable {U : Type} [DecidableEq U] {env : Env U} {db db' : Ledger U} {now : Time}

/-! ### The derived state -/

/-- The state `_refresh` gives a job that is not terminal. -/
def derivedState (cancel : Bool) (rows : List (StepRow U)) : JobState :=
  if cancel then
    if ∃ r ∈ rows, r.state = .running then .cancelRequested else .cancelled
  else if ∃ r ∈ rows, r.state = .failed then .failed
  else if ∀ r ∈ rows, r.state = .succeeded then .completed
  else openState rows

omit [DecidableEq U] in
theorem countP_state_ne_zero {rows : List (StepRow U)} {s : StepState} :
    rows.countP (fun r => r.state = s) ≠ 0 ↔ ∃ r ∈ rows, r.state = s := by
  rw [Ne, List.countP_eq_zero]
  simp

omit [DecidableEq U] in
theorem stateOf_eq (job : JobRow U) (rows : List (StepRow U)) :
    stateOf job rows =
      if job.state.terminal then job.state else derivedState job.cancelRequested rows := by
  have hall : rows.countP (fun r => decide (r.state = .succeeded)) = rows.length ↔
      ∀ r ∈ rows, r.state = .succeeded := by
    rw [List.countP_eq_length]
    simp
  unfold stateOf derivedState
  simp only [countP_state_ne_zero, hall]

/-! ### Shapes -/

/-- No step has failed or been cancelled. -/
def Live (rows : List (StepRow U)) : Prop :=
  ∀ r ∈ rows, r.state.active = true ∨ r.state = .succeeded

/-- One step has failed, and every other one has succeeded or been cancelled. -/
def FailedOnce (rows : List (StepRow U)) : Prop :=
  rows.countP (fun r => r.state = .failed) = 1 ∧
    ∀ r ∈ rows, r.state = .failed ∨ r.state = .succeeded ∨ r.state = .cancelled

/-- Nothing is waiting, and the job cannot complete. -/
def Cancelling (rows : List (StepRow U)) : Prop :=
  (∀ r ∈ rows, r.state = .running ∨ r.state = .succeeded ∨ r.state = .cancelled) ∧
    ∃ r ∈ rows, r.state ≠ .succeeded

def Shape : Bool → List (StepRow U) → Prop
  | true, rows => Cancelling rows
  | false, rows => Live rows ∨ FailedOnce rows

omit [DecidableEq U] in
theorem Shape.perm {cancel : Bool} {rows rows' : List (StepRow U)} (h : Shape cancel rows)
    (hp : rows'.Perm rows) : Shape cancel rows' := by
  cases cancel with
  | true =>
    obtain ⟨h1, r, hr, h2⟩ := h
    exact ⟨fun s hs => h1 s (hp.mem_iff.mp hs), r, hp.mem_iff.mpr hr, h2⟩
  | false =>
    rcases h with h | ⟨h1, h2⟩
    · exact Or.inl fun s hs => h s (hp.mem_iff.mp hs)
    · refine Or.inr ⟨?_, fun s hs => h2 s (hp.mem_iff.mp hs)⟩
      rw [hp.countP_eq]
      exact h1

theorem StepState.active_false_iff {s : StepState} :
    s.active = false ↔ s = .succeeded ∨ s = .failed ∨ s = .cancelled := by
  cases s <;> decide

theorem Stage.jobState_not_terminal (s : Stage) : s.jobState.terminal = false := by
  cases s <;> rfl

omit [DecidableEq U] in
/-- Under `Shape` a job is terminal exactly when none of its steps is active. -/
theorem derivedState_terminal {cancel : Bool} {rows : List (StepRow U)} (h : Shape cancel rows) :
    (derivedState cancel rows).terminal = true ↔ ∀ r ∈ rows, r.state.active = false := by
  cases cancel with
  | true =>
    obtain ⟨h1, -⟩ := h
    simp only [derivedState, if_true]
    split
    · rename_i hrun
      obtain ⟨r, hr, hs⟩ := hrun
      refine ⟨fun hf => by simp [JobState.terminal] at hf, fun hf => ?_⟩
      have := hf r hr
      rw [hs] at this
      exact absurd this (by decide)
    · rename_i hrun
      refine ⟨fun _ r hr => ?_, fun _ => rfl⟩
      rcases h1 r hr with hs | hs | hs
      · exact absurd ⟨r, hr, hs⟩ hrun
      · rw [hs]; rfl
      · rw [hs]; rfl
  | false =>
    simp only [derivedState, Bool.false_eq_true, if_false]
    split
    · rename_i hfail
      obtain ⟨r, hr, hs⟩ := hfail
      refine ⟨fun _ s hs' => ?_, fun _ => rfl⟩
      rcases h with h | ⟨-, h⟩
      · -- a live job has no failed step
        rcases h r hr with ha | ha <;> rw [hs] at ha <;> exact absurd ha (by decide)
      · rw [StepState.active_false_iff]
        rcases h s hs' with h | h | h <;> simp [h]
    · rename_i hfail
      split
      · rename_i hall
        refine ⟨fun _ r hr => ?_, fun _ => rfl⟩
        rw [hall r hr]
        rfl
      · rename_i hall
        -- neither failed nor completed: some step is active
        have hlive : Live rows := by
          rcases h with h | ⟨h, -⟩
          · exact h
          · exact absurd (countP_state_ne_zero.mp (by rw [h]; decide)) hfail
        have hnot : ¬∀ r ∈ rows, r.state.active = false := by
          intro hf
          refine hall fun r hr => ?_
          rcases hlive r hr with ha | ha
          · rw [hf r hr] at ha
            cases ha
          · exact ha
        refine ⟨fun hf => absurd hf ?_, fun hf => absurd hf hnot⟩
        unfold openState
        cases (progressOf rows).currentStage with
        | none => simp [JobState.terminal]
        | some stage => simp [stage.jobState_not_terminal]

/-! ### The invariant -/

/-- A job stores what `_refresh` computes from its steps, in the order some scan gave them. -/
structure JobOk (j : JobRow U) (rows : List (StepRow U)) : Prop where
  nonempty : rows ≠ []
  stored : ∃ rows', rows'.Perm rows ∧ j.progress = progressOf rows' ∧
    j.state = derivedState j.cancelRequested rows'
  shape : Shape j.cancelRequested rows

structure Inv (db : Ledger U) : Prop where
  jobIds : (db.jobs.map JobRow.jobId).Nodup
  stepIds : (db.steps.map StepRow.stepId).Nodup
  owned : ∀ r ∈ db.steps, r.jobId ∈ db.jobs.map JobRow.jobId
  jobs : ∀ j ∈ db.jobs, JobOk j (db.stepsOf j.jobId)
  dead : ∀ id, id ∈ db.deadLetters.map DeadLetterRow.stepId ↔
    ∃ r ∈ db.steps, r.stepId = id ∧ r.state = .failed

omit [DecidableEq U] in
theorem JobOk.terminal_iff {j : JobRow U} {rows : List (StepRow U)} (h : JobOk j rows) :
    j.state.terminal = true ↔ ∀ r ∈ rows, r.state.active = false := by
  obtain ⟨rows', hp, -, hs⟩ := h.stored
  rw [hs, derivedState_terminal (h.shape.perm hp)]
  exact forall_congr' fun r => by rw [hp.mem_iff]

theorem Inv.empty : Inv (Ledger.empty : Ledger U) := by
  refine ⟨by simp [Ledger.empty], by simp [Ledger.empty], ?_, ?_, ?_⟩ <;> simp [Ledger.empty]

omit [DecidableEq U] in
theorem eq_of_jobId_eq (hnd : (db.jobs.map JobRow.jobId).Nodup) {i j : JobRow U}
    (hi : i ∈ db.jobs) (hj : j ∈ db.jobs) (h : i.jobId = j.jobId) : i = j :=
  List.inj_on_of_nodup_map hnd hi hj h

/-- The job of a step. -/
theorem Inv.exists_job (h : Inv db) {r : StepRow U} (hr : r ∈ db.steps) :
    ∃ j ∈ db.jobs, j.jobId = r.jobId := by
  obtain ⟨j, hj, hid⟩ := List.mem_map.mp (h.owned r hr)
  exact ⟨j, hj, hid⟩

/-- An active step shows that its job is not terminal. -/
theorem Inv.not_terminal (h : Inv db) {j : JobRow U} {r : StepRow U} (hj : j ∈ db.jobs)
    (hr : r ∈ db.steps) (hid : r.jobId = j.jobId) (ha : r.state.active = true) :
    j.state.terminal = false := by
  rw [← Bool.not_eq_true, (h.jobs j hj).terminal_iff]
  intro hf
  rw [hf r (mem_stepsOf.mpr ⟨hr, hid⟩)] at ha
  cases ha

/-- An active step of a job that was not cancelled shows that no step of the job has failed. -/
theorem Inv.live (h : Inv db) {j : JobRow U} {r : StepRow U} (hj : j ∈ db.jobs)
    (hr : r ∈ db.steps) (hid : r.jobId = j.jobId) (hc : j.cancelRequested = false)
    (ha : r.state.active = true) : Live (db.stepsOf j.jobId) := by
  have hshape := (h.jobs j hj).shape
  rw [hc] at hshape
  rcases hshape with hl | ⟨-, hf⟩
  · exact hl
  · rcases hf r (mem_stepsOf.mpr ⟨hr, hid⟩) with hs | hs | hs <;> rw [hs] at ha <;> cases ha

/-! ### Rewriting the rows of one job -/

/-- Statements that rewrite steps by `g` and jobs by `f`, and only those of the job `J`, to a shape
that a job can have. -/
structure Rewrite (db : Ledger U) (J : U) (g : StepRow U → StepRow U) (f : JobRow U → JobRow U) :
    Prop where
  stepId : ∀ r ∈ db.steps, (g r).stepId = r.stepId
  jobId : ∀ r ∈ db.steps, (g r).jobId = r.jobId
  other : ∀ r ∈ db.steps, r.jobId ≠ J → g r = r
  job_jobId : ∀ j, (f j).jobId = j.jobId
  job_other : ∀ j, j.jobId ≠ J → f j = j
  shape : ∀ j ∈ db.jobs, j.jobId = J → Shape (f j).cancelRequested ((db.stepsOf J).map g)
  terminal : ∀ j ∈ db.jobs, j.jobId = J → (f j).state.terminal = true →
    (f j).state = .failed ∧ (f j).cancelRequested = false ∧ ∃ r ∈ db.stepsOf J, (g r).state = .failed

theorem stepsOf_map (db : Ledger U) {g : StepRow U → StepRow U} {d : Ledger U} (hsteps : d.steps = db.steps.map g)
    (hg : ∀ r ∈ db.steps, (g r).jobId = r.jobId) (jobId : U) :
    d.stepsOf jobId = (db.stepsOf jobId).map g := by
  unfold Ledger.stepsOf
  rw [hsteps, filter_map_jobId _ _ hg]

omit [DecidableEq U] in
/-- What `_refresh` stores in a job whose steps have the right shape. -/
theorem jobOk_refresh (scan : Scan U) {j : JobRow U} {rows : List (StepRow U)} (hne : rows ≠ [])
    (hshape : Shape j.cancelRequested rows)
    (hterm : j.state.terminal = true →
      j.state = .failed ∧ j.cancelRequested = false ∧ ∃ r ∈ rows, r.state = .failed) :
    JobOk { j with state := stateOf j (scan.order rows), progress := progressOf (scan.order rows)
                   updatedAt := now } rows := by
  refine ⟨hne, ⟨scan.order rows, scan.perm rows, rfl, ?_⟩, hshape⟩
  show stateOf j (scan.order rows) = derivedState j.cancelRequested (scan.order rows)
  rw [stateOf_eq]
  split
  · rename_i ht
    obtain ⟨hs, hc, r, hr, hf⟩ := hterm ht
    have hex : ∃ r ∈ scan.order rows, r.state = .failed := ⟨r, (scan.perm _).mem_iff.mpr hr, hf⟩
    simp [derivedState, hs, hc, hex]
  · rfl

/-- A rewriting of one job followed by `_refresh` of that job keeps the invariant, if the dead
letters follow. -/
theorem Inv.rewrite (h : Inv db) {J : U} {g : StepRow U → StepRow U} {f : JobRow U → JobRow U}
    (hr : Rewrite db J g f) {d : Ledger U} (scan : Scan U) (hsteps : d.steps = db.steps.map g)
    (hjobs : d.jobs = db.jobs.map f)
    (hdead : ∀ id, id ∈ d.deadLetters.map DeadLetterRow.stepId ↔
      ∃ r ∈ db.steps, r.stepId = id ∧ (g r).state = .failed) :
    Inv (refresh scan d J now) := by
  have hof : ∀ jobId, d.stepsOf jobId = (db.stepsOf jobId).map g := stepsOf_map db hsteps hr.jobId
  -- `_refresh` keeps the ids of the jobs
  have hids : (refresh scan d J now).jobs.map JobRow.jobId = db.jobs.map JobRow.jobId := by
    rw [refresh_eq, hjobs]
    simp only [List.map_map]
    refine List.map_congr_left fun j _ => ?_
    simp only [Function.comp]
    split <;> exact hr.job_jobId j
  refine ⟨?_, ?_, ?_, ?_, ?_⟩
  · rw [hids]
    exact h.jobIds
  · show (d.steps.map StepRow.stepId).Nodup
    rw [hsteps, List.map_map]
    have : db.steps.map (StepRow.stepId ∘ g) = db.steps.map StepRow.stepId :=
      List.map_congr_left fun r hm => hr.stepId r hm
    rw [this]
    exact h.stepIds
  · intro r hm
    have hm : r ∈ d.steps := hm
    rw [hsteps] at hm
    obtain ⟨r₀, hr₀, rfl⟩ := List.mem_map.mp hm
    rw [hids, hr.jobId r₀ hr₀]
    exact h.owned r₀ hr₀
  · intro j hj
    rw [refresh_eq, hjobs] at hj
    simp only [List.map_map, List.mem_map, Function.comp] at hj
    obtain ⟨j₀, hj₀, rfl⟩ := hj
    have hok := h.jobs j₀ hj₀
    show JobOk _ (d.stepsOf _)
    by_cases hJ : j₀.jobId = J
    · -- the job that was rewritten
      have hJ' : (f j₀).jobId = J := (hr.job_jobId j₀).trans hJ
      have hJs : db.stepsOf (f j₀).jobId = db.stepsOf J := by rw [hJ']
      rw [if_pos hJ', hof, hof]
      show JobOk _ ((db.stepsOf (f j₀).jobId).map g)
      rw [hJs]
      refine jobOk_refresh scan ?_ (hr.shape j₀ hj₀ hJ) ?_
      · intro hnil
        rw [List.map_eq_nil_iff] at hnil
        exact hok.nonempty (hJ ▸ hnil)
      · intro ht
        obtain ⟨hs, hc, r, hm, hf⟩ := hr.terminal j₀ hj₀ hJ ht
        exact ⟨hs, hc, g r, List.mem_map_of_mem hm, hf⟩
    · -- every other job keeps its row and its steps
      have hf := hr.job_other j₀ hJ
      have hJ' : (f j₀).jobId ≠ J := by rw [hf]; exact hJ
      rw [if_neg hJ', hof, hf]
      have hsame : (db.stepsOf j₀.jobId).map g = db.stepsOf j₀.jobId := by
        refine (List.map_congr_left fun r hm => ?_).trans (List.map_id _)
        rw [mem_stepsOf] at hm
        exact hr.other r hm.1 (by rw [hm.2]; exact hJ)
      rw [hsame]
      exact hok
  · intro id
    show id ∈ d.deadLetters.map DeadLetterRow.stepId ↔ ∃ r ∈ d.steps, r.stepId = id ∧ r.state = .failed
    rw [hdead, hsteps]
    simp only [List.mem_map, exists_exists_and_eq_and]
    refine exists_congr fun r => and_congr_right fun hm => ?_
    rw [hr.stepId r hm]

/-- The dead letters follow a rewriting that neither fails a step nor revives one. -/
theorem Inv.dead_map (h : Inv db) {g : StepRow U → StepRow U}
    (hg : ∀ r ∈ db.steps, (g r).state = .failed ↔ r.state = .failed) (id : U) :
    id ∈ db.deadLetters.map DeadLetterRow.stepId ↔
      ∃ r ∈ db.steps, r.stepId = id ∧ (g r).state = .failed := by
  rw [h.dead]
  exact exists_congr fun r => and_congr_right fun hm => by rw [hg r hm]

/-- The invariant only reads jobs, steps and dead letters. -/
theorem Inv.of_same (h : Inv db) (hjobs : db'.jobs = db.jobs) (hsteps : db'.steps = db.steps)
    (hdead : db'.deadLetters = db.deadLetters) : Inv db' := by
  refine ⟨hjobs ▸ h.jobIds, hsteps ▸ h.stepIds, ?_, ?_, ?_⟩
  · rw [hjobs, hsteps]
    exact h.owned
  · rw [hjobs]
    intro j hj
    unfold Ledger.stepsOf
    rw [hsteps]
    exact h.jobs j hj
  · rw [hdead, hsteps]
    exact h.dead

/-! ### The transitions, one by one -/

theorem Inv.stepId_ne (h : Inv db) {r row : StepRow U} (hr : r ∈ db.steps) (hrow : row ∈ db.steps)
    (hne : r.jobId ≠ row.jobId) : r.stepId ≠ row.stepId := by
  intro hid
  rw [eq_of_stepId_eq h.stepIds hr hrow hid] at hne
  exact hne rfl

theorem OnLive.job_eq (h : Inv db) {job j : JobRow U} {row : StepRow U} (hl : OnLive db job row)
    (hj : j ∈ db.jobs) (hid : j.jobId = row.jobId) : j = job :=
  eq_of_jobId_eq h.jobIds hj hl.job_mem (hid.trans hl.owner)

theorem OnLive.live (h : Inv db) {job : JobRow U} {row : StepRow U} (hl : OnLive db job row)
    (ha : row.state.active = true) : Live (db.stepsOf row.jobId) := by
  rw [hl.owner]
  exact h.live hl.job_mem hl.row_mem hl.owner hl.not_cancelled ha

omit [DecidableEq U] in
theorem Live.not_failed {rows : List (StepRow U)} (h : Live rows) {r : StepRow U} (hr : r ∈ rows) :
    r.state ≠ .failed := by
  intro hf
  rcases h r hr with ha | ha <;> rw [hf] at ha <;> cases ha

/-- A rewriting of the rows of a live job in which no step fails or is cancelled. -/
theorem Inv.rewriteLive (h : Inv db) (scan : Scan U) {job : JobRow U} {row : StepRow U}
    (hl : OnLive db job row) (hact : row.state.active = true) {g : StepRow U → StepRow U}
    (hids : ∀ r ∈ db.steps, (g r).stepId = r.stepId ∧ (g r).jobId = r.jobId)
    (hother : ∀ r ∈ db.steps, r.jobId ≠ row.jobId → g r = r)
    (hstate : ∀ r ∈ db.steps,
      (g r).state = r.state ∨ (g r).state.active = true ∨ (g r).state = .succeeded)
    {d : Ledger U} (hsteps : d.steps = db.steps.map g) (hjobs : d.jobs = db.jobs)
    (hdead : d.deadLetters = db.deadLetters) : Inv (refresh scan d row.jobId now) := by
  have hlive := hl.live h hact
  have hlive' : Live ((db.stepsOf row.jobId).map g) := by
    intro s hs
    obtain ⟨r, hr, rfl⟩ := List.mem_map.mp hs
    rcases hstate r (mem_stepsOf.mp hr).1 with he | he
    · rw [he]
      exact hlive r hr
    · exact he
  refine h.rewrite (g := g) (f := id) ⟨fun r hr => (hids r hr).1, fun r hr => (hids r hr).2, hother,
    fun _ => rfl, fun _ _ => rfl, ?_, ?_⟩ scan hsteps (hjobs.trans (List.map_id _).symm) ?_
  · intro j hj hid
    rw [hl.job_eq h hj hid, id, hl.not_cancelled]
    exact Or.inl hlive'
  · intro j hj hid ht
    rw [hl.job_eq h hj hid, id, hl.not_terminal] at ht
    cases ht
  · rw [hdead]
    refine h.dead_map fun r hr => ?_
    by_cases hj : r.jobId = row.jobId
    · -- neither before nor after has a step of this job failed
      have hr' : r ∈ db.stepsOf row.jobId := mem_stepsOf.mpr ⟨hr, hj⟩
      exact iff_of_false (hlive'.not_failed (List.mem_map_of_mem hr')) (hlive.not_failed hr')
    · rw [hother r hr hj]

/-- The same for a statement that changes the row of one step. -/
theorem Inv.updateLive (h : Inv db) (scan : Scan U) {job : JobRow U} {row : StepRow U}
    (hl : OnLive db job row) (hact : row.state.active = true) {F : StepRow U → StepRow U}
    (hids : ∀ r, (F r).stepId = r.stepId ∧ (F r).jobId = r.jobId)
    (hstate : ∀ r, (F r).state.active = true ∨ (F r).state = .succeeded) {d : Ledger U}
    (hsteps : d.steps = db.steps.map fun r => if r.stepId = row.stepId then F r else r)
    (hjobs : d.jobs = db.jobs) (hdead : d.deadLetters = db.deadLetters) :
    Inv (refresh scan d row.jobId now) := by
  refine h.rewriteLive scan hl hact ?_ ?_ ?_ hsteps hjobs hdead
  · intro r _
    split
    · exact hids r
    · exact ⟨rfl, rfl⟩
  · intro r hr hne
    exact if_neg (h.stepId_ne hr hl.row_mem hne)
  · intro r _
    split
    · exact Or.inr (hstate r)
    · exact Or.inl rfl

/-- `_terminal_failure` of an active step of a live job. -/
theorem Inv.terminalFailure (h : Inv db) (scan : Scan U) {job : JobRow U} {row : StepRow U}
    (hl : OnLive db job row) (hact : row.state.active = true) (attempts : List (AttemptRow U))
    (category : Category) (classification : Classification) :
    Inv (refresh scan (terminalFailure scan { db with attempts := attempts } row category
      classification now) row.jobId now) := by
  have hlive := hl.live h hact
  rw [terminalFailure_eq scan { db with attempts := attempts } row category classification now h.stepIds]
  have hrow : row ∈ db.stepsOf row.jobId := mem_stepsOf.mpr ⟨hl.row_mem, rfl⟩
  -- the failed rows of the job after the statement are the row itself
  have hfailed : ∀ r ∈ db.stepsOf row.jobId,
      (failRow now row category r).state = .failed ↔ r.stepId = row.stepId := by
    intro r hr
    unfold failRow
    split
    · rename_i hid
      simp [hid, StepRow.failedWith]
    · rename_i hid
      refine iff_of_false ?_ hid
      split
      · simp [StepRow.cancelled]
      · exact hlive.not_failed hr
  have hnd : ((db.stepsOf row.jobId).map StepRow.stepId).Nodup :=
    h.stepIds.sublist (List.filter_sublist.map _)
  have hother : ∀ r ∈ db.steps, r.jobId ≠ row.jobId → failRow now row category r = r := by
    intro r hr hne
    unfold failRow
    rw [if_neg (h.stepId_ne hr hl.row_mem hne), if_neg fun hc => hne hc.1]
  refine h.rewrite (g := failRow now row category) (f := fun j => if j.jobId = row.jobId then
    { j with state := .failed, terminalCategory := some category } else j)
    ⟨?_, ?_, hother, ?_, ?_, ?_, ?_⟩ scan rfl rfl ?_
  · intro r _
    unfold failRow
    split
    · rfl
    · split <;> rfl
  · intro r _
    unfold failRow
    split
    · rfl
    · split <;> rfl
  · intro j
    split <;> rfl
  · intro j hne
    exact if_neg hne
  · intro j hj hid
    rw [hl.job_eq h hj hid, if_pos hl.owner.symm]
    show Shape job.cancelRequested _
    rw [hl.not_cancelled]
    refine Or.inr ⟨?_, ?_⟩
    · rw [List.countP_map]
      have hcount : (db.stepsOf row.jobId).countP
            ((fun r => decide (r.state = .failed)) ∘ failRow now row category)
          = ((db.stepsOf row.jobId).map StepRow.stepId).count row.stepId := by
        rw [List.count, List.countP_map]
        refine List.countP_congr fun r hr => ?_
        simp [hfailed r hr]
      rw [hcount]
      exact List.count_eq_one_of_mem hnd (List.mem_map_of_mem hrow)
    · intro s hs
      obtain ⟨r, hr, rfl⟩ := List.mem_map.mp hs
      unfold failRow
      split
      · exact Or.inl rfl
      · split
        · exact Or.inr (Or.inr rfl)
        · rename_i hna
          rcases hlive r hr with ha | ha
          · exact absurd ⟨(mem_stepsOf.mp hr).2, ha⟩ hna
          · exact Or.inr (Or.inl ha)
  · intro j hj hid _
    rw [hl.job_eq h hj hid, if_pos hl.owner.symm]
    exact ⟨rfl, hl.not_cancelled, row, hrow, (hfailed row hrow).mpr rfl⟩
  · intro id
    refine (mem_insertDeadLetter { db with attempts := attempts }).trans ?_
    rw [h.dead]
    constructor
    · rintro (⟨r, hr, hid, hf⟩ | rfl)
      · refine ⟨r, hr, hid, ?_⟩
        by_cases hj : r.jobId = row.jobId
        · exact absurd hf (hlive.not_failed (mem_stepsOf.mpr ⟨hr, hj⟩))
        · rw [hother r hr hj]
          exact hf
      · exact ⟨row, hl.row_mem, rfl, (hfailed row hrow).mpr rfl⟩
    · rintro ⟨r, hr, hid, hf⟩
      by_cases hj : r.jobId = row.jobId
      · right
        rw [← hid]
        exact (hfailed r (mem_stepsOf.mpr ⟨hr, hj⟩)).mp hf
      · left
        rw [hother r hr hj] at hf
        exact ⟨r, hr, hid, hf⟩

/-! ### Cancelling -/

omit [DecidableEq U] in
/-- Cancelling steps of one job that have not succeeded, all waiting ones among them. -/
theorem cancelling_map {rows : List (StepRow U)} {g : StepRow U → StepRow U}
    (hg : ∀ r ∈ rows, g r = r ∨ (r.state.active = true ∧ (g r).state = .cancelled))
    (hshape : Live rows ∨ Cancelling rows) (hact : ∃ r ∈ rows, r.state ≠ .succeeded)
    (hwait : ∀ r ∈ rows, r.state.waiting = true → (g r).state = .cancelled) :
    Cancelling (rows.map g) := by
  have hrest : ∀ r ∈ rows, (g r).state = .running ∨ (g r).state = .succeeded ∨
      (g r).state = .cancelled := by
    intro r hr
    rcases hg r hr with he | ⟨-, he⟩
    · rcases hshape with hl | ⟨hc, -⟩
      · rcases hl r hr with ha | ha
        · cases hw : r.state.waiting with
          | true => exact Or.inr (Or.inr (hwait r hr hw))
          | false =>
            simp only [StepState.active, hw, Bool.false_or, decide_eq_true_eq] at ha
            rw [he]
            exact Or.inl ha
        · rw [he]
          exact Or.inr (Or.inl ha)
      · rw [he]
        exact hc r hr
    · exact Or.inr (Or.inr he)
  refine ⟨?_, ?_⟩
  · intro s hs
    obtain ⟨r, hr, rfl⟩ := List.mem_map.mp hs
    exact hrest r hr
  · obtain ⟨r, hr, hne⟩ := hact
    refine ⟨g r, List.mem_map_of_mem hr, ?_⟩
    rcases hg r hr with he | ⟨-, he⟩
    · rw [he]
      exact hne
    · rw [he]
      decide

/-- A rewriting that cancels active steps of one job and sets or keeps its cancel flag. -/
theorem Inv.cancelling (h : Inv db) (scan : Scan U) {job : JobRow U} (hjob : job ∈ db.jobs)
    (hterm : job.state.terminal = false) {g : StepRow U → StepRow U} {f : JobRow U → JobRow U}
    (hids : ∀ r, (g r).stepId = r.stepId ∧ (g r).jobId = r.jobId)
    (hg : ∀ r ∈ db.steps, g r = r ∨ (r.jobId = job.jobId ∧ r.state.active = true ∧
      (g r).state = .cancelled))
    (hwait : ∀ r ∈ db.steps, r.jobId = job.jobId → r.state.waiting = true →
      (g r).state = .cancelled)
    (hf : ∀ j, (f j).jobId = j.jobId) (hother : ∀ j, j.jobId ≠ job.jobId → f j = j)
    (hflag : (f job).cancelRequested = true) (hstate : (f job).state.terminal = false)
    {d : Ledger U} (hsteps : d.steps = db.steps.map g) (hjobs : d.jobs = db.jobs.map f)
    (hdead : d.deadLetters = db.deadLetters) : Inv (refresh scan d job.jobId now) := by
  have hok := h.jobs job hjob
  -- a job that is not terminal has an active step
  obtain ⟨r₀, hr₀, hact⟩ : ∃ r ∈ db.stepsOf job.jobId, r.state.active = true := by
    have hn := (not_congr hok.terminal_iff).mp (by rw [hterm]; decide)
    push Not at hn
    obtain ⟨r, hr, ha⟩ := hn
    exact ⟨r, hr, by simpa using ha⟩
  have hshape : Live (db.stepsOf job.jobId) ∨ Cancelling (db.stepsOf job.jobId) := by
    cases hc : job.cancelRequested with
    | true =>
      have hs := hok.shape
      rw [hc] at hs
      exact Or.inr hs
    | false =>
      have hr := mem_stepsOf.mp hr₀
      exact Or.inl (h.live hjob hr.1 hr.2 hc hact)
  refine h.rewrite (g := g) (f := f) ⟨fun r _ => (hids r).1, fun r _ => (hids r).2, ?_, hf, hother,
    ?_, ?_⟩ scan hsteps hjobs ?_
  · intro r hr hne
    rcases hg r hr with he | ⟨hj, -⟩
    · exact he
    · exact absurd hj hne
  · intro j hj hid
    rw [eq_of_jobId_eq h.jobIds hj hjob hid, hflag]
    refine cancelling_map ?_ hshape ⟨r₀, hr₀, ?_⟩ ?_
    · intro r hr
      rcases hg r (mem_stepsOf.mp hr).1 with he | ⟨-, he⟩
      · exact Or.inl he
      · exact Or.inr he
    · intro hs
      rw [hs] at hact
      cases hact
    · intro r hr hw
      exact hwait r (mem_stepsOf.mp hr).1 (mem_stepsOf.mp hr).2 hw
  · intro j hj hid ht
    rw [eq_of_jobId_eq h.jobIds hj hjob hid, hstate] at ht
    cases ht
  · rw [hdead]
    refine h.dead_map fun r hr => ?_
    rcases hg r hr with he | ⟨-, ha, he⟩
    · rw [he]
    · refine iff_of_false (by rw [he]; decide) fun hs => ?_
      rw [hs] at ha
      cases ha

/-! ### Admission and renewal -/

theorem Inv.admitted (h : Inv db) {scan : Scan U} {jobId : U} {row : JobRow U}
    {new : List (StepRow U)} {copies : List (ManifestRow U)}
    (ha : Admitted env scan db jobId now db' row new copies) : Inv db' := by
  obtain ⟨objects, outbox, seq, rfl⟩ := ha.result
  have hrowId := ha.rowId
  have hold : ∀ j ∈ db.jobs, j.jobId ≠ jobId := by
    intro j hj hid
    exact ha.rowFresh (hid ▸ List.mem_map_of_mem hj)
  have hnew : (db.steps ++ new).filter (fun r => r.jobId = jobId) = new := by
    rw [List.filter_append]
    have h1 : db.steps.filter (fun r => decide (r.jobId = jobId)) = [] := by
      rw [List.filter_eq_nil_iff]
      intro r hr hd
      obtain ⟨j, hj, hid⟩ := h.exists_job hr
      exact hold j hj (hid.trans (of_decide_eq_true hd))
    have h2 : new.filter (fun r => decide (r.jobId = jobId)) = new := by
      rw [List.filter_eq_self]
      intro r hr
      simp [(ha.planned r hr).jobId]
    rw [h1, h2, List.nil_append]
  have holdSteps : ∀ j ∈ db.jobs,
      (db.steps ++ new).filter (fun r => r.jobId = j.jobId) = db.stepsOf j.jobId := by
    intro j hj
    have h2 : new.filter (fun r => decide (r.jobId = j.jobId)) = [] := by
      rw [List.filter_eq_nil_iff]
      intro r hr hd
      exact hold j hj ((of_decide_eq_true hd).symm.trans (ha.planned r hr).jobId)
    rw [List.filter_append, h2, List.append_nil]
    rfl
  rw [refresh_eq]
  -- only the new job is refreshed
  have hjobs : ((db.jobs ++ [row]).map fun j => if j.jobId = jobId then
        { j with state := stateOf j (scan.order new), progress := progressOf (scan.order new)
                 updatedAt := now } else j)
      = db.jobs ++ [{ row with state := stateOf row (scan.order new)
                               progress := progressOf (scan.order new), updatedAt := now }] := by
    rw [List.map_append, List.map_singleton, if_pos hrowId]
    congr 1
    exact (List.map_congr_left fun j hj => if_neg (hold j hj)).trans (List.map_id _)
  simp only [Ledger.stepsOf, hnew, hjobs]
  refine ⟨?_, ha.nodup, ?_, ?_, ?_⟩
  · exact nodup_concat_of_not_mem h.jobIds (by rw [hrowId]; exact ha.rowFresh)
  · intro r hr
    rw [List.map_append]
    rcases List.mem_append.mp hr with hr | hr
    · exact List.mem_append_left _ (h.owned r hr)
    · refine List.mem_append_right _ ?_
      simp [(ha.planned r hr).jobId, hrowId]
  · intro j hj
    rcases List.mem_append.mp hj with hj | hj
    · show JobOk j ((db.steps ++ new).filter _)
      rw [holdSteps j hj]
      exact h.jobs j hj
    · rw [List.mem_singleton.mp hj]
      show JobOk _ ((db.steps ++ new).filter fun r => r.jobId = row.jobId)
      have hrows : (db.steps ++ new).filter (fun r => decide (r.jobId = row.jobId)) = new := by
        rw [hrowId]
        exact hnew
      rw [hrows]
      refine jobOk_refresh scan ha.nonempty ?_ ?_
      · rw [ha.rowState.2]
        refine Or.inl fun r hr => ?_
        rcases (ha.planned r hr).state with hs | hs | hs <;> rw [hs]
        · exact Or.inl rfl
        · exact Or.inl rfl
        · exact Or.inr rfl
      · intro ht
        rw [ha.rowState.1] at ht
        cases ht
  · intro id
    show id ∈ db.deadLetters.map DeadLetterRow.stepId ↔ _
    rw [h.dead]
    constructor
    · rintro ⟨r, hr, hrest⟩
      exact ⟨r, List.mem_append_left _ hr, hrest⟩
    · rintro ⟨r, hr, hid, hf⟩
      rcases List.mem_append.mp hr with hr | hr
      · exact ⟨r, hr, hid, hf⟩
      · rcases (ha.planned r hr).state with hs | hs | hs <;> rw [hs] at hf <;> cases hf

omit [DecidableEq U] in
/-- The derived columns only read the states and the specifications of the steps. -/
theorem JobOk.map {j : JobRow U} {rows : List (StepRow U)} (h : JobOk j rows)
    {g : StepRow U → StepRow U} (hg : ∀ r, (g r).state = r.state ∧ (g r).spec = r.spec) :
    JobOk j (rows.map g) := by
  have hcount : ∀ (s : StepState) (l : List (StepRow U)),
      (l.map g).countP (fun r => r.state = s) = l.countP fun r => r.state = s := by
    intro s l
    rw [List.countP_map]
    refine List.countP_congr fun r _ => ?_
    simp [(hg r).1]
  have hfind : ∀ l : List (StepRow U),
      ((l.map g).find? fun r => r.state = .running).map (fun r => r.spec.stage)
        = (l.find? fun r => r.state = .running).map fun r => r.spec.stage := by
    intro l
    rw [List.find?_map, Option.map_map]
    have h1 : (fun r : StepRow U => decide (r.state = .running)) ∘ g
        = fun r => decide (r.state = .running) := by
      funext r
      simp [(hg r).1]
    have h2 : (fun r : StepRow U => r.spec.stage) ∘ g = fun r => r.spec.stage := by
      funext r
      simp [(hg r).2]
    rw [h1, h2]
  have hprogress : ∀ l : List (StepRow U), progressOf (l.map g) = progressOf l := by
    intro l
    simp only [progressOf, hcount, hfind, List.length_map]
  have hstate : ∀ l : List (StepRow U),
      derivedState j.cancelRequested (l.map g) = derivedState j.cancelRequested l := by
    intro l
    have hall : (∀ r ∈ l.map g, r.state = .succeeded) ↔ ∀ r ∈ l, r.state = .succeeded := by
      rw [List.forall_mem_map]
      exact forall₂_congr fun r _ => by rw [(hg r).1]
    have hex : ∀ s, (∃ r ∈ l.map g, r.state = s) ↔ ∃ r ∈ l, r.state = s := by
      intro s
      simp only [List.mem_map, exists_exists_and_eq_and, (hg _).1]
    unfold derivedState openState
    rw [hprogress, if_congr hall rfl rfl, if_congr (hex _) rfl rfl, if_congr (hex _) rfl rfl]
  obtain ⟨rows', hp, hprog, hs⟩ := h.stored
  refine ⟨fun hnil => h.nonempty (List.map_eq_nil_iff.mp hnil),
    ⟨rows'.map g, hp.map g, by rw [hprogress, hprog], by rw [hstate, hs]⟩, ?_⟩
  have hshape := h.shape
  cases hc : j.cancelRequested with
  | true =>
    rw [hc] at hshape
    obtain ⟨hall, r, hr, hne⟩ := hshape
    refine ⟨List.forall_mem_map.mpr fun s hs => ?_, g r, List.mem_map_of_mem hr, ?_⟩
    · rw [(hg s).1]
      exact hall s hs
    · rw [(hg r).1]
      exact hne
  | false =>
    rw [hc] at hshape
    simp only [Shape, Live, FailedOnce, hcount, List.forall_mem_map, (hg _).1]
    exact hshape

theorem Inv.renewed (h : Inv db) (stepId : U) (expires : Time) :
    Inv { db with steps := db.steps.map (renewRow stepId expires) } := by
  have hkeep : ∀ r : StepRow U, (renewRow stepId expires r).state = r.state ∧
      (renewRow stepId expires r).spec = r.spec := by
    intro r
    unfold renewRow
    split <;> exact ⟨rfl, rfl⟩
  have hids : ∀ r : StepRow U, (renewRow stepId expires r).stepId = r.stepId ∧
      (renewRow stepId expires r).jobId = r.jobId := by
    intro r
    unfold renewRow
    split <;> exact ⟨rfl, rfl⟩
  refine ⟨h.jobIds, ?_, ?_, ?_, ?_⟩
  · show ((db.steps.map (renewRow stepId expires)).map StepRow.stepId).Nodup
    rw [List.map_map]
    have : StepRow.stepId ∘ renewRow stepId expires = (StepRow.stepId : StepRow U → U) :=
      funext fun r => (hids r).1
    rw [this]
    exact h.stepIds
  · intro r hr
    obtain ⟨r₀, hr₀, rfl⟩ := List.mem_map.mp hr
    rw [(hids r₀).2]
    exact h.owned r₀ hr₀
  · intro j hj
    rw [stepsOf_map db rfl fun r _ => (hids r).2]
    exact (h.jobs j hj).map hkeep
  · intro id
    refine (h.dead id).trans ?_
    simp only [List.mem_map, exists_exists_and_eq_and, (hids _).1, (hkeep _).1]

/-! ### Every transition -/

theorem waiting_active {s : StepState} (h : s = .ready ∨ s = .retryWait) : s.active = true := by
  rcases h with rfl | rfl <;> rfl

/-- A lease that passes the check is held on a live job. -/
theorem onLive_of_checkLease {lease : Lease U} {job : JobRow U} {row : StepRow U}
    (h : checkLease env db lease now false = .ok (job, row)) :
    OnLive db job row ∧ row.state = .running ∧ row.stepId = lease.stepId ∧
      row.jobId = lease.jobId := by
  obtain ⟨hjob, hrow, -, -, hrun, hrest⟩ := checkLease_ok h
  obtain ⟨hj, hjid, -⟩ := findJob_ok hjob
  obtain ⟨hr, hsid, hrj⟩ := findStep_ok hrow
  obtain ⟨hc, ht, -⟩ := hrest rfl
  exact ⟨⟨hj, hr, hrj.trans hjid.symm, hc, ht⟩, hrun, hsid, hrj⟩

theorem nodup_commitRow (h : Inv db) (stepId : U) :
    ((db.steps.map (commitRow now stepId)).map StepRow.stepId).Nodup := by
  have hid : StepRow.stepId ∘ commitRow now stepId = (StepRow.stepId : StepRow U → U) := by
    funext r
    simp only [Function.comp, commitRow]
    split <;> rfl
  rw [List.map_map, hid]
  exact h.stepIds

theorem Inv.committed (h : Inv db) (scan : Scan U) {lease : Lease U} {refs : List (ObjectRef U)}
    {job : JobRow U} {row : StepRow U} {db₁ : Ledger U}
    (hc : checkLease env db lease now false = .ok (job, row))
    (hact : activate env scan (recordCommit now lease refs db) job now = .ok db₁) :
    Inv (refresh scan db₁ lease.jobId now) := by
  obtain ⟨hl, hrun, hsid, hrj⟩ := onLive_of_checkLease hc
  have hcommit : ∀ r : StepRow U, (commitRow now lease.stepId r).stepId = r.stepId ∧
      (commitRow now lease.stepId r).jobId = r.jobId := by
    intro r
    unfold commitRow
    split <;> exact ⟨rfl, rfl⟩
  have hnd : ((recordCommit now lease refs db).steps.map StepRow.stepId).Nodup :=
    nodup_commitRow h lease.stepId
  obtain ⟨g, outbox, seq, rfl, hg⟩ := activate_spec hnd hact
  have hg' : ∀ r ∈ db.steps,
      Activated job.jobId (commitRow now lease.stepId r) (g (commitRow now lease.stepId r)) :=
    fun r hr => hg _ (List.mem_map_of_mem hr)
  rw [← hrj]
  refine h.rewriteLive scan hl (by rw [hrun]; rfl) (g := g ∘ commitRow now lease.stepId) ?_ ?_ ?_
    (List.map_map ..) rfl rfl
  · intro r hr
    have hid : (g (commitRow now lease.stepId r)).jobId = (commitRow now lease.stepId r).jobId := by
      rcases hg' r hr with he | ⟨-, -, key, inputs, he⟩ <;> rw [he]
    exact ⟨(stepId_of_activated (hg' r hr)).trans (hcommit r).1, hid.trans (hcommit r).2⟩
  · -- rows of other jobs are neither committed nor activated
    intro r hr hne
    have hsame : commitRow now lease.stepId r = r :=
      if_neg (hsid ▸ h.stepId_ne hr hl.row_mem hne)
    rcases hg' r hr with he | ⟨hj, -⟩
    · exact he.trans hsame
    · rw [hsame] at hj
      exact absurd (hj.trans hl.owner.symm) hne
  · intro r hr
    simp only [Function.comp]
    rcases hg' r hr with he | ⟨-, -, key, inputs, he⟩
    · rw [he]
      unfold commitRow
      split
      · exact Or.inr (Or.inr rfl)
      · exact Or.inl rfl
    · rw [he]
      exact Or.inr (Or.inl rfl)

theorem cancelRow_ids (now : Time) (stepIds : List U) (r : StepRow U) :
    (cancelRow now stepIds r).stepId = r.stepId ∧ (cancelRow now stepIds r).jobId = r.jobId := by
  unfold cancelRow
  split <;> exact ⟨rfl, rfl⟩

/-- Every transition keeps the invariant. -/
theorem inv_transition (h : Inv db) (ht : Transition env now db db') : Inv db' := by
  cases ht with
  | admitted scan jobId _ row new copies ha => exact h.admitted ha
  | retried scan job row fault retryAt hl hrun _ _ =>
    exact h.updateLive scan hl (by rw [hrun]; rfl)
      (F := fun r => { r with state := .retryWait, notBefore := retryAt
                              failureCategory := some fault.category, leaseOwner := none
                              leaseExpiresAt := none })
      (fun _ => ⟨rfl, rfl⟩) (fun _ => Or.inl rfl) rfl rfl rfl
  | failed scan job row fault category hl hrun =>
    exact h.terminalFailure scan hl (by rw [hrun]; rfl) _ category fault.classification
  | spent scan job row hl hwait =>
    exact h.terminalFailure scan hl (waiting_active hwait) db.attempts _ _
  | started scan job row owner expires hl hwait _ _ _ =>
    exact h.updateLive scan hl (waiting_active hwait)
      (F := fun r => { r with state := .running, attemptCount := row.attemptCount + 1
                              fence := row.fence + 1, leaseOwner := some owner
                              leaseExpiresAt := some expires
                              startedAt := some (r.startedAt.getD now), failureCategory := none })
      (fun _ => ⟨rfl, rfl⟩) (fun _ => Or.inl rfl) rfl rfl rfl
  | renewed lease job row expires _ => exact h.renewed lease.stepId expires
  | registered lease job row ref _ =>
    unfold Ledger.insertIntent
    split
    · exact h
    · exact h.of_same rfl rfl rfl
  | committed scan lease refs job row db₁ hc _ _ hact => exact h.committed scan hc hact
  | cancelled scan job hjob hterm =>
    rw [cancelJob_eq]
    refine h.cancelling scan hjob hterm (cancelRow_ids now _) ?_ ?_ ?_ ?_ ?_ ?_ rfl rfl rfl
    · intro r hr
      simp only [cancelRow, mem_selected h.stepIds hr]
      split
      · rename_i hs
        refine Or.inr ⟨hs.1, ?_, rfl⟩
        rw [StepState.active, hs.2, Bool.true_or]
      · exact Or.inl rfl
    · intro r hr hj hw
      unfold cancelRow
      rw [if_pos ((mem_selected h.stepIds hr).mpr ⟨hj, hw⟩)]
      rfl
    · intro j
      split <;> rfl
    · exact fun j hne => if_neg hne
    · rw [if_pos rfl]
    · rw [if_pos rfl]
      rfl
  | abandoned scan job row hl hrun =>
    rw [cancelStep_eq, cancelJob_eq, hl.owner]
    refine h.cancelling scan hl.job_mem hl.not_terminal
      (g := cancelRow now [row.stepId] ∘ cancelRow now (selected db job.jobId fun r => r.state.waiting))
      ?_ ?_ ?_ ?_ ?_ ?_ ?_ (List.map_map ..) rfl rfl
    · intro r
      have h1 := cancelRow_ids now (selected db job.jobId fun r => r.state.waiting) r
      have h2 := cancelRow_ids now [row.stepId]
        (cancelRow now (selected db job.jobId fun r => r.state.waiting) r)
      exact ⟨h2.1.trans h1.1, h2.2.trans h1.2⟩
    · intro r hr
      by_cases hs : r.jobId = job.jobId ∧ r.state.waiting = true
      · refine Or.inr ⟨hs.1, ?_, ?_⟩
        · rw [StepState.active, hs.2, Bool.true_or]
        · simp only [Function.comp, cancelRow, mem_selected h.stepIds hr, if_pos hs]
          split <;> rfl
      · simp only [Function.comp, cancelRow, mem_selected h.stepIds hr, if_neg hs]
        split
        · rename_i hid
          rw [List.mem_singleton] at hid
          rw [eq_of_stepId_eq h.stepIds hr hl.row_mem hid]
          exact Or.inr ⟨hl.owner, by rw [hrun]; rfl, rfl⟩
        · exact Or.inl rfl
    · intro r hr hj hw
      have hs : r.jobId = job.jobId ∧ r.state.waiting = true := ⟨hj, hw⟩
      simp only [Function.comp, cancelRow, mem_selected h.stepIds hr, if_pos hs]
      split <;> rfl
    · intro j
      split <;> rfl
    · exact fun j hne => if_neg hne
    · rw [if_pos rfl]
    · rw [if_pos rfl]
      rfl
  | settled scan job row hjob hrow howner hrun hdone =>
    have hact : row.state.active = true := by rw [hrun]; rfl
    have hterm := h.not_terminal hjob hrow howner hact
    have hflag : job.cancelRequested = true := by
      rcases hdone with hd | hd
      · exact hd
      · rw [hterm] at hd
        cases hd
    have hshape := (h.jobs job hjob).shape
    rw [hflag] at hshape
    rw [cancelStep_eq, howner]
    refine h.cancelling scan hjob hterm (f := id) (cancelRow_ids now _) ?_ ?_ (fun _ => rfl)
      (fun _ _ => rfl) hflag hterm rfl (List.map_id _).symm rfl
    · intro r hr
      unfold cancelRow
      split
      · rename_i hid
        rw [List.mem_singleton] at hid
        rw [eq_of_stepId_eq h.stepIds hr hrow hid]
        exact Or.inr ⟨howner, hact, rfl⟩
      · exact Or.inl rfl
    · -- nothing waits in a job that is being cancelled
      intro r hr hj hw
      rcases hshape.1 r (mem_stepsOf.mpr ⟨hr, hj⟩) with hs | hs | hs <;> rw [hs] at hw <;> cases hw
  | enqueued row hrow => exact h.of_same rfl rfl rfl
  | delivered dispatchId stepId => exact h.of_same rfl rfl rfl

end Polymind.Jobs
