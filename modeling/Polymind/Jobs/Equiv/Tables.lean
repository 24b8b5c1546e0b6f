import Polymind.Jobs.Operations
import Polymind.Lib.Except

/-!
# What the statements do to the tables

Each helper of the ledger's operations is described by one equation or one specification lemma, so
that the invariants never unfold it:

* `findJob_ok`, `findStep_ok`, `checkLease_ok`: what a lookup that returns has found;
* `foldl_cancelStep`: the loops over `_cancel_step` as one map over the steps and the attempts;
* `cancelJob_eq`, `terminalFailure_eq`: `_cancel_job` and `_terminal_failure`;
* `activate_ok`, `activate_spec`: `_activate` turns the `PENDING` rows of the job whose parents have
  succeeded into `READY` ones, and announces them in the outbox;
* `refresh_eq`: `_refresh` only rewrites the derived columns of one job.
-/

namespace Polymind.Jobs

variable {U : Type} [DecidableEq U] {env : Env U} {db db' : Ledger U}

/-! ### Lookups -/

theorem findJob_ok {scope : Scope U} {jobId : U} {job : JobRow U}
    (h : findJob env db scope jobId = .ok job) :
    job ∈ db.jobs ∧ job.jobId = jobId ∧ job.scope = scope.identity env.toIds := by
  unfold findJob at h
  split at h
  · rename_i found hf
    have hp := List.find?_some hf
    simp only [Bool.and_eq_true, decide_eq_true_eq] at hp
    cases h
    exact ⟨List.mem_of_find?_eq_some hf, hp.1, hp.2⟩
  · cases h

theorem findStep_ok {jobId stepId : U} {row : StepRow U} (h : findStep db jobId stepId = .ok row) :
    row ∈ db.steps ∧ row.stepId = stepId ∧ row.jobId = jobId := by
  unfold findStep at h
  split at h
  · rename_i found hf
    have hp := List.find?_some hf
    simp only [Bool.and_eq_true, decide_eq_true_eq] at hp
    cases h
    exact ⟨List.mem_of_find?_eq_some hf, hp.1, hp.2⟩
  · cases h

/-- A lease that passes `_check_lease` is the one its row carries, and, unless it is only being
settled, its job still accepts work and it has not expired. -/
theorem checkLease_ok {lease : Lease U} {now : Time} {settling : Bool} {job : JobRow U}
    {row : StepRow U} (h : checkLease env db lease now settling = .ok (job, row)) :
    findJob env db lease.scope lease.jobId = .ok job ∧
    findStep db lease.jobId lease.stepId = .ok row ∧
    row.fence = lease.fence ∧ row.leaseOwner = some lease.owner ∧ row.state = .running ∧
    (settling = false → job.cancelRequested = false ∧ job.state.terminal = false ∧
      row.expired now = false) := by
  unfold checkLease at h
  rw [bind_eq_ok] at h
  obtain ⟨job', hjob, h⟩ := h
  rw [bind_eq_ok] at h
  obtain ⟨row', hrow, h⟩ := h
  rw [ite_error_eq_ok, ite_error_eq_ok] at h
  obtain ⟨hlease, hrun, h⟩ := h
  simp only [Bool.or_eq_true, decide_eq_true_eq, not_or, not_not] at hlease hrun
  cases settling with
  | true =>
    simp only [if_true, Except.ok.injEq, Prod.mk.injEq] at h
    obtain ⟨rfl, rfl⟩ := h
    exact ⟨hjob, hrow, hlease.1, hlease.2, hrun, by simp⟩
  | false =>
    simp only [Bool.false_eq_true, if_false, ite_error_eq_ok, Bool.not_eq_true] at h
    obtain ⟨hc, ht, h⟩ := h
    split at h
    · cases h
    · rename_i expires he
      rw [ite_error_eq_ok] at h
      obtain ⟨hexp, h⟩ := h
      simp only [Except.ok.injEq, Prod.mk.injEq] at h
      obtain ⟨rfl, rfl⟩ := h
      refine ⟨hjob, hrow, hlease.1, hlease.2, hrun, fun _ => ⟨hc, ht, ?_⟩⟩
      simp only [StepRow.expired, he, decide_eq_false_iff_not]
      exact hexp

/-! ### Rows and maps -/

omit [DecidableEq U] in
/-- Rows with one step id are one row. -/
theorem eq_of_stepId_eq (hnd : (db.steps.map StepRow.stepId).Nodup) {r s : StepRow U}
    (hr : r ∈ db.steps) (hs : s ∈ db.steps) (h : r.stepId = s.stepId) : r = s :=
  List.inj_on_of_nodup_map hnd hr hs h

theorem mem_stepsOf {jobId : U} {r : StepRow U} :
    r ∈ db.stepsOf jobId ↔ r ∈ db.steps ∧ r.jobId = jobId := by
  simp [Ledger.stepsOf]

/-- A statement that keeps `job_id` maps the rows of each job. -/
theorem filter_map_jobId (rows : List (StepRow U)) (g : StepRow U → StepRow U)
    (hg : ∀ r ∈ rows, (g r).jobId = r.jobId) (jobId : U) :
    (rows.map g).filter (fun r => r.jobId = jobId)
      = (rows.filter fun r => r.jobId = jobId).map g := by
  induction rows with
  | nil => rfl
  | cons r rows ih =>
    have hr := hg r (List.mem_cons_self ..)
    have ih := ih fun s hs => hg s (List.mem_cons_of_mem _ hs)
    by_cases hj : r.jobId = jobId <;> simp [hr, hj, ih]

/-! ### Cancelling -/

/-- The rows of a statement list that cancels the steps with ids in `stepIds`. -/
def cancelRow (now : Time) (stepIds : List U) (r : StepRow U) : StepRow U :=
  if r.stepId ∈ stepIds then r.cancelled now else r

def cancelAttempt (now : Time) (stepIds : List U) (a : AttemptRow U) : AttemptRow U :=
  if a.stepId ∈ stepIds ∧ a.outcome = .running then a.cancelled now else a

theorem cancelRow_append (now : Time) (ids ids' : List U) (r : StepRow U) :
    cancelRow now ids (cancelRow now ids' r) = cancelRow now (ids' ++ ids) r := by
  unfold cancelRow
  by_cases h : r.stepId ∈ ids' <;> by_cases h' : r.stepId ∈ ids <;> simp [h, h', StepRow.cancelled]

theorem cancelAttempt_append (now : Time) (ids ids' : List U) (a : AttemptRow U) :
    cancelAttempt now ids (cancelAttempt now ids' a) = cancelAttempt now (ids' ++ ids) a := by
  unfold cancelAttempt
  by_cases h : a.stepId ∈ ids' <;> by_cases h' : a.stepId ∈ ids <;>
    by_cases ho : a.outcome = .running <;> simp [h, h', ho, AttemptRow.cancelled]

theorem cancelStep_eq (now : Time) (db : Ledger U) (row : StepRow U) :
    cancelStep now db row = { db with
      steps := db.steps.map (cancelRow now [row.stepId])
      attempts := db.attempts.map (cancelAttempt now [row.stepId]) } := by
  unfold cancelStep Ledger.updateStep Ledger.updateAttempts
  congr 1
  · refine List.map_congr_left fun r _ => ?_
    simp [cancelRow]
  · refine List.map_congr_left fun a _ => ?_
    simp [cancelAttempt]

/-- The loops over `_cancel_step` are one map: cancelling twice is cancelling once. -/
theorem foldl_cancelStep (now : Time) (rows : List (StepRow U)) (db : Ledger U) :
    rows.foldl (cancelStep now) db = { db with
      steps := db.steps.map (cancelRow now (rows.map StepRow.stepId))
      attempts := db.attempts.map (cancelAttempt now (rows.map StepRow.stepId)) } := by
  induction rows generalizing db with
  | nil =>
    have h1 : db.steps.map (cancelRow now []) = db.steps := by
      rw [List.map_congr_left (g := id) fun r _ => by simp [cancelRow], List.map_id]
    have h2 : db.attempts.map (cancelAttempt now []) = db.attempts := by
      rw [List.map_congr_left (g := id) fun r _ => by simp [cancelAttempt], List.map_id]
    simp only [List.foldl_nil, List.map_nil, h1, h2]
  | cons row rows ih =>
    rw [List.foldl_cons, ih, cancelStep_eq]
    simp only [List.map_map, List.map_cons]
    congr 1
    · exact List.map_congr_left fun r _ => cancelRow_append now _ [row.stepId] r
    · exact List.map_congr_left fun a _ => cancelAttempt_append now _ [row.stepId] a

/-- The rows of `db` that a statement with condition `p` on one job selects. -/
def selected (db : Ledger U) (jobId : U) (p : StepRow U → Bool) : List U :=
  ((db.stepsOf jobId).filter p).map StepRow.stepId

theorem mem_selected {jobId : U} {p : StepRow U → Bool} {r : StepRow U}
    (hnd : (db.steps.map StepRow.stepId).Nodup) (hr : r ∈ db.steps) :
    r.stepId ∈ selected db jobId p ↔ r.jobId = jobId ∧ p r = true := by
  simp only [selected, List.mem_map, List.mem_filter, mem_stepsOf]
  constructor
  · rintro ⟨s, ⟨⟨hs, hj⟩, hp⟩, hid⟩
    have hsr := eq_of_stepId_eq hnd hs hr hid
    rw [← hsr]
    exact ⟨hj, hp⟩
  · rintro ⟨hj, hp⟩
    exact ⟨r, ⟨⟨hr, hj⟩, hp⟩, rfl⟩

/-- `_cancel_job`: the flag is set and the waiting steps of the job are cancelled. -/
theorem cancelJob_eq (scan : Scan U) (db : Ledger U) (job : JobRow U) (now : Time) :
    cancelJob scan db job now = { db with
      jobs := db.jobs.map fun j => if j.jobId = job.jobId then
        { j with cancelRequested := true, state := .cancelRequested } else j
      steps := db.steps.map (cancelRow now (selected db job.jobId fun r => r.state.waiting))
      attempts := db.attempts.map
        (cancelAttempt now (selected db job.jobId fun r => r.state.waiting)) } := by
  unfold cancelJob
  simp only [foldl_cancelStep]
  have hmem : ∀ x, x ∈ (scan.order (((db.updateJob job.jobId fun j =>
        { j with cancelRequested := true, state := .cancelRequested }).stepsOf job.jobId).filter
          fun r => r.state.waiting)).map StepRow.stepId
      ↔ x ∈ selected db job.jobId fun r => r.state.waiting := by
    intro x
    exact ((scan.perm _).map StepRow.stepId).mem_iff
  congr 1
  · refine List.map_congr_left fun r _ => ?_
    simp only [cancelRow, hmem]
  · refine List.map_congr_left fun a _ => ?_
    simp only [cancelAttempt, hmem]

/-! ### Terminal failures -/

theorem mem_insertDeadLetter (db : Ledger U) {x : DeadLetterRow U} {id : U} :
    id ∈ (db.insertDeadLetter x).deadLetters.map DeadLetterRow.stepId ↔
      id ∈ db.deadLetters.map DeadLetterRow.stepId ∨ id = x.stepId := by
  unfold Ledger.insertDeadLetter
  split
  · -- the letter is there already
    rename_i hany
    rw [List.any_eq_true] at hany
    obtain ⟨d, hd, hid⟩ := hany
    refine ⟨Or.inl, fun hc => hc.elim (fun hm => hm) fun hm => ?_⟩
    rw [hm, ← of_decide_eq_true hid]
    exact List.mem_map_of_mem hd
  · simp

/-- What `_terminal_failure` does to the row of each step. -/
def failRow (now : Time) (row : StepRow U) (category : Category) (r : StepRow U) : StepRow U :=
  if r.stepId = row.stepId then r.failedWith now category
  else if r.jobId = row.jobId ∧ r.state.active then r.cancelled now
  else r

/-- The steps `_terminal_failure` cancels beside the one that failed. -/
def siblings (db : Ledger U) (row : StepRow U) : List U :=
  selected db row.jobId fun r => r.state.active && r.stepId ≠ row.stepId

theorem terminalFailure_eq (scan : Scan U) (db : Ledger U) (row : StepRow U) (category : Category)
    (classification : Classification) (now : Time) (hnd : (db.steps.map StepRow.stepId).Nodup) :
    terminalFailure scan db row category classification now = { db with
      jobs := db.jobs.map fun j => if j.jobId = row.jobId then
        { j with state := .failed, terminalCategory := some category } else j
      steps := db.steps.map (failRow now row category)
      attempts := db.attempts.map (cancelAttempt now (siblings db row))
      deadLetters :=
        (db.insertDeadLetter ⟨row.stepId, category, classification, now⟩).deadLetters } := by
  have hdead : ∀ (d : Ledger U) (x : DeadLetterRow U), d.insertDeadLetter x
      = { d with deadLetters := (d.insertDeadLetter x).deadLetters } := by
    intro d x
    unfold Ledger.insertDeadLetter
    split <;> rfl
  -- the rows that are active after the failed one has been written are its siblings
  have hmem : ∀ x, x ∈ (scan.order ((((db.steps.map fun r =>
        if r.stepId = row.stepId then r.failedWith now category else r).filter
          fun r => r.jobId = row.jobId)).filter fun r => r.state.active)).map StepRow.stepId
      ↔ x ∈ siblings db row := by
    intro x
    rw [((scan.perm _).map StepRow.stepId).mem_iff]
    simp only [siblings, selected, List.mem_map, List.mem_filter, mem_stepsOf, Bool.and_eq_true,
      decide_eq_true_eq, ne_eq]
    constructor
    · rintro ⟨s, ⟨⟨⟨r, hr, rfl⟩, hj⟩, ha⟩, rfl⟩
      by_cases hid : r.stepId = row.stepId
      · rw [if_pos hid] at ha
        simp [StepRow.failedWith, StepState.active, StepState.waiting] at ha
      · rw [if_neg hid] at hj ha ⊢
        exact ⟨r, ⟨⟨hr, hj⟩, ha, hid⟩, rfl⟩
    · rintro ⟨r, ⟨⟨hr, hj⟩, ha, hid⟩, rfl⟩
      exact ⟨r, ⟨⟨⟨r, hr, if_neg hid⟩, hj⟩, ha⟩, rfl⟩
  unfold terminalFailure
  simp only [foldl_cancelStep]
  rw [hdead]
  simp only [Ledger.updateStep, Ledger.updateJob, Ledger.stepsOf, List.map_map]
  congr 1
  · refine List.map_congr_left fun r hr => ?_
    by_cases hid : r.stepId = row.stepId
    · have hnot : r.stepId ∉ siblings db row := by
        rw [siblings, mem_selected hnd hr]
        simp [hid]
      have hfid : (r.failedWith now category).stepId = r.stepId := rfl
      simp only [Function.comp, failRow, if_pos hid, cancelRow, hmem, hfid, if_neg hnot]
    · have hiff : r.stepId ∈ siblings db row ↔ r.jobId = row.jobId ∧ r.state.active = true := by
        rw [siblings, mem_selected hnd hr]
        simp [hid]
      simp only [Function.comp, failRow, if_neg hid, cancelRow, hmem, hiff]
  · refine List.map_congr_left fun a _ => ?_
    simp only [cancelAttempt, hmem]
  · unfold Ledger.insertDeadLetter
    split <;> rfl

/-! ### Activation and refresh -/

/-- A `PENDING` row whose parents have all succeeded, among the rows of its job. -/
structure Due (rows : List (StepRow U)) (r : StepRow U) : Prop where
  pending : r.state = .pending
  parents : ∀ parent ∈ r.spec.dependsOn, ∃ p,
    rows.find? (fun r => r.unitId = parent) = some p ∧ p.state = .succeeded

omit [DecidableEq U] in
theorem allSucceeded_ok {rows : List (StepRow U)} {parents : List Str} {ready : Bool}
    (h : allSucceeded rows parents = .ok ready) : ready = true ↔ ∀ parent ∈ parents, ∃ p,
      rows.find? (fun r => r.unitId = parent) = some p ∧ p.state = .succeeded := by
  induction parents with
  | nil =>
    obtain rfl := Except.ok.inj h
    simp
  | cons parent parents ih =>
    rw [allSucceeded] at h
    rw [List.forall_mem_cons]
    split at h
    · cases h
    · rename_i p hp
      split at h
      · rename_i hs
        rw [ih h]
        exact ⟨fun hrest => ⟨⟨p, hp, hs⟩, hrest⟩, And.right⟩
      · rename_i hs
        obtain rfl := Except.ok.inj h
        refine ⟨fun hf => (Bool.false_ne_true hf).elim, fun hf => ?_⟩
        obtain ⟨q, hq, hqs⟩ := hf.1
        rw [hp] at hq
        exact absurd (Option.some.inj hq ▸ hqs) hs

/-- The fingerprint of the inputs of a step, from the manifests its parents have. -/
def inputsOf (env : Env U) (job : JobRow U) (db : Ledger U) (rows : List (StepRow U))
    (r : StepRow U) : Str :=
  inputFingerprint env job.request r.spec (parentManifests db rows r.spec.dependsOn)

/-- The row of a step that `_activate` makes `READY`. -/
def readyRow (env : Env U) (job : JobRow U) (db : Ledger U) (rows : List (StepRow U))
    (r : StepRow U) : StepRow U :=
  { r with state := .ready
           stepKey := executionKey env job.request job.runId job.generation
             (inputsOf env job db rows r)
           inputFingerprint := inputsOf env job db rows r }

/-- What `_activate` does to the tables when it visits the rows `done` of the job's `rows`: the due
ones become `READY` and are announced in the outbox. -/
structure Activates (env : Env U) (job : JobRow U) (now : Time) (db : Ledger U)
    (rows done : List (StepRow U)) (db' : Ledger U) (g : StepRow U → StepRow U)
    (sent : List (OutboxRow U)) : Prop where
  result : db' = { db with steps := db.steps.map g, outbox := db.outbox ++ sent
                           outboxSeq := db.outboxSeq + sent.length }
  due : ∀ r ∈ done, Due rows r → g r = readyRow env job db rows r
  rest : ∀ r ∈ db.steps, ¬(r ∈ done ∧ Due rows r) → g r = r
  announced : ∀ r ∈ done, Due rows r → ∃ o ∈ sent, o.stepId = r.stepId
  sent : ∀ o ∈ sent, o.availableAt = now ∧ o.deliveredAt = none ∧
    ∃ r ∈ done, Due rows r ∧ r.stepId = o.stepId
  keys : (db.steps.map StepRow.stepKey).Nodup → (db'.steps.map StepRow.stepKey).Nodup

/-- A new key for one row that no other row has. -/
theorem nodup_setKey {l : List (StepRow U)} {id : U} {key : Str} {f : StepRow U → StepRow U}
    (hids : (l.map StepRow.stepId).Nodup) (hkeys : (l.map StepRow.stepKey).Nodup)
    (hfree : ∀ r ∈ l, r.stepId ≠ id → r.stepKey ≠ key) (hf : ∀ r, (f r).stepKey = key) :
    ((l.map fun r => if r.stepId = id then f r else r).map StepRow.stepKey).Nodup := by
  have hids : l.Pairwise fun a b => a.stepId ≠ b.stepId := List.pairwise_map.mp hids
  have hkeys : l.Pairwise fun a b => a.stepKey ≠ b.stepKey := List.pairwise_map.mp hkeys
  rw [List.Nodup, List.pairwise_map, List.pairwise_map]
  refine (hids.and hkeys).imp_of_mem fun {a b} ha hb hab => ?_
  by_cases h1 : a.stepId = id
  · have h2 : b.stepId ≠ id := fun h2 => hab.1 (h1.trans h2.symm)
    rw [if_pos h1, if_neg h2, hf]
    exact (hfree b hb h2).symm
  · rw [if_neg h1]
    by_cases h2 : b.stepId = id
    · rw [if_pos h2, hf]
      exact hfree a ha h1
    · rw [if_neg h2]
      exact hab.2

/-- One iteration of the loop of `_activate`. -/
theorem activateRow_ok {job : JobRow U} {now : Time} {rows done : List (StepRow U)} {row : StepRow U}
    {d d' : Ledger U} {g : StepRow U → StepRow U} {sent : List (OutboxRow U)}
    (hnd : (db.steps.map StepRow.stepId).Nodup) (hrow : row ∈ db.steps) (hnew : row ∉ done)
    (hdone : ∀ r ∈ done, r ∈ db.steps) (h : Activates env job now db rows done d g sent)
    (hstep : activateRow env job rows now d row = .ok d') :
    ∃ g' sent', Activates env job now db rows (done ++ [row]) d' g' sent' := by
  have hgrow : g row = row := h.rest row hrow fun hd => hnew hd.1
  have hgid : ∀ r ∈ db.steps, (g r).stepId = r.stepId := by
    intro r hr
    by_cases hd : r ∈ done ∧ Due rows r
    · rw [h.due r hd.1 hd.2]
      rfl
    · rw [h.rest r hr hd]
  -- a row that is not due is passed over
  have hskip : ¬Due rows row → Activates env job now db rows (done ++ [row]) d g sent := by
    intro hnot
    have hmem : ∀ r, r ∈ done ++ [row] ∧ Due rows r ↔ r ∈ done ∧ Due rows r := by
      intro r
      rw [List.mem_append, List.mem_singleton]
      constructor
      · rintro ⟨hr | rfl, hd⟩
        · exact ⟨hr, hd⟩
        · exact absurd hd hnot
      · exact fun hr => ⟨Or.inl hr.1, hr.2⟩
    refine ⟨h.result, fun r hr hd => ?_, fun r hr hd => ?_, fun r hr hd => ?_, fun o ho => ?_, h.keys⟩
    · exact h.due r ((hmem r).mp ⟨hr, hd⟩).1 hd
    · exact h.rest r hr fun hc => hd ((hmem r).mpr hc)
    · exact h.announced r ((hmem r).mp ⟨hr, hd⟩).1 hd
    · obtain ⟨h1, h2, r, hr, hd, hid⟩ := h.sent o ho
      exact ⟨h1, h2, r, List.mem_append_left _ hr, hd, hid⟩
  unfold activateRow at hstep
  split at hstep
  · rename_i hpend
    obtain rfl := Except.ok.inj hstep
    exact ⟨g, sent, hskip fun hd => hpend hd.pending⟩
  · rename_i hpend
    rw [not_not] at hpend
    rw [bind_eq_ok] at hstep
    obtain ⟨ready, hready, hstep⟩ := hstep
    have hdue : ready = true ↔ Due rows row :=
      (allSucceeded_ok hready).trans ⟨fun hp => ⟨hpend, hp⟩, Due.parents⟩
    cases ready with
    | false =>
      obtain rfl := Except.ok.inj hstep
      exact ⟨g, sent, hskip fun hd => Bool.false_ne_true (hdue.mpr hd)⟩
    | true =>
      have hdue := hdue.mp rfl
      simp only [if_true, ite_error_eq_ok, Except.ok.injEq] at hstep
      obtain ⟨hfree, rfl⟩ := hstep
      have hman : parentManifests d rows row.spec.dependsOn
          = parentManifests db rows row.spec.dependsOn := by
        rw [h.result]
        rfl
      rw [hman] at hfree ⊢
      refine ⟨fun r => if (g r).stepId = row.stepId then readyRow env job db rows row else g r,
        sent ++ [⟨d.outboxSeq + 1, row.stepId, now, now, none⟩], ?_, ?_, ?_, ?_, ?_, ?_⟩
      · have hsteps : d.steps = db.steps.map g := by rw [h.result]
        have hmap : (d.steps.map fun r => if r.stepId = row.stepId then { r with
              state := .ready
              stepKey := executionKey env job.request job.runId job.generation
                (inputFingerprint env job.request row.spec
                  (parentManifests db rows row.spec.dependsOn))
              inputFingerprint := inputFingerprint env job.request row.spec
                (parentManifests db rows row.spec.dependsOn) } else r)
            = db.steps.map fun r =>
              if (g r).stepId = row.stepId then readyRow env job db rows row else g r := by
          rw [hsteps, List.map_map]
          refine List.map_congr_left fun r hr => ?_
          simp only [Function.comp]
          by_cases hid : (g r).stepId = row.stepId
          · have hrr := eq_of_stepId_eq hnd hr hrow ((hgid r hr).symm.trans hid)
            rw [if_pos hid, if_pos hid, hrr, hgrow]
            rfl
          · rw [if_neg hid, if_neg hid]
        rw [Ledger.updateStep, hmap, Ledger.enqueue, h.result]
        simp only [List.append_assoc, List.length_append, List.length_singleton, Nat.add_assoc]
      · intro r hr hd
        rcases List.mem_append.mp hr with hr | hr
        · have hg := h.due r hr hd
          have hne : (g r).stepId ≠ row.stepId := by
            intro hid
            have hrr := (hgid r (hdone r hr)).symm.trans hid
            exact hnew (eq_of_stepId_eq hnd (hdone r hr) hrow hrr ▸ hr)
          rw [if_neg hne, hg]
        · rw [List.mem_singleton.mp hr, hgrow, if_pos rfl]
      · intro r hr hd
        have hne : (g r).stepId ≠ row.stepId := by
          intro hid
          have hrr := eq_of_stepId_eq hnd hr hrow ((hgid r hr).symm.trans hid)
          exact hd ⟨List.mem_append_right _ (List.mem_singleton.mpr hrr), hrr ▸ hdue⟩
        rw [if_neg hne]
        exact h.rest r hr fun hc => hd ⟨List.mem_append_left _ hc.1, hc.2⟩
      · intro r hr hd
        rcases List.mem_append.mp hr with hr | hr
        · obtain ⟨o, ho, hid⟩ := h.announced r hr hd
          exact ⟨o, List.mem_append_left _ ho, hid⟩
        · rw [List.mem_singleton.mp hr]
          exact ⟨_, List.mem_append_right _ (List.mem_singleton.mpr rfl), rfl⟩
      · intro o ho
        rcases List.mem_append.mp ho with ho | ho
        · obtain ⟨h1, h2, r, hr, hd, hid⟩ := h.sent o ho
          exact ⟨h1, h2, r, List.mem_append_left _ hr, hd, hid⟩
        · rw [List.mem_singleton.mp ho]
          exact ⟨rfl, rfl, row, List.mem_append_right _ (List.mem_singleton.mpr rfl), hdue, rfl⟩
      · intro hkeys
        have hids : (d.steps.map StepRow.stepId).Nodup := by
          rw [h.result, List.map_map]
          exact (List.map_congr_left fun r hr => hgid r hr) ▸ hnd
        refine nodup_setKey hids (h.keys hkeys) ?_ fun _ => rfl
        intro r hr hid hkey
        refine hfree (List.any_eq_true.mpr ⟨r, hr, ?_⟩)
        rw [Bool.and_eq_true]
        exact ⟨decide_eq_true hid, decide_eq_true hkey⟩

/-- `_activate`: the due rows of the job become `READY`, with an entry in the outbox each. -/
theorem activate_ok {scan : Scan U} {job : JobRow U} {now : Time}
    (hnd : (db.steps.map StepRow.stepId).Nodup) (h : activate env scan db job now = .ok db') :
    ∃ g sent, Activates env job now db (scan.order (db.stepsOf job.jobId))
      (scan.order (db.stepsOf job.jobId)) db' g sent := by
  unfold activate at h
  have hperm := scan.perm (db.stepsOf job.jobId)
  have hnodup : (scan.order (db.stepsOf job.jobId)).Nodup :=
    hperm.nodup_iff.mpr (hnd.of_map.filter _)
  refine foldlM_ok_prefix (fun done d => ∃ g sent, Activates env job now db
    (scan.order (db.stepsOf job.jobId)) done d g sent) h ?_ ?_
  · refine ⟨id, [], by simp, ?_, fun _ _ _ => rfl, ?_, ?_, fun hk => hk⟩ <;> simp
  · rintro done row d d' ⟨rest, hsplit⟩ ⟨g, sent, hg⟩ hd
    have hmem : ∀ r ∈ done ++ row :: rest, r ∈ db.steps := fun r hr =>
      (mem_stepsOf.mp (hperm.mem_iff.mp (hsplit ▸ hr))).1
    have hrow := hmem row (List.mem_append_right _ (List.mem_cons_self ..))
    have hnew : row ∉ done := by
      rw [hsplit, List.nodup_append] at hnodup
      exact fun hmem => hnodup.2.2 row hmem row (List.mem_cons_self ..) rfl
    exact activateRow_ok hnd hrow hnew (fun r hr => hmem r (List.mem_append_left _ hr)) hg hd

/-- What `_activate` may do to a row of the job. -/
def Activated (jobId : U) (r r' : StepRow U) : Prop :=
  r' = r ∨ (r.jobId = jobId ∧ r.state = .pending ∧ ∃ key inputs,
    r' = { r with state := .ready, stepKey := key, inputFingerprint := inputs })

/-- `_activate` rewrites steps and appends to the outbox, nothing else, and the steps it rewrites
were `PENDING` rows of the job, which it makes `READY`. -/
theorem activate_spec {scan : Scan U} {job : JobRow U} {now : Time}
    (hnd : (db.steps.map StepRow.stepId).Nodup) (h : activate env scan db job now = .ok db') :
    ∃ g outbox seq, db' = { db with steps := db.steps.map g, outbox := outbox, outboxSeq := seq } ∧
      ∀ r ∈ db.steps, Activated job.jobId r (g r) := by
  obtain ⟨g, sent, hg⟩ := activate_ok hnd h
  refine ⟨g, _, _, hg.result, fun r hr => ?_⟩
  by_cases hd : r ∈ scan.order (db.stepsOf job.jobId) ∧ Due (scan.order (db.stepsOf job.jobId)) r
  · have hjob := (mem_stepsOf.mp ((scan.perm _).mem_iff.mp hd.1)).2
    exact Or.inr ⟨hjob, hd.2.pending, _, _, hg.due r hd.1 hd.2⟩
  · exact Or.inl (hg.rest r hr hd)

theorem refresh_eq (scan : Scan U) (db : Ledger U) (jobId : U) (now : Time) :
    refresh scan db jobId now = { db with jobs := db.jobs.map fun j => if j.jobId = jobId then
      { j with state := stateOf j (scan.order (db.stepsOf jobId)),
               progress := progressOf (scan.order (db.stepsOf jobId)), updatedAt := now } else j } :=
  rfl

end Polymind.Jobs
