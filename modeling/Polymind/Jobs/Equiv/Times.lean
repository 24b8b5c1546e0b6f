import Polymind.Jobs.Operations
import Polymind.Lib.Datetime
import Polymind.Lib.Except

/-!
# The times a ledger stores

`timed_exec`: in every database that calls lead to, when the clock reads times up to `datetime.max`, the
columns that the ledger compares hold such times.
-/

namespace Polymind.Jobs

variable {U : Type} [DecidableEq U] {env : Env U} {db db' : Ledger U} {now : Time}

/-! ### Rows -/

/-- The times of a step are up to `datetime.max`. -/
structure StepTimed (r : StepRow U) : Prop where
  executionAt : r.executionAt ≤ Datetime.maxWall
  notBefore : r.notBefore ≤ Datetime.maxWall
  leaseExpiresAt : ∀ t, r.leaseExpiresAt = some t → t ≤ Datetime.maxWall
  startedAt : ∀ t, r.startedAt = some t → t ≤ Datetime.maxWall

structure OutboxTimed (o : OutboxRow U) : Prop where
  availableAt : o.availableAt ≤ Datetime.maxWall
  deliveredAt : ∀ t, o.deliveredAt = some t → t ≤ Datetime.maxWall

structure Timed (db : Ledger U) : Prop where
  steps : ∀ r ∈ db.steps, StepTimed r
  outbox : ∀ o ∈ db.outbox, OutboxTimed o
  intents : ∀ i ∈ db.intents, i.createdAt ≤ Datetime.maxWall

theorem maxTime_eq : maxTime = Datetime.maxWall := rfl

theorem plus_le_maxWall {t d u : Time} (h : Time.plus t d = .ok u) : u ≤ Datetime.maxWall := by
  unfold Time.plus at h
  rw [maxTime_eq] at h
  split at h
  · next hle =>
    rw [← Except.ok.inj h]
    exact hle
  · cases h

namespace Timed

omit [DecidableEq U] in
theorem empty : Timed (Ledger.empty : Ledger U) := by
  refine ⟨?_, ?_, ?_⟩ <;> simp [Ledger.empty]

/-! ### Statements -/

omit [DecidableEq U] in
/-- The other tables do not matter. -/
theorem of_same (h : Timed db) (hsteps : db'.steps = db.steps) (houtbox : db'.outbox = db.outbox)
    (hintents : db'.intents = db.intents) : Timed db' :=
  ⟨hsteps ▸ h.steps, houtbox ▸ h.outbox, hintents ▸ h.intents⟩

theorem updateStep (h : Timed db) (stepId : U) {f : StepRow U → StepRow U}
    (hf : ∀ r, StepTimed r → StepTimed (f r)) : Timed (db.updateStep stepId f) := by
  refine ⟨?_, h.outbox, h.intents⟩
  intro r hr
  obtain ⟨r', hr', rfl⟩ := List.mem_map.mp hr
  split
  · exact hf r' (h.steps r' hr')
  · exact h.steps r' hr'

omit [DecidableEq U] in
theorem enqueue (h : Timed db) (stepId : U) (now : Time) {available : Time}
    (havailable : available ≤ Datetime.maxWall) : Timed (db.enqueue stepId now available) := by
  refine ⟨h.steps, ?_, h.intents⟩
  intro o ho
  rcases List.mem_append.mp ho with ho | ho
  · exact h.outbox o ho
  · rw [List.mem_singleton.mp ho]
    exact ⟨havailable, by simp⟩

theorem insertStep (h : Timed db) {row : StepRow U} (hrow : StepTimed row)
    (hins : db.insertStep row = .ok db') : Timed db' := by
  unfold Ledger.insertStep at hins
  rw [ite_error_eq_ok] at hins
  obtain rfl := Except.ok.inj hins.2
  refine ⟨?_, h.outbox, h.intents⟩
  intro r hr
  rcases List.mem_append.mp hr with hr | hr
  · exact h.steps r hr
  · rw [List.mem_singleton.mp hr]
    exact hrow

theorem insertJob (h : Timed db) {row : JobRow U} (hins : db.insertJob row = .ok db') : Timed db' := by
  unfold Ledger.insertJob at hins
  rw [ite_error_eq_ok] at hins
  obtain rfl := Except.ok.inj hins.2
  exact h.of_same rfl rfl rfl

theorem insertAttempt (h : Timed db) {row : AttemptRow U} (hins : db.insertAttempt row = .ok db') :
    Timed db' := by
  unfold Ledger.insertAttempt at hins
  rw [ite_error_eq_ok] at hins
  obtain rfl := Except.ok.inj hins.2
  exact h.of_same rfl rfl rfl

theorem insertManifest (h : Timed db) {row : ManifestRow U}
    (hins : db.insertManifest row = .ok db') : Timed db' := by
  unfold Ledger.insertManifest at hins
  rw [ite_error_eq_ok] at hins
  obtain rfl := Except.ok.inj hins.2
  exact h.of_same rfl rfl rfl

theorem insertDeadLetter (h : Timed db) (row : DeadLetterRow U) : Timed (db.insertDeadLetter row) := by
  unfold Ledger.insertDeadLetter
  split
  · exact h
  · exact h.of_same rfl rfl rfl

theorem insertIntent (h : Timed db) {row : IntentRow U} (hrow : row.createdAt ≤ Datetime.maxWall) :
    Timed (db.insertIntent row) := by
  unfold Ledger.insertIntent
  split
  · exact h
  · refine ⟨h.steps, h.outbox, ?_⟩
    intro i hi
    rcases List.mem_append.mp hi with hi | hi
    · exact h.intents i hi
    · rw [List.mem_singleton.mp hi]
      exact hrow

/-! ### Helpers of the operations -/

theorem refresh (h : Timed db) (scan : Scan U) (jobId : U) (now : Time) :
    Timed (Jobs.refresh scan db jobId now) := h.of_same rfl rfl rfl

theorem cancelStep (h : Timed db) (now : Time) (row : StepRow U) :
    Timed (Jobs.cancelStep now db row) := by
  have hcancelled : Timed (db.updateStep row.stepId (StepRow.cancelled now)) := by
    apply h.updateStep
    intro r hr
    exact ⟨hr.executionAt, hr.notBefore, by simp [StepRow.cancelled], hr.startedAt⟩
  exact hcancelled.of_same rfl rfl rfl

theorem foldl_cancelStep (h : Timed db) (now : Time) (rows : List (StepRow U)) :
    Timed (rows.foldl (Jobs.cancelStep now) db) := by
  induction rows generalizing db with
  | nil => exact h
  | cons row rows ih => exact ih (h.cancelStep now row)

theorem cancelJob (h : Timed db) (scan : Scan U) (job : JobRow U) (now : Time) :
    Timed (Jobs.cancelJob scan db job now) := by
  apply foldl_cancelStep
  exact h.of_same rfl rfl rfl

theorem terminalFailure (h : Timed db) (scan : Scan U) (row : StepRow U) (category : Category)
    (classification : Classification) (now : Time) :
    Timed (Jobs.terminalFailure scan db row category classification now) := by
  have hfailed : Timed (db.updateStep row.stepId (StepRow.failedWith now category)) := by
    apply h.updateStep
    intro r hr
    exact ⟨hr.executionAt, hr.notBefore, by simp [StepRow.failedWith], hr.startedAt⟩
  unfold Jobs.terminalFailure
  apply foldl_cancelStep
  exact (hfailed.insertDeadLetter _).of_same rfl rfl rfl

theorem failure (h : Timed db) {scan : Scan U} {job : JobRow U} {row : StepRow U}
    {fault : SanitizedFailure} (hfail : Jobs.failure env scan db job row fault now = .ok db') :
    Timed db' := by
  unfold Jobs.failure at hfail
  rw [bind_eq_ok] at hfail
  obtain ⟨retryAt, hretry, hfail⟩ := hfail
  have hretryAt := plus_le_maxWall hretry
  split at hfail
  · cases hfail
  · rw [bind_eq_ok] at hfail
    obtain ⟨deadline, -, hfail⟩ := hfail
    obtain rfl := Except.ok.inj hfail
    apply refresh
    split
    · -- the step waits until the retry
      apply enqueue _ _ _ hretryAt
      apply updateStep
      · exact h.of_same rfl rfl rfl
      · intro r hr
        exact ⟨hr.executionAt, hretryAt, by simp, hr.startedAt⟩
    · apply terminalFailure
      exact h.of_same rfl rfl rfl

theorem activate (h : Timed db) (hnow : now ≤ Datetime.maxWall) {scan : Scan U} {job : JobRow U}
    (hact : Jobs.activate env scan db job now = .ok db') : Timed db' := by
  refine foldlM_ok_induction Timed hact h ?_
  intro row _ d d' hd hstep
  unfold activateRow at hstep
  split at hstep
  · rw [← Except.ok.inj hstep]
    exact hd
  · rw [bind_eq_ok] at hstep
    obtain ⟨ready, -, hstep⟩ := hstep
    split at hstep
    · rw [ite_error_eq_ok] at hstep
      rw [← Except.ok.inj hstep.2]
      apply enqueue _ _ _ hnow
      apply hd.updateStep
      intro r hr
      exact ⟨hr.executionAt, hr.notBefore, hr.leaseExpiresAt, hr.startedAt⟩
    · rw [← Except.ok.inj hstep]
      exact hd

/-! ### Admission -/

theorem mem_reusableSteps {request : Admission U} {prior : Option (JobRow U)} {r : StepRow U}
    (h : r ∈ reusableSteps env db request prior) : r ∈ db.steps := by
  unfold reusableSteps at h
  split at h
  · cases h
  · split at h
    · exact List.mem_of_mem_filter (List.mem_of_mem_filter h)
    · cases h

theorem nextExecution_le {scope : Str} {versionId : U} {execution : Time} (hnow : now ≤ Datetime.maxWall)
    (h : nextExecution db scope versionId now = .ok execution) : execution ≤ Datetime.maxWall := by
  unfold nextExecution at h
  split at h
  · rw [← Except.ok.inj h]
    exact hnow
  · obtain ⟨later, hlater, rfl⟩ := map_eq_ok.mp h
    exact max_le hnow (plus_le_maxWall hlater)

omit [DecidableEq U] in
theorem plannedStep {request : Admission U} {jobId runId stepId : U} {generation : Nat}
    {execution : Time} {spec : StepSpec} {old : Option (StepRow U)} (hnow : now ≤ Datetime.maxWall)
    (hexecution : execution ≤ Datetime.maxWall) (hold : ∀ r, old = some r → StepTimed r) :
    StepTimed (Jobs.plannedStep env request jobId runId stepId generation execution now spec old) := by
  refine ⟨?_, hnow, by simp [Jobs.plannedStep], by simp [Jobs.plannedStep]⟩
  cases old with
  | none => exact hexecution
  | some r => exact (hold r rfl).executionAt

theorem admitStep {request : Admission U} {reusable : List (StepRow U)} {jobId runId : U}
    {fresh : Nat → U} {generation : Nat} {execution : Time} {l l' : AdmitLoop U} {spec : StepSpec}
    (h : Timed l.db) (hnow : now ≤ Datetime.maxWall) (hexecution : execution ≤ Datetime.maxWall)
    (hreusable : ∀ r ∈ reusable, StepTimed r)
    (hstep : Jobs.admitStep env request reusable jobId runId fresh generation execution now l spec
      = .ok l') : Timed l'.db := by
  unfold Jobs.admitStep at hstep
  rw [bind_eq_ok] at hstep
  obtain ⟨d, hins, hstep⟩ := hstep
  have hd : Timed d := by
    refine h.insertStep (plannedStep hnow hexecution ?_) hins
    intro r hr
    exact hreusable r (List.mem_of_find?_eq_some (Option.eq_some_of_filter_eq_some hr))
  split at hstep
  · rw [← Except.ok.inj hstep]
    exact hd
  · split at hstep
    · cases hstep
    · rw [bind_eq_ok] at hstep
      obtain ⟨d', hmanifest, hstep⟩ := hstep
      rw [← Except.ok.inj hstep]
      exact hd.insertManifest hmanifest

theorem admitJob {scan : Scan U} {request : Admission U} {jobId runId : U} {fresh : Nat → U}
    {job : JobRow U} (h : Timed db) (hnow : now ≤ Datetime.maxWall)
    (hadmitted : Jobs.admitJob env scan request jobId runId fresh now db = .ok (job, db')) :
    Timed db' := by
  unfold Jobs.admitJob at hadmitted
  rw [ite_error_eq_ok] at hadmitted
  replace hadmitted := hadmitted.2
  dsimp only at hadmitted
  split at hadmitted
  · rw [ite_error_eq_ok] at hadmitted
    obtain ⟨-, rfl⟩ := Prod.mk.inj (Except.ok.inj hadmitted.2)
    exact h
  · simp only [bind_eq_ok] at hadmitted
    obtain ⟨prior, -, inserted, hinserted, execution, hexecution, l, hloop, j, -, d, hactivate, j', -,
      hadmitted⟩ := hadmitted
    obtain ⟨-, rfl⟩ := Prod.mk.inj (Except.ok.inj hadmitted)
    apply refresh
    refine activate ?_ hnow hactivate
    refine foldlM_ok_induction (fun l => Timed l.db) hloop (h.insertJob hinserted) ?_
    intro spec _ l l' hl hstep
    refine hl.admitStep hnow (nextExecution_le hnow hexecution) ?_ hstep
    exact fun r hr => h.steps r (mem_reusableSteps hr)

/-! ### Leases -/

theorem claimReady {scan : Scan U} {job : JobRow U} {row : StepRow U} {scope : Scope U} {owner : Str}
    {hOwner : isToken owner = true} {lease : Option (Lease U)} (h : Timed db) (hnow : now ≤ Datetime.maxWall)
    (hclaim : Jobs.claimReady env scan db job row scope owner hOwner now = .ok (lease, db')) :
    Timed db' := by
  unfold Jobs.claimReady at hclaim
  rw [bind_eq_ok] at hclaim
  obtain ⟨spent, -, hclaim⟩ := hclaim
  split at hclaim
  · obtain ⟨-, rfl⟩ := Prod.mk.inj (Except.ok.inj hclaim)
    exact (h.terminalFailure ..).refresh ..
  · simp only [bind_eq_ok] at hclaim
    obtain ⟨expires, hexpires, d, hattempt, hclaim⟩ := hclaim
    obtain ⟨-, rfl⟩ := Prod.mk.inj (Except.ok.inj hclaim)
    apply refresh
    refine insertAttempt (h.updateStep _ ?_) hattempt
    intro r hr
    refine ⟨hr.executionAt, hr.notBefore, ?_, ?_⟩
    · intro t ht
      rw [← Option.some.inj ht]
      exact plus_le_maxWall hexpires
    · intro t ht
      rw [← Option.some.inj ht]
      cases hstarted : r.startedAt with
      | none => exact hnow
      | some started => exact hr.startedAt started hstarted

theorem claim {scan : Scan U} {scope : Scope U} {jobId stepId : U} {owner : Str}
    {lease : Option (Lease U)} (h : Timed db) (hnow : now ≤ Datetime.maxWall)
    (hclaim : Jobs.claim env scan scope jobId stepId owner now db = .ok (lease, db')) :
    Timed db' := by
  unfold Jobs.claim at hclaim
  split at hclaim
  · simp only [bind_eq_ok] at hclaim
    obtain ⟨job, -, row, -, hclaim⟩ := hclaim
    split at hclaim
    · obtain ⟨-, rfl⟩ := Prod.mk.inj (Except.ok.inj hclaim)
      exact h
    · rw [bind_eq_ok] at hclaim
      obtain ⟨d, hsettle, hclaim⟩ := hclaim
      have hd : Timed d := by
        unfold settleExpired at hsettle
        split at hsettle
        · exact h.failure hsettle
        · rw [← Except.ok.inj hsettle]
          exact h
      rw [bind_eq_ok] at hclaim
      obtain ⟨row', -, hclaim⟩ := hclaim
      split at hclaim
      · obtain ⟨-, rfl⟩ := Prod.mk.inj (Except.ok.inj hclaim)
        exact hd
      · exact hd.claimReady hnow hclaim
  · cases hclaim

theorem renew {lease : Lease U} (h : Timed db) (hrenew : Jobs.renew env lease now db = .ok db') :
    Timed db' := by
  unfold Jobs.renew at hrenew
  simp only [bind_eq_ok] at hrenew
  obtain ⟨-, -, expires, hexpires, hrenew⟩ := hrenew
  obtain rfl := Except.ok.inj hrenew
  apply h.updateStep
  intro r hr
  refine ⟨hr.executionAt, hr.notBefore, ?_, hr.startedAt⟩
  intro t ht
  rw [← Option.some.inj ht]
  exact plus_le_maxWall hexpires

theorem registerObject {lease : Lease U} {ref : ObjectRef U} (h : Timed db) (hnow : now ≤ Datetime.maxWall)
    (hregister : Jobs.registerObject env lease ref now db = .ok db') : Timed db' := by
  unfold Jobs.registerObject at hregister
  rw [ite_error_eq_ok, ite_error_eq_ok, bind_eq_ok] at hregister
  obtain ⟨-, -, -, -, hregister⟩ := hregister
  split at hregister
  · rw [ite_error_eq_ok] at hregister
    rw [← Except.ok.inj hregister.2]
    exact h.insertIntent hnow
  · rw [← Except.ok.inj hregister]
    exact h.insertIntent hnow

theorem commit {scan : Scan U} {lease : Lease U} {refs : List (ObjectRef U)} {row : StepRow U}
    (h : Timed db) (hnow : now ≤ Datetime.maxWall)
    (hcommit : Jobs.commit env scan lease refs now db = .ok (row, db')) : Timed db' := by
  unfold Jobs.commit at hcommit
  simp only [ite_error_eq_ok, bind_eq_ok] at hcommit
  obtain ⟨-, job, -, found, -, hcommit⟩ := hcommit
  split at hcommit
  · -- the manifest was committed before
    split at hcommit
    · cases hcommit
    · split at hcommit
      · cases hcommit
      · simp only [ite_error_eq_ok] at hcommit
        obtain ⟨-, rfl⟩ := Prod.mk.inj (Except.ok.inj hcommit.2.2)
        exact h
  · simp only [bind_eq_ok, ite_error_eq_ok] at hcommit
    obtain ⟨-, -, -, d, hmanifest, d', hactivate, found', -, hcommit⟩ := hcommit
    obtain ⟨-, rfl⟩ := Prod.mk.inj (Except.ok.inj hcommit)
    have hsucceeded : Timed (d.updateStep lease.stepId fun r =>
        { r with state := .succeeded, finishedAt := some now, leaseOwner := none,
                 leaseExpiresAt := none }) := by
      apply (h.insertManifest hmanifest).updateStep
      intro r hr
      exact ⟨hr.executionAt, hr.notBefore, by simp, hr.startedAt⟩
    apply refresh
    refine activate ?_ hnow hactivate
    exact hsucceeded.of_same rfl rfl rfl

theorem fail {scan : Scan U} {lease : Lease U} {fault : Failure} (h : Timed db)
    (hfail : Jobs.fail env scan lease fault now db = .ok db') : Timed db' := by
  unfold Jobs.fail at hfail
  rw [bind_eq_ok] at hfail
  obtain ⟨⟨job, row⟩, -, hfail⟩ := hfail
  dsimp only at hfail
  split at hfail
  · rw [← Except.ok.inj hfail]
    exact ((h.cancelJob ..).cancelStep ..).refresh ..
  · exact h.failure hfail

theorem cancel {scan : Scan U} {scope : Scope U} {jobId : U} {job : JobRow U} (h : Timed db)
    (hcancel : Jobs.cancel env scan scope jobId now db = .ok (job, db')) : Timed db' := by
  unfold Jobs.cancel at hcancel
  rw [bind_eq_ok] at hcancel
  obtain ⟨found, -, hcancel⟩ := hcancel
  split at hcancel
  · obtain ⟨-, rfl⟩ := Prod.mk.inj (Except.ok.inj hcancel)
    exact h
  · rw [bind_eq_ok] at hcancel
    obtain ⟨found', -, hcancel⟩ := hcancel
    obtain ⟨-, rfl⟩ := Prod.mk.inj (Except.ok.inj hcancel)
    exact (h.cancelJob ..).refresh ..

theorem settleCancel {scan : Scan U} {lease : Lease U} (h : Timed db)
    (hsettle : Jobs.settleCancel env scan lease now db = .ok db') : Timed db' := by
  unfold Jobs.settleCancel at hsettle
  rw [bind_eq_ok] at hsettle
  obtain ⟨⟨job, row⟩, -, hsettle⟩ := hsettle
  dsimp only at hsettle
  rw [ite_error_eq_ok] at hsettle
  rw [← Except.ok.inj hsettle.2]
  exact (h.cancelStep ..).refresh ..

/-! ### Dispatch and reconciliation -/

theorem markDelivered {message : Dispatch U} (h : Timed db) (hnow : now ≤ Datetime.maxWall)
    (hmark : Jobs.markDelivered env message now db = .ok db') : Timed db' := by
  unfold Jobs.markDelivered at hmark
  simp only [bind_eq_ok] at hmark
  obtain ⟨-, -, -, -, hmark⟩ := hmark
  split at hmark
  · rw [← Except.ok.inj hmark]
    refine ⟨h.steps, ?_, h.intents⟩
    intro o ho
    obtain ⟨o', ho', rfl⟩ := List.mem_map.mp ho
    have htimed := h.outbox o' ho'
    split
    · refine ⟨htimed.availableAt, ?_⟩
      intro t ht
      rw [← Option.some.inj ht]
      cases hdelivered : o'.deliveredAt with
      | none => exact hnow
      | some delivered => exact htimed.deliveredAt delivered hdelivered
    · exact htimed
  · cases hmark

theorem reconcile {scan : Scan U} {limit : Int} {answer : Reconciliation} (h : Timed db)
    (hnow : now ≤ Datetime.maxWall)
    (hreconcile : Jobs.reconcile env scan limit now db = .ok (answer, db')) : Timed db' := by
  unfold Jobs.reconcile at hreconcile
  simp only [bind_eq_ok] at hreconcile
  obtain ⟨n, -, ⟨d, expired⟩, hloop, cutoff, -, candidates, -, hreconcile⟩ := hreconcile
  obtain ⟨-, rfl⟩ := Prod.mk.inj (Except.ok.inj hreconcile)
  have hexpired : Timed d := by
    refine foldlM_ok_induction (fun s => Timed s.1) hloop h ?_
    rintro row - ⟨d, k⟩ ⟨d', k'⟩ hd hstep
    unfold reconcileExpired at hstep
    rw [bind_eq_ok] at hstep
    obtain ⟨found, -, hstep⟩ := hstep
    split at hstep
    · obtain ⟨rfl, -⟩ := Prod.mk.inj (Except.ok.inj hstep)
      exact hd
    · split at hstep
      · cases hstep
      · split at hstep
        · obtain ⟨rfl, -⟩ := Prod.mk.inj (Except.ok.inj hstep)
          exact (hd.cancelStep ..).refresh ..
        · rw [bind_eq_ok] at hstep
          obtain ⟨d'', hfailed, hstep⟩ := hstep
          obtain ⟨rfl, -⟩ := Prod.mk.inj (Except.ok.inj hstep)
          exact hd.failure hfailed
  have hterminal : ∀ (rows : List (StepRow U)) (d : Ledger U), Timed d →
      Timed (rows.foldl (fun db row => Jobs.refresh scan (Jobs.cancelStep now db row) row.jobId now) d) := by
    intro rows
    induction rows with
    | nil => exact fun _ hd => hd
    | cons row rows ih => exact fun d hd => ih _ ((hd.cancelStep now row).refresh ..)
  have hdue : ∀ (rows : List (StepRow U)) (d : Ledger U), Timed d →
      Timed (rows.foldl (fun db row => db.enqueue row.stepId now now) d) := by
    intro rows
    induction rows with
    | nil => exact fun _ hd => hd
    | cons row rows ih => exact fun d hd => ih _ (hd.enqueue row.stepId now hnow)
  exact hdue _ _ (hterminal _ _ hexpired)

/-! ### Runs -/

theorem step (h : Timed db) {c : Call U} (hnow : c.now ≤ Datetime.maxWall) : Timed (db.step env c).2 := by
  unfold Ledger.step transaction
  split
  · next answer d hbody =>
    unfold Call.body at hbody
    split at hbody <;> obtain ⟨r, hr, heq⟩ := map_eq_ok.mp hbody <;> cases heq
    · exact h.admitJob hnow hr
    · exact h.claim hnow hr
    · exact h.renew hr
    · exact h.registerObject hnow hr
    · exact h.commit hnow hr
    · exact h.fail hr
    · exact h.cancel hr
    · exact h.settleCancel hr
    · exact h.markDelivered hnow hr
    · exact h.reconcile hnow hr
  · exact h

end Timed

/-- When the clock reads times up to `datetime.max`, the ledger stores such times. -/
theorem timed_exec {calls : List (Call U)} (hcalls : ∀ c ∈ calls, c.now ≤ Datetime.maxWall) :
    Timed ((Ledger.empty : Ledger U).exec env calls) := by
  have hrun : ∀ (calls : List (Call U)) (db : Ledger U), (∀ c ∈ calls, c.now ≤ Datetime.maxWall) → Timed db →
      Timed (db.exec env calls) := by
    intro calls
    induction calls with
    | nil => exact fun _ _ h => h
    | cons c calls ih =>
      intro db hcalls h
      apply ih _ fun d hd => hcalls d (List.mem_cons_of_mem _ hd)
      exact h.step (hcalls c (List.mem_cons_self ..))
  exact hrun calls _ hcalls Timed.empty

end Polymind.Jobs
