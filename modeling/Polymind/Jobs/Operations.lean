import Polymind.Jobs.Ledger

/-!
# The operations of the SQLite ledger

Each public method of `SQLiteJobLedger` is a function of the database, the clock reading taken
inside the transaction and the `Scan` of that call.  A body returns the new database or raises;
`transaction` is `_transaction`: a body that raises leaves the database as it was.

`Call` is one invocation of a mutating method with everything it reads from outside (clock, fresh
UUIDs, row order), `Ledger.step` performs it, and `Ledger.exec` performs any sequence of calls.
-/

namespace Polymind.Jobs

open Json

variable {U : Type}

/-- The ledger's settings, in microseconds, and `RetryPolicy.delay`, taken as an arbitrary
nonnegative number of microseconds. -/
structure Env (U : Type) extends Ids U where
  leaseMicros : Nat
  redeliveryMicros : Nat
  orphanGraceMicros : Nat
  delayMicros : RetryPolicy → Str → Nat → Nat

variable [DecidableEq U]

/-! ### Lookups -/

/-- `_job`. -/
def findJob (env : Env U) (db : Ledger U) (scope : Scope U) (jobId : U) : Except Raised (JobRow U) :=
  match db.jobs.find? (fun j => j.jobId = jobId && j.scope = scope.identity env.toIds) with
  | some job => .ok job
  | none => .error (.job .jobNotFound)

/-- `_step`. -/
def findStep (db : Ledger U) (jobId stepId : U) : Except Raised (StepRow U) :=
  match db.steps.find? (fun r => r.stepId = stepId && r.jobId = jobId) with
  | some row => .ok row
  | none => .error (.job .stepNotFound)

/-! ### Activation and the derived columns -/

/-- `all(rows[parent]['state'] == 'SUCCEEDED' for parent in depends_on)`. -/
def allSucceeded (rows : List (StepRow U)) : List Str → Except Raised Bool
  | [] => .ok true
  | parent :: parents =>
    match rows.find? (fun r => r.unitId = parent) with
    | none => .error .keyError
    | some row => if row.state = .succeeded then allSucceeded rows parents else .ok false

/-- The manifests of a step's parents. -/
def parentManifests (db : Ledger U) (rows : List (StepRow U)) (dependsOn : List Str) :
    List (List (ObjectRef U)) :=
  dependsOn.map fun parent =>
    match rows.find? (fun r => r.unitId = parent) with
    | none => []
    | some row => db.manifest row.stepId

/-- `fingerprint([request.compatibility(), spec, parents])`. -/
def inputFingerprint (env : Env U) (request : Admission U) (spec : StepSpec)
    (parents : List (List (ObjectRef U))) : Str :=
  env.fingerprint (.arr [.str (request.compatibility env.toIds), spec.modelDump,
    .arr (parents.map fun refs => .arr (refs.map (ObjectRef.modelDump env.toIds)))])

/-- `fingerprint([scope, version, run_id, generation, inputs])`. -/
def executionKey (env : Env U) (request : Admission U) (runId : U) (generation : Nat)
    (inputs : Str) : Str :=
  env.fingerprint (.arr [.str (request.scope.identity env.toIds),
    .str (env.uuidStr request.documentVersionId), .str (env.uuidStr runId), .nat generation,
    .str inputs])

/-- One iteration of the loop of `_activate`; `rows` is the snapshot it reads. -/
def activateRow (env : Env U) (job : JobRow U) (rows : List (StepRow U)) (now : Time)
    (db : Ledger U) (row : StepRow U) : Except Raised (Ledger U) :=
  if row.state ≠ .pending then .ok db
  else do
    let ready ← allSucceeded rows row.spec.dependsOn
    if ready then
      let inputs := inputFingerprint env job.request row.spec
        (parentManifests db rows row.spec.dependsOn)
      let key := executionKey env job.request job.runId job.generation inputs
      if db.steps.any (fun r => r.stepId ≠ row.stepId && r.stepKey = key) then
        .error (.job .ledgerError)
      else
        .ok ((db.updateStep row.stepId fun r =>
          { r with state := .ready, stepKey := key, inputFingerprint := inputs }).enqueue
            row.stepId now now)
    else .ok db

/-- `_activate`. -/
def activate (env : Env U) (scan : Scan U) (db : Ledger U) (job : JobRow U) (now : Time) :
    Except Raised (Ledger U) :=
  let rows := scan.order (db.stepsOf job.jobId)
  rows.foldlM (activateRow env job rows now) db

/-- The `progress` column `_refresh` computes from the rows of a job. -/
def progressOf (rows : List (StepRow U)) : Progress :=
  let counts (s : StepState) := rows.countP (fun r => r.state = s)
  { total := rows.length, completed := counts .succeeded, running := counts .running,
    retrying := counts .retryWait, failed := counts .failed, cancelled := counts .cancelled,
    pending := counts .pending + counts .ready,
    currentStage := (rows.find? (fun r => r.state = .running)).map fun r => r.spec.stage }

/-- `current or 'QUEUED'`. -/
def openState (rows : List (StepRow U)) : JobState :=
  match (progressOf rows).currentStage with
  | some stage => stage.jobState
  | none => .queued

/-- The `state` column `_refresh` computes. -/
def stateOf (job : JobRow U) (rows : List (StepRow U)) : JobState :=
  let counts (s : StepState) := rows.countP (fun r => r.state = s)
  if job.state.terminal then job.state
  else if job.cancelRequested then
    if counts .running ≠ 0 then .cancelRequested else .cancelled
  else if counts .failed ≠ 0 then .failed
  else if counts .succeeded = rows.length then .completed
  else openState rows

/-- `_refresh`. -/
def refresh (scan : Scan U) (db : Ledger U) (jobId : U) (now : Time) : Ledger U :=
  let rows := scan.order (db.stepsOf jobId)
  db.updateJob jobId fun job =>
    { job with state := stateOf job rows, progress := progressOf rows, updatedAt := now }

/-! ### Cancelling and failing -/

def StepRow.cancelled (now : Time) (r : StepRow U) : StepRow U :=
  { r with state := .cancelled, finishedAt := some now, failureCategory := some .cancelled,
           leaseOwner := none, leaseExpiresAt := none }

def AttemptRow.cancelled (now : Time) (a : AttemptRow U) : AttemptRow U :=
  { a with outcome := .cancelled, finishedAt := some now, category := some .cancelled,
           classification := some .cancelled }

/-- `_cancel_step`. -/
def cancelStep (now : Time) (db : Ledger U) (row : StepRow U) : Ledger U :=
  (db.updateStep row.stepId (StepRow.cancelled now)).updateAttempts
    (fun a => a.stepId = row.stepId && a.outcome = .running) (AttemptRow.cancelled now)

/-- `state IN ('PENDING','READY','RETRY_WAIT')`. -/
def StepState.waiting : StepState → Bool
  | .pending | .ready | .retryWait => true
  | _ => false

/-- `state IN ('PENDING','READY','RETRY_WAIT','RUNNING')`. -/
def StepState.active (s : StepState) : Bool := s.waiting || s = .running

/-- `_cancel_job`. -/
def cancelJob (scan : Scan U) (db : Ledger U) (job : JobRow U) (now : Time) : Ledger U :=
  let db := db.updateJob job.jobId fun j =>
    { j with cancelRequested := true, state := .cancelRequested }
  (scan.order ((db.stepsOf job.jobId).filter fun r => r.state.waiting)).foldl (cancelStep now) db

def StepRow.failedWith (now : Time) (category : Category) (r : StepRow U) : StepRow U :=
  { r with state := .failed, finishedAt := some now, failureCategory := some category,
           leaseOwner := none, leaseExpiresAt := none }

/-- `_terminal_failure`. -/
def terminalFailure (scan : Scan U) (db : Ledger U) (row : StepRow U) (category : Category)
    (classification : Classification) (now : Time) : Ledger U :=
  let db := db.updateStep row.stepId (StepRow.failedWith now category)
  let db := db.insertDeadLetter ⟨row.stepId, category, classification, now⟩
  let db := db.updateJob row.jobId fun j =>
    { j with state := .failed, terminalCategory := some category }
  (scan.order ((db.stepsOf row.jobId).filter fun r => r.state.active)).foldl (cancelStep now) db

/-- `_failure`. -/
def failure (env : Env U) (scan : Scan U) (db : Ledger U) (job : JobRow U) (row : StepRow U)
    (fault : SanitizedFailure) (now : Time) : Except Raised (Ledger U) := do
  let policy := job.request.profile.retry
  let delay := max (env.delayMicros policy row.stepKey (max row.attemptCount 1))
    (fault.retryAfter.getD 0)
  let retryAt ← Time.plus now delay
  match row.startedAt with
  | none => .error (.job .ledgerError)
  | some startedAt =>
    let deadline ← Time.plus startedAt (timedelta policy.budgetSeconds)
    let retry := fault.classification = .retryable && row.attemptCount < policy.maxAttempts
      && retryAt < deadline
    let category := if retry || fault.classification ≠ .retryable then fault.category
      else .retryExhausted
    let db := db.updateAttempts (fun a => a.stepId = row.stepId && a.fence = row.fence) fun a =>
      { a with outcome := if retry then .retryWait else .failed, finishedAt := some now,
               category := some fault.category, classification := some fault.classification,
               notBefore := if retry then some retryAt else none }
    let db :=
      if retry then
        (db.updateStep row.stepId fun r =>
          { r with state := .retryWait, notBefore := retryAt, failureCategory := some category,
                   leaseOwner := none, leaseExpiresAt := none }).enqueue row.stepId now retryAt
      else terminalFailure scan db row category fault.classification now
    .ok (refresh scan db row.jobId now)

/-- The failure that an expired lease stands for. -/
def workerInterrupted : SanitizedFailure := ⟨.workerInterrupted, .retryable, none⟩

/-! ### Admission -/

/-- The step row `admit` inserts for `spec`; `old` is the row it reuses, if it does. -/
def plannedStep (env : Env U) (request : Admission U) (jobId runId stepId : U) (generation : Nat)
    (execution now : Time) (spec : StepSpec) (old : Option (StepRow U)) : StepRow U :=
  { stepId, jobId, unitId := spec.unitId, spec
    stepKey := match old with
      | some o => executionKey env request runId generation o.inputFingerprint
      | none => env.fingerprint (.arr [.str (env.uuidStr runId), spec.modelDump, .text "planned"])
    inputFingerprint := match old with
      | some o => o.inputFingerprint
      | none => request.compatibility env.toIds
    executionAt := match old with
      | some o => o.executionAt
      | none => execution
    state := if old.isSome then .succeeded else .pending
    attemptCount := 0, fence := 0, leaseOwner := none, leaseExpiresAt := none, notBefore := now
    startedAt := none, finishedAt := old.map fun _ => now, failureCategory := none
    reusedFrom := old.map fun o => o.stepId }

/-- What the loop of `admit` carries: the database, the units copied so far and the number of UUIDs
drawn. -/
structure AdmitLoop (U : Type) where
  db : Ledger U
  copied : List Str
  drawn : Nat

/-- One iteration of the loop of `admit` over the requested steps. -/
def admitStep (env : Env U) (request : Admission U) (reusable : List (StepRow U))
    (jobId runId : U) (fresh : Nat → U) (generation : Nat) (execution now : Time)
    (s : AdmitLoop U) (spec : StepSpec) : Except Raised (AdmitLoop U) := do
  let stepId := fresh s.drawn
  let old := (reusable.find? fun r => r.unitId = spec.unitId).filter fun o =>
    o.spec = spec && spec.dependsOn.all s.copied.contains
  let db ← s.db.insertStep
    (plannedStep env request jobId runId stepId generation execution now spec old)
  match old with
  | none => .ok ⟨db, s.copied, s.drawn + 1⟩
  | some o =>
    match db.manifests.find? (fun m => m.stepId = o.stepId) with
    | none => .error (.job .ledgerError)
    | some m =>
      let db ← db.insertManifest ⟨stepId, m.manifest, now, 0⟩
      .ok ⟨db, spec.unitId :: s.copied, s.drawn + 1⟩

/-- The job `resume_from` names, checked. -/
def resumed (env : Env U) (db : Ledger U) (request : Admission U) (prior : U) :
    Except Raised (JobRow U) := do
  let job ← findJob env db request.scope prior
  if !job.state.terminal then .error (.job .invalidTransition)
  else if job.request.documentId ≠ request.documentId
      || job.request.documentVersionId ≠ request.documentVersionId then
    .error (.job .invalidTransition)
  else .ok job

/-- `prior`: the resumed job, if the request names one. -/
def priorJob (env : Env U) (db : Ledger U) (request : Admission U) :
    Except Raised (Option (JobRow U)) :=
  match request.resumeFrom with
  | none => .ok none
  | some prior => (resumed env db request prior).map some

/-- `reusable`: the succeeded steps of a compatible prior job. -/
def reusableSteps (env : Env U) (db : Ledger U) (request : Admission U) :
    Option (JobRow U) → List (StepRow U)
  | none => []
  | some job =>
    if job.request.compatibility env.toIds = request.compatibility env.toIds then
      (db.stepsOf job.jobId).filter fun r => r.state = .succeeded
    else []

/-- `SELECT COALESCE(MAX(generation),0)+1 FROM jobs WHERE scope=? AND version_id=?`. -/
def nextGeneration (db : Ledger U) (scope : Str) (versionId : U) : Nat :=
  ((db.jobs.filter fun j => j.scope = scope && j.versionId = versionId).map
    JobRow.generation).foldl max 0 + 1

/-- The rows of `job_steps` of the jobs of one scope and version. -/
def versionSteps (db : Ledger U) (scope : Str) (versionId : U) : List (StepRow U) :=
  db.steps.filter fun s =>
    db.jobs.any fun j => j.jobId = s.jobId && j.scope = scope && j.versionId = versionId

/-- `execution`: now, but a microsecond after every earlier execution of the version. -/
def nextExecution (db : Ledger U) (scope : Str) (versionId : U) (now : Time) : Except Raised Time :=
  match ((versionSteps db scope versionId).map StepRow.executionAt).max? with
  | none => .ok now
  | some last => (Time.plus last 1).map (max now)

/-- The row `admit` inserts into `jobs`. -/
def plannedJob (env : Env U) (db : Ledger U) (request : Admission U) (jobId runId : U)
    (prior : Option (JobRow U)) (now : Time) : JobRow U :=
  { jobId, runId, scope := request.scope.identity env.toIds
    requestKey := request.requestIdempotencyKey, fingerprint := request.digest env.toIds
    versionId := request.documentVersionId, sourceKey := request.source.key
    generation := nextGeneration db (request.scope.identity env.toIds) request.documentVersionId
    request, createdAt := now, updatedAt := now
    documentCreatedAt := (prior.map JobRow.documentCreatedAt).getD now, state := .queued
    cancelRequested := false, progress := {}, terminalCategory := none }

/-- `admit`; `fresh` gives the UUIDs drawn for the steps. -/
def admitJob (env : Env U) (scan : Scan U) (request : Admission U) (jobId runId : U) (fresh : Nat → U)
    (now : Time) (db : Ledger U) : Except Raised (JobRow U × Ledger U) :=
  if !request.valid env.toIds then .error (.job .invalidConfiguration)
  else
    let scope := request.scope.identity env.toIds
    match db.jobs.find? (fun j => j.scope = scope && j.requestKey = request.requestIdempotencyKey) with
    | some existing =>
      if existing.fingerprint ≠ request.digest env.toIds then .error (.job .idempotencyConflict)
      else .ok (existing, db)
    | none => do
      let prior ← priorJob env db request
      let row := plannedJob env db request jobId runId prior now
      let inserted ← db.insertJob row
      let execution ← nextExecution inserted scope request.documentVersionId now
      let loop ← request.steps.foldlM
        (admitStep env request (reusableSteps env db request prior) jobId runId fresh row.generation
          execution now) ⟨inserted, [], 0⟩
      let job ← findJob env loop.db request.scope jobId
      let db ← activate env scan loop.db job now
      let db := refresh scan db jobId now
      let job ← findJob env db request.scope jobId
      .ok (job, db)

/-! ### Leases -/

/-- `_check_lease`. -/
def checkLease (env : Env U) (db : Ledger U) (lease : Lease U) (now : Time) (settling : Bool) :
    Except Raised (JobRow U × StepRow U) := do
  let job ← findJob env db lease.scope lease.jobId
  let row ← findStep db lease.jobId lease.stepId
  if row.fence ≠ lease.fence || row.leaseOwner ≠ some lease.owner then .error (.job .staleFence)
  else if row.state ≠ .running then .error (.job .invalidTransition)
  else if settling then .ok (job, row)
  else if job.cancelRequested then .error (.job .cancelled)
  else if job.state.terminal then .error (.job .invalidTransition)
  else match row.leaseExpiresAt with
    | none => .error (.job .ledgerError)
    | some expires => if expires ≤ now then .error (.job .leaseExpired) else .ok (job, row)

/-- `lease_expires_at <= now` on a row. -/
def StepRow.expired (now : Time) (r : StepRow U) : Bool :=
  match r.leaseExpiresAt with
  | none => false
  | some expires => expires ≤ now

/-- `started_at + budget <= now`: no further attempt may start. -/
def budgetSpent (policy : RetryPolicy) (row : StepRow U) (now : Time) : Except Raised Bool :=
  match row.startedAt with
  | none => .ok false
  | some startedAt =>
    (Time.plus startedAt (timedelta policy.budgetSeconds)).map fun deadline =>
      decide (deadline ≤ now)

/-- The last part of `claim`: a `READY` or `RETRY_WAIT` row is given to `owner`, or fails because
its budget is spent. -/
def claimReady (env : Env U) (scan : Scan U) (db : Ledger U) (job : JobRow U) (row : StepRow U)
    (scope : Scope U) (owner : Str) (hOwner : isToken owner = true) (now : Time) :
    Except Raised (Option (Lease U) × Ledger U) := do
  let spent ← budgetSpent job.request.profile.retry row now
  if spent then
    let db := terminalFailure scan db row .retryExhausted .nonRetryable now
    .ok (none, refresh scan db row.jobId now)
  else
    let expires ← Time.plus now env.leaseMicros
    let db := db.updateStep row.stepId fun r =>
      { r with state := .running, attemptCount := row.attemptCount + 1, fence := row.fence + 1,
               leaseOwner := some owner, leaseExpiresAt := some expires,
               startedAt := some (r.startedAt.getD now), failureCategory := none }
    let db ← db.insertAttempt
      { stepId := row.stepId, number := row.attemptCount + 1, worker := owner
        fence := row.fence + 1, startedAt := now, finishedAt := none, outcome := .running
        category := none, classification := none, notBefore := none }
    .ok (some ⟨scope, row.jobId, row.stepId, owner, row.fence + 1, hOwner, Nat.succ_pos _⟩,
      refresh scan db row.jobId now)

/-- An expired lease is settled as an interrupted attempt. -/
def settleExpired (env : Env U) (scan : Scan U) (db : Ledger U) (job : JobRow U) (row : StepRow U)
    (now : Time) : Except Raised (Ledger U) :=
  if row.state = .running && row.expired now then
    failure env scan db job row workerInterrupted now
  else .ok db

/-- `claim`. -/
def claim (env : Env U) (scan : Scan U) (scope : Scope U) (jobId stepId : U) (owner : Str)
    (now : Time) (db : Ledger U) : Except Raised (Option (Lease U) × Ledger U) :=
  if hOwner : isToken owner = true then do
    let job ← findJob env db scope jobId
    let row ← findStep db jobId stepId
    if job.cancelRequested || job.state.terminal then .ok (none, db)
    else
      -- the row is read again after an expired lease has been settled
      let db ← settleExpired env scan db job row now
      let row ← findStep db jobId stepId
      if (row.state ≠ .ready && row.state ≠ .retryWait) || now < row.notBefore then .ok (none, db)
      else claimReady env scan db job row scope owner hOwner now
  else .error (.job .invalidConfiguration)

/-- `renew`. -/
def renew (env : Env U) (lease : Lease U) (now : Time) (db : Ledger U) :
    Except Raised (Ledger U) := do
  let _ ← checkLease env db lease now false
  let expires ← Time.plus now env.leaseMicros
  .ok (db.updateStep lease.stepId fun r => { r with leaseExpiresAt := some expires })

/-- The checks `commit` makes on its manifest before the transaction. -/
def manifestOk (env : Env U) (lease : Lease U) (refs : List (ObjectRef U)) : Bool :=
  refs.all (ObjectRef.valid env.toIds) && 1 ≤ refs.length && refs.length ≤ 1000
    && decide (refs.map ObjectRef.key).Nodup
    && refs.all fun r => r.scope = lease.scope && r.kind = .artifact

/-- Every reference of the manifest was registered, identically, for the step. -/
def intentsHold (db : Ledger U) (stepId : U) (refs : List (ObjectRef U)) : Bool :=
  refs.all fun ref =>
    match db.intents.find? (fun i => i.stepId = stepId && i.objectKey = ref.key) with
    | none => false
    | some intent => intent.ref = ref

/-- `commit`. -/
def commit (env : Env U) (scan : Scan U) (lease : Lease U) (refs : List (ObjectRef U)) (now : Time)
    (db : Ledger U) : Except Raised (StepRow U × Ledger U) :=
  if !manifestOk env lease refs then .error (.job .manifestConflict)
  else do
    let job ← findJob env db lease.scope lease.jobId
    let row ← findStep db lease.jobId lease.stepId
    if row.state = .succeeded then
      match db.manifests.find? (fun m => m.stepId = lease.stepId) with
      | none => .error (.job .ledgerError)
      | some prior =>
        match db.attempts.find? (fun a => a.stepId = lease.stepId && a.fence = lease.fence) with
        | none => .error (.job .staleFence)
        | some attempt =>
          if prior.fence ≠ lease.fence || attempt.worker ≠ lease.owner then
            .error (.job .staleFence)
          else if prior.manifest ≠ refs then .error (.job .manifestConflict)
          else .ok (row, db)
    else
      let _ ← checkLease env db lease now false
      if !intentsHold db lease.stepId refs then .error (.job .manifestConflict)
      else
        let db ← db.insertManifest ⟨lease.stepId, refs, now, lease.fence⟩
        let db := db.updateStep lease.stepId fun r =>
          { r with state := .succeeded, finishedAt := some now, leaseOwner := none,
                   leaseExpiresAt := none }
        let db := db.updateAttempts (fun a => a.stepId = lease.stepId && a.fence = lease.fence)
          fun a => { a with outcome := .succeeded, finishedAt := some now }
        let db ← activate env scan db job now
        let db := refresh scan db lease.jobId now
        let row ← findStep db lease.jobId lease.stepId
        .ok (row, db)

/-- `fail`. -/
def fail (env : Env U) (scan : Scan U) (lease : Lease U) (fault : Failure) (now : Time)
    (db : Ledger U) : Except Raised (Ledger U) := do
  let fault := fault.sanitized
  let (job, row) ← checkLease env db lease now false
  if fault.classification = .cancelled then
    let db := cancelJob scan db job now
    let db := cancelStep now db row
    .ok (refresh scan db row.jobId now)
  else failure env scan db job row fault now

/-- `cancel`. -/
def cancel (env : Env U) (scan : Scan U) (scope : Scope U) (jobId : U) (now : Time)
    (db : Ledger U) : Except Raised (JobRow U × Ledger U) := do
  let job ← findJob env db scope jobId
  if job.state.terminal then .ok (job, db)
  else
    let db := cancelJob scan db job now
    let db := refresh scan db jobId now
    let job ← findJob env db scope jobId
    .ok (job, db)

/-- `settle_cancel`. -/
def settleCancel (env : Env U) (scan : Scan U) (lease : Lease U) (now : Time) (db : Ledger U) :
    Except Raised (Ledger U) := do
  let (job, row) ← checkLease env db lease now true
  if !job.cancelRequested then .error (.job .invalidTransition)
  else .ok (refresh scan (cancelStep now db row) lease.jobId now)

/-- `register_object`. -/
def registerObject (env : Env U) (lease : Lease U) (ref : ObjectRef U) (now : Time)
    (db : Ledger U) : Except Raised (Ledger U) :=
  if !ref.valid env.toIds then .error (.job .manifestConflict)
  else if ref.scope ≠ lease.scope then .error (.job .scopeMismatch)
  else do
    let _ ← checkLease env db lease now false
    match db.intents.find? (fun i => i.stepId = lease.stepId && i.objectKey = ref.key) with
    | some existing =>
      if existing.ref ≠ ref then .error (.job .manifestConflict)
      else .ok (db.insertIntent ⟨lease.stepId, ref.key, ref, now⟩)
    | none => .ok (db.insertIntent ⟨lease.stepId, ref.key, ref, now⟩)

/-! ### Dispatch, orphans, reconciliation -/

/-- `bounded`. -/
def bounded (limit : Int) : Except Raised Nat :=
  if 1 ≤ limit ∧ limit ≤ 1000 then .ok limit.toNat else .error (.job .invalidConfiguration)

/-- The job of a step, as the `JOIN` of the scheduler queries gives it, accepts work. -/
def schedulable (db : Ledger U) (r : StepRow U) : Bool :=
  (r.state = .ready || r.state = .retryWait) && db.jobs.any fun j =>
    j.jobId = r.jobId && !j.cancelRequested && !j.state.terminal

/-- The outbox rows `pending_dispatch` selects, before its limit. -/
def pendingRows (db : Ledger U) (now : Time) : List (OutboxRow U) :=
  db.outbox.filter fun o => o.deliveredAt.isNone && o.availableAt ≤ now &&
    db.steps.any fun r => r.stepId = o.stepId && schedulable db r && r.notBefore ≤ now

/-- `mark_delivered`. -/
def markDelivered (env : Env U) (message : Dispatch U) (now : Time) (db : Ledger U) :
    Except Raised (Ledger U) := do
  let _ ← findJob env db message.scope message.jobId
  let _ ← findStep db message.jobId message.stepId
  if db.outbox.any fun o => o.dispatchId = message.dispatchId && o.stepId = message.stepId then
    .ok { db with outbox := db.outbox.map fun o =>
      if o.dispatchId = message.dispatchId && o.stepId = message.stepId then
        { o with deliveredAt := some (o.deliveredAt.getD now) } else o }
  else .error (.job .dispatchError)

/-- The rows of `object_intents` that `_orphans` selects. -/
def orphanRows (db : Ledger U) (cutoff : Time) : List (IntentRow U) :=
  db.intents.filter fun i => i.createdAt ≤ cutoff
    && db.steps.any (fun s => s.stepId = i.stepId
        && (s.state = .succeeded || s.state = .failed || s.state = .cancelled))
    && !db.jobs.any (fun j => j.sourceKey = i.objectKey)
    && !db.manifestObjects.any (fun m => m.2 = i.objectKey)
    && !db.intents.any (fun a => a.objectKey = i.objectKey
        && db.steps.any fun s => s.stepId = a.stepId && s.state.active)

/-- `ORDER BY i.created_at,i.step_id,i.object_key`. -/
def orphanBefore (env : Env U) (a b : IntentRow U) : Bool :=
  if a.createdAt < b.createdAt then true
  else if b.createdAt < a.createdAt then false
  else if a.stepId = b.stepId then keyLe (env.uuidStr a.objectKey) (env.uuidStr b.objectKey)
  else keyLe (env.uuidStr a.stepId) (env.uuidStr b.stepId)

/-- `_orphans`. -/
def orphans (env : Env U) (db : Ledger U) (now : Time) (limit : Nat) :
    Except Raised (List (ObjectRef U)) := do
  let cutoff ← Time.minus now env.orphanGraceMicros
  .ok ((((orphanRows db cutoff).insertionSort fun a b => orphanBefore env a b = true).map
    IntentRow.ref).dedup.take limit)

/-- `orphan_candidates`. -/
def orphanCandidates (env : Env U) (limit : Int) (now : Time) (db : Ledger U) :
    Except Raised (List (ObjectRef U)) := do
  let limit ← bounded limit
  orphans env db now limit

/-- One iteration of the first loop of `reconcile`, over rows whose lease has expired. -/
def reconcileExpired (env : Env U) (scan : Scan U) (now : Time) (s : Ledger U × Nat)
    (row : StepRow U) : Except Raised (Ledger U × Nat) := do
  let (db, expired) := s
  let row ← findStep db row.jobId row.stepId
  -- an earlier failure may have settled this row
  if row.state ≠ .running then .ok (db, expired)
  else match db.jobs.find? (fun j => j.jobId = row.jobId) with
    | none => .error (.job .ledgerError)
    | some job =>
      if job.cancelRequested || job.state.terminal then
        .ok (refresh scan (cancelStep now db row) row.jobId now, expired + 1)
      else do
        let db ← failure env scan db job row workerInterrupted now
        .ok (db, expired + 1)

/-- The rows the first loop of `reconcile` visits. -/
def expiredRows (scan : Scan U) (db : Ledger U) (now : Time) (limit : Nat) : List (StepRow U) :=
  ((scan.order (db.steps.filter fun r => r.state = .running && r.expired now)).insertionSort
    fun a b => a.leaseExpiresAt.getD 0 ≤ b.leaseExpiresAt.getD 0).take limit

/-- The rows the second loop of `reconcile` visits: active steps of terminal jobs. -/
def terminalRows (scan : Scan U) (db : Ledger U) (limit : Nat) : List (StepRow U) :=
  (scan.order (db.steps.filter fun r => r.state.active &&
    db.jobs.any fun j => j.jobId = r.jobId && j.state.terminal)).take limit

/-- The rows the third loop of `reconcile` visits: due steps without a recent delivery. -/
def undispatchedRows (scan : Scan U) (db : Ledger U) (now cutoff : Time) (limit : Nat) :
    List (StepRow U) :=
  (scan.order (db.steps.filter fun r => schedulable db r && r.notBefore ≤ now &&
    !db.outbox.any fun o => o.stepId = r.stepId &&
      match o.deliveredAt with
      | none => true
      | some delivered => cutoff < delivered)).take limit

/-- `reconcile`. -/
def reconcile (env : Env U) (scan : Scan U) (limit : Int) (now : Time) (db : Ledger U) :
    Except Raised (Reconciliation × Ledger U) := do
  let limit ← bounded limit
  let (db, expired) ← (expiredRows scan db now limit).foldlM (reconcileExpired env scan now) (db, 0)
  let terminal := terminalRows scan db limit
  let db := terminal.foldl (fun db row => refresh scan (cancelStep now db row) row.jobId now) db
  let cutoff ← Time.minus now env.redeliveryMicros
  let due := undispatchedRows scan db now cutoff limit
  let db := due.foldl (fun db row => db.enqueue row.stepId now now) db
  let count := db.outbox.countP fun o => o.deliveredAt.isNone &&
    db.steps.any fun r => r.stepId = o.stepId && schedulable db r
  let candidates ← orphans env db now limit
  .ok (⟨expired, due.length, terminal.length, count, candidates.length⟩, db)

/-! ### Calls and runs -/

/-- A mutating method with its arguments. -/
inductive Op (U : Type) where
  | admitJob (request : Admission U) (jobId runId : U) (fresh : Nat → U)
  | claim (scope : Scope U) (jobId stepId : U) (owner : Str)
  | renew (lease : Lease U)
  | registerObject (lease : Lease U) (ref : ObjectRef U)
  | commit (lease : Lease U) (refs : List (ObjectRef U))
  | fail (lease : Lease U) (fault : Failure)
  | cancel (scope : Scope U) (jobId : U)
  | settleCancel (lease : Lease U)
  | markDelivered (message : Dispatch U)
  | reconcile (limit : Int)

/-- What a method returns. -/
inductive Answer (U : Type) where
  | job (row : JobRow U)
  | lease (lease : Option (Lease U))
  | step (row : StepRow U)
  | reconciliation (r : Reconciliation)
  | none

/-- One invocation: the method, the clock reading inside its transaction and the row order. -/
structure Call (U : Type) where
  op : Op U
  now : Time
  scan : Scan U

/-- The body of a call's transaction. -/
def Call.body (env : Env U) (c : Call U) (db : Ledger U) : Except Raised (Answer U × Ledger U) :=
  match c.op with
  | .admitJob request jobId runId fresh =>
    (admitJob env c.scan request jobId runId fresh c.now db).map fun r => (.job r.1, r.2)
  | .claim scope jobId stepId owner =>
    (claim env c.scan scope jobId stepId owner c.now db).map fun r => (.lease r.1, r.2)
  | .renew lease => (renew env lease c.now db).map fun db => (.none, db)
  | .registerObject lease ref => (registerObject env lease ref c.now db).map fun db => (.none, db)
  | .commit lease refs => (commit env c.scan lease refs c.now db).map fun r => (.step r.1, r.2)
  | .fail lease fault => (fail env c.scan lease fault c.now db).map fun db => (.none, db)
  | .cancel scope jobId => (cancel env c.scan scope jobId c.now db).map fun r => (.job r.1, r.2)
  | .settleCancel lease => (settleCancel env c.scan lease c.now db).map fun db => (.none, db)
  | .markDelivered message => (markDelivered env message c.now db).map fun db => (.none, db)
  | .reconcile limit => (reconcile env c.scan limit c.now db).map fun r => (.reconciliation r.1, r.2)

/-- `_transaction`: commit what the body did, or roll back and raise. -/
def transaction {α : Type} (body : Ledger U → Except Raised (α × Ledger U)) (db : Ledger U) :
    Except Raised α × Ledger U :=
  match body db with
  | .ok (a, db') => (.ok a, db')
  | .error e => (.error e, db)

namespace Ledger

/-- One call as a serial transaction. -/
def step (env : Env U) (db : Ledger U) (c : Call U) : Except Raised (Answer U) × Ledger U :=
  transaction (c.body env) db

/-- The database after a sequence of calls. -/
def exec (env : Env U) (db : Ledger U) (calls : List (Call U)) : Ledger U :=
  calls.foldl (fun db c => (db.step env c).2) db

/-- The database of a new ledger. -/
def empty : Ledger U := {}

end Ledger

end Polymind.Jobs
