import Polymind.Jobs.Equiv.Admission

/-!
# The transitions of the ledger

`Transition env now db db'` lists every change an operation can make to the database, each with
the conditions under which the code makes it.  An operation performs zero or more of them in one
transaction: `claim` may settle an expired lease and then start an attempt, `reconcile` settles
any number of leases and then repairs the outbox.  Invariants of the ledger are proved once for
each transition; that the operations are chains of transitions is proved in
`Polymind.Jobs.Equiv.Invariant`.
-/

namespace Polymind.Jobs

variable {U : Type} [DecidableEq U]

/-! ### What happens to a row -/

/-- The row of a step whose attempt failed and may be repeated. -/
def retryRow (row : StepRow U) (retryAt : Time) (category : Category) (r : StepRow U) : StepRow U :=
  if r.stepId = row.stepId then
    { r with state := .retryWait, notBefore := retryAt, failureCategory := some category,
             leaseOwner := none, leaseExpiresAt := none }
  else r

/-- The row of the attempt that ended with a failure. -/
def closeAttempt (now : Time) (row : StepRow U) (fault : SanitizedFailure) (outcome : Outcome)
    (notBefore : Option Time) (a : AttemptRow U) : AttemptRow U :=
  if a.stepId = row.stepId ∧ a.fence = row.fence then
    { a with outcome := outcome, finishedAt := some now, category := some fault.category,
             classification := some fault.classification, notBefore := notBefore }
  else a

/-- The row of a step that `owner` claims. -/
def startRow (now : Time) (row : StepRow U) (owner : Str) (expires : Time) (r : StepRow U) :
    StepRow U :=
  if r.stepId = row.stepId then
    { r with state := .running, attemptCount := row.attemptCount + 1, fence := row.fence + 1,
             leaseOwner := some owner, leaseExpiresAt := some expires,
             startedAt := some (r.startedAt.getD now), failureCategory := none }
  else r

def startAttempt (now : Time) (row : StepRow U) (owner : Str) : AttemptRow U :=
  { stepId := row.stepId, number := row.attemptCount + 1, worker := owner, fence := row.fence + 1
    startedAt := now, finishedAt := none, outcome := .running, category := none
    classification := none, notBefore := none }

def renewRow (stepId : U) (expires : Time) (r : StepRow U) : StepRow U :=
  if r.stepId = stepId then { r with leaseExpiresAt := some expires } else r

def commitRow (now : Time) (stepId : U) (r : StepRow U) : StepRow U :=
  if r.stepId = stepId then
    { r with state := .succeeded, finishedAt := some now, leaseOwner := none, leaseExpiresAt := none }
  else r

def commitAttempt (now : Time) (lease : Lease U) (a : AttemptRow U) : AttemptRow U :=
  if a.stepId = lease.stepId ∧ a.fence = lease.fence then
    { a with outcome := .succeeded, finishedAt := some now }
  else a

/-- The tables after `commit` has recorded the manifest and before it activates successors. -/
def recordCommit (now : Time) (lease : Lease U) (refs : List (ObjectRef U)) (db : Ledger U) :
    Ledger U :=
  { db with
    manifests := db.manifests ++ [⟨lease.stepId, refs, now, lease.fence⟩]
    manifestObjects := db.manifestObjects ++ refs.map fun ref => (lease.stepId, ref.key)
    steps := db.steps.map (commitRow now lease.stepId)
    attempts := db.attempts.map (commitAttempt now lease) }

def deliverRow (now : Time) (dispatchId : Nat) (stepId : U) (o : OutboxRow U) : OutboxRow U :=
  if o.dispatchId = dispatchId ∧ o.stepId = stepId then
    { o with deliveredAt := some (o.deliveredAt.getD now) }
  else o

/-- A step of a job that accepts work. -/
structure OnLive (db : Ledger U) (job : JobRow U) (row : StepRow U) : Prop where
  job_mem : job ∈ db.jobs
  row_mem : row ∈ db.steps
  owner : row.jobId = job.jobId
  not_cancelled : job.cancelRequested = false
  not_terminal : job.state.terminal = false

/-! ### The transitions -/

inductive Transition (env : Env U) (now : Time) (db : Ledger U) : Ledger U → Prop where
  /-- `admit` of a request with a new key. -/
  | admitted (scan : Scan U) (jobId : U) (db' : Ledger U) (row : JobRow U) (new : List (StepRow U))
      (copies : List (ManifestRow U)) (h : Admitted env scan db jobId now db' row new copies) :
      Transition env now db db'
  /-- An attempt failed and another one is allowed. -/
  | retried (scan : Scan U) (job : JobRow U) (row : StepRow U) (fault : SanitizedFailure)
      (retryAt : Time) (h : OnLive db job row) (hrun : row.state = .running)
      (hdelay : now + fault.retryAfter.getD 0 ≤ retryAt)
      (hattempts : row.attemptCount < job.request.profile.retry.maxAttempts) :
      Transition env now db (refresh scan { db with
        attempts := db.attempts.map (closeAttempt now row fault .retryWait (some retryAt))
        steps := db.steps.map (retryRow row retryAt fault.category)
        outbox := db.outbox ++ [⟨db.outboxSeq + 1, row.stepId, now, retryAt, none⟩]
        outboxSeq := db.outboxSeq + 1 } row.jobId now)
  /-- An attempt failed for good. -/
  | failed (scan : Scan U) (job : JobRow U) (row : StepRow U) (fault : SanitizedFailure)
      (category : Category) (h : OnLive db job row) (hrun : row.state = .running) :
      Transition env now db (refresh scan (terminalFailure scan { db with
        attempts := db.attempts.map (closeAttempt now row fault .failed none) } row category
          fault.classification now) row.jobId now)
  /-- A waiting step has no budget left for another attempt. -/
  | spent (scan : Scan U) (job : JobRow U) (row : StepRow U) (h : OnLive db job row)
      (hwait : row.state = .ready ∨ row.state = .retryWait) :
      Transition env now db
        (refresh scan (terminalFailure scan db row .retryExhausted .nonRetryable now) row.jobId now)
  /-- `claim` starts an attempt. -/
  | started (scan : Scan U) (job : JobRow U) (row : StepRow U) (owner : Str) (expires : Time)
      (h : OnLive db job row) (hwait : row.state = .ready ∨ row.state = .retryWait)
      (hdue : row.notBefore ≤ now)
      (hbudget : budgetSpent job.request.profile.retry row now = .ok false)
      (hfresh : ∀ a ∈ db.attempts, a.stepId = row.stepId →
        a.number ≠ row.attemptCount + 1 ∧ a.fence ≠ row.fence + 1) :
      Transition env now db (refresh scan { db with
        steps := db.steps.map (startRow now row owner expires)
        attempts := db.attempts ++ [startAttempt now row owner] } row.jobId now)
  /-- `renew`. -/
  | renewed (lease : Lease U) (job : JobRow U) (row : StepRow U) (expires : Time)
      (h : checkLease env db lease now false = .ok (job, row)) :
      Transition env now db { db with steps := db.steps.map (renewRow lease.stepId expires) }
  /-- `register_object`. -/
  | registered (lease : Lease U) (job : JobRow U) (row : StepRow U) (ref : ObjectRef U)
      (h : checkLease env db lease now false = .ok (job, row)) :
      Transition env now db (db.insertIntent ⟨lease.stepId, ref.key, ref, now⟩)
  /-- `commit` of a leased step. -/
  | committed (scan : Scan U) (lease : Lease U) (refs : List (ObjectRef U)) (job : JobRow U)
      (row : StepRow U) (db₁ : Ledger U) (h : checkLease env db lease now false = .ok (job, row))
      (hintents : intentsHold db lease.stepId refs = true)
      (hnew : lease.stepId ∉ db.manifests.map ManifestRow.stepId)
      (hact : activate env scan (recordCommit now lease refs db) job now = .ok db₁) :
      Transition env now db (refresh scan db₁ lease.jobId now)
  /-- `cancel`. -/
  | cancelled (scan : Scan U) (job : JobRow U) (hjob : job ∈ db.jobs)
      (hterm : job.state.terminal = false) :
      Transition env now db (refresh scan (cancelJob scan db job now) job.jobId now)
  /-- `fail` with classification `CANCELLED`. -/
  | abandoned (scan : Scan U) (job : JobRow U) (row : StepRow U) (h : OnLive db job row)
      (hrun : row.state = .running) :
      Transition env now db
        (refresh scan (cancelStep now (cancelJob scan db job now) row) row.jobId now)
  /-- A running step of a job that no longer accepts work is cancelled. -/
  | settled (scan : Scan U) (job : JobRow U) (row : StepRow U) (hjob : job ∈ db.jobs)
      (hrow : row ∈ db.steps) (howner : row.jobId = job.jobId) (hrun : row.state = .running)
      (hdone : job.cancelRequested = true ∨ job.state.terminal = true) :
      Transition env now db (refresh scan (cancelStep now db row) row.jobId now)
  /-- `reconcile` repeats a dispatch. -/
  | enqueued (row : StepRow U) (hrow : row ∈ db.steps) :
      Transition env now db (db.enqueue row.stepId now now)
  /-- `mark_delivered`. -/
  | delivered (dispatchId : Nat) (stepId : U) :
      Transition env now db { db with outbox := db.outbox.map (deliverRow now dispatchId stepId) }

end Polymind.Jobs
