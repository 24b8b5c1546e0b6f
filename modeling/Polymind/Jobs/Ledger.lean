import Polymind.Jobs.Models

/-!
# The tables of the SQLite ledger

`Ledger` holds the tables of `SQLiteJobLedger` as lists of rows in insertion order.  A column that
stores JSON text of a model holds the model's value, and a timestamp column holds microseconds.
The functions of this file are the SQL statements the operations are made of, with the
constraints of the schema that can fire: a violated `PRIMARY KEY` or `UNIQUE` raises
`ledger_error`.

SQLite returns the rows of an unordered `SELECT` in an order of its own choice; a `Scan` is such a
choice.
-/

namespace Polymind.Jobs

variable {U : Type}

/-! ### Rows -/

structure JobRow (U : Type) where
  jobId : U
  runId : U
  scope : Str
  requestKey : Str
  fingerprint : Str
  versionId : U
  sourceKey : U
  generation : Nat
  request : Admission U
  createdAt : Time
  updatedAt : Time
  documentCreatedAt : Time
  state : JobState
  cancelRequested : Bool
  progress : Progress
  terminalCategory : Option Category
deriving DecidableEq

structure StepRow (U : Type) where
  stepId : U
  jobId : U
  unitId : Str
  spec : StepSpec
  stepKey : Str
  inputFingerprint : Str
  executionAt : Time
  state : StepState
  attemptCount : Nat
  fence : Nat
  leaseOwner : Option Str
  leaseExpiresAt : Option Time
  notBefore : Time
  startedAt : Option Time
  finishedAt : Option Time
  failureCategory : Option Category
  reusedFrom : Option U
deriving DecidableEq

inductive Outcome where
  | running | succeeded | retryWait | failed | cancelled
deriving DecidableEq

structure AttemptRow (U : Type) where
  stepId : U
  number : Nat
  worker : Str
  fence : Nat
  startedAt : Time
  finishedAt : Option Time
  outcome : Outcome
  category : Option Category
  classification : Option Classification
  notBefore : Option Time
deriving DecidableEq

structure ManifestRow (U : Type) where
  stepId : U
  manifest : List (ObjectRef U)
  committedAt : Time
  fence : Nat
deriving DecidableEq

structure OutboxRow (U : Type) where
  dispatchId : Nat
  stepId : U
  createdAt : Time
  availableAt : Time
  deliveredAt : Option Time
deriving DecidableEq

structure DeadLetterRow (U : Type) where
  stepId : U
  category : Category
  classification : Classification
  createdAt : Time
deriving DecidableEq

structure IntentRow (U : Type) where
  stepId : U
  objectKey : U
  ref : ObjectRef U
  createdAt : Time
deriving DecidableEq

/-- The database.  `manifestObjects` holds the `(step_id, object_key)` pairs, `outboxSeq` the last
`AUTOINCREMENT` value. -/
structure Ledger (U : Type) where
  jobs : List (JobRow U) := []
  steps : List (StepRow U) := []
  attempts : List (AttemptRow U) := []
  manifests : List (ManifestRow U) := []
  manifestObjects : List (U × U) := []
  outbox : List (OutboxRow U) := []
  deadLetters : List (DeadLetterRow U) := []
  intents : List (IntentRow U) := []
  outboxSeq : Nat := 0
deriving DecidableEq

/-- The order in which a query without `ORDER BY` returns step rows. -/
structure Scan (U : Type) where
  order : List (StepRow U) → List (StepRow U)
  perm : ∀ rows, (order rows).Perm rows

/-- Rows in insertion order. -/
def Scan.rowid : Scan U := ⟨id, fun _ => .refl _⟩

namespace Ledger

variable [DecidableEq U] (db : Ledger U)

/-! ### Queries -/

/-- `SELECT * FROM job_steps WHERE job_id=?`. -/
def stepsOf (jobId : U) : List (StepRow U) := db.steps.filter (fun r => r.jobId = jobId)

/-- `_manifest`. -/
def manifest (stepId : U) : List (ObjectRef U) :=
  match db.manifests.find? (fun m => m.stepId = stepId) with
  | some m => m.manifest
  | none => []

/-! ### Statements -/

/-- `UPDATE job_steps SET ... WHERE step_id=?` on columns no constraint can refuse. -/
def updateStep (stepId : U) (f : StepRow U → StepRow U) : Ledger U :=
  { db with steps := db.steps.map fun r => if r.stepId = stepId then f r else r }

/-- `UPDATE jobs SET ... WHERE job_id=?`. -/
def updateJob (jobId : U) (f : JobRow U → JobRow U) : Ledger U :=
  { db with jobs := db.jobs.map fun j => if j.jobId = jobId then f j else j }

/-- `UPDATE step_attempts SET ... WHERE ...`. -/
def updateAttempts (p : AttemptRow U → Bool) (f : AttemptRow U → AttemptRow U) : Ledger U :=
  { db with attempts := db.attempts.map fun a => if p a then f a else a }

/-- `INSERT INTO jobs`, with `PRIMARY KEY(job_id)`, `UNIQUE(run_id)`, `UNIQUE(scope, request_key)`
and `UNIQUE(scope, version_id, generation)`. -/
def insertJob (row : JobRow U) : Except Raised (Ledger U) :=
  if db.jobs.any (fun j => j.jobId = row.jobId || j.runId = row.runId
      || (j.scope = row.scope && j.requestKey = row.requestKey)
      || (j.scope = row.scope && j.versionId = row.versionId && j.generation = row.generation))
  then .error (.job .ledgerError)
  else .ok { db with jobs := db.jobs ++ [row] }

/-- `INSERT INTO job_steps`, with `PRIMARY KEY(step_id)`, `UNIQUE(step_key)` and
`UNIQUE(job_id, unit_id)`. -/
def insertStep (row : StepRow U) : Except Raised (Ledger U) :=
  if db.steps.any (fun r => r.stepId = row.stepId || r.stepKey = row.stepKey
      || (r.jobId = row.jobId && r.unitId = row.unitId))
  then .error (.job .ledgerError)
  else .ok { db with steps := db.steps ++ [row] }

/-- `INSERT INTO step_attempts`, with `PRIMARY KEY(step_id, number)` and `UNIQUE(step_id, fence)`. -/
def insertAttempt (row : AttemptRow U) : Except Raised (Ledger U) :=
  if db.attempts.any (fun a => a.stepId = row.stepId && (a.number = row.number || a.fence = row.fence))
  then .error (.job .ledgerError)
  else .ok { db with attempts := db.attempts ++ [row] }

/-- `INSERT INTO artifact_manifests` and the row's `manifest_objects`, with
`PRIMARY KEY(step_id)` and `PRIMARY KEY(step_id, object_key)`. -/
def insertManifest (row : ManifestRow U) : Except Raised (Ledger U) :=
  let objects := row.manifest.map fun ref => (row.stepId, ref.key)
  if db.manifests.any (fun m => m.stepId = row.stepId)
      || !decide (db.manifestObjects ++ objects).Nodup
  then .error (.job .ledgerError)
  else .ok { db with manifests := db.manifests ++ [row],
                     manifestObjects := db.manifestObjects ++ objects }

/-- `_enqueue`. -/
def enqueue (stepId : U) (now available : Time) : Ledger U :=
  { db with outbox := db.outbox ++ [⟨db.outboxSeq + 1, stepId, now, available, none⟩],
            outboxSeq := db.outboxSeq + 1 }

/-- `INSERT OR IGNORE INTO dead_letters`, with `PRIMARY KEY(step_id)`. -/
def insertDeadLetter (row : DeadLetterRow U) : Ledger U :=
  if db.deadLetters.any (fun d => d.stepId = row.stepId) then db
  else { db with deadLetters := db.deadLetters ++ [row] }

/-- `INSERT OR IGNORE INTO object_intents`, with `PRIMARY KEY(step_id, object_key)`. -/
def insertIntent (row : IntentRow U) : Ledger U :=
  if db.intents.any (fun i => i.stepId = row.stepId && i.objectKey = row.objectKey) then db
  else { db with intents := db.intents ++ [row] }

end Ledger

end Polymind.Jobs
