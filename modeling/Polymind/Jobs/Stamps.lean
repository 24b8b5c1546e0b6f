import Polymind.Jobs.Operations
import Polymind.Lib.Isoformat

/-!
# Stored timestamps

`stamp` and `time_of` of `documents/jobs/sqlite.py`, and what the ledger decides on the texts of its
timestamp columns: in Python by the order of `str`, in SQL by the `BINARY` collation.

`column t` is the text that a column holds for the time `t` of `Polymind.Jobs.Ledger`; a query of
`Textual` is the query of `Polymind.Jobs.Operations` on the texts.
-/

namespace Polymind.Jobs

open Json

/-! ### Stamps -/

/-- `stamp`. -/
def stamp (value : Datetime) : Except Raised Str :=
  match value.utcoffset with
  | none => .error (.job .invalidConfiguration)
  | some offset =>
    match value.astimezone offset with
    | none => .error .overflowError
    | some shifted => .ok shifted.isoformatMicroseconds

/-- Ninety minutes west of UTC, on the last evening of a leap year. -/
example : stamp ⟨(2024, 12, 31), 23, 30, 0, 0, some (.other (some ⟨-5400000000, by decide, by decide⟩)),
    by decide, by decide, by decide, by decide, by decide⟩
      = .ok "2025-01-01T01:00:00.000000+00:00".toList := by
  decide +kernel

/-- `time_of`; `_transaction` turns the `ValueError` of a text that is no timestamp into
`ledger_error`. -/
def timeOf (text : Str) : Except Raised Datetime :=
  match Datetime.fromisoformat text with
  | none => .error (.job .ledgerError)
  | some value => .ok value

/-- `value + timedelta(microseconds=delta)`. -/
def plusDelta (value : Datetime) (delta : Int) : Except Raised Datetime :=
  match value.add delta with
  | none => .error .overflowError
  | some later => .ok later

/-- `stamp(time_of(text) + timedelta(microseconds=delta))`. -/
def stampAfter (text : Str) (delta : Int) : Except Raised Str := do
  let value ← timeOf text
  let later ← plusDelta value delta
  stamp later

/-- `a >= b` of two aware datetimes. -/
def notBefore (a b : Datetime) : Bool :=
  match a.instant, b.instant with
  | some i, some j => j ≤ i
  | _, _ => false

/-- `max(a, b)` of two strings. -/
def maxText (a b : Str) : Str := if keyLe b a then a else b

/-- `MAX(column)` over the texts of a column; `none` for `NULL`. -/
def sqlMax : List Str → Option Str
  | [] => none
  | text :: texts => some (texts.foldl (fun m t => if binaryLe m t then t else m) text)

/-- The text of a time, in UTC. -/
def column (t : Time) : Str :=
  if h : t ≤ Datetime.maxWall then (Datetime.ofWall t h (some .utc)).isoformatMicroseconds else []

/-! ### Decisions on texts -/

namespace Textual

variable {U : Type} [DecidableEq U]

/-- `row['lease_expires_at'] <= now`. -/
def expired (now : Str) (r : StepRow U) : Bool :=
  match r.leaseExpiresAt with
  | none => false
  | some expires => keyLe (column expires) now

/-- `not row['not_before'] > now`. -/
def due (now : Str) (r : StepRow U) : Bool := keyLe (column r.notBefore) now

/-- `time_of(now) >= time_of(row['started_at']) + timedelta(seconds=policy.budget_seconds)`. -/
def budgetSpent (policy : RetryPolicy) (row : StepRow U) (now : Str) : Except Raised Bool :=
  match row.startedAt with
  | none => .ok false
  | some startedAt => do
    let now ← timeOf now
    let started ← timeOf (column startedAt)
    let deadline ← plusDelta started (timedelta policy.budgetSeconds)
    .ok (notBefore now deadline)

/-- `retry_at < deadline` of `_failure`, after this delay. -/
def retriesInTime (policy : RetryPolicy) (startedAt : Time) (delay : Nat) (now : Str) :
    Except Raised Bool := do
  let retryAt ← stampAfter now delay
  let deadline ← stampAfter (column startedAt) (timedelta policy.budgetSeconds)
  .ok (!keyLe deadline retryAt)

/-- `execution` of `admit`. -/
def nextExecution (db : Ledger U) (scope : Str) (versionId : U) (now : Str) : Except Raised Str :=
  match sqlMax ((versionSteps db scope versionId).map fun r => column r.executionAt) with
  | none => .ok now
  | some last => (stampAfter last 1).map (maxText now)

/-- The outbox rows `pending_dispatch` selects, before its limit. -/
def pendingRows (db : Ledger U) (now : Str) : List (OutboxRow U) :=
  db.outbox.filter fun o => o.deliveredAt.isNone && binaryLe (column o.availableAt) now &&
    db.steps.any fun r => r.stepId = o.stepId && schedulable db r && binaryLe (column r.notBefore) now

/-- The rows of `object_intents` that `_orphans` selects. -/
def orphanRows (db : Ledger U) (cutoff : Str) : List (IntentRow U) :=
  db.intents.filter fun i => binaryLe (column i.createdAt) cutoff
    && db.steps.any (fun s => s.stepId = i.stepId
        && (s.state = .succeeded || s.state = .failed || s.state = .cancelled))
    && !db.jobs.any (fun j => j.sourceKey = i.objectKey)
    && !db.manifestObjects.any (fun m => m.2 = i.objectKey)
    && !db.intents.any (fun a => a.objectKey = i.objectKey
        && db.steps.any fun s => s.stepId = a.stepId && s.state.active)

/-- `ORDER BY i.created_at,i.step_id,i.object_key`. -/
def orphanBefore (env : Env U) (a b : IntentRow U) : Bool :=
  if !binaryLe (column b.createdAt) (column a.createdAt) then true
  else if !binaryLe (column a.createdAt) (column b.createdAt) then false
  else if a.stepId = b.stepId then keyLe (env.uuidStr a.objectKey) (env.uuidStr b.objectKey)
  else keyLe (env.uuidStr a.stepId) (env.uuidStr b.stepId)

/-- `_orphans`. -/
def orphans (env : Env U) (db : Ledger U) (now : Str) (limit : Nat) :
    Except Raised (List (ObjectRef U)) := do
  let cutoff ← stampAfter now (-env.orphanGraceMicros)
  .ok ((((orphanRows db cutoff).insertionSort fun a b => orphanBefore env a b = true).map
    IntentRow.ref).dedup.take limit)

/-- `lease_expires_at<=?`. -/
def leaseOver (now : Str) (r : StepRow U) : Bool :=
  match r.leaseExpiresAt with
  | none => false
  | some expires => binaryLe (column expires) now

/-- The order of the nullable column `lease_expires_at`. -/
def leaseBefore (a b : StepRow U) : Bool :=
  match a.leaseExpiresAt, b.leaseExpiresAt with
  | none, _ => true
  | some _, none => false
  | some s, some t => binaryLe (column s) (column t)

/-- The rows the first loop of `reconcile` visits. -/
def expiredRows (scan : Scan U) (db : Ledger U) (now : Str) (limit : Nat) : List (StepRow U) :=
  ((scan.order (db.steps.filter fun r => r.state = .running && leaseOver now r)).insertionSort
    fun a b => leaseBefore a b = true).take limit

/-- `delivered_at IS NULL OR delivered_at>?`. -/
def deliveredAfter (cutoff : Str) (o : OutboxRow U) : Bool :=
  match o.deliveredAt with
  | none => true
  | some delivered => !binaryLe (column delivered) cutoff

/-- The rows the third loop of `reconcile` visits. -/
def undispatchedRows (scan : Scan U) (db : Ledger U) (now cutoff : Str) (limit : Nat) :
    List (StepRow U) :=
  (scan.order (db.steps.filter fun r => schedulable db r && binaryLe (column r.notBefore) now &&
    !db.outbox.any fun o => o.stepId = r.stepId && deliveredAfter cutoff o)).take limit

end Textual

end Polymind.Jobs
