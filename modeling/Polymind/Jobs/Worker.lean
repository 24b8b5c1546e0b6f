import Polymind.Jobs.Operations

/-!
# The worker

`Worker.once` of `documents/jobs/worker.py`: receive a message, claim its step, run the handler,
report the result to the ledger and acknowledge the message.  Other workers, cancellations and
reconciliations may run between any two ledger calls of the worker, and any ledger call may fail:
a `Script` says what happens around each of them.  The handler, the store it writes to and the
dispatcher are arbitrary.

A `Run` records what the worker did, with the ledger before and after each of its calls since the
handler ran.
-/

namespace Polymind.Jobs

variable {U D E α : Type}

deriving instance DecidableEq for Dispatch

/-! ### The dispatcher -/

/-- `WorkDispatcher`: each method returns or raises, and leaves a state of the dispatcher. -/
structure WorkDispatcher (U D : Type) where
  receive : D → Except Unit (Option (Dispatch U)) × D
  acknowledge : Dispatch U → D → Except Unit Unit × D

variable [DecidableEq U]

/-- `LocalDispatcher`, whose state is its `deque`. -/
def localDispatcher : WorkDispatcher U (List (Dispatch U)) where
  receive messages := (.ok messages.head?, messages)
  acknowledge message messages :=
    (.ok (), if messages.head? = some message then messages.tail else messages)

/-! ### Ledger calls -/

/-- What a ledger call raises: a `JobError`, or an exception that `except JobError` lets through. -/
inductive Signal where
  | jobError (category : Category)
  | other
deriving DecidableEq

def Raised.signal : Raised → Signal
  | .job category => .jobError category
  | .overflowError | .keyError => .other

/-- What keeps a call from ending as the body of its transaction does.  `written` tells whether the
transaction was committed all the same. -/
inductive Disturbance where
  /-- `_safe_path` refuses the path, or `stamp` the clock. -/
  | misconfigured
  /-- SQLite or the file system fails. -/
  | unavailable (written : Bool)
  /-- An exception that is no `Exception`, such as an interrupt. -/
  | interrupted (written : Bool)

def Disturbance.signal : Disturbance → Signal
  | .misconfigured => .jobError .invalidConfiguration
  | .unavailable _ => .jobError .ledgerError
  | .interrupted _ => .other

def Disturbance.written : Disturbance → Bool
  | .misconfigured => false
  | .unavailable written | .interrupted written => written

/-- The surroundings of one ledger call: the calls of others that come first, the clock reading and
the row order of its transaction, and what disturbs it. -/
structure Moment (U : Type) where
  before : List (Call U)
  now : Time
  scan : Scan U
  disturbance : Option Disturbance

/-- The ledger and the clock at one moment. -/
structure Sight (U : Type) where
  db : Ledger U
  now : Time

/-- The ledger a worker leaves, and the moments it has passed. -/
structure Trail (U : Type) where
  db : Ledger U
  seen : List (Sight U)

/-- From here on, moments are counted anew. -/
def Trail.fresh (t : Trail U) : Trail U := ⟨t.db, []⟩

/-- How a transaction ends that found `db` and would end with `r`. -/
def disturbed (disturbance : Option Disturbance) (db : Ledger U)
    (r : Except Raised α × Ledger U) : Except Signal α × Ledger U :=
  match disturbance with
  | none => (r.1.mapError Raised.signal, r.2)
  | some d => (.error d.signal, if d.written then r.2 else db)

/-- A ledger call at its moment. -/
def Moment.perform (env : Env U) (m : Moment U)
    (body : Scan U → Time → Ledger U → Except Raised (α × Ledger U)) (t : Trail U) :
    Except Signal α × Trail U :=
  let db := t.db.exec env m.before
  let r := disturbed m.disturbance db (transaction (body m.scan m.now) db)
  (r.1, ⟨r.2, t.seen ++ [⟨db, m.now⟩, ⟨r.2, m.now⟩]⟩)

/-- `get_job`. -/
def getJob (env : Env U) (scope : Scope U) (jobId : U) (db : Ledger U) :
    Except Raised (JobRow U × Ledger U) :=
  (findJob env db scope jobId).map fun job => (job, db)

/-- `steps`. -/
def getSteps (env : Env U) (scope : Scope U) (jobId : U) (db : Ledger U) :
    Except Raised (List (StepRow U) × Ledger U) :=
  (findJob env db scope jobId).map fun _ => (db.stepsOf jobId, db)

/-! ### The worker -/

/-- What a handler raises: an `Exception`, or an exception that `except Exception` lets through. -/
inductive Thrown (E : Type) where
  | exception (e : E)
  | exit

/-- `Worker`; `inspect` is that of the `IntentStore` over the worker's store and ledger, which also
checks the scope of the lease. -/
structure Worker (U D E : Type) where
  dispatcher : WorkDispatcher U D
  handler : JobRow U → StepRow U → Except (Thrown E) (List (ObjectRef U))
  inspect : Lease U → Scope U → ObjectRef U → Nat → Except (Thrown E) Unit
  owner : Str
  classifier : E → Failure

/-- What happens around the worker's ledger calls; `report` is `fail` or `commit`.  The calls the
handler makes itself come before `report`, and `meanwhile` is what others do to the dispatcher
while the worker is at work. -/
structure Script (U D : Type) where
  claim : Moment U
  getJob : Moment U
  steps : Moment U
  report : Moment U
  settle : Moment U
  meanwhile : D → D

/-- `_settle_or_raise`. -/
def settleOrRaise (env : Env U) (m : Moment U) (lease : Lease U) (error : Category)
    (t : Trail U) : Except Signal Unit × Trail U :=
  if error = .cancelled then
    match m.perform env (fun scan now db =>
        (settleCancel env scan lease now db).map fun db => ((), db)) t with
    | (.ok _, t) => (.ok (), t)
    | (.error (.jobError settling), t) =>
      if settling = .staleFence ∨ settling = .invalidTransition then (.ok (), t)
      else (.error (.jobError settling), t)
    | (.error .other, t) => (.error .other, t)
  else if error = .staleFence ∨ error = .leaseExpired ∨ error = .invalidTransition then (.ok (), t)
  else (.error (.jobError error), t)

/-- `try: ... except JobError as error: self._settle_or_raise(lease, error)`. -/
def orSettle (env : Env U) (m : Moment U) (lease : Lease U) :
    Except Signal α × Trail U → Except Signal Unit × Trail U
  | (.ok _, t) => (.ok (), t)
  | (.error (.jobError error), t) => settleOrRaise env m lease error t
  | (.error .other, t) => (.error .other, t)

namespace Worker

variable (w : Worker U D E) (env : Env U) (s : Script U D)

omit [DecidableEq U] in
/-- The body of the inner `try` of `once`. -/
def handle (lease : Lease U) (scope : Scope U) (job : JobRow U) (step : StepRow U) :
    Except (Thrown E) (List (ObjectRef U)) := do
  let manifest ← w.handler job step
  manifest.forM fun ref => w.inspect lease scope ref job.request.profile.maxArtifactBytes
  .ok manifest

/-- What `once` tells the ledger about the result of the handler. -/
def report (lease : Lease U) (t : Trail U) :
    Except (Thrown E) (List (ObjectRef U)) → Except Signal Unit × Trail U
  | .error .exit => (.error .other, t)
  | .error (.exception e) =>
    orSettle env s.settle lease (s.report.perform env (fun scan now db =>
      (fail env scan lease (w.classifier e) now db).map fun db => ((), db)) t)
  | .ok manifest =>
    orSettle env s.settle lease (s.report.perform env (fun scan now db =>
      commit env scan lease manifest now db) t)

/-- `once` between a claim that returned a lease and the acknowledgement. -/
def work (message : Dispatch U) (lease : Lease U) (t : Trail U) : Except Signal Unit × Trail U :=
  match s.getJob.perform env (fun _ _ => getJob env message.scope message.jobId) t with
  | (.error e, t) => (.error e, t.fresh)
  | (.ok job, t) =>
    match s.steps.perform env (fun _ _ => getSteps env message.scope message.jobId) t with
    | (.error e, t) => (.error e, t.fresh)
    | (.ok steps, t) =>
      match steps.find? (fun r => r.stepId = message.stepId) with
      | none => (.error .other, t.fresh)
      | some step => w.report env s lease t.fresh (w.handle lease message.scope job step)

end Worker

/-- What one call of `once` did: what `claim` returned, the ledger with the moments passed since the
handler ran, the message `acknowledge` was called with, the dispatcher it leaves, and what it
returned. -/
structure Run (U D : Type) where
  claimed : Option (Option (Lease U))
  trail : Trail U
  acknowledged : Option (Dispatch U)
  dispatcher : D
  outcome : Except Unit Bool

namespace Worker

variable (w : Worker U D E) (env : Env U) (s : Script U D)

omit [DecidableEq U] in
/-- The end of `once`. -/
def acknowledge (message : Dispatch U) (lease : Option (Lease U)) (t : Trail U) (d : D) : Run U D :=
  let r := w.dispatcher.acknowledge message d
  ⟨some lease, t, some message, r.2, r.1.map fun _ => true⟩

/-- `once`, with the dispatcher in state `d` and the ledger `db`. -/
def once (d : D) (db : Ledger U) : Run U D :=
  match w.dispatcher.receive d with
  | (.error _, d) => ⟨none, ⟨db, []⟩, none, s.meanwhile d, .error ()⟩
  | (.ok none, d) => ⟨none, ⟨db, []⟩, none, s.meanwhile d, .ok false⟩
  | (.ok (some message), d) =>
    match s.claim.perform env (fun scan now => claim env scan message.scope message.jobId
        message.stepId w.owner now) ⟨db, []⟩ with
    | (.error _, t) => ⟨none, t.fresh, none, s.meanwhile d, .error ()⟩
    | (.ok none, t) => w.acknowledge message none t.fresh (s.meanwhile d)
    | (.ok (some lease), t) =>
      match w.work env s message lease t with
      | (.error _, t) => ⟨some (some lease), t, none, s.meanwhile d, .error ()⟩
      | (.ok _, t) => w.acknowledge message (some lease) t (s.meanwhile d)

end Worker

end Polymind.Jobs
