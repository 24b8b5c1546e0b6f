import Polymind.Governance.Ledger

/-!
# Governed execution

`GovernedExecution.execute` of `governance/execution.py` as processes that share a ledger.  A process is
one call of `execute`; each of its steps is one call it makes, of the authority, of `check_active`, of
the provider, of the provider admission or of the ledger.  What the calls outside the ledger do is up to
the events; `World.next` lets any process take its next step, or stops it for good.

The world keeps a log of what the processes did and met; no step reads it.
-/

namespace Polymind.Governance

open Llm (CallIdentity Workload Usage)

/-- The part of a `CapabilityProfile` that `execute` reads. -/
structure Capability where
  version : Str
  contextTokens : Nat
  maxOutputTokens : Nat
  overheadTokens : Nat
  safetyTokens : Nat

/-- The part of a `GenerationRequest` that `execute` reads. -/
structure Request where
  system : Str
  data : Str
  schema : Json
  role : Str
  capability : Capability
  outputTokens : Int

/-- A call of `execute`; `fresh` are the two `uuid4` of an identity that is not given. -/
structure ExecuteArgs (U : Type) where
  principal : Security.Principal
  provider : Str
  request : Request
  identity : Option (CallIdentity U)
  fresh : U × U
  workload : Workload

/-- An exception: of a call outside the ledger, of the ledger, the `InferenceConfigurationError` of
`execute`, or the `AttributeError` of a result without `usage`. -/
inductive Exn (E : Type) where
  | external (e : E)
  | ledger (e : Raised)
  | configuration
  | attribute

/-- A ledger environment, with what the code reads of an exception: the `usage` and the `category` of an
`InferenceError`. -/
structure ExecEnv (U E : Type) extends LedgerEnv U where
  inference : E → Option (Option Usage × Str)

variable {U I E : Type} [DecidableEq U] [DecidableEq I]

/-- `len(canonical({…}).encode()) + cap.overhead_tokens + cap.safety_tokens`. -/
def Request.estimate (request : Request) : Nat :=
  (Json.canonical (.record [("system", .str request.system), ("data", .str request.data),
    ("schema", request.schema)])).length + request.capability.overheadTokens
    + request.capability.safetyTokens

/-- The identity of the call, once the model is known. -/
def ExecuteArgs.identityOf (ids : Ids U) (args : ExecuteArgs U) (model : Str) : CallIdentity U :=
  args.identity.getD ⟨(args.principal.scope ids).identity ids, args.fresh.1, args.fresh.2, 1,
    "interactive/1".toList, args.provider, args.request.role, model, args.request.capability.version⟩

/-- What `execute` has when it enters its last `finally`. -/
structure Ending (E : Type) where
  usage : Option Usage
  outcome : Str
  primary : Option (Exn E)

/-- `except InferenceError` and `except BaseException`. -/
def failure (env : ExecEnv U E) (e : E) : Ending E :=
  match env.inference e with
  | some (usage, category) => ⟨usage, category, some (.external e)⟩
  | none => ⟨none, "unknown".toList, some (.external e)⟩

/-- Where an `execute` stands; `ticket` is its reservation and `slot` its provider ticket. -/
inductive Phase (U E : Type) where
  | revalidate
  | checkActive
  | modelId
  | reserve (identity : CallIdentity U)
  | admitting (ticket : U)
  | acquire (ticket : U)
  | withdraw (ticket : U) (e : E)
  | revalidateAgain (ticket slot : U)
  | checkAgain (ticket slot : U)
  | start (ticket slot : U)
  | invoke (ticket slot : U)
  | provider (ticket slot : U)
  | account (ticket slot : U) (started : Bool) (ending : Ending E)
  | finish (slot : U) (ending : Ending E) (cleanup : Option (Exn E))
  | finished (outcome : Except (Exn E × Bool) Unit)

/-- What is noted of a process: it moved its reservation to `ADMITTING`, it got a provider ticket, it
called the provider, it called `finish`, one of its ledger calls failed, or the authority, `check_active`
or the provider raised. -/
inductive Note (U E : Type) where
  | admitted (ticket : U)
  | acquired (slot : U)
  | invoked (ticket : U)
  | finishes (slot : U)
  | ledgerFailed
  | raised (e : E)

/-- An exception on its way out; the flag is `accounting_failed`. -/
def Phase.raising (e : Exn E) : Phase U E := .finished (.error (e, false))

/-! ### Calls outside the ledger -/

/-- What a call outside the ledger does. -/
inductive Reply (U E : Type) where
  | returns
  | model (model : Str)
  | slot (slot : U)
  | result (usage : Option Usage)
  | malformed
  | raises (e : E)

/-- The lines between `model_id` and `reserve`. -/
def prepared (env : ExecEnv U E) (args : ExecuteArgs U) (model : Str) : Phase U E :=
  let identity := args.identityOf env.toIds model
  let cap := args.request.capability
  if identity.provider ≠ args.provider ∨ identity.model ≠ model ∨ identity.role ≠ args.request.role
      ∨ identity.capability ≠ cap.version then .raising .configuration
  else if args.request.outputTokens ≤ 0 ∨ (cap.maxOutputTokens : Int) < args.request.outputTokens
      ∨ (cap.contextTokens : Int) < args.request.estimate + args.request.outputTokens then
    .raising .configuration
  else .reserve identity

/-- The end of the last `finally`. -/
def closed (ending : Ending E) (cleanup : Option (Exn E)) : Except (Exn E × Bool) Unit :=
  match ending.primary, cleanup with
  | some e, _ => .error (e, cleanup.isSome)
  | none, some e => .error (e, false)
  | none, none => .ok ()

/-- The step after a call outside the ledger; a process that is not in such a call takes none. -/
def answer (env : ExecEnv U E) (args : ExecuteArgs U) (reply : Reply U E) :
    Phase U E → Phase U E × List (Note U E)
  | .revalidate =>
    match reply with
    | .raises e => (.raising (.external e), [.raised e])
    | _ => (.checkActive, [])
  | .checkActive =>
    match reply with
    | .raises e => (.raising (.external e), [.raised e])
    | _ => (.modelId, [])
  | .modelId =>
    match reply with
    | .raises e => (.raising (.external e), [.raised e])
    | .model model => (prepared env args model, [])
    | _ => (.modelId, [])
  | .acquire ticket =>
    match reply with
    | .raises e => (.withdraw ticket e, [])
    | .slot slot => (.revalidateAgain ticket slot, [.acquired slot])
    | _ => (.acquire ticket, [])
  | .revalidateAgain ticket slot =>
    match reply with
    | .raises e => (.account ticket slot false (failure env e), [.raised e])
    | _ => (.checkAgain ticket slot, [])
  | .checkAgain ticket slot =>
    match reply with
    | .raises e => (.account ticket slot false (failure env e), [.raised e])
    | _ => (.start ticket slot, [])
  | .provider ticket slot =>
    match reply with
    | .raises e => (.account ticket slot true (failure env e), [.raised e])
    | .result usage => (.account ticket slot true ⟨usage, "success".toList, none⟩, [])
    | _ => (.account ticket slot true ⟨none, "unknown".toList, some .attribute⟩, [])
  | .finish slot ending cleanup =>
    match reply with
    | .raises e => (.finished (closed ending (cleanup.or (some (.external e)))), [.finishes slot])
    | _ => (.finished (closed ending cleanup), [.finishes slot])
  | phase => (phase, [])

/-! ### Calls of the ledger -/

/-- Whether a ledger call fails for a reason of its own, before or after its transaction is committed. -/
inductive Fault where
  | none | before | after
deriving DecidableEq

/-- A ledger call with its fault. -/
def faulty {α : Type} (fault : Fault) (call : Ledger U → Except Raised α × Ledger U)
    (db : Ledger U) : Except Raised α × Ledger U :=
  match fault with
  | .none => call db
  | .before => (.error .securityUnavailable, db)
  | .after => (.error .securityUnavailable, (call db).2)

/-- `settle` reads the counts of a usage; `None` has none. -/
def countsOf (usage : Option Usage) : Ledger.Counts :=
  match usage with
  | some usage => (usage.promptTokens, usage.completionTokens)
  | none => (none, none)

/-- The step after a ledger call: the next ledger, the next phase, and what is noted. -/
def ledgerStep (env : ExecEnv U E) (args : ExecuteArgs U) (clock : Readings) (fresh : U)
    (fault : Fault) (db : Ledger U) : Phase U E → Ledger U × Phase U E × List (Note U E)
  | .reserve identity =>
    let call := Ledger.reserve env.toLedgerEnv clock fresh
      ⟨args.principal, identity, args.request.estimate, args.request.outputTokens, args.workload⟩
    match faulty fault call db with
    | (.ok ticket, db) => (db, .admitting ticket, [])
    | (.error e, db) => (db, .raising (.ledger e), [.ledgerFailed])
  | .admitting ticket =>
    match faulty fault (transact (Ledger.transition ticket .reserved .admitting)) db with
    | (.ok _, db) => (db, .acquire ticket, [.admitted ticket])
    | (.error e, db) => (db, .raising (.ledger e), [.ledgerFailed])
  | .withdraw ticket e =>
    match faulty fault (transact (Ledger.transition ticket .admitting .released)) db with
    | (.ok _, db) => (db, .raising (.external e), [])
    | (.error e, db) => (db, .raising (.ledger e), [.ledgerFailed])
  | .start ticket slot =>
    match faulty fault (transact (Ledger.transition ticket .admitting .started)) db with
    | (.ok _, db) => (db, .invoke ticket slot, [])
    | (.error e, db) =>
      (db, .account ticket slot false ⟨none, "unknown".toList, some (.ledger e)⟩, [.ledgerFailed])
  | .account ticket slot true ending =>
    match faulty fault (transact (Ledger.settle env.toLedgerEnv ticket (countsOf ending.usage))) db with
    | (.ok _, db) => (db, .finish slot ending none, [])
    | (.error e, db) => (db, .finish slot ending (some (.ledger e)), [.ledgerFailed])
  | .account ticket slot false ending =>
    match faulty fault (transact (Ledger.transition ticket .admitting .released)) db with
    | (.ok _, db) => (db, .finish slot ending none, [])
    | (.error e, db) => (db, .finish slot ending (some (.ledger e)), [.ledgerFailed])
  | phase => (db, phase, [])

/-- The provider is called; its reply comes later. -/
def call : Phase U E → Phase U E × List (Note U E)
  | .invoke ticket slot => (.provider ticket slot, [.invoked ticket])
  | phase => (phase, [])

/-! ### Processes -/

structure World (U I E : Type) where
  ledger : Ledger U
  procs : I → Option (ExecuteArgs U × Phase U E)
  stopped : I → Bool
  log : List (I × Note U E)

/-- A process starts, takes its next step, or is stopped for good.  A step of a ledger call comes with
its clock readings, a fresh `uuid4` and its fault. -/
inductive Event (U I E : Type) where
  | start (i : I) (args : ExecuteArgs U)
  | answer (i : I) (reply : Reply U E)
  | ledger (i : I) (clock : Readings) (fresh : U) (fault : Fault)
  | call (i : I)
  | crash (i : I)

namespace World

def empty : World U I E := ⟨Ledger.empty, fun _ => none, fun _ => false, []⟩

/-- The process with its next phase, and what is noted of the step. -/
def advance (w : World U I E) (i : I) (args : ExecuteArgs U) (ledger : Ledger U)
    (phase : Phase U E) (notes : List (Note U E)) : World U I E :=
  { w with
    ledger
    procs := Function.update w.procs i (some (args, phase))
    log := w.log ++ notes.map fun note => (i, note) }

/-- The state after an event; an event that cannot happen changes nothing. -/
def next (env : ExecEnv U E) (w : World U I E) : Event U I E → World U I E
  | .start i args =>
    match w.procs i with
    | none => w.advance i args w.ledger .revalidate []
    | some _ => w
  | .answer i reply =>
    match w.stopped i, w.procs i with
    | false, some (args, phase) =>
      let (phase, notes) := answer env args reply phase
      w.advance i args w.ledger phase notes
    | _, _ => w
  | .ledger i clock fresh fault =>
    match w.stopped i, w.procs i with
    | false, some (args, phase) =>
      let (ledger, phase, notes) := ledgerStep env args clock fresh fault w.ledger phase
      w.advance i args ledger phase notes
    | _, _ => w
  | .call i =>
    match w.stopped i, w.procs i with
    | false, some (args, phase) =>
      let (phase, notes) := Governance.call phase
      w.advance i args w.ledger phase notes
    | _, _ => w
  | .crash i => { w with stopped := Function.update w.stopped i true }

/-- The state after a trace of events. -/
def run (env : ExecEnv U E) (w : World U I E) (es : List (Event U I E)) : World U I E :=
  Traces.exec (next env) w es

end World

end Polymind.Governance
