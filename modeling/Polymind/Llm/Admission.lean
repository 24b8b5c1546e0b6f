import Polymind.Documents.Ids
import Polymind.Lib.Transaction
import Polymind.Lib.Table
import Polymind.Lib.Traces
import Mathlib.Algebra.Order.Ring.Rat

/-!
# Provider admission

`AdmissionPolicy` and `SQLiteInferenceAdmission` of `llm/admission.py`: the table `inference_calls`
and the bodies of `acquire` and `finish`.  One database serves every quota key, and `quota_policy`
holds one policy for each.

A clock reading is a float, taken as the rational it denotes; `now - 60` is exact there.  An integer
column holds at most `2 ^ 63 - 1`, and binding a larger number raises `OverflowError`.
-/

namespace Polymind.Llm

/-! ### Models -/

/-- A validated `AdmissionPolicy`. -/
structure AdmissionPolicy where
  rpm : Nat
  tpm : Nat
  concurrent : Nat
  interactiveRpm : Nat
  interactiveTpm : Nat
  interactiveSlots : Nat
  perJobConcurrent : Nat
  perJobRpm : Nat
  concurrent_gt : 1 < concurrent
  interactiveRpm_pos : 0 < interactiveRpm
  interactiveTpm_pos : 0 < interactiveTpm
  interactiveSlots_pos : 0 < interactiveSlots
  perJobConcurrent_pos : 0 < perJobConcurrent
  perJobRpm_pos : 0 < perJobRpm
  interactiveRpm_lt : interactiveRpm < rpm
  interactiveTpm_lt : interactiveTpm < tpm
  interactiveSlots_lt : interactiveSlots < concurrent
  perJobConcurrent_le : perJobConcurrent ≤ concurrent - interactiveSlots
  perJobRpm_le : perJobRpm ≤ rpm - interactiveRpm

inductive Workload where
  | interactive | documentBackground
deriving DecidableEq

structure CallIdentity (U : Type) where
  scope : Str
  job : U
  step : U
  attempt : Int
  profile : Str
  provider : Str
  role : Str
  model : Str
  capability : Str
deriving DecidableEq

/-- `InferenceUsage`. -/
structure Usage where
  promptTokens : Option Int
  completionTokens : Option Int
  totalTokens : Option Int
deriving DecidableEq

/-- `InferenceRateLimitError`, `InferenceConfigurationError`, and the `OverflowError` of a binding. -/
inductive Raised where
  | rateLimit | configuration | overflow
deriving DecidableEq

/-! ### The table -/

/-- A row of `inference_calls`. -/
structure CallRow (U : Type) where
  ticket : U
  quota : Str
  scope : Str
  job : U
  step : U
  attempt : Int
  workload : Workload
  started : ℚ
  estimatedInput : Nat
  reservedOutput : Nat
  active : Bool
  outcome : Str
  usage : Option Usage

namespace CallRow

variable {U : Type} (row : CallRow U)

/-- The tokens the call reserved. -/
def tokens : Nat := row.estimatedInput + row.reservedOutput

def background : Bool := row.workload == .documentBackground

/-- `same`. -/
def same [DecidableEq U] (scope : Str) (job : U) : Bool := row.job == job && row.scope == scope

end CallRow

variable {U : Type} [DecidableEq U]

abbrev Calls (U : Type) := List (CallRow U)

/-- `sum(r['estimated_input'] + r['reserved_output'] for r in rs)`. -/
def reserved (rows : Calls U) : Nat := (rows.map CallRow.tokens).sum

/-- The cap on the tokens of one request. -/
def tokenCap (policy : AdmissionPolicy) (workload : Workload) : Nat :=
  match workload with
  | .documentBackground => policy.tpm - policy.interactiveTpm
  | .interactive => policy.tpm

/-- Whether the rows of the quota key leave no room for the request. -/
def denied (policy : AdmissionPolicy) (scope : Str) (job : U) (tokens : Nat) (workload : Workload)
    (now : ℚ) (rows : Calls U) : Bool :=
  let recent := rows.filter fun r => now - 60 < r.started
  let active := rows.filter CallRow.active
  let docs := recent.filter CallRow.background
  let docActive := active.filter CallRow.background
  let full := policy.rpm ≤ recent.length || policy.tpm < reserved recent + tokens ||
    policy.concurrent ≤ active.length
  match workload with
  | .interactive => full
  | .documentBackground => full || policy.rpm - policy.interactiveRpm ≤ docs.length ||
    tokenCap policy .documentBackground < reserved docs + tokens ||
    policy.concurrent - policy.interactiveSlots ≤ docActive.length ||
    policy.perJobConcurrent ≤ (docActive.filter (CallRow.same · scope job)).length ||
    policy.perJobRpm ≤ (docs.filter (CallRow.same · scope job)).length

/-- The row has the identity, in the unique index of the table. -/
def identified (quota : Str) (identity : CallIdentity U) (row : CallRow U) : Bool :=
  row.quota == quota && row.scope == identity.scope && row.job == identity.job &&
    row.step == identity.step && row.attempt == identity.attempt

/-- The row `acquire` inserts. -/
def newRow (quota : Str) (ticket : U) (now : ℚ) (identity : CallIdentity U)
    (estimatedInput reservedOutput : Nat) (workload : Workload) : CallRow U :=
  ⟨ticket, quota, identity.scope, identity.job, identity.step, identity.attempt, workload, now,
    estimatedInput, reservedOutput, true, "unknown".toList, none⟩

/-- The insertion of `acquire`, with its bindings and the keys of the table. -/
def insert (quota : Str) (identity : CallIdentity U) (row : CallRow U) (db : Calls U) :
    Except Raised (Option U × Calls U) :=
  if 2 ^ 63 ≤ identity.attempt ∨ 2 ^ 63 ≤ row.estimatedInput ∨ 2 ^ 63 ≤ row.reservedOutput then
    .error .overflow
  else if db.any (fun r => r.ticket == row.ticket) || db.any (identified quota identity) then
    .error .configuration
  else .ok (some row.ticket, db ++ [row])

/-- `acquire`; `ticket` is the fresh `uuid4` and `now` the clock reading of its transaction. -/
def acquire (policy : AdmissionPolicy) (quota : Str) (ticket : U) (now : ℚ)
    (identity : CallIdentity U) (estimatedInput reservedOutput : Int) (workload : Workload)
    (db : Calls U) : Except Raised (Option U × Calls U) :=
  if estimatedInput < 0 ∨ reservedOutput ≤ 0 ∨ identity.attempt < 1 then .error .configuration
  else
    let row := newRow quota ticket now identity estimatedInput.toNat reservedOutput.toNat workload
    if tokenCap policy workload < row.tokens then .error .configuration
    else
      let rows := db.filter fun r => r.quota == quota && (decide (now - 60 < r.started) || r.active)
      if denied policy identity.scope identity.job row.tokens workload now rows then
        .error .rateLimit
      else insert quota identity row db

/-- The outcomes that `finish` keeps. -/
def allowedOutcomes : List Str :=
  ["success", "timeout", "overloaded", "provider_unreachable", "authentication_failure",
    "configuration_failure", "protocol_failure", "model_unavailable", "output_limit",
    "context_exceeded", "upstream_failure", "unknown"].map String.toList

/-- `finish`. -/
def finish (quota : Str) (ticket : U) (usage : Option Usage) (outcome : Str) (db : Calls U) :
    Except Raised (Option U × Calls U) :=
  let outcome := if outcome ∈ allowedOutcomes then outcome else "unknown".toList
  match db.find? fun r => r.ticket == ticket && r.quota == quota with
  | none => .error .configuration
  | some row =>
    if row.active then
      .ok (none, Table.update (fun r => r.ticket == ticket)
        (fun r => { r with active := false, outcome, usage }) db)
    else .error .configuration

/-! ### Calls -/

inductive Call (U : Type) where
  | acquire (quota : Str) (ticket : U) (identity : CallIdentity U)
      (estimatedInput reservedOutput : Int) (workload : Workload)
  | finish (quota : Str) (ticket : U) (usage : Option Usage) (outcome : Str)

/-- A call, and the clock when its transaction runs. -/
structure Event (U : Type) where
  now : ℚ
  call : Call U

def Event.body (policies : Str → AdmissionPolicy) (e : Event U) :
    Calls U → Except Raised (Option U × Calls U) :=
  match e.call with
  | .acquire quota ticket identity estimatedInput reservedOutput workload =>
    Llm.acquire (policies quota) quota ticket e.now identity estimatedInput reservedOutput workload
  | .finish quota ticket usage outcome => Llm.finish quota ticket usage outcome

/-- One call as a serial transaction: its answer and the next table. -/
def Calls.step (policies : Str → AdmissionPolicy) (db : Calls U) (e : Event U) :
    Except Raised (Option U) × Calls U :=
  transact (e.body policies) db

/-- The table after a sequence of calls of any processes. -/
def Calls.run (policies : Str → AdmissionPolicy) (db : Calls U) (events : List (Event U)) :
    Calls U :=
  Traces.exec (fun db e => (db.step policies e).2) db events

end Polymind.Llm
