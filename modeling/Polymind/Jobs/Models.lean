import Polymind.Documents.Ids
import Mathlib.Algebra.Order.Floor.Ring
import Mathlib.Data.Rat.Floor

/-!
# Orchestration contracts

The immutable models of `documents/jobs/models.py` and `documents/jobs/errors.py`: admissions with
their validator, step specifications, retry policies, leases, failures and their sanitising.
Timestamps are whole microseconds since `datetime.min` in UTC.
-/

namespace Polymind.Jobs

open Json

variable {U : Type}

/-! ### Errors -/

/-- `CATEGORIES`: the allowlisted operational categories. -/
inductive Category where
  | unsupportedFormat | invalidDocument | encryptedDocument | sourceTooLarge | pageLimitExceeded
  | extractionLimitExceeded | extractionFailed | integrityError | storageError | objectConflict
  | objectNotFound | scopeMismatch | serializationError | invalidReference
  | idempotencyConflict | invalidTransition | jobNotFound | stepNotFound
  | leaseConflict | staleFence | leaseExpired | retryExhausted | cancelled
  | ledgerError | dispatchError | manifestConflict | invalidConfiguration
  | schemaMismatch | workerInterrupted | workerFailed | profileMismatch
  | inferenceRateLimited | inferenceTimeout | inferenceUnavailable
  | inferenceAuthentication | inferenceConfiguration | inferenceInvalidResponse
  | inferenceContextExceeded | inferenceOutputLimit | inferenceUnknown
  | governanceDenied | securityDenied
deriving DecidableEq

/-- What a ledger operation can raise: a `JobError`, or an exception of the standard library that
`_transaction` lets through after rolling back. -/
inductive Raised where
  | job (category : Category)
  | overflowError
  | keyError
deriving DecidableEq

/-! ### Time -/

/-- Microseconds since `datetime.min`, UTC. -/
abbrev Time := Nat

/-- `datetime.max`. -/
def maxTime : Time := 315537897599999999

/-- `stamp(time_of(t) + timedelta(microseconds=d))`. -/
def Time.plus (t d : Nat) : Except Raised Time :=
  if t + d ≤ maxTime then .ok (t + d) else .error .overflowError

/-- `stamp(time_of(t) - timedelta(microseconds=d))`. -/
def Time.minus (t d : Nat) : Except Raised Time :=
  if d ≤ t then .ok (t - d) else .error .overflowError

/-- `timedelta(seconds=s)` in microseconds: rounded to nearest, ties to even. -/
def timedelta (seconds : ℚ) : Nat :=
  let x := seconds * 1000000
  let n := ⌊x⌋.toNat
  let r := x - n
  if r < 1 / 2 then n else if 1 / 2 < r then n + 1 else if n % 2 = 0 then n else n + 1

/-! ### States -/

inductive JobState where
  | queued | extracting | normalizing | validating | completed | failed | cancelRequested
  | cancelled | partialResult
deriving DecidableEq

/-- `state in TERMINAL`. -/
def JobState.terminal : JobState → Bool
  | .completed | .failed | .cancelled | .partialResult => true
  | _ => false

inductive StepState where
  | pending | ready | running | retryWait | succeeded | failed | cancelled
deriving DecidableEq

inductive Stage where
  | extracting | normalizing | validating
deriving DecidableEq

def Stage.text : Stage → Str
  | .extracting => "EXTRACTING".toList
  | .normalizing => "NORMALIZING".toList
  | .validating => "VALIDATING".toList

def Stage.jobState : Stage → JobState
  | .extracting => .extracting
  | .normalizing => .normalizing
  | .validating => .validating

inductive Classification where
  | retryable | nonRetryable | cancelled
deriving DecidableEq

/-! ### Profiles and admissions -/

def isTokenChar (c : Char) : Bool :=
  c.isAlphanum || c == '_' || c == '.' || c == '/' || c == ':' || c == '-'

/-- `Token`: 1 to 128 characters of `[a-zA-Z0-9_./:-]`. -/
def isToken (s : Str) : Bool := 1 ≤ s.length && s.length ≤ 128 && s.all isTokenChar

structure RetryPolicy where
  maxAttempts : Nat
  baseSeconds : ℚ
  maxSeconds : ℚ
  budgetSeconds : ℚ
  jitterFraction : ℚ
deriving DecidableEq

def RetryPolicy.valid (p : RetryPolicy) : Bool :=
  1 ≤ p.maxAttempts && p.maxAttempts ≤ 100 && 0 < p.baseSeconds && p.baseSeconds ≤ 86400
    && 0 < p.maxSeconds && p.maxSeconds ≤ 86400 && 0 < p.budgetSeconds && p.budgetSeconds ≤ 604800
    && 0 ≤ p.jitterFraction && p.jitterFraction ≤ 1

def RetryPolicy.modelDump (ids : Ids U) (p : RetryPolicy) : Json :=
  .record [("max_attempts", .nat p.maxAttempts), ("base_seconds", .float (ids.floatRepr p.baseSeconds)),
    ("max_seconds", .float (ids.floatRepr p.maxSeconds)),
    ("budget_seconds", .float (ids.floatRepr p.budgetSeconds)),
    ("jitter_fraction", .float (ids.floatRepr p.jitterFraction))]

structure ProcessingProfile where
  version : Str
  parserVersion : Str
  maxSourceBytes : Nat
  maxPages : Nat
  maxCharacters : Nat
  maxBlocks : Nat
  maxArtifactBytes : Nat
  structureRequired : Bool
  retry : RetryPolicy
deriving DecidableEq

def ProcessingProfile.valid (p : ProcessingProfile) : Bool :=
  isToken p.version && isToken p.parserVersion && 0 < p.maxSourceBytes && 0 < p.maxPages
    && 0 < p.maxCharacters && 0 < p.maxBlocks && 0 < p.maxArtifactBytes && p.retry.valid

def ProcessingProfile.modelDump (ids : Ids U) (p : ProcessingProfile) : Json :=
  .record [("version", .str p.version), ("artifact_schema", .text "extraction/1"),
    ("extraction_profile", .text "native/1"), ("normalization_profile", .text "identity/1"),
    ("policy_profile", .text "native-policy/1"), ("parser_version", .str p.parserVersion),
    ("max_source_bytes", .nat p.maxSourceBytes), ("max_pages", .nat p.maxPages),
    ("max_characters", .nat p.maxCharacters), ("max_blocks", .nat p.maxBlocks),
    ("max_artifact_bytes", .nat p.maxArtifactBytes),
    ("structure_required", .bool p.structureRequired), ("retry", p.retry.modelDump ids)]

def ProcessingProfile.digest (ids : Ids U) (p : ProcessingProfile) : Str :=
  ids.fingerprint (p.modelDump ids)

structure StepSpec where
  unitId : Str
  stage : Stage
  schemaVersion : Str
  configFingerprint : Str
  dependsOn : List Str
deriving DecidableEq

def StepSpec.valid (s : StepSpec) : Bool :=
  isToken s.unitId && isToken s.schemaVersion && isDigest s.configFingerprint
    && s.dependsOn.all isToken

def StepSpec.modelDump (s : StepSpec) : Json :=
  .record [("unit_id", .str s.unitId), ("stage", .str s.stage.text),
    ("schema_version", .str s.schemaVersion), ("config_fingerprint", .str s.configFingerprint),
    ("depends_on", .arr (s.dependsOn.map .str))]

structure Admission (U : Type) where
  scope : Scope U
  documentId : U
  documentVersionId : U
  source : ObjectRef U
  requestIdempotencyKey : Str
  displayFilename : Str
  mime : Mime
  profile : ProcessingProfile
  steps : List StepSpec
  resumeFrom : Option U
deriving DecidableEq

/-- The loop of `Admission.valid` over the steps; `seen` holds the unit ids met so far. -/
def planOrdered (seen : List Str) : List StepSpec → Bool
  | [] => true
  | step :: steps =>
    !seen.contains step.unitId && step.dependsOn.all seen.contains && decide step.dependsOn.Nodup
      && planOrdered (step.unitId :: seen) steps

/-- The plan rules of `Admission.valid`. -/
def planRules (steps : List StepSpec) : Bool :=
  1 ≤ steps.length && steps.length ≤ 1000 && planOrdered [] steps

/-- `Admission.model_validate`: the fields' own constraints and `Admission.valid`. -/
def Admission.valid [DecidableEq U] (ids : Ids U) (a : Admission U) : Bool :=
  let expected := ids.stableId [a.scope.identity ids, ids.uuidStr a.documentId, a.source.sha256]
  a.source.valid ids && isToken a.requestIdempotencyKey && a.displayFilename.length ≤ 512
    && a.profile.valid && a.steps.all StepSpec.valid
    && a.source.scope == a.scope && a.source.kind == .source && a.documentVersionId == expected
    && a.source.objectId == expected && a.source.byteSize ≤ a.profile.maxSourceBytes
    && planRules a.steps

/-- `Admission.digest`: everything but the request key. -/
def Admission.digest (ids : Ids U) (a : Admission U) : Str :=
  ids.fingerprint (.record [("scope", a.scope.modelDump ids), ("document_id", ids.uuidJson a.documentId),
    ("document_version_id", ids.uuidJson a.documentVersionId), ("source", a.source.modelDump ids),
    ("display_filename", .str a.displayFilename), ("mime", .str a.mime.text),
    ("profile", a.profile.modelDump ids), ("steps", .arr (a.steps.map StepSpec.modelDump)),
    ("resume_from", .option ids.uuidJson a.resumeFrom)])

/-- `Admission.compatibility`: the request without key, steps and `resume_from`, the profile by its
digest. -/
def Admission.compatibility (ids : Ids U) (a : Admission U) : Str :=
  ids.fingerprint (.record [("scope", a.scope.modelDump ids), ("document_id", ids.uuidJson a.documentId),
    ("document_version_id", ids.uuidJson a.documentVersionId), ("source", a.source.modelDump ids),
    ("display_filename", .str a.displayFilename), ("mime", .str a.mime.text),
    ("profile", .str (a.profile.digest ids))])

/-! ### Progress, leases, failures -/

structure Progress where
  total : Nat := 0
  completed : Nat := 0
  running : Nat := 0
  retrying : Nat := 0
  failed : Nat := 0
  cancelled : Nat := 0
  pending : Nat := 0
  currentStage : Option Stage := none
deriving DecidableEq

structure Lease (U : Type) where
  scope : Scope U
  jobId : U
  stepId : U
  owner : Str
  fence : Nat
  owner_token : isToken owner = true
  fence_pos : 0 < fence

/-- `Failure`; `category` is the text as given, `none` when it is not one of `CATEGORIES`. -/
structure Failure where
  category : Option Category
  classification : Classification
  retryAfter : Option Nat := none
deriving DecidableEq

/-- A failure whose category is allowlisted: what `Failure.sanitized` returns. -/
structure SanitizedFailure where
  category : Category
  classification : Classification
  retryAfter : Option Nat := none
deriving DecidableEq

def Failure.sanitized (f : Failure) : SanitizedFailure :=
  ⟨f.category.getD .workerFailed, f.classification, f.retryAfter⟩

structure Dispatch (U : Type) where
  dispatchId : Nat
  scope : Scope U
  jobId : U
  stepId : U

structure Reconciliation where
  expired : Nat
  dispatchRepairs : Nat
  terminalRepairs : Nat
  pendingOutbox : Nat
  orphanCandidates : Nat

end Polymind.Jobs
