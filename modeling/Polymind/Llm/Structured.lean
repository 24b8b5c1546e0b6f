import Polymind.Llm.AzureSchema
import Polymind.Documents.Models
import Polymind.Jobs.Models

/-!
# Structured generation

The capability of an endpoint and the schema it is given, of `llm/structured.py`, with the roles of
`llm/inference.py` and the part of a provider that requests are rendered from.
-/

namespace Polymind.Llm

open Json Documents

variable {U : Type}

inductive ModelRole where
  | general | coding | summarization | fast
deriving DecidableEq

def ModelRole.text : ModelRole → Str
  | .general => "general".toList
  | .coding => "coding".toList
  | .summarization => "summarization".toList
  | .fast => "fast".toList

inductive StructuredOutput where
  | prompt | jsonObject | jsonSchema
deriving DecidableEq

def StructuredOutput.text : StructuredOutput → Str
  | .prompt => "prompt".toList
  | .jsonObject => "json_object".toList
  | .jsonSchema => "json_schema".toList

inductive OutputParameter where
  | maxTokens | maxCompletionTokens
deriving DecidableEq

def OutputParameter.text : OutputParameter → Str
  | .maxTokens => "max_tokens".toList
  | .maxCompletionTokens => "max_completion_tokens".toList

inductive ReasoningEffort where
  | none | minimal | low | medium | high | xhigh
deriving DecidableEq

def ReasoningEffort.text : ReasoningEffort → Str
  | .none => "none".toList
  | .minimal => "minimal".toList
  | .low => "low".toList
  | .medium => "medium".toList
  | .high => "high".toList
  | .xhigh => "xhigh".toList

/-- `CapabilityProfile`; `strictSchema` says that `schema_profile` is `azure-strict/1` and not `None`. -/
structure CapabilityProfile where
  version : Str
  contextTokens : Nat
  maxOutputTokens : Nat
  overheadTokens : Nat
  safetyTokens : Nat
  structuredOutput : StructuredOutput
  outputParameter : OutputParameter
  streaming : Bool
  usageReporting : Bool
  temperature : Option ℚ
  responseModels : List Str
  reasoningEffort : Option ReasoningEffort
  strictSchema : Bool
deriving DecidableEq

/-- Field constraints and `CapabilityProfile.strict_mode`. -/
def CapabilityProfile.valid (c : CapabilityProfile) : Bool :=
  Jobs.isToken c.version && 0 < c.contextTokens && 0 < c.maxOutputTokens
    && c.temperature.all (fun t => 0 ≤ t && t ≤ 2)
    && (!c.strictSchema || c.structuredOutput == .jsonSchema)

/-- `CapabilityProfile.serialize`: two optional fields are left out when they are `None`. -/
def CapabilityProfile.modelDump (ids : Ids U) (c : CapabilityProfile) : Json :=
  .record ([("version", .str c.version), ("context_tokens", .nat c.contextTokens),
    ("max_output_tokens", .nat c.maxOutputTokens), ("overhead_tokens", .nat c.overheadTokens),
    ("safety_tokens", .nat c.safetyTokens), ("structured_output", .str c.structuredOutput.text),
    ("output_parameter", .str c.outputParameter.text), ("streaming", .bool c.streaming),
    ("usage_reporting", .bool c.usageReporting), ("temperature", .option (floatJson ids) c.temperature),
    ("response_models", .arr (c.responseModels.map .str))]
    ++ c.reasoningEffort.toList.map (fun effort => ("reasoning_effort", .str effort.text))
    ++ if c.strictSchema then [("schema_profile", .str AzureSchema.profile)] else [])

/-- What requests are rendered from of a `StructuredInferenceProvider`; `executes` says that it has a
callable `execute`. -/
structure Provider where
  name : Str
  modelId : ModelRole → Str
  executes : Bool

/-- `generation_schema_for_capability`.  A strict profile is only valid with `json_schema`, so that its
other failure does not occur. -/
def generationSchemaForCapability (capability : CapabilityProfile) (schema : Json) :
    Except AzureSchema.SchemaFault Json :=
  if capability.strictSchema then
    if capability.structuredOutput = .jsonSchema then AzureSchema.providerSchema schema
    else AzureSchema.fail
  else .ok schema

/-- `validate_schema_provider`. -/
def validSchemaProvider (capability : CapabilityProfile) (name : Str) : Bool :=
  !capability.strictSchema || name == "openai_compatible".toList

end Polymind.Llm
