import Polymind.Llm.Streams

/-!
# Bounded generation

`execute` of `llm/openai_compatible.py` from the body of the response on: the usage it takes from the
body, the checks of the envelope with `result_text`, and which exceptions carry the usage.  The request
it sends and the metadata it reports are not modelled: nothing that follows reads them.
-/

namespace Polymind.Llm

open Json

/-- What `execute` raises: the `category` of an `InferenceError`, and the `usage` the exception carries;
other exceptions have no category. -/
structure ProviderError where
  category : Option Str
  usage : Option Usage
deriving DecidableEq

/-- The part of a `GenerationRequest` and of its capability that the checks of a response read. -/
structure GenerationRequest where
  responseBytes : Nat
  schemaProfile : Bool
  responseModels : List Str

/-- What `request_json` gives: an exception, or the body.  `surrogate` says that the content has a lone
surrogate, which cannot be encoded.  An exception before the body is read, or an interrupt at any time,
is a `raises` as well. -/
inductive Exchange where
  | raises (category : Option Str)
  | body (value : Json) (surrogate : Bool)

/-- `fields.get(key)`, unless it is `None`. -/
def given? (fields : List (Str × Json)) (key : String) : Option Json :=
  match Dict.get? fields key.toList with
  | none | some .null => none
  | some value => some value

namespace OpenAICompatibleProvider

/-! ### Usage -/

/-- `type(v) is int and v >= 0`. -/
def isCount : Json → Bool
  | .int i => 0 ≤ i
  | _ => false

/-- All three counts are there, and the total is not the sum of the others. -/
def wrongTotal (prompt completion total : Option Json) : Bool :=
  match prompt, completion, total with
  | some (.int p), some (.int c), some (.int t) => t ≠ p + c
  | _, _, _ => false

/-- Whether `completion_tokens_details` is malformed, or has more reasoning tokens than the completion
count allows. -/
def wrongDetails (completion details : Option Json) : Bool :=
  match details with
  | none => false
  | some (.obj details) =>
    match given? details "reasoning_tokens" with
    | none => false
    | some (.int reasoning) =>
      reasoning < 0 || match completion with
        | some (.int c) => c < reasoning
        | _ => true
    | some _ => true
  | some _ => true

/-- `invalid`: the usage object of a body is malformed or inconsistent. -/
def invalidUsage (raw : List (Str × Json)) : Bool :=
  let prompt := given? raw "prompt_tokens"
  let completion := given? raw "completion_tokens"
  let total := given? raw "total_tokens"
  [prompt, completion, total].any (fun count => count.any fun v => !isCount v)
    || wrongTotal prompt completion total
    || wrongDetails completion (given? raw "completion_tokens_details")

/-- An `InferenceResponseError`. -/
def responseError (usage : Option Usage) : ProviderError := ⟨some "protocol_failure".toList, usage⟩

/-- The usage of a body; a malformed or inconsistent one raises, and is forgotten. -/
def measured (value : Json) : Except ProviderError (Option Usage) :=
  match field? value "usage" with
  | none | some .null => .ok (usage value)
  | some (.obj raw) => if invalidUsage raw then .error (responseError none) else .ok (usage value)
  | some _ => .error (responseError none)

/-! ### The envelope -/

/-- Why a response is refused: `InferenceResponseError`, `InferenceOutputLimitError`, or the
`UnicodeEncodeError` of its content. -/
inductive Refusal where
  | response | outputLimit | unicode
deriving DecidableEq

/-- `first`: the first choice, or `{}`. -/
def firstChoice (value : Json) : List (Str × Json) :=
  match field? value "choices" with
  | some (.arr (.obj first :: _)) => first
  | _ => []

/-- What a strict schema asks of the envelope: one choice, with a message that is no refusal and with a
finish reason. -/
def strictEnvelope (value : Json) : Bool :=
  match field? value "choices" with
  | some (.arr [.obj choice]) =>
    (match Dict.get? choice "message".toList with
      | some (.obj message) => (given? message "refusal").isNone
      | _ => false) && (given? choice "finish_reason").isSome
  | _ => false

/-- `reason in ('length', 'max_tokens')`. -/
def truncated (reason : Option Json) : Bool :=
  match reason with
  | some (.str reason) => reason = "length".toList || reason = "max_tokens".toList
  | _ => false

/-- `_completion_content`. -/
def completionContent (value : Json) : Except Refusal Str :=
  match field? value "choices" with
  | some (.arr (first :: _)) =>
    match (field? first "message").bind (field? · "content") with
    | some (.str content) => .ok content
    | _ => .error .response
  | _ => .error .response

/-- `content`: null or absent content is accepted from a truncated response only. -/
def contentOf (value : Json) (reason : Option Json) : Except Refusal (Option Str) :=
  match Dict.get? (firstChoice value) "message".toList with
  | some (.obj message) =>
    if (given? message "content").isNone && truncated reason then .ok none
    else (completionContent value).map some
  | _ => (completionContent value).map some

/-- The model that the response names, if any, is one that was asked for. -/
def servedModel (model : Str) (request : GenerationRequest) (value : Json) : Bool :=
  match field? value "model" with
  | none | some .null => true
  | some (.str returned) => returned = model || request.responseModels.contains returned
  | some _ => false

/-- `result_text`. -/
def resultText (request : GenerationRequest) (surrogate : Bool) (text : Option Str)
    (reason : Option Json) : Except Refusal Unit :=
  if text.isSome && surrogate then .error .unicode
  else
    let overflow := text.any fun text => request.responseBytes < (String.ofList text).utf8ByteSize
    match reason with
    | none => if overflow then .error .outputLimit else .ok ()
    | some (.str reason) =>
      if overflow || truncated (some (.str reason)) then .error .outputLimit
      else if reason ≠ "stop".toList then .error .response
      else .ok ()
    | some _ => .error .response

/-- The checks between the usage and the result. -/
def completed (model : Str) (request : GenerationRequest) (value : Json) (surrogate : Bool) :
    Except Refusal Unit :=
  let reason := given? (firstChoice value) "finish_reason"
  if request.schemaProfile && !strictEnvelope value then .error .response
  else do
    let content ← contentOf value reason
    if !servedModel model request value then .error .response
    else resultText request surrogate content reason

/-! ### `execute` -/

/-- What `except BaseException` makes of a refusal: the usage is attached to the errors of the provider's
response only. -/
def refused (usage : Option Usage) : Refusal → ProviderError
  | .response => responseError usage
  | .outputLimit => ⟨some "output_limit".toList, usage⟩
  | .unicode => ⟨none, none⟩

/-- The end of `execute`, once the usage is known. -/
def concluded (usage : Option Usage) : Except Refusal Unit → Except ProviderError (Option Usage)
  | .ok _ => .ok usage
  | .error refusal => .error (refused usage refusal)

/-- `execute`; of the result, the usage. -/
def execute (model : Str) (request : GenerationRequest) :
    Exchange → Except ProviderError (Option Usage)
  | .raises category => .error ⟨category, none⟩
  | .body value surrogate => do
    let usage ← measured value
    concluded usage (completed model request value surrogate)

end OpenAICompatibleProvider

end Polymind.Llm
