import Polymind.Llm.Streams

/-!
# Streamed answers

`stream_rag_response` of `graph/streaming.py`: one request, whose events are yielded as the provider's
stream comes in, and whose exchange is appended to the conversation memory at the end.  What the request
calls besides the provider's stream is an `Orchestration`: each call returns or raises.

The consumer may stop at any event.  Nothing runs after it, so what a stopped request did is what the
whole request does up to that event.
-/

namespace Polymind.Graph

open Llm

/-- An exception, by the `except` clause it meets. -/
inductive Failure where
  | inference | memory | vector | other
deriving DecidableEq

/-- The message of the error event. -/
def Failure.message : Failure → Str
  | .inference => "Inference service is unavailable.".toList
  | .memory => "Conversation memory is unavailable.".toList
  | .vector => "Knowledge retrieval is unavailable.".toList
  | .other => "Request processing failed.".toList

/-- The fields of a metadata event. -/
structure Metadata where
  sessionId : Str
  route : Str
  modelRole : Str
  model : Str
  sources : Json

inductive Event where
  | metadata (fields : Metadata)
  | chunk (content : Str)
  | done (response : Str)
  | error (message : Str)

/-- What a request does: it yields an event, or appends an exchange. -/
inductive Act where
  | emit (event : Event)
  | append (query answer : Str)

/-- What a request calls, the provider's stream apart. -/
structure Orchestration where
  /-- `_legacy_only`, the factories of the provider and the memory store, and the router's import. -/
  prepare : Except Failure Unit
  route : Except Failure Str
  /-- `select_model_role(query).value` and `provider.model_id(role)`. -/
  role : Except Failure Str
  model : Except Failure Str
  toolAnswer : Except Failure Str
  /-- `rag_prompt_and_sources`, with the public sources. -/
  ragPrompt : Except Failure (Str × Json)
  directPrompt : Except Failure Str
  /-- `persist_exchange`. -/
  persist : Except Failure Unit

/-- The two adapters, each with what `json.loads` does and the answer to its request. -/
inductive Upstream where
  | openAI (loads : Str → Loaded) (response : Except TransportFault (Response Str))
  | ollama (loads : OllamaClient.Bytes → Loaded)
      (response : Except TransportFault (Response OllamaClient.Bytes))

namespace Upstream

/-- The values of the whole stream, and how it ends. -/
def stream : Upstream → List Str × Except StreamError Unit
  | .openAI loads response =>
    let run := OpenAICompatibleProvider.generateStream loads response none
    (run.yielded, run.result)
  | .ollama loads response =>
    let run := OllamaClient.generateStream loads response none
    (run.yielded, run.result)

/-- The terminal marker was received: the line `[DONE]`, or a chunk with `done = true`. -/
def received : Upstream → Bool
  | .openAI loads response =>
    (OpenAICompatibleProvider.generateStream loads response none).read.any
      OpenAICompatibleProvider.isDone
  | .ollama loads response =>
    (OllamaClient.generateStream loads response none).read.any (OllamaClient.marks loads)

end Upstream

/-- What an error of the provider's stream meets. -/
def failureOf : StreamError → Failure
  | .inference _ => .inference
  | .other | .generatorExit => .other

section

variable (env : Orchestration) (upstream : Upstream) (query sessionId : Str)

/-- What comes before the metadata: its fields, and the tool's answer on the tool route. -/
def start : Except Failure (Metadata × Option Str) := do
  env.prepare
  let route ← env.route
  let role ← env.role
  let model ← env.model
  if route = "tool".toList then
    let answer ← env.toolAnswer
    return (⟨sessionId, route, role, model, .arr []⟩, some answer)
  else if route = "rag".toList then
    let (_, sources) ← env.ragPrompt
    return (⟨sessionId, route, role, model, sources⟩, none)
  else
    let _ ← env.directPrompt
    return (⟨sessionId, route, role, model, .arr []⟩, none)

/-- The end of a request with an answer. -/
def finish (answer : Str) : List Act :=
  match env.persist with
  | .ok () => [.append query answer, .emit (.done answer)]
  | .error failure => [.emit (.error failure.message)]

/-- `stream_rag_response`, to its end. -/
def streamRagResponse : List Act :=
  match start env sessionId with
  | .error failure => [.emit (.error failure.message)]
  | .ok (metadata, some answer) =>
    .emit (.metadata metadata) :: .emit (.chunk answer) :: finish env query answer
  | .ok (metadata, none) =>
    let (chunks, result) := upstream.stream
    .emit (.metadata metadata) :: chunks.map (fun chunk => .emit (.chunk chunk)) ++
      match result with
      | .ok () => finish env query chunks.flatten
      | .error e => [.emit (.error (failureOf e).message)]

end

/-- The acts up to the event where the consumer stops; it goes on from `stop` events. -/
def upTo : Option Nat → List Act → List Act
  | _, [] => []
  | stop, .append query answer :: acts => .append query answer :: upTo stop acts
  | some 0, .emit event :: _ => [.emit event]
  | stop, .emit event :: acts => .emit event :: upTo (stop.map (· - 1)) acts

/-- The events of a request. -/
def events (acts : List Act) : List Event :=
  acts.filterMap fun act => match act with
    | .emit event => some event
    | .append _ _ => none

end Polymind.Graph
