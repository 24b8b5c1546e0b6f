import Polymind.Llm.Admission
import Polymind.Lib.Text
import Polymind.Lib.Dict

/-!
# The streams of the two adapters

`generate_stream` of `llm/openai_compatible.py` and `llm/ollama_client.py`, with the
`InferenceObservation` of `llm/metrics.py`.  A stream is a generator over the lines of a response; its
consumer may close it at any value it yields.

The two loops differ in what they make of a line (`LineKind`) and in what their `except` clauses and
their `finally` do with the way the loop ended (`LoopEnd`).
-/

namespace Polymind.Llm

open Json

/-! ### Exceptions -/

/-- The categories of an `InferenceError` that a stream raises. -/
inductive InferenceCategory where
  | upstreamFailure | providerUnreachable | timeout | authenticationFailure | overloaded
  | modelUnavailable | protocolFailure
deriving DecidableEq

/-- What the transport raises: `requests.Timeout`, another `RequestException` with the status of its
response, or any other exception. -/
inductive TransportFault where
  | timeout
  | request (status : Option Int)
  | other
deriving DecidableEq

/-- What a stream raises; `generatorExit` is the close of its consumer. -/
inductive StreamError where
  | inference (category : InferenceCategory)
  | other
  | generatorExit
deriving DecidableEq

/-- `error_for_status`. -/
def errorForStatus (status : Option Int) : InferenceCategory :=
  match status with
  | none => .providerUnreachable
  | some status =>
    if status = 401 ∨ status = 403 then .authenticationFailure
    else if status = 404 then .modelUnavailable
    else if status = 408 ∨ status = 504 then .timeout
    else if status = 429 ∨ status = 502 ∨ status = 503 then .overloaded
    else .upstreamFailure

/-- The error each adapter raises for a fault of the transport. -/
def TransportFault.error : TransportFault → StreamError
  | .timeout => .inference .timeout
  | .request status => .inference (errorForStatus status)
  | .other => .other

/-! ### Observations -/

inductive Outcome where
  | success | error
deriving DecidableEq

/-- `InferenceObservation` of a stream; `outcomes` are the requests it counted. -/
structure Observation where
  ttftRecorded : Bool
  usage : Option Usage
  finished : Bool
  outcomes : List Outcome
deriving DecidableEq

namespace Observation

def start : Observation := ⟨false, none, false, []⟩

def observeContent (o : Observation) (content : Str) : Observation :=
  if !content.isEmpty && !o.ttftRecorded then { o with ttftRecorded := true } else o

def observeUsage (o : Observation) (usage : Option Usage) : Observation :=
  match usage, o.usage with
  | some usage, none => { o with usage := some usage }
  | _, _ => o

/-- `finish`. -/
def finish (o : Observation) (error : Option StreamError) : Observation :=
  if o.finished then o
  else { o with
    finished := true
    outcomes := o.outcomes ++ [if error.isSome then .error else .success] }

end Observation

/-! ### The loop over the lines -/

/-- What `json.loads` does: it returns a value, it raises one of the errors the adapters look for, or
it raises another exception. -/
inductive Loaded where
  | value (payload : Json)
  | malformed
  | raises

/-- What a loop makes of a line: it goes on, it breaks, it raises `InferenceResponseError` or another
exception, or it has a content to yield unless it is empty, with the usage observed before and after. -/
inductive LineKind where
  | skip
  | last
  | malformed
  | raises
  | chunk (content : Str) (before after : Option Usage)

/-- The response, once the request is made: its lines, and what reading raises after them. -/
structure Response (Line : Type) where
  lines : List Line
  fault : Option TransportFault

/-- How the loop ended. -/
inductive LoopEnd where
  | last | exhausted | malformed | raises | closed
  | fault (f : TransportFault)
deriving DecidableEq

/-- The loop when it has ended: the lines it took, the values it yielded, the observation. -/
structure Loop (Line : Type) where
  read : List Line
  yielded : List Str
  observation : Observation
  ending : LoopEnd

/-- The loop with a line and its value in front. -/
def Loop.after {Line : Type} (line : Line) (values : List Str) (loop : Loop Line) : Loop Line :=
  { loop with read := line :: loop.read, yielded := values ++ loop.yielded }

/-- The loop over the lines.  The consumer goes on from `stop` values and closes at the next. -/
def readLines {Line : Type} (classify : Line → LineKind) (fault : Option TransportFault) :
    List Line → Option Nat → Observation → Loop Line
  | [], _, o => ⟨[], [], o, match fault with | none => .exhausted | some f => .fault f⟩
  | line :: lines, stop, o =>
    match classify line with
    | .skip => (readLines classify fault lines stop o).after line []
    | .last => ⟨[line], [], o, .last⟩
    | .malformed => ⟨[line], [], o, .malformed⟩
    | .raises => ⟨[line], [], o, .raises⟩
    | .chunk content before after =>
      let o := o.observeUsage before
      if content.isEmpty then
        (readLines classify fault lines stop (o.observeUsage after)).after line []
      else
        let o := o.observeContent content
        match stop with
        | some 0 => ⟨[line], [content], o, .closed⟩
        | stop => (readLines classify fault lines (stop.map (· - 1)) (o.observeUsage after)).after line
            [content]

/-- What the `except` clauses leave for `finally`, and how the generator ends. -/
structure Handled where
  completed : Bool
  error : Option StreamError
  result : Except StreamError Unit

/-- A stream from its first `next` on. -/
structure StreamRun (Line : Type) where
  read : List Line
  yielded : List Str
  observation : Observation
  result : Except StreamError Unit

/-- A stream whose request was answered, or met a fault. -/
def runStream {Line : Type} (classify : Line → LineKind) (handle : LoopEnd → Handled)
    (finishError : Handled → Option StreamError)
    (response : Except TransportFault (Response Line)) (stop : Option Nat) : StreamRun Line :=
  match response with
  | .error fault =>
    let handled : Handled := ⟨false, some fault.error, .error fault.error⟩
    ⟨[], [], Observation.start.finish (finishError handled), handled.result⟩
  | .ok response =>
    let loop := readLines classify response.fault response.lines stop .start
    let handled := handle loop.ending
    ⟨loop.read, loop.yielded, loop.observation.finish (finishError handled), handled.result⟩

/-! ### JSON payloads -/

/-- `value[key]`, `none` where it raises. -/
def field? (value : Json) (key : String) : Option Json :=
  match value with
  | .obj fields => Dict.get? fields key.toList
  | _ => none

/-- A count of a usage object: an `int`, not a `bool`, and not negative. -/
def validCount (value : Option Json) : Option Int :=
  match value with
  | some (.int i) => if 0 ≤ i then some i else none
  | _ => none

def isObject : Json → Bool
  | .obj _ => true
  | _ => false

/-! ### The OpenAI-compatible adapter -/

namespace OpenAICompatibleProvider

/-- `_usage`. -/
def usage (payload : Json) : Option Usage :=
  match field? payload "usage" with
  | some (.obj usage) =>
    let prompt := validCount (Dict.get? usage "prompt_tokens".toList)
    let completion := validCount (Dict.get? usage "completion_tokens".toList)
    let total := validCount (Dict.get? usage "total_tokens".toList)
    if prompt.isNone && completion.isNone && total.isNone then none
    else some ⟨prompt, completion, total⟩
  | _ => none

/-- What `_stream_content` does without choices: usage or prompt filter results may come alone. -/
def emptyChoices (payload : Json) : Bool :=
  (field? payload "usage").any isObject ||
    match field? payload "prompt_filter_results" with
    | some (.arr items) => items.all isObject
    | _ => false

/-- `_stream_content`; the outer `none` is `InferenceResponseError`. -/
def streamContent (payload : Json) : Option (Option Str) :=
  match field? payload "choices" with
  | some (.arr []) => if emptyChoices payload then some none else none
  | some (.arr (first :: _)) =>
    match field? first "delta" with
    | some (.obj delta) =>
      match Dict.get? delta "content".toList with
      | none | some .null => some none
      | some (.str content) => some (some content)
      | some _ => none
    | _ => none
  | _ => none

/-- `line[5:].strip()` of a line with the prefix `data:`. -/
def data? (line : Str) : Option Str :=
  if "data:".toList.isPrefixOf line then some (Text.strip (line.drop 5)) else none

/-- The terminal marker. -/
def isDone (line : Str) : Bool := data? line == some "[DONE]".toList

/-- The body of the loop up to the `yield`. -/
def classify (loads : Str → Loaded) (line : Str) : LineKind :=
  if line.isEmpty || line.head? == some ':' then .skip
  else match data? line with
    | none => .malformed
    | some data =>
      if data = "[DONE]".toList then .last
      else match loads data with
        | .malformed => .malformed
        | .raises => .raises
        | .value payload =>
          match streamContent payload with
          | none => .malformed
          | some content => .chunk (content.getD []) (usage payload) none

/-- The `except` clauses of `generate_stream`; the one for `requests.Timeout` leaves `error` as it is. -/
def handle : LoopEnd → Handled
  | .last => ⟨true, none, .ok ()⟩
  | .exhausted | .malformed =>
    ⟨false, some (.inference .protocolFailure), .error (.inference .protocolFailure)⟩
  | .fault .timeout => ⟨false, none, .error (.inference .timeout)⟩
  | .fault fault => ⟨false, some fault.error, .error fault.error⟩
  | .raises => ⟨false, some .other, .error .other⟩
  | .closed => ⟨false, some .generatorExit, .error .generatorExit⟩

/-- `generate_stream`. -/
def generateStream (loads : Str → Loaded) (response : Except TransportFault (Response Str))
    (stop : Option Nat) : StreamRun Str :=
  runStream (classify loads) handle (fun h => if h.completed then none else h.error) response stop

end OpenAICompatibleProvider

/-! ### The Ollama adapter -/

namespace OllamaClient

abbrev Bytes := List UInt8

/-- `_usage`. -/
def usage (chunk : Json) : Option Usage :=
  let prompt := validCount (field? chunk "prompt_eval_count")
  let completion := validCount (field? chunk "eval_count")
  match prompt, completion with
  | none, none => none
  | some p, some c => some ⟨some p, some c, some (p + c)⟩
  | prompt, completion => some ⟨prompt, completion, none⟩

/-- `chunk['message']['content']`, if it is text. -/
def content? (chunk : Json) : Option Str :=
  match (field? chunk "message").bind (field? · "content") with
  | some (.str content) => some content
  | _ => none

/-- `chunk.get('done') is True`. -/
def isDone (chunk : Json) : Bool :=
  match field? chunk "done" with
  | some (.bool true) => true
  | _ => false

/-- The body of the loop up to the `yield`; `loads` decodes the line too. -/
def classify (loads : Bytes → Loaded) (line : Bytes) : LineKind :=
  if line.isEmpty then .skip
  else match loads line with
    | .malformed => .malformed
    | .raises => .raises
    | .value chunk =>
      match content? chunk with
      | none => .malformed
      | some content => .chunk content none (if isDone chunk then usage chunk else none)

/-- The terminal marker. -/
def marks (loads : Bytes → Loaded) (line : Bytes) : Bool :=
  match loads line with
  | .value chunk => !line.isEmpty && (content? chunk).isSome && isDone chunk
  | _ => false

/-- The `except` clauses of `generate_stream`; nothing is asked of a loop that ran to the end. -/
def handle : LoopEnd → Handled
  | .last | .exhausted => ⟨true, none, .ok ()⟩
  | .malformed => ⟨false, some (.inference .protocolFailure), .error (.inference .protocolFailure)⟩
  | .fault fault => ⟨false, some fault.error, .error fault.error⟩
  | .raises => ⟨false, some .other, .error .other⟩
  | .closed => ⟨false, some .generatorExit, .error .generatorExit⟩

/-- `generate_stream`. -/
def generateStream (loads : Bytes → Loaded) (response : Except TransportFault (Response Bytes))
    (stop : Option Nat) : StreamRun Bytes :=
  runStream (classify loads) handle Handled.error response stop

end OllamaClient

end Polymind.Llm
