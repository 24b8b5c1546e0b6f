import Polymind.Governance.Execution
import Polymind.Llm.Generation

/-!
# Governed execution with the OpenAI-compatible provider

The world of `Governance.Execution` in which the provider is `OpenAICompatibleProvider`: a provider call
is answered by `execute` on what its HTTP exchange gives.  Every other call is answered as before.
-/

namespace Polymind.Governance

open Llm (Usage ProviderError Exchange)

variable {U I F : Type} [DecidableEq U] [DecidableEq I]

/-- The environment: `inference` says what the code reads of the exceptions of other calls. -/
def openAIEnv (env : LedgerEnv U) (inference : F → Option (Option Usage × Str)) :
    ExecEnv U (ProviderError ⊕ F) :=
  { env with
    inference := Sum.elim (fun e => e.category.map fun category => (e.usage, category)) inference }

/-- The answer to a call of `OpenAICompatibleProvider.execute`. -/
def openAIReply (model : Str) (request : Llm.GenerationRequest) (x : Exchange) :
    Reply U (ProviderError ⊕ F) :=
  match Llm.OpenAICompatibleProvider.execute model request x with
  | .ok usage => .result usage
  | .error e => .raises (.inl e)

/-- A provider call is answered, or another event happens. -/
inductive OpenAIEvent (U I F : Type) where
  | provider (i : I) (model : Str) (request : Llm.GenerationRequest) (x : Exchange)
  | other (e : Event U I (ProviderError ⊕ F))

namespace World

/-- The process waits for the provider. -/
def atProvider (w : World U I (ProviderError ⊕ F)) (i : I) : Bool :=
  match w.procs i with
  | some (_, .provider _ _) => true
  | _ => false

/-- The state after an event; a process that waits for the provider is answered by it alone. -/
def openAINext (env : ExecEnv U (ProviderError ⊕ F)) (w : World U I (ProviderError ⊕ F)) :
    OpenAIEvent U I F → World U I (ProviderError ⊕ F)
  | .provider i model request x =>
    if w.atProvider i then w.next env (.answer i (openAIReply model request x)) else w
  | .other (.answer i reply) => if w.atProvider i then w else w.next env (.answer i reply)
  | .other e => w.next env e

/-- The state after a trace of events. -/
def openAIRun (env : ExecEnv U (ProviderError ⊕ F)) (w : World U I (ProviderError ⊕ F))
    (es : List (OpenAIEvent U I F)) : World U I (ProviderError ⊕ F) :=
  Traces.exec (openAINext env) w es

end World

end Polymind.Governance
