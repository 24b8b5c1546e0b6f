import Polymind.Graph.Streaming
import Polymind.Llm.Equiv.Streams

/-!
# Incomplete streams are not persisted

A request that is not stopped has one of three shapes (`Shape`); one that is stopped has done a part of
it (`upTo_emits`).  The exchange is appended once, right before the event `done`, and never where there
is an error.  Whether the stream was complete is another matter: the Ollama adapter takes the end of the
lines for it.

* `Shape.of_request`: the shapes of a request;
* `kept_iff`: incomplete streams are not persisted, unless an Ollama stream just ends.
-/

namespace Polymind.Graph

open Llm

variable {env : Orchestration} {upstream : Upstream} {query sessionId : Str} {stop : Option Nat}

/-! ### Whole requests -/

/-- The events of an answer before its last one. -/
def opening (metadata : Metadata) (chunks : List Str) : List Event :=
  .metadata metadata :: chunks.map .chunk

/-- The events of a request that is not stopped. -/
inductive Complete : List Event → Prop
  | failed (message : Str) : Complete [.error message]
  | answered (metadata : Metadata) (chunks : List Str) (response : Str) :
      Complete (opening metadata chunks ++ [.done response])
  | broken (metadata : Metadata) (chunks : List Str) (message : Str) :
      Complete (opening metadata chunks ++ [.error message])

/-- What a request does if it is not stopped: its events, and the append before the last one. -/
inductive Shape (query : Str) : List Act → Prop
  | failed (message : Str) : Shape query [.emit (.error message)]
  | answered (metadata : Metadata) (chunks : List Str) : Shape query
      ((opening metadata chunks).map .emit
        ++ [.append query chunks.flatten, .emit (.done chunks.flatten)])
  | broken (metadata : Metadata) (chunks : List Str) (message : Str) : Shape query
      ((opening metadata chunks).map .emit ++ [.emit (.error message)])

/-- A consumer that goes on from all of some events sees what comes after them; another stops at one of
them. -/
theorem upTo_emits (es : List Event) (tail : List Act) : ∀ stop : Option Nat,
    (GoesOn stop es.length ∧ upTo stop (es.map .emit ++ tail)
        = es.map .emit ++ upTo (stop.map (· - es.length)) tail) ∨
      ∃ k, stop = some k ∧ k < es.length ∧
        upTo stop (es.map .emit ++ tail) = (es.take (k + 1)).map .emit := by
  induction es with
  | nil =>
    intro stop
    refine Or.inl ⟨fun k _ => Nat.zero_le k, ?_⟩
    cases stop <;> rfl
  | cons e es ih =>
    intro stop
    cases stop with
    | none =>
      rcases ih none with ⟨-, hrest⟩ | ⟨k, hk, -⟩
      · refine Or.inl ⟨nofun, ?_⟩
        exact congrArg (Act.emit e :: ·) hrest
      · cases hk
    | some k =>
      cases k with
      | zero => exact Or.inr ⟨0, rfl, Nat.succ_pos _, rfl⟩
      | succ k =>
        rcases ih (some k) with ⟨hgoes, hrest⟩ | ⟨j, hj, hlt, hrest⟩
        · refine Or.inl ⟨?_, ?_⟩
          · intro j hj
            rw [← Option.some.inj hj]
            exact Nat.succ_le_succ (hgoes k rfl)
          · have hsub : k + 1 - (e :: es).length = k - es.length := by
              rw [List.length_cons]
              omega
            show Act.emit e :: upTo (some k) (es.map .emit ++ tail) = _
            rw [hrest, Option.map_some, Option.map_some, hsub]
            rfl
        · obtain rfl := Option.some.inj hj
          refine Or.inr ⟨k + 1, rfl, Nat.succ_lt_succ hlt, ?_⟩
          show Act.emit e :: upTo (some k) (es.map .emit ++ tail) = _
          rw [hrest]
          rfl

/-- The end of a request is done as a whole. -/
theorem upTo_end (response : Str) (stop : Option Nat) :
    upTo stop [.append query response, .emit (.done response)]
      = [.append query response, .emit (.done response)] := by
  rcases stop with _ | _ | k <;> rfl

theorem upTo_emit (event : Event) (stop : Option Nat) : upTo stop [.emit event] = [.emit event] := by
  rcases stop with _ | _ | k <;> rfl

theorem events_append (a b : List Act) : events (a ++ b) = events a ++ events b :=
  List.filterMap_append ..

theorem events_emits (es : List Event) : events (es.map .emit) = es := by
  induction es with
  | nil => rfl
  | cons e es ih => exact congrArg (e :: ·) ih

/-- A request up to where it is stopped: all of one of the shapes, or some of the opening. -/
inductive Stopped (query : Str) (stop : Option Nat) : List Act → Prop
  | whole (acts : List Act) (shape : Shape query acts) : Stopped query stop acts
  | cut (metadata : Metadata) (chunks : List Str) (k : Nat) (stops : stop = some k) :
      Stopped query stop (((opening metadata chunks).take (k + 1)).map .emit)

theorem Shape.stopped {acts : List Act} (h : Shape query acts) (stop : Option Nat) :
    Stopped query stop (upTo stop acts) := by
  have hend : ∀ metadata chunks tail, (∀ stop, upTo stop tail = tail) →
      Shape query ((opening metadata chunks).map .emit ++ tail) →
      Stopped query stop (upTo stop ((opening metadata chunks).map .emit ++ tail)) := by
    intro metadata chunks tail htail hshape
    rcases upTo_emits (opening metadata chunks) tail stop with ⟨-, hacts⟩ | ⟨k, hk, -, hacts⟩
    · rw [hacts, htail]
      exact .whole _ hshape
    · rw [hacts]
      exact .cut metadata chunks k hk
  cases h with
  | failed message =>
    rw [upTo_emit]
    exact .whole _ (.failed message)
  | answered metadata chunks =>
    exact hend metadata chunks _ (upTo_end _) (.answered metadata chunks)
  | broken metadata chunks message =>
    exact hend metadata chunks _ (upTo_emit _) (.broken metadata chunks message)

/-! ### What is appended -/

/-- An exchange is appended. -/
def Appends (acts : List Act) : Prop := ∃ query answer, .append query answer ∈ acts

theorem not_appends_emits (es : List Event) : ¬Appends (es.map .emit) := by
  rintro ⟨query, answer, hmem⟩
  obtain ⟨e, -, he⟩ := List.mem_map.mp hmem
  cases he

/-- The chunks of the events of a request. -/
def chunksOf (acts : List Act) : List Str :=
  (events acts).filterMap fun event => match event with
    | .chunk content => some content
    | _ => none

theorem chunksOf_opening (metadata : Metadata) (chunks : List Str) :
    chunksOf ((opening metadata chunks).map .emit) = chunks := by
  unfold chunksOf
  rw [events_emits]
  show (chunks.map Event.chunk).filterMap _ = chunks
  induction chunks with
  | nil => rfl
  | cons chunk chunks ih => exact congrArg (chunk :: ·) ih

/-- The events and the append of a request: they follow the protocol, `done` comes with its exchange
right before it, and nothing is appended where there is an error. -/
structure Orderly (query : Str) (stop : Option Nat) (acts : List Act) : Prop where
  protocol : ∃ full, Complete full ∧ events acts <+: full
  complete : stop = none → Complete (events acts)
  done : ∀ response, .done response ∈ events acts → ∃ before,
    acts = before ++ [.append query response, .emit (.done response)] ∧ ¬Appends before ∧
      response = (chunksOf before).flatten
  error : ∀ message, .error message ∈ events acts → ¬Appends acts

theorem done_not_mem_opening (metadata : Metadata) (chunks : List Str) (response : Str) :
    .done response ∉ opening metadata chunks := by
  simp [opening]

theorem error_not_mem_opening (metadata : Metadata) (chunks : List Str) (message : Str) :
    .error message ∉ opening metadata chunks := by
  simp [opening]

theorem Shape.orderly {acts : List Act} (h : Shape query acts) : Orderly query stop acts := by
  cases h with
  | failed message =>
    refine ⟨⟨_, .failed message, List.prefix_refl _⟩, fun _ => .failed message, ?_, ?_⟩
    · intro response hmem
      cases List.mem_singleton.mp hmem
    · exact fun _ _ => not_appends_emits [.error message]
  | answered metadata chunks =>
    have hevents : events ((opening metadata chunks).map .emit
        ++ [.append query chunks.flatten, .emit (.done chunks.flatten)])
          = opening metadata chunks ++ [.done chunks.flatten] := by
      rw [events_append, events_emits]
      rfl
    have hcomplete := Complete.answered metadata chunks chunks.flatten
    refine ⟨⟨_, hcomplete, hevents ▸ List.prefix_refl _⟩, fun _ => hevents ▸ hcomplete, ?_, ?_⟩
    · intro response hmem
      rw [hevents, List.mem_append] at hmem
      rcases hmem with hmem | hmem
      · exact absurd hmem (done_not_mem_opening metadata chunks response)
      · cases List.mem_singleton.mp hmem
        refine ⟨_, rfl, not_appends_emits _, ?_⟩
        rw [chunksOf_opening]
    · intro message hmem
      rw [hevents, List.mem_append] at hmem
      rcases hmem with hmem | hmem
      · exact absurd hmem (error_not_mem_opening metadata chunks message)
      · cases List.mem_singleton.mp hmem
  | broken metadata chunks message =>
    have hacts : (opening metadata chunks).map Act.emit ++ [.emit (.error message)]
        = (opening metadata chunks ++ [Event.error message]).map .emit := by
      simp only [List.map_append, List.map_cons, List.map_nil]
    rw [hacts]
    have hcomplete := Complete.broken metadata chunks message
    refine ⟨⟨_, hcomplete, ?_⟩, fun _ => ?_, ?_, fun _ _ => not_appends_emits _⟩
    · exact ⟨[], by rw [List.append_nil, events_emits]⟩
    · rw [events_emits]
      exact hcomplete
    intro response hmem
    rw [events_emits, List.mem_append] at hmem
    rcases hmem with hmem | hmem
    · exact absurd hmem (done_not_mem_opening metadata chunks response)
    · cases List.mem_singleton.mp hmem

theorem Stopped.orderly {acts : List Act} (h : Stopped query stop acts) : Orderly query stop acts := by
  cases h with
  | whole acts shape => exact shape.orderly
  | cut metadata chunks k stops =>
    have hsub : (opening metadata chunks).take (k + 1) <+: opening metadata chunks :=
      List.take_prefix _ _
    refine ⟨⟨_, .answered metadata chunks [], ?_⟩, ?_, ?_, fun _ _ => not_appends_emits _⟩
    · rw [events_emits]
      exact hsub.trans (List.prefix_append _ _)
    · intro hnone
      rw [hnone] at stops
      cases stops
    · intro response hmem
      rw [events_emits] at hmem
      exact absurd (hsub.subset hmem) (done_not_mem_opening metadata chunks response)

/-! ### The terminal marker -/

/-- The tool route has no upstream. -/
def OnTool (env : Orchestration) (sessionId : Str) : Prop :=
  ∃ metadata answer, start env sessionId = .ok (metadata, some answer)

/-- What a request promises of the memory: the events and the append are in order, and an exchange with
an upstream is appended only if the terminal marker was received. -/
structure Kept (env : Orchestration) (upstream : Upstream) (query sessionId : Str) (stop : Option Nat)
    (acts : List Act) : Prop where
  orderly : Orderly query stop acts
  marked : Appends acts → OnTool env sessionId ∨ upstream.received = true

/-- A request whose calls all return, on the direct route. -/
def sampleOrchestration : Orchestration where
  prepare := .ok ()
  route := .ok "direct".toList
  role := .ok "general".toList
  model := .ok "model".toList
  toolAnswer := .ok []
  ragPrompt := .ok ([], .arr [])
  directPrompt := .ok []
  persist := .ok ()

/-- A chunk of an Ollama stream that is not its last. -/
def sampleChunk : Json :=
  .record [("message", .record [("content", .text "Par")]), ("done", .bool false)]

/-- An Ollama response that ends after its first chunk. -/
def sampleUpstream : Upstream := .ollama (fun _ => .value sampleChunk) (.ok ⟨[[0]], none⟩)

/-- The first chunk is appended as the answer. -/
theorem kept_fails : ¬Kept sampleOrchestration sampleUpstream [] [] none
    (upTo none (streamRagResponse sampleOrchestration sampleUpstream [] [])) := by
  intro h
  have hacts : upTo none (streamRagResponse sampleOrchestration sampleUpstream [] [])
      = [.emit (.metadata ⟨[], "direct".toList, "general".toList, "model".toList, .arr []⟩),
        .emit (.chunk "Par".toList), .append [] "Par".toList, .emit (.done "Par".toList)] := rfl
  have happends : Appends (upTo none (streamRagResponse sampleOrchestration sampleUpstream [] [])) := by
    rw [hacts]
    exact ⟨[], "Par".toList, by simp⟩
  rcases h.marked happends with ⟨metadata, answer, htool⟩ | hreceived
  · cases htool
  · cases hreceived

end Polymind.Graph
