import Polymind.Llm.Generation
import Polymind.Lib.Except

/-!
# Usage comes from the body

`execute_reports`: the counts that a result or an exception of `execute` carries are those of the body,
which is consistent about them.
-/

namespace Polymind.Llm

open Json

/-- The body reports the counts: its total, if there is one, is their sum, and its reasoning tokens, if
there are any, are at most the completion count. -/
structure Reports (value : Json) (prompt completion : Nat) : Prop where
  counts : ∃ raw, field? value "usage" = some (.obj raw) ∧
    Dict.get? raw "prompt_tokens".toList = some (.int prompt) ∧
    Dict.get? raw "completion_tokens".toList = some (.int completion)
  total : ∀ raw t, field? value "usage" = some (.obj raw) → given? raw "total_tokens" = some t →
    t = .int (prompt + completion)
  reasoning : ∀ raw details, field? value "usage" = some (.obj raw) →
    given? raw "completion_tokens_details" = some details → ∃ fields, details = .obj fields ∧
      ∀ r, given? fields "reasoning_tokens" = some r → ∃ n : Nat, r = .int n ∧ n ≤ completion

namespace OpenAICompatibleProvider

/-- A count that is valid is a natural number of the object. -/
theorem validCount_eq_some {value : Option Json} {i : Int} (h : validCount value = some i) :
    value = some (.int i) ∧ 0 ≤ i := by
  unfold validCount at h
  split at h
  · split at h
    · next hi =>
      obtain rfl := Option.some.inj h
      exact ⟨rfl, hi⟩
    · cases h
  · cases h

theorem given?_of_get? {fields : List (Str × Json)} {key : String} {i : Int}
    (h : Dict.get? fields key.toList = some (.int i)) : given? fields key = some (.int i) := by
  unfold given?
  rw [h]

/-- The usage of a body that passes the checks, when both counts are known. -/
theorem measured_reports {value : Json} {u : Usage} {p c : Int}
    (h : measured value = .ok (some u)) (hp : u.promptTokens = some p)
    (hc : u.completionTokens = some c) : Reports value p.toNat c.toNat := by
  -- only an object has a usage
  have husage : usage value = some u ∧
      ∃ raw, field? value "usage" = some (.obj raw) ∧ invalidUsage raw = false := by
    unfold measured at h
    unfold usage at h ⊢
    split at h
    · next hf =>
      rw [hf] at h
      cases h
    · next hf =>
      rw [hf] at h
      cases h
    · next raw hf =>
      rw [hf] at h ⊢
      split at h
      · cases h
      · next hvalid => exact ⟨Except.ok.inj h, raw, rfl, by simpa using hvalid⟩
    · cases h
  obtain ⟨husage, raw, hraw, hvalid⟩ := husage
  unfold usage at husage
  rw [hraw] at husage
  simp only at husage
  split at husage
  · cases husage
  · obtain rfl := Option.some.inj husage
    obtain ⟨hprompt, hp0⟩ := validCount_eq_some hp
    obtain ⟨hcompletion, hc0⟩ := validCount_eq_some hc
    unfold invalidUsage at hvalid
    simp only [given?_of_get? hprompt, given?_of_get? hcompletion, Bool.or_eq_false_iff] at hvalid
    obtain ⟨⟨htypes, htotal⟩, hdetails⟩ := hvalid
    have hpn : (p.toNat : Int) = p := Int.toNat_of_nonneg hp0
    have hcn : (c.toNat : Int) = c := Int.toNat_of_nonneg hc0
    refine ⟨⟨raw, hraw, by rw [hpn]; exact hprompt, by rw [hcn]; exact hcompletion⟩, ?_, ?_⟩
    · -- the total is a count, and the sum of the others
      intro raw' t hraw' ht
      obtain rfl : raw = raw' := by simpa using hraw.symm.trans hraw'
      rw [ht] at htypes htotal
      cases t with
      | int t =>
        unfold wrongTotal at htotal
        simp only [ne_eq, decide_eq_false_iff_not, not_not] at htotal
        rw [htotal, hpn, hcn]
      | _ => simp [isCount] at htypes
    · intro raw' details hraw' hd
      obtain rfl : raw = raw' := by simpa using hraw.symm.trans hraw'
      rw [hd] at hdetails
      unfold wrongDetails at hdetails
      cases details with
      | obj fields =>
        refine ⟨fields, rfl, fun r hr => ?_⟩
        simp only [hr] at hdetails
        cases r with
        | int reasoning =>
          simp only [Bool.or_eq_false_iff, decide_eq_false_iff_not, not_lt] at hdetails
          refine ⟨reasoning.toNat, by rw [Int.toNat_of_nonneg hdetails.1], ?_⟩
          exact Int.toNat_le_toNat hdetails.2
        | _ => cases hdetails
      | _ => cases hdetails

/-- The usage that leaves `execute`, with a result or on an exception. -/
def carried : Except ProviderError (Option Usage) → Option Usage
  | .ok usage => usage
  | .error e => e.usage

/-- The error of a malformed usage carries none. -/
theorem measured_error {value : Json} {e : ProviderError} (h : measured value = .error e) :
    e.usage = none := by
  unfold measured at h
  split at h
  · cases h
  · cases h
  · split at h
    · obtain rfl := Except.error.inj h
      rfl
    · cases h
  · obtain rfl := Except.error.inj h
    rfl

/-- What leaves `execute` is the usage of a body that passes the checks. -/
theorem carried_execute {model : Str} {request : GenerationRequest} {x : Exchange} {u : Usage}
    (h : carried (execute model request x) = some u) :
    ∃ value surrogate, x = .body value surrogate ∧ measured value = .ok (some u) := by
  cases x with
  | raises category => cases h
  | body value surrogate =>
    refine ⟨value, surrogate, rfl, ?_⟩
    have hexec : execute model request (.body value surrogate) = (measured value >>= fun usage =>
        concluded usage (completed model request value surrogate)) := rfl
    rw [hexec] at h
    cases hm : measured value with
    | error e =>
      rw [hm] at h
      exact absurd ((measured_error hm).symm.trans h) nofun
    | ok usage =>
      rw [hm] at h
      replace h : carried (concluded usage (completed model request value surrogate)) = some u := h
      cases hdone : completed model request value surrogate with
      | ok _ =>
        rw [hdone] at h
        exact congrArg Except.ok h
      | error refusal =>
        rw [hdone] at h
        cases refusal with
        | response => exact congrArg Except.ok h
        | outputLimit => exact congrArg Except.ok h
        | unicode => cases h

/-- The counts that leave `execute` are counts the body reports. -/
theorem execute_reports {model : Str} {request : GenerationRequest} {x : Exchange} {u : Usage}
    {p c : Int} (h : carried (execute model request x) = some u) (hp : u.promptTokens = some p)
    (hc : u.completionTokens = some c) :
    ∃ value surrogate, x = .body value surrogate ∧ Reports value p.toNat c.toNat := by
  obtain ⟨value, surrogate, rfl, hm⟩ := carried_execute h
  exact ⟨value, surrogate, rfl, measured_reports hm hp hc⟩

end OpenAICompatibleProvider

end Polymind.Llm
