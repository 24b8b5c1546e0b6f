/-!
# Traces of a machine that answers every event

A machine is a function `next` from a state and an event to the next state; a trace is a list of
events.  `exec` runs a trace, `Along P` says that every step of a trace satisfies `P`.

* `exec_invariant`: what every step with `P` keeps holds at the end of a trace along which `P` holds;
* `exists_step`: a property that does not hold at first and holds at the end is established by a step.
-/

namespace Polymind.Traces

universe u v

variable {S : Type u} {E : Type v} (next : S → E → S)

/-- The state after a trace. -/
def exec (s : S) (es : List E) : S := es.foldl next s

@[simp] theorem exec_nil (s : S) : exec next s [] = s := rfl

@[simp] theorem exec_cons (s : S) (e : E) (es : List E) :
    exec next s (e :: es) = exec next (next s e) es := rfl

theorem exec_append (s : S) (es es' : List E) :
    exec next s (es ++ es') = exec next (exec next s es) es' := List.foldl_append

/-- Every step of the trace satisfies `P`, at the state in which it is taken. -/
def Along (P : S → E → Prop) : S → List E → Prop
  | _, [] => True
  | s, e :: es => P s e ∧ Along P (next s e) es

variable {next}

theorem along_append {P : S → E → Prop} {s : S} {es es' : List E} :
    Along next P s (es ++ es') ↔ Along next P s es ∧ Along next P (exec next s es) es' := by
  induction es generalizing s with
  | nil => simp [Along]
  | cons e es ih => simp [Along, ih, and_assoc]

/-- A trace satisfies `P` along the way if `P` holds after each of its prefixes. -/
theorem along_of_prefix {P : S → E → Prop} {s : S} {es : List E}
    (h : ∀ before e rest, es = before ++ e :: rest → P (exec next s before) e) :
    Along next P s es := by
  induction es generalizing s with
  | nil => trivial
  | cons e es ih =>
    refine ⟨h [] e es rfl, ih fun before e' rest heq => ?_⟩
    exact h (e :: before) e' rest (congrArg (e :: ·) heq)

theorem along_and {P Q : S → E → Prop} {s : S} {es : List E} (hP : Along next P s es)
    (hQ : Along next Q s es) : Along next (fun s e => P s e ∧ Q s e) s es := by
  induction es generalizing s with
  | nil => trivial
  | cons e es ih => exact ⟨⟨hP.1, hQ.1⟩, ih hP.2 hQ.2⟩

theorem along_true (s : S) (es : List E) : Along next (fun _ _ => True) s es := by
  induction es generalizing s with
  | nil => trivial
  | cons e es ih => exact ⟨trivial, ih _⟩

/-- What every step with `P` keeps holds at the end of a trace along which `P` holds. -/
theorem exec_invariant {P : S → E → Prop} (I : S → Prop)
    (hstep : ∀ s e, P s e → I s → I (next s e)) {s : S} {es : List E} (h : Along next P s es)
    (hs : I s) : I (exec next s es) := by
  induction es generalizing s with
  | nil => exact hs
  | cons e es ih => exact ih h.2 (hstep s e h.1 hs)

/-- A property that does not hold at first and holds at the end is established by a step. -/
theorem exists_step (Q : S → Prop) {s : S} {es : List E} (hs : ¬Q s) (h : Q (exec next s es)) :
    ∃ before e rest, es = before ++ e :: rest ∧ ¬Q (exec next s before) ∧
      Q (next (exec next s before) e) := by
  induction es generalizing s with
  | nil => exact absurd h hs
  | cons e es ih =>
    by_cases hq : Q (next s e)
    · exact ⟨[], e, es, rfl, hs, hq⟩
    · obtain ⟨before, e', rest, rfl, hnot, hyes⟩ := ih hq h
      exact ⟨e :: before, e', rest, rfl, hnot, hyes⟩

end Polymind.Traces
