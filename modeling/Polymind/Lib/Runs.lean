import Mathlib.Logic.Relation

/-!
# Runs of a transition system

A transition system is a relation `r` on states; a run is a chain of its steps.  The rules lift what
one step does to a whole run: `run_invariant` for a property of states, `run_relates` for a
preorder between the first and the last state, which may use an invariant on the way.
-/

namespace Polymind

universe u

variable {α : Type u} {r : α → α → Prop} {a b : α}

/-- What every step keeps holds at the end of a run. -/
theorem run_invariant (I : α → Prop) (hstep : ∀ a b, I a → r a b → I b)
    (h : Relation.ReflTransGen r a b) (ha : I a) : I b := by
  induction h with
  | refl => exact ha
  | tail _ hbc ih => exact hstep _ _ ih hbc

/-- A preorder that every step from an invariant state respects relates the ends of a run. -/
theorem run_relates (I : α → Prop) (R : α → α → Prop) (hinv : ∀ a b, I a → r a b → I b)
    (hrefl : ∀ a, R a a) (htrans : ∀ a b c, R a b → R b c → R a c)
    (hstep : ∀ a b, I a → r a b → R a b) (h : Relation.ReflTransGen r a b) (ha : I a) : R a b := by
  induction h with
  | refl => exact hrefl a
  | tail hab hbc ih => exact htrans _ _ _ ih (hstep _ _ (run_invariant I hinv hab ha) hbc)

end Polymind
