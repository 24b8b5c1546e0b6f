import Polymind.Lib.Except
import Mathlib.Algebra.BigOperators.Group.List.Basic
import Mathlib.Algebra.Ring.Nat

/-!
# Walks over a graph

A walk with a stack and a set of visited keys, as loops write it: a key is taken from the stack,
skipped if it was seen, and else its successors are pushed.  A loop without a bound is given rounds,
and `walk_ok` says how many are enough: over a finite set of keys closed under successors, one for
each key on the stack and for each successor of a key not seen yet.  What the walk then returns is
closed under successors.
-/

namespace Polymind.Walk

universe u

variable {K ε : Type u} [DecidableEq K]

/-- The walk; `next` gives the successors of a key, or raises, and `stuck` is raised when the rounds
are used up. -/
def walk (next : K → Except ε (List K)) (stuck : ε) : Nat → List K → List K → Except ε (List K)
  | _, [], seen => .ok seen
  | 0, _ :: _, _ => .error stuck
  | rounds + 1, key :: todo, seen =>
    if key ∈ seen then walk next stuck rounds todo seen
    else do
      let more ← next key
      walk next stuck rounds (more ++ todo) (key :: seen)

/-- How many keys the keys not seen yet may push. -/
def pending (succ : K → List K) (keys seen : List K) : Nat :=
  (keys.map fun k => if k ∈ seen then 0 else (succ k).length).sum

/-- Seeing a key takes its successors off the count. -/
theorem pending_cons (succ : K → List K) {keys seen : List K} (hnd : keys.Nodup) {key : K}
    (hmem : key ∈ keys) (hnew : key ∉ seen) :
    pending succ keys seen = (succ key).length + pending succ keys (key :: seen) := by
  induction keys with
  | nil => cases hmem
  | cons k keys ih =>
    obtain ⟨hk, hnd⟩ := List.nodup_cons.mp hnd
    unfold pending at ih ⊢
    rw [List.map_cons, List.sum_cons, List.map_cons, List.sum_cons]
    rcases List.mem_cons.mp hmem with rfl | hmem
    · -- the rest does not hold the key
      have hrest : (keys.map fun k => if k ∈ seen then 0 else (succ k).length)
          = keys.map fun k => if k ∈ key :: seen then 0 else (succ k).length := by
        refine List.map_congr_left fun x hx => ?_
        have hne : x ≠ key := fun he => hk (he ▸ hx)
        simp [hne]
      rw [if_neg hnew, if_pos (List.mem_cons_self ..), hrest]
      omega
    · have hne : k ≠ key := fun he => hk (he ▸ hmem)
      rw [ih hnd hmem]
      simp only [List.mem_cons, hne, false_or]
      omega

section

variable {next : K → Except ε (List K)} (stuck : ε) {succ : K → List K} {keys : List K}

/-- The walk returns a closed set that has the keys on the stack. -/
theorem walk_ok (hnd : keys.Nodup) (hnext : ∀ k ∈ keys, next k = .ok (succ k))
    (hclosed : ∀ k ∈ keys, ∀ x ∈ succ k, x ∈ keys) :
    ∀ {rounds : Nat} {todo seen : List K}, (∀ k ∈ todo, k ∈ keys) →
      (∀ k ∈ seen, ∀ x ∈ succ k, x ∈ seen ∨ x ∈ todo) →
      todo.length + pending succ keys seen ≤ rounds →
      ∃ visited, walk next stuck rounds todo seen = .ok visited ∧ (∀ k ∈ seen, k ∈ visited)
        ∧ (∀ k ∈ todo, k ∈ visited) ∧ ∀ k ∈ visited, ∀ x ∈ succ k, x ∈ visited := by
  intro rounds
  induction rounds with
  | zero =>
    intro todo seen _ hseen hrounds
    obtain rfl : todo = [] := List.eq_nil_of_length_eq_zero (by omega)
    refine ⟨seen, rfl, fun _ hk => hk, by simp, fun k hk x hx => ?_⟩
    simpa using hseen k hk x hx
  | succ rounds ih =>
    intro todo seen htodo hseen hrounds
    cases todo with
    | nil =>
      refine ⟨seen, rfl, fun _ hk => hk, by simp, fun k hk x hx => ?_⟩
      simpa using hseen k hk x hx
    | cons key todo =>
      obtain ⟨hkey, htodo⟩ := List.forall_mem_cons.mp htodo
      rw [List.length_cons] at hrounds
      rw [walk]
      by_cases hold : key ∈ seen
      · rw [if_pos hold]
        obtain ⟨visited, hwalk, hs, ht, hc⟩ := ih htodo (fun k hk x hx => by
          rcases hseen k hk x hx with h | h
          · exact .inl h
          · rcases List.mem_cons.mp h with rfl | h
            · exact .inl hold
            · exact .inr h) (by omega)
        exact ⟨visited, hwalk, hs, List.forall_mem_cons.mpr ⟨hs key hold, ht⟩, hc⟩
      · rw [if_neg hold, hnext key hkey]
        have hpending := pending_cons succ hnd hkey hold
        obtain ⟨visited, hwalk, hs, ht, hc⟩ := @ih (succ key ++ todo) (key :: seen)
          (List.forall_mem_append.mpr ⟨hclosed key hkey, htodo⟩) (fun k hk x hx => by
          simp only [List.mem_cons, List.mem_append] at hk ⊢
          rcases hk with rfl | hk
          · exact .inr (.inl hx)
          · rcases hseen k hk x hx with h | h
            · exact .inl (.inr h)
            · rcases List.mem_cons.mp h with rfl | h
              · exact .inl (.inl rfl)
              · exact .inr (.inr h)) (by rw [List.length_append]; omega)
        obtain ⟨hkey', hs⟩ := List.forall_mem_cons.mp hs
        exact ⟨visited, hwalk, hs, List.forall_mem_cons.mpr
          ⟨hkey', (List.forall_mem_append.mp ht).2⟩, hc⟩

end

end Polymind.Walk
