import Mathlib.Data.List.DropRight
import Mathlib.Data.List.Nodup

/-!
# Python slices and the end of a list

`l[i:]` and `l[:i]` of Python for an integer `i`, which counts from the end when it is negative and
is clamped to the list.  With a negative bound they are the last entries (`List.rtake`) and what
stands before them.

`filter_drop_positions` is about a list from which the first entries with a property are deleted by
their positions: it loses these entries and nothing else.
-/

namespace Polymind.Slices

universe u

variable {α : Type u}

/-- Where a bound of a slice falls in a list of length `n`. -/
def bound (n : Nat) (i : Int) : Nat := if i < 0 then (i + n).toNat else min i.toNat n

/-- `l[i:]`. -/
def sliceFrom (l : List α) (i : Int) : List α := l.drop (bound l.length i)

/-- `l[:i]`. -/
def sliceTo (l : List α) (i : Int) : List α := l.take (bound l.length i)

theorem bound_neg {n : Nat} {i : Int} (h : 1 ≤ i) : bound n (-i) = n - i.toNat := by
  unfold bound
  rw [if_pos (by omega)]
  omega

theorem sliceFrom_neg {i : Int} (h : 1 ≤ i) (l : List α) : sliceFrom l (-i) = l.rtake i.toNat := by
  rw [sliceFrom, bound_neg h, List.rtake]

theorem sliceTo_neg {i : Int} (h : 1 ≤ i) (l : List α) : sliceTo l (-i) = l.rdrop i.toNat := by
  rw [sliceTo, bound_neg h, List.rdrop]

/-! ### The last entries -/

theorem map_rtake {β : Type u} (f : α → β) (n : Nat) (l : List α) :
    (l.rtake n).map f = (l.map f).rtake n := by
  rw [List.rtake, List.rtake, List.map_drop, List.length_map]

theorem rtake_rtake (m n : Nat) (l : List α) : (l.rtake m).rtake n = l.rtake (min n m) := by
  rw [List.rtake, List.rtake, List.rtake, List.drop_drop, List.length_drop]
  congr 1
  omega

/-- Entries that are cut before more are appended are cut afterwards too. -/
theorem rtake_append_rtake (n : Nat) (l m : List α) : (l.rtake n ++ m).rtake n = (l ++ m).rtake n := by
  simp only [List.rtake_eq_reverse_take_reverse, List.reverse_append, List.reverse_reverse,
    List.take_append, List.take_take]
  congr 3
  omega

/-! ### Deleting positions -/

section Positions

variable (p : α → Bool)

/-- The positions of the entries with a property. -/
def positions (l : List α) : List Nat := (l.zipIdx.filter fun q => p q.1).map Prod.snd

/-- The list without the entries at some positions. -/
def without (l : List α) (remove : List Nat) : List α :=
  (l.zipIdx.filter fun q => q.2 ∉ remove).map Prod.fst

theorem without_nil (l : List α) : without l [] = l := by
  have hall : (l.zipIdx.filter fun q => q.2 ∉ ([] : List Nat)) = l.zipIdx := by
    rw [List.filter_eq_self]
    intro q _
    simp
  rw [without, hall, List.zipIdx_map_fst]

theorem filter_zipIdx_map_fst (l : List α) : (l.zipIdx.filter fun q => p q.1).map Prod.fst = l.filter p := by
  conv_rhs => rw [← List.zipIdx_map_fst 0 l, List.filter_map]
  rfl

theorem length_positions (l : List α) : (positions p l).length = (l.filter p).length := by
  rw [← filter_zipIdx_map_fst, positions, List.length_map, List.length_map]

theorem nodup_snd_zipIdx (l : List α) : (l.zipIdx.map Prod.snd).Nodup := by
  rw [List.zipIdx_map_snd]
  exact List.nodup_range'

theorem filter_not_mem_take {l : List (α × Nat)} (h : (l.map Prod.snd).Nodup) (k : Nat) :
    l.filter (fun q => q.2 ∉ (l.map Prod.snd).take k) = l.drop k := by
  have hsplit : l.map Prod.snd = (l.take k).map Prod.snd ++ (l.drop k).map Prod.snd := by
    rw [← List.map_append, List.take_append_drop]
  rw [hsplit, List.nodup_append] at h
  conv_lhs => rw [← List.take_append_drop k l, List.filter_append]
  rw [List.take_append_drop, ← List.map_take]
  have htake : ((l.take k).filter fun q => q.2 ∉ (l.take k).map Prod.snd) = [] := by
    rw [List.filter_eq_nil_iff]
    intro q hq
    rw [decide_eq_true_eq, not_not]
    exact List.mem_map_of_mem hq
  have hdrop : ((l.drop k).filter fun q => q.2 ∉ (l.take k).map Prod.snd) = l.drop k := by
    rw [List.filter_eq_self]
    intro q hq
    rw [decide_eq_true_eq]
    exact fun hm => h.2.2 _ hm _ (List.mem_map_of_mem hq) rfl
  rw [htake, hdrop, List.nil_append]

/-- Deleting the first entries with a property leaves the others with it. -/
theorem filter_without (l : List α) (k : Nat) :
    (without l ((positions p l).take k)).filter p = (l.filter p).drop k := by
  have hnodup : ((l.zipIdx.filter fun q => p q.1).map Prod.snd).Nodup :=
    (nodup_snd_zipIdx l).sublist (List.filter_sublist.map Prod.snd)
  rw [without, List.filter_map, List.filter_filter]
  have hcomm : (l.zipIdx.filter fun q => (p ∘ Prod.fst) q && decide (q.2 ∉ (positions p l).take k))
      = (l.zipIdx.filter fun q => p q.1).filter fun q => q.2 ∉ (positions p l).take k := by
    rw [List.filter_filter]
    apply List.filter_congr
    intro q _
    rw [Bool.and_comm]
    rfl
  rw [hcomm, positions, filter_not_mem_take hnodup, List.map_drop, filter_zipIdx_map_fst]

/-- It deletes no entry with a property that excludes the other. -/
theorem filter_without_of_disjoint {r : α → Bool} (h : ∀ a, r a = true → p a = false) (l : List α)
    (k : Nat) : (without l ((positions p l).take k)).filter r = l.filter r := by
  rw [without, List.filter_map, List.filter_filter, ← filter_zipIdx_map_fst r]
  congr 1
  apply List.filter_congr
  intro q hq
  cases hr : r q.1 with
  | false => simp [hr]
  | true =>
    rw [Function.comp_apply, hr, Bool.true_and, decide_eq_true_eq]
    intro hm
    obtain ⟨q', hq', heq⟩ := List.mem_map.mp (List.mem_of_mem_take hm)
    obtain ⟨hmem, hp⟩ := List.mem_filter.mp hq'
    have hsame : q' = q := List.inj_on_of_nodup_map (nodup_snd_zipIdx l) hmem hq heq
    rw [hsame, h _ hr] at hp
    cases hp

end Positions

end Polymind.Slices
