import Polymind.Lib.Table
import Mathlib.Algebra.Order.BigOperators.Group.List
import Mathlib.Algebra.Order.Group.Defs
import Mathlib.Tactic.Abel

/-!
# Loads of a table

The load of a table is the sum of a weight over the rows of a class.  A limit on a load is kept by
admitting a row only when the load with it is within the limit, and by updates that raise no row's
part of the load.

* `load_append`, `load_update_le`: what an insertion and an update do to a load;
* `Windowed`, `windowed_append`: a limit on the load of every window `(t - width, t]` is kept by
  admitting a row only when the load of the window that ends with it is within the limit.
-/

namespace Polymind

universe u v w

variable {R : Type u} {M : Type v}

/-- The sum of a weight over the rows of a class. -/
def load [AddCommMonoid M] (weight : R → M) (among : R → Bool) (rows : List R) : M :=
  ((rows.filter among).map weight).sum

section monoid

variable [AddCommMonoid M] {weight : R → M} {among : R → Bool} {rows rows' : List R} {row : R}

@[simp] theorem load_nil : load weight among [] = 0 := rfl

theorem load_append : load weight among (rows ++ rows')
    = load weight among rows + load weight among rows' := by
  unfold load
  rw [List.filter_append, List.map_append, List.sum_append]

/-- A load row by row. -/
theorem load_eq_sum :
    load weight among rows = (rows.map fun row => if among row then weight row else 0).sum := by
  induction rows with
  | nil => rfl
  | cons row rows ih =>
    unfold load at ih ⊢
    rw [List.map_cons, List.sum_cons, ← ih, List.filter_cons]
    by_cases h : among row = true
    · rw [if_pos h, if_pos h, List.map_cons, List.sum_cons]
    · rw [if_neg h, if_neg h, zero_add]

theorem load_singleton : load weight among [row] = if among row then weight row else 0 := by
  rw [load_eq_sum, List.map_singleton, List.sum_singleton]

/-- An insertion. -/
theorem load_insert : load weight among (rows ++ [row])
    = load weight among rows + if among row then weight row else 0 := by
  rw [load_append, load_singleton]

end monoid

theorem filter_filter_and (p q : R → Bool) (rows : List R) :
    (rows.filter p).filter q = rows.filter fun row => p row && q row := by
  rw [List.filter_filter]
  exact List.filter_congr fun row _ => Bool.and_comm ..

theorem length_filter_eq_load (among : R → Bool) (rows : List R) :
    (rows.filter among).length = load (fun _ => 1) among rows := by
  simp [load]

section ordered

variable [AddCommMonoid M] [PartialOrder M] [IsOrderedAddMonoid M] {weight weight' : R → M}
  {among among' : R → Bool} {rows : List R}

/-- A load is at most another if each row's part is. -/
theorem load_le_load (h : ∀ row ∈ rows, (if among row then weight row else 0)
    ≤ if among' row then weight' row else 0) :
    load weight among rows ≤ load weight' among' rows := by
  rw [load_eq_sum, load_eq_sum]
  exact List.sum_le_sum h

/-- A smaller class has a smaller load. -/
theorem load_mono (hsub : ∀ row ∈ rows, among row = true → among' row = true)
    (hnonneg : ∀ row ∈ rows, 0 ≤ weight row) :
    load weight among rows ≤ load weight among' rows := by
  apply load_le_load
  intro row hrow
  by_cases h : among row = true
  · rw [if_pos h, if_pos (hsub row hrow h)]
  · rw [if_neg h]
    split
    · exact hnonneg row hrow
    · exact le_refl 0

/-- An update that raises no row's part of a load does not raise the load. -/
theorem load_update_le {cond : R → Bool} {set : R → R}
    (h : ∀ row ∈ rows, cond row = true →
      (if among (set row) then weight (set row) else 0) ≤ if among row then weight row else 0) :
    load weight among (Table.update cond set rows) ≤ load weight among rows := by
  rw [load_eq_sum, load_eq_sum]
  unfold Table.update
  rw [List.map_map]
  apply List.sum_le_sum
  intro row hrow
  by_cases hc : cond row = true
  · simpa only [Function.comp_apply, hc, if_true] using h row hrow hc
  · simp [hc]

end ordered

/-! ### Sliding windows -/

section windows

variable {T : Type w} [AddCommGroup T] [LinearOrder T] [IsOrderedAddMonoid T]

/-- The row lies in the window `(t - width, t]`. -/
def within (time : R → T) (width t : T) (row : R) : Bool :=
  decide (t - width < time row) && decide (time row ≤ t)

variable [AddCommMonoid M] [PartialOrder M] [IsOrderedAddMonoid M]

/-- Every window carries at most the limit. -/
def Windowed (weight : R → M) (among : R → Bool) (time : R → T) (width : T) (limit : M)
    (rows : List R) : Prop :=
  ∀ t, load weight (fun row => within time width t row && among row) rows ≤ limit

variable {weight : R → M} {among : R → Bool} {time : R → T} {width : T} {limit : M}
  {rows : List R} {row : R}

/-- A row is admitted if it is outside the class, or if the rows of the class that are younger than a
window leave room for it. -/
theorem windowed_append (h : Windowed weight among time width limit rows)
    (hnonneg : ∀ r ∈ rows, 0 ≤ weight r)
    (hroom : among row = true →
      load weight (fun r => decide (time row - width < time r) && among r) rows + weight row ≤ limit) :
    Windowed weight among time width limit (rows ++ [row]) := by
  intro t
  rw [load_insert]
  by_cases hin : (within time width t row && among row) = true
  · rw [if_pos hin]
    simp only [within, Bool.and_eq_true, decide_eq_true_eq] at hin
    obtain ⟨⟨-, hle⟩, hamong⟩ := hin
    refine le_trans (add_le_add_left ?_ (weight row)) (hroom hamong)
    apply load_mono _ hnonneg
    intro r hr hwithin
    simp only [within, Bool.and_eq_true, decide_eq_true_eq] at hwithin ⊢
    exact ⟨lt_of_le_of_lt (sub_le_sub_right hle width) hwithin.1.1, hwithin.2⟩
  · rw [if_neg hin, add_zero]
    exact h t

end windows

end Polymind
