import Mathlib.Data.List.Nodup

/-!
# Tables

A table is the list of its rows, a key is a function of a row.  `lookup` is a `SELECT` by key,
`update` an `UPDATE` of the rows that satisfy a condition.

* `lookup_eq_some_iff`: in a table with distinct keys, a lookup finds the row with the key;
* `mem_update`, `map_update`, `lookup_update`: what an update does to rows, keys and lookups;
* `exists_update`: a row with a property is still there, or the row it became.
-/

namespace Polymind.Table

universe u v

variable {R : Type u} {K : Type v} [DecidableEq K]

/-- `SELECT * FROM rows WHERE key = k`. -/
def lookup (key : R → K) (rows : List R) (k : K) : Option R := rows.find? fun row => key row = k

/-- `UPDATE rows SET ... WHERE cond`. -/
def update (cond : R → Bool) (set : R → R) (rows : List R) : List R :=
  rows.map fun row => if cond row then set row else row

variable {key : R → K} {rows : List R} {row : R} {k : K}

theorem lookup_mem (h : lookup key rows k = some row) : row ∈ rows ∧ key row = k := by
  constructor
  · exact List.mem_of_find?_eq_some h
  · simpa using List.find?_some h

theorem lookup_eq_none : lookup key rows k = none ↔ ∀ row ∈ rows, key row ≠ k := by
  simp [lookup, List.find?_eq_none]

/-- A lookup finds the only row with the key. -/
theorem lookup_eq_some_iff (hnd : (rows.map key).Nodup) :
    lookup key rows k = some row ↔ row ∈ rows ∧ key row = k := by
  refine ⟨lookup_mem, ?_⟩
  rintro ⟨hrow, rfl⟩
  cases h : lookup key rows (key row) with
  | none => exact absurd rfl (lookup_eq_none.mp h row hrow)
  | some found =>
    obtain ⟨hfound, hkey⟩ := lookup_mem h
    rw [List.inj_on_of_nodup_map hnd hfound hrow hkey]

/-- Two tables that have the rows with a key in common. -/
theorem lookup_congr {rows' : List R} (hnd : (rows.map key).Nodup) (hnd' : (rows'.map key).Nodup)
    (h : ∀ row, key row = k → (row ∈ rows ↔ row ∈ rows')) : lookup key rows k = lookup key rows' k := by
  ext row
  rw [lookup_eq_some_iff hnd, lookup_eq_some_iff hnd']
  constructor
  · rintro ⟨hrow, hkey⟩
    exact ⟨(h row hkey).mp hrow, hkey⟩
  · rintro ⟨hrow, hkey⟩
    exact ⟨(h row hkey).mpr hrow, hkey⟩

/-- Two tables that have the rows of a kind in common: a lookup that is after rows of the kind. -/
theorem filter_lookup_congr {rows' : List R} {p : R → Bool} (hnd : (rows.map key).Nodup)
    (hnd' : (rows'.map key).Nodup) (h : ∀ row, p row = true → (row ∈ rows ↔ row ∈ rows')) :
    (lookup key rows k).filter p = (lookup key rows' k).filter p := by
  ext row
  rw [Option.filter_eq_some_iff, Option.filter_eq_some_iff, lookup_eq_some_iff hnd,
    lookup_eq_some_iff hnd']
  constructor
  · rintro ⟨⟨hrow, hkey⟩, hp⟩
    exact ⟨⟨(h row hp).mp hrow, hkey⟩, hp⟩
  · rintro ⟨⟨hrow, hkey⟩, hp⟩
    exact ⟨⟨(h row hp).mpr hrow, hkey⟩, hp⟩

omit [DecidableEq K] in
/-- Two rows with one key are one row. -/
theorem eq_of_key (hnd : (rows.map key).Nodup) {row' : R} (h : row ∈ rows) (h' : row' ∈ rows)
    (hkey : key row = key row') : row = row' :=
  List.inj_on_of_nodup_map hnd h h' hkey

omit [DecidableEq K] in
/-- Inserting a row with a new key. -/
theorem nodup_insert (hnd : (rows.map key).Nodup) (hnew : ∀ r ∈ rows, key r ≠ key row) :
    ((rows ++ [row]).map key).Nodup := by
  rw [List.map_append, List.nodup_append]
  refine ⟨hnd, List.nodup_singleton _, ?_⟩
  rintro a ha b hb rfl
  obtain ⟨r, hr, rfl⟩ := List.mem_map.mp ha
  exact hnew r hr (List.mem_singleton.mp hb)

section update

variable {cond : R → Bool} {set : R → R}

theorem mem_update {row' : R} :
    row' ∈ update cond set rows ↔
      (∃ row ∈ rows, cond row = true ∧ row' = set row) ∨ row' ∈ rows ∧ cond row' = false := by
  unfold update
  rw [List.mem_map]
  constructor
  · rintro ⟨row, hrow, rfl⟩
    by_cases hc : cond row = true
    · rw [if_pos hc]
      exact Or.inl ⟨row, hrow, hc, rfl⟩
    · rw [if_neg hc]
      exact Or.inr ⟨hrow, by simpa using hc⟩
  · rintro (⟨row, hrow, hc, rfl⟩ | ⟨hrow, hc⟩)
    · exact ⟨row, hrow, if_pos hc⟩
    · exact ⟨row', hrow, by simp [hc]⟩

/-- A function of the rows that the update leaves alone. -/
theorem map_update {α : Type*} {f : R → α} (h : ∀ row, cond row = true → f (set row) = f row) :
    (update cond set rows).map f = rows.map f := by
  unfold update
  rw [List.map_map]
  refine List.map_congr_left fun row _ => ?_
  by_cases hc : cond row = true
  · simp [hc, h row hc]
  · simp [hc]

omit [DecidableEq K] in
/-- Keys stay distinct. -/
theorem nodup_update (h : ∀ row, cond row = true → key (set row) = key row)
    (hnd : (rows.map key).Nodup) : ((update cond set rows).map key).Nodup := by
  rw [map_update h]
  exact hnd

/-- A lookup after an update that keeps keys. -/
theorem lookup_update (h : ∀ row, cond row = true → key (set row) = key row) :
    lookup key (update cond set rows) k
      = (lookup key rows k).map fun row => if cond row then set row else row := by
  unfold lookup update
  rw [List.find?_map]
  congr 1
  refine congrArg (List.find? · rows) (funext fun row => ?_)
  by_cases hc : cond row = true
  · simp [hc, h row hc]
  · simp [hc]

omit [DecidableEq K] in
/-- A row stays a row with the property, or the row it became has it. -/
theorem exists_update {P Q : R → Prop} (hset : ∀ row, cond row = true → P row → Q (set row))
    (hkeep : ∀ row, P row → Q row) (h : ∃ row ∈ rows, P row) : ∃ row ∈ update cond set rows, Q row := by
  obtain ⟨row, hrow, hp⟩ := h
  by_cases hc : cond row = true
  · exact ⟨set row, mem_update.mpr (Or.inl ⟨row, hrow, hc, rfl⟩), hset row hc hp⟩
  · exact ⟨row, mem_update.mpr (Or.inr ⟨hrow, by simpa using hc⟩), hkeep row hp⟩

omit [DecidableEq K] in
/-- The rows that a selection takes, after an update of other rows. -/
theorem filter_update {p : R → Bool} (h : ∀ row, cond row = true → p row = false ∧ p (set row) = false) :
    (update cond set rows).filter p = rows.filter p := by
  unfold update
  induction rows with
  | nil => rfl
  | cons row rows ih =>
    rw [List.map_cons, List.filter_cons, List.filter_cons, ih]
    by_cases hc : cond row = true
    · simp [hc, h row hc]
    · rw [if_neg hc]

omit [DecidableEq K] in
/-- Rows that an update neither takes nor makes. -/
theorem mem_update_of_not {P : R → Prop}
    (h : ∀ row ∈ rows, cond row = true → ¬P row ∧ ¬P (set row)) {row : R} (hrow : P row) :
    row ∈ update cond set rows ↔ row ∈ rows := by
  rw [mem_update]
  constructor
  · rintro (⟨r, hr, hc, rfl⟩ | ⟨hr, -⟩)
    · exact absurd hrow (h r hr hc).2
    · exact hr
  · intro hr
    by_cases hc : cond row = true
    · exact absurd hrow (h row hr hc).1
    · exact Or.inr ⟨hr, by simpa using hc⟩

omit [DecidableEq K] in
/-- Two tables that have the rows of a kind in common, up to an involution of rows, still have after an
update that commutes with it. -/
theorem mem_update_iff {rows' : List R} {f : R → R} {P : R → Prop} (hf : ∀ row, f (f row) = row)
    (hcond : ∀ row, cond (f row) = cond row) (hset : ∀ row, set (f row) = f (set row))
    (hP : ∀ row, P (set row) ↔ P row) (h : ∀ row, P row → (row ∈ rows ↔ f row ∈ rows')) {row : R}
    (hrow : P row) : row ∈ update cond set rows ↔ f row ∈ update cond set rows' := by
  rw [mem_update, mem_update, hcond]
  constructor
  · rintro (⟨r, hr, hc, rfl⟩ | ⟨hr, hc⟩)
    · exact Or.inl ⟨f r, (h r ((hP r).mp hrow)).mp hr, (hcond r).trans hc, (hset r).symm⟩
    · exact Or.inr ⟨(h row hrow).mp hr, hc⟩
  · rintro (⟨r, hr, hc, heq⟩ | ⟨hr, hc⟩)
    · -- the row in the first table is the image of the one in the second
      have hrow' : row = set (f r) := by rw [hset, ← heq, hf]
      refine Or.inl ⟨f r, ?_, (hcond r).trans hc, hrow'⟩
      rw [h (f r) ((hP _).mp (hrow' ▸ hrow)), hf]
      exact hr
    · exact Or.inr ⟨(h row hrow).mpr hr, hc⟩

end update

end Polymind.Table
