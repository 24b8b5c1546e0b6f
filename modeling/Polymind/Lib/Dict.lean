import Mathlib.Data.List.Nodup

/-!
# Dictionaries in insertion order

A Python `dict` as the list of its items in insertion order.  `set` overwrites in place or appends,
`ofList` is a dict comprehension, in which a later item with the same key overwrites an earlier
one; `ofList_eq_self` says that nothing is overwritten when the keys are distinct, and
`Settled.set_self` that overwriting a value by itself changes nothing.
-/

namespace Polymind

universe u v

/-- A dictionary: its items in insertion order. -/
abbrev Dict (K : Type u) (V : Type v) := List (K × V)

namespace Dict

variable {K : Type u} {V : Type v} [DecidableEq K]

/-- `d.get(k)`. -/
def get? (d : Dict K V) (k : K) : Option V := (d.find? fun p => p.1 = k).map Prod.snd

/-- `k in d`. -/
def has (d : Dict K V) (k : K) : Bool := d.any fun p => p.1 = k

/-- `d[k] = v`. -/
def set (d : Dict K V) (k : K) (v : V) : Dict K V :=
  if d.has k then d.map fun p => if p.1 = k then (k, v) else p else d ++ [(k, v)]

/-- `{k: v for k, v in items}`. -/
def ofList (items : List (K × V)) : Dict K V := items.foldl (fun d p => d.set p.1 p.2) []

theorem has_iff {d : Dict K V} {k : K} : d.has k = true ↔ k ∈ d.map Prod.fst := by
  simp [has]

theorem get?_nil (k : K) : get? ([] : Dict K V) k = none := rfl

theorem get?_cons (p : K × V) (d : Dict K V) (k : K) :
    get? (p :: d) k = if p.1 = k then some p.2 else get? d k := by
  unfold get?
  rw [List.find?_cons]
  by_cases h : p.1 = k <;> simp [h]

theorem get?_append_singleton (d : Dict K V) (k k' : K) (v : V) :
    get? (d ++ [(k, v)]) k' = (get? d k').or (if k = k' then some v else none) := by
  induction d with
  | nil => simp [get?_cons, get?_nil]
  | cons p d ih =>
    rw [List.cons_append, get?_cons, get?_cons, ih]
    split <;> rfl

theorem get?_eq_none {d : Dict K V} {k : K} : d.get? k = none ↔ k ∉ d.map Prod.fst := by
  induction d with
  | nil => simp [get?_nil]
  | cons p d ih =>
    rw [get?_cons, List.map_cons, List.mem_cons, not_or, ← ih]
    by_cases h : p.1 = k
    · simp [h]
    · have h' : k ≠ p.1 := fun he => h he.symm
      simp [h, h']

/-- Overwriting the items with key `k`. -/
theorem get?_overwrite (d : Dict K V) (k k' : K) (v : V) :
    get? (d.map fun p => if p.1 = k then (k, v) else p) k'
      = if k' = k then (get? d k).map fun _ => v else get? d k' := by
  induction d with
  | nil => simp [get?_nil]
  | cons p d ih =>
    rw [List.map_cons, get?_cons, get?_cons, get?_cons, ih]
    by_cases hp : p.1 = k
    · rw [if_pos hp]
      by_cases hk : k' = k
      · rw [if_pos hk.symm, if_pos hk, if_pos hp]
        rfl
      · have hpk : p.1 ≠ k' := fun he => hk (he.symm.trans hp)
        rw [if_neg fun he => hk he.symm, if_neg hk, if_neg hk, if_neg hpk]
    · rw [if_neg hp, if_neg hp]
      by_cases hk : k' = k
      · have hpk : p.1 ≠ k' := fun he => hp (he.trans hk)
        rw [if_neg hpk, if_pos hk, if_pos hk]
      · rw [if_neg hk, if_neg hk]

theorem get?_set (d : Dict K V) (k k' : K) (v : V) :
    (d.set k v).get? k' = if k' = k then some v else d.get? k' := by
  unfold set
  split
  · rename_i h
    rw [get?_overwrite]
    split
    · -- the key was there
      cases hk : get? d k with
      | none => exact absurd (has_iff.mp h) (get?_eq_none.mp hk)
      | some w => rfl
    · rfl
  · rename_i h
    have hnone : get? d k = none := get?_eq_none.mpr fun hm => h (has_iff.mpr hm)
    rw [get?_append_singleton]
    by_cases hk : k' = k
    · rw [if_pos hk, if_pos hk.symm, hk, hnone]
      rfl
    · rw [if_neg hk, if_neg fun he => hk he.symm, Option.or_none]

/-- The keys stay distinct. -/
theorem nodup_set {d : Dict K V} (h : (d.map Prod.fst).Nodup) (k : K) (v : V) :
    ((d.set k v).map Prod.fst).Nodup := by
  unfold set
  split
  · -- an item is replaced by one with its key
    rw [List.map_map, show Prod.fst ∘ (fun p : K × V => if p.1 = k then (k, v) else p) = Prod.fst from ?_]
    · exact h
    · funext p
      show Prod.fst (if p.1 = k then (k, v) else p) = p.1
      split_ifs with hp
      · exact hp.symm
      · rfl
  · rename_i hnew
    rw [List.map_append, List.map_singleton, List.nodup_append]
    refine ⟨h, List.nodup_singleton _, ?_⟩
    rintro a ha b hb rfl
    rw [List.mem_singleton.mp hb] at ha
    exact hnew (has_iff.mpr ha)

theorem set_of_not_mem {d : Dict K V} {k : K} (h : k ∉ d.map Prod.fst) (v : V) :
    d.set k v = d ++ [(k, v)] := by
  unfold set
  rw [if_neg]
  exact fun hh => h (has_iff.mp hh)

/-- Without a key. -/
theorem get?_filter_ne (d : Dict K V) (k k' : K) :
    get? (d.filter fun p => p.1 ≠ k) k' = if k = k' then none else get? d k' := by
  induction d with
  | nil => simp [get?_nil]
  | cons p d ih =>
    rw [List.filter_cons, get?_cons]
    by_cases hp : p.1 = k
    · rw [if_neg (by simpa using hp), ih, hp]
      split <;> rfl
    · rw [if_pos (by simpa using hp), get?_cons, ih]
      by_cases hk : p.1 = k'
      · rw [if_pos hk, if_pos hk, if_neg fun he => hp (hk.trans he.symm)]
      · rw [if_neg hk, if_neg hk]

/-- A comprehension over distinct keys is the list of its items. -/
theorem ofList_eq_self {items : List (K × V)} (h : (items.map Prod.fst).Nodup) :
    ofList items = items := by
  have hgen : ∀ (items done : List (K × V)), ((done ++ items).map Prod.fst).Nodup →
      items.foldl (fun d p => set d p.1 p.2) done = done ++ items := by
    intro items
    induction items with
    | nil => simp
    | cons p items ih =>
      intro done hnd
      have hp : p.1 ∉ done.map Prod.fst := by
        rw [List.map_append, List.nodup_append] at hnd
        intro hm
        exact hnd.2.2 _ hm _ (by simp) rfl
      rw [List.foldl_cons, set_of_not_mem hp]
      rw [ih (done ++ [(p.1, p.2)]) (by simpa using hnd)]
      simp
  simpa [ofList] using hgen items [] (by simpa using h)

theorem nodup_ofList (items : List (K × V)) : ((ofList items).map Prod.fst).Nodup := by
  have hgen : ∀ (items : List (K × V)) (d : Dict K V), (d.map Prod.fst).Nodup →
      ((items.foldl (fun d p => d.set p.1 p.2) d).map Prod.fst).Nodup := by
    intro items
    induction items with
    | nil => exact fun d hd => hd
    | cons p items ih => exact fun d hd => ih _ (nodup_set hd p.1 p.2)
  exact hgen items [] List.nodup_nil

/-- What is looked up in a comprehension is one of its items. -/
theorem mem_of_get?_ofList {items : List (K × V)} {k : K} {v : V}
    (h : (ofList items).get? k = some v) : (k, v) ∈ items := by
  have hgen : ∀ (items : List (K × V)) (d : Dict K V),
      (items.foldl (fun d p => set d p.1 p.2) d).get? k = some v →
        (k, v) ∈ items ∨ d.get? k = some v := by
    intro items
    induction items with
    | nil => exact fun d h => .inr h
    | cons p items ih =>
      intro d h
      rcases ih _ h with hm | hd
      · exact .inl (List.mem_cons_of_mem _ hm)
      · rw [get?_set] at hd
        split at hd
        · rename_i hk
          rw [hk, ← Option.some.inj hd]
          exact .inl (List.mem_cons_self ..)
        · exact .inr hd
  rcases hgen items [] h with hm | hd
  · exact hm
  · cases hd

/-- The keys of a comprehension are found. -/
theorem get?_ofList_of_mem {items : List (K × V)} {k : K} (h : k ∈ items.map Prod.fst) :
    ∃ v, (ofList items).get? k = some v := by
  have hgen : ∀ (items : List (K × V)) (d : Dict K V), k ∈ items.map Prod.fst ∨ (∃ v, d.get? k = some v) →
      ∃ v, (items.foldl (fun d p => set d p.1 p.2) d).get? k = some v := by
    intro items
    induction items with
    | nil =>
      rintro d (hk | hd)
      · cases hk
      · exact hd
    | cons p items ih =>
      intro d hk
      rw [List.foldl_cons]
      apply ih
      rw [List.map_cons, List.mem_cons] at hk
      by_cases hp : k = p.1
      · exact .inr ⟨p.2, by rw [get?_set, if_pos hp]⟩
      · rcases hk with (rfl | hm) | ⟨v, hv⟩
        · exact absurd rfl hp
        · exact .inl hm
        · exact .inr ⟨v, by rw [get?_set, if_neg hp, hv]⟩
  exact hgen items [] (.inl h)

theorem mem_of_get? {d : Dict K V} {k : K} {v : V} (h : d.get? k = some v) : (k, v) ∈ d := by
  induction d with
  | nil => cases h
  | cons p d ih =>
    rw [get?_cons] at h
    split at h
    · rename_i hp
      rw [← hp, ← Option.some.inj h]
      exact List.mem_cons_self ..
    · exact List.mem_cons_of_mem _ (ih h)

/-- Looking up a key of a dictionary with distinct keys. -/
theorem get?_of_mem {d : Dict K V} (h : (d.map Prod.fst).Nodup) {k : K} {v : V} (hm : (k, v) ∈ d) :
    d.get? k = some v := by
  cases hk : d.get? k with
  | none => exact absurd (List.mem_map_of_mem hm) (get?_eq_none.mp hk)
  | some w =>
    have := List.inj_on_of_nodup_map h (mem_of_get? hk) hm rfl
    rw [(Prod.mk.inj this).2]

/-- A value computed for each of some keys is found under each of them. -/
theorem get?_map_of_mem (f : K → V) {keys : List K} {k : K} (hk : k ∈ keys) :
    get? (keys.map fun k => (k, f k)) k = some (f k) := by
  induction keys with
  | nil => cases hk
  | cons x keys ih =>
    rw [List.map_cons, get?_cons]
    by_cases hx : x = k
    · rw [if_pos hx, hx]
    · rw [if_neg hx]
      exact ih ((List.mem_cons.mp hk).resolve_left (Ne.symm hx))

/-- Keeping the items of some keys. -/
theorem get?_filter_key (q : K → Bool) (d : Dict K V) (k : K) :
    get? (d.filter fun p => q p.1) k = if q k = true then get? d k else none := by
  induction d with
  | nil => simp [get?_nil]
  | cons p d ih =>
    rw [List.filter_cons, get?_cons]
    by_cases hp : p.1 = k
    · rw [if_pos hp, hp]
      by_cases hk : q k = true
      · rw [if_pos hk, if_pos hk, get?_cons, if_pos hp]
      · rw [if_neg hk, ih, if_neg hk, if_neg hk]
    · rw [if_neg hp]
      by_cases hq : q p.1 = true
      · rw [if_pos hq, get?_cons, if_neg hp, ih]
      · rw [if_neg hq, ih]

/-- Dictionaries with the same keys in the same order, and related values, are looked up alike. -/
theorem get?_rel {W : Type v} {R : V → W → Prop} {d : Dict K V} {e : Dict K W}
    (h : List.Forall₂ (fun p q => p.1 = q.1 ∧ R p.2 q.2) d e) (k : K) :
    Option.Rel R (d.get? k) (e.get? k) := by
  induction h with
  | nil => exact .none
  | cons hpq _ ih =>
    obtain ⟨hkey, hvalue⟩ := hpq
    rw [get?_cons, get?_cons, ← hkey]
    split
    · exact .some hvalue
    · exact ih

/-! ### Overwriting a value by itself -/

/-- Every item with key `k` is the one that is found. -/
def Settled (d : Dict K V) (k : K) : Prop := ∀ v, (k, v) ∈ d → d.get? k = some v

theorem Settled.of_get?_eq_none {d : Dict K V} {k : K} (h : d.get? k = none) : d.Settled k := by
  intro v hmem
  exact absurd (List.mem_map_of_mem hmem) (get?_eq_none.mp h)

theorem mem_set {d : Dict K V} {k : K} {v : V} {p : K × V} (h : p ∈ d.set k v) :
    p = (k, v) ∨ p.1 ≠ k ∧ p ∈ d := by
  unfold set at h
  split at h
  · obtain ⟨q, hq, rfl⟩ := List.mem_map.mp h
    split
    · exact .inl rfl
    · rename_i hne
      exact .inr ⟨hne, hq⟩
  · rename_i hnew
    rcases List.mem_append.mp h with hmem | hmem
    · refine .inr ⟨?_, hmem⟩
      rintro rfl
      exact hnew (has_iff.mpr (List.mem_map_of_mem hmem))
    · exact .inl (List.mem_singleton.mp hmem)

theorem settled_set (d : Dict K V) (k : K) (v : V) : (d.set k v).Settled k := by
  intro w hmem
  rw [get?_set, if_pos rfl]
  rcases mem_set hmem with heq | ⟨hne, -⟩
  · rw [(Prod.mk.inj heq).2]
  · exact absurd rfl hne

theorem Settled.set {d : Dict K V} {k : K} (h : d.Settled k) (k' : K) (v : V) :
    (d.set k' v).Settled k := by
  by_cases hk : k = k'
  · subst hk
    exact settled_set d k v
  · intro w hmem
    rw [get?_set, if_neg hk]
    rcases mem_set hmem with heq | ⟨-, hmem⟩
    · exact absurd (Prod.mk.inj heq).1 hk
    · exact h w hmem

/-- Overwriting a value by itself changes nothing. -/
theorem Settled.set_self {d : Dict K V} {k : K} (h : d.Settled k) {v : V} (hv : d.get? k = some v) :
    d.set k v = d := by
  have hmem : k ∈ d.map Prod.fst := List.mem_map_of_mem (mem_of_get? hv)
  rw [Dict.set, if_pos (has_iff.mpr hmem)]
  refine (List.map_congr_left fun p hp => ?_).trans (List.map_id d)
  split
  · rename_i hkey
    have hp' : (k, p.2) ∈ d := hkey ▸ hp
    rw [← Option.some.inj ((h p.2 hp').symm.trans hv), ← hkey]
    rfl
  · rfl

end Dict

end Polymind
